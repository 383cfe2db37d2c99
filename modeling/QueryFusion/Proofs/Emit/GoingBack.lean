import QueryFusion.Proofs.Emit.Drafting

/-!
# Going back to a mark

Emission only ever adds to a routine: commands behind those it has, names behind the order of its
locals with an entry of the map for each, and modules among its modules. A mark counts the commands
and the names and keeps the modules. Going back to it cuts the commands, drains the order and
removes each drained name from the map, which undoes any emission, whether its steps succeed or
fail.
-/

namespace QueryFusion.Emit

variable {draft next last : RoutineDraft}

/-- The second routine is the first one with more behind it; its modules may be others. -/
structure Extends (draft next : RoutineDraft) : Prop where
  kind : next.kind = draft.kind
  params : next.params = draft.params
  commands : draft.commands <+: next.commands
  table : draft.table.Grows next.table

namespace Extends

/-- Nothing is added. -/
theorem refl (draft : RoutineDraft) : Extends draft draft :=
  ⟨rfl, rfl, List.prefix_rfl, .refl _⟩

/-- More is added. -/
theorem trans (first : Extends draft next) (second : Extends next last) : Extends draft last where
  kind := second.kind.trans first.kind
  params := second.params.trans first.params
  commands := first.commands.trans second.commands
  table := first.table.trans second.table

/-- Other modules. -/
theorem importing (imports : List String) (draft : RoutineDraft) :
    Extends draft { draft with imports := imports } :=
  ⟨rfl, rfl, List.prefix_rfl, .refl _⟩

/-- Going back takes away all that was added. -/
theorem rollback_eq (extended : Extends draft next) : next.rollback draft.mark = draft := by
  obtain ⟨kind, params, ⟨commands, written⟩, grown⟩ := extended
  have table : next.table.truncate draft.table.order.length = draft.table := grown.truncate_eq
  cases draft
  cases next
  simp only at kind params written table
  subst kind params written
  simp [RoutineDraft.rollback, RoutineDraft.mark, table]

end Extends

/-- An action that ends well is not followed by what would be done otherwise. -/
theorem runOn_tryCatch_ok {α : Type} {action : Drafting α} {result : α}
    (done : action.runOn draft = (.ok result, next)) (handler : Error → Drafting α) :
    Drafting.runOn (MonadExcept.tryCatch action handler) draft = (.ok result, next) := by
  have done : StateT.run (ExceptT.run action) draft = (.ok result, next) := done
  simp only [Drafting.runOn, ExceptT.run_tryCatch, StateT.run_bind, done]
  rfl

/-- What is done when an action ends badly. -/
theorem runOn_tryCatch_error {α : Type} {action : Drafting α} {error : Error}
    (failed : action.runOn draft = (.error error, next)) (handler : Error → Drafting α) :
    Drafting.runOn (MonadExcept.tryCatch action handler) draft = (handler error).runOn next := by
  have failed : StateT.run (ExceptT.run action) draft = (.error error, next) := failed
  simp only [Drafting.runOn, ExceptT.run_tryCatch, StateT.run_bind, failed]
  rfl

/-! ## Locals -/

/-- The error of a local whose name is taken. -/
def RoutineDraft.takenError (entry : Local) (draft : RoutineDraft) : Error :=
  .internal ("local " ++ entry.name ++ " already declared in " ++ draft.name)

/-- A local is registered unless its name is taken. -/
theorem runOn_addLocal (entry : Local) (draft : RoutineDraft) :
    (Drafting.addLocal entry).runOn draft =
      if (draft.localOf? entry.name).isSome then (.error (draft.takenError entry), draft)
      else (.ok (), { draft.useType entry.type.name with table := draft.table.add entry }) := by
  show Drafting.runOn (if (draft.localOf? entry.name).isSome then _ else _) draft = _
  split <;> rfl

/-- A local whose name is taken is refused. -/
theorem runOn_declare_taken {entry : Local} (taken : (draft.localOf? entry.name).isSome = true)
    (value : String) :
    (Drafting.declare entry value).runOn draft = (.error (draft.takenError entry), draft) := by
  have refused := runOn_addLocal entry draft
  rw [if_pos taken] at refused
  exact runOn_bind_error refused fun _ => Drafting.line (declarationText entry value)

/-! ## Actions that add only -/

/-- Whether it ends well or badly, the action only adds to a routine. -/
def Grows {α : Type} (action : Drafting α) : Prop :=
  ∀ draft, Drafts action draft (fun _ next => Extends draft next) fun _ next => Extends draft next

namespace Grows

variable {α β : Type}

/-- The routine afterwards goes on with the one before. -/
theorem extends_runOn {action : Drafting α} (grows : Grows action) (draft : RoutineDraft) :
    Extends draft (action.runOn draft).2 := by
  rcases (grows draft).cases with ⟨_, _, done, grown⟩ | ⟨_, _, failed, grown⟩
  · rw [done]
    exact grown
  · rw [failed]
    exact grown

/-- Nothing is done. -/
theorem pure (result : α) : Grows (Pure.pure result) :=
  fun draft => .pure (.refl draft)

/-- An error. -/
theorem throw (error : Error) : Grows (MonadExcept.throw error : Drafting α) :=
  fun draft => .throw (.refl draft)

/-- A value that may be missing. -/
theorem liftExcept (outcome : Except Error α) : Grows (liftExcept outcome : Drafting α) :=
  fun draft => .liftExcept (fun _ _ => .refl draft) fun _ _ => .refl draft

/-- One action behind another. -/
theorem bind {action : Drafting α} {next : α → Drafting β} (first : Grows action)
    (second : ∀ result, Grows (next result)) : Grows (action >>= next) := by
  intro draft
  refine (first draft).bind fun result changed grown => ?_
  exact (second result changed).imp (fun _ _ more => grown.trans more) fun _ _ more =>
    grown.trans more

/-- Commands are added. -/
theorem emit (commands : List Command) : Grows (Drafting.emit commands) :=
  fun _ => .modify ⟨rfl, rfl, List.prefix_append _ _, .refl _⟩

/-- Modules are added. -/
theorem importing (imports : RoutineDraft → List String) :
    Grows (modify fun draft => { draft with imports := imports draft }) :=
  fun draft => .modify (.importing _ draft)

/-- A local is added, unless its name is taken. -/
theorem addLocal (entry : Local) : Grows (Drafting.addLocal entry) := by
  intro draft
  have run := runOn_addLocal entry draft
  split at run
  · exact .of_error run (.refl draft)
  · exact .of_ok run ⟨rfl, rfl, List.prefix_rfl, .add entry _⟩

/-- A local is declared, unless its name is taken. -/
theorem declare (entry : Local) (value : String) : Grows (Drafting.declare entry value) :=
  (addLocal entry).bind fun _ => emit _

end Grows

/-! ## Emission -/

/-- A step of emission. -/
inductive Emission
  /-- Text, line breaks and changes of the indentation. -/
  | write (commands : List Command)
  | addImport (moduleName : String)
  | useSymbol (symbol : String)
  | useType (typeName : String)
  | addLocal (entry : Local)
  | declare (entry : Local) (value : String)

namespace Emission

/-- What a step does. -/
def action : Emission → Drafting Unit
  | write commands => Drafting.emit commands
  | addImport moduleName => modify (RoutineDraft.addImport moduleName)
  | useSymbol symbol => modify (RoutineDraft.useSymbol symbol)
  | useType typeName => modify (RoutineDraft.useType typeName)
  | addLocal entry => Drafting.addLocal entry
  | declare entry value => Drafting.declare entry value

/-- The routine after some steps; a step that fails is followed by the next one. -/
def runAll (steps : List Emission) (draft : RoutineDraft) : RoutineDraft :=
  steps.foldl (fun all step => (step.action.runOn all).2) draft

/-- A step only adds. -/
theorem grows (step : Emission) : Grows step.action := by
  cases step with
  | write commands => exact .emit commands
  | addImport moduleName => exact .importing _
  | useSymbol symbol => exact .importing _
  | useType typeName => exact .importing _
  | addLocal entry => exact .addLocal entry
  | declare entry value => exact .declare entry value

/-- Steps only add. -/
theorem extends_runAll (steps : List Emission) (draft : RoutineDraft) :
    Extends draft (runAll steps draft) := by
  induction steps generalizing draft with
  | nil => exact .refl draft
  | cons step rest further => exact (step.grows.extends_runOn draft).trans (further _)

end Emission

end QueryFusion.Emit
