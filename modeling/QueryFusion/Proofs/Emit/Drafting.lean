import QueryFusion.Emit.Routine
import QueryFusion.Proofs.Emit.LocalTable

/-!
# Running drafts

What an action does to a routine under construction, told by how it ends: with a result, or with an
error after which what was written so far stays. A declaration succeeds when the name is free, and
adds the local, the modules of its type and one line.
-/

namespace QueryFusion.Emit

variable {α β : Type} {draft : RoutineDraft}

/-- What follows an action that ends well. -/
theorem runOn_bind_ok {action : Drafting α} {result : α} {changed : RoutineDraft}
    (done : action.runOn draft = (.ok result, changed)) (next : α → Drafting β) :
    (action >>= next).runOn draft = (next result).runOn changed := by
  have done : StateT.run (ExceptT.run action) draft = (.ok result, changed) := done
  simp only [Drafting.runOn, ExceptT.run_bind, StateT.run_bind, done]
  rfl

/-- Nothing follows an action that ends badly. -/
theorem runOn_bind_error {action : Drafting α} {error : Error} {changed : RoutineDraft}
    (failed : action.runOn draft = (.error error, changed)) (next : α → Drafting β) :
    (action >>= next).runOn draft = (.error error, changed) := by
  have failed : StateT.run (ExceptT.run action) draft = (.error error, changed) := failed
  simp only [Drafting.runOn, ExceptT.run_bind, StateT.run_bind, failed]
  rfl

/-- The action ends well or badly in the ways told. -/
def Drafts (action : Drafting α) (draft : RoutineDraft) (good : α → RoutineDraft → Prop)
    (bad : Error → RoutineDraft → Prop) : Prop :=
  match action.runOn draft with
  | (.ok result, next) => good result next
  | (.error error, next) => bad error next

namespace Drafts

variable {good : α → RoutineDraft → Prop} {bad : Error → RoutineDraft → Prop}

/-- An action that ends well. -/
theorem of_ok {action : Drafting α} {result : α} {next : RoutineDraft}
    (done : action.runOn draft = (.ok result, next)) (fine : good result next) :
    Drafts action draft good bad := by
  unfold Drafts
  rw [done]
  exact fine

/-- An action that ends badly. -/
theorem of_error {action : Drafting α} {error : Error} {next : RoutineDraft}
    (failed : action.runOn draft = (.error error, next)) (poor : bad error next) :
    Drafts action draft good bad := by
  unfold Drafts
  rw [failed]
  exact poor

/-- How an action ends. -/
theorem cases {action : Drafting α} (drafts : Drafts action draft good bad) :
    (∃ result next, action.runOn draft = (.ok result, next) ∧ good result next) ∨
      ∃ error next, action.runOn draft = (.error error, next) ∧ bad error next := by
  unfold Drafts at drafts
  split at drafts
  · rename_i result next done
    exact .inl ⟨result, next, done, drafts⟩
  · rename_i error next failed
    exact .inr ⟨error, next, failed, drafts⟩

/-- Nothing is done. -/
theorem pure {result : α} (fine : good result draft) :
    Drafts (Pure.pure result) draft good bad :=
  of_ok rfl fine

/-- An error. -/
theorem throw {error : Error} (poor : bad error draft) :
    Drafts (MonadExcept.throw error : Drafting α) draft good bad :=
  of_error rfl poor

/-- One action behind another. -/
theorem bind {action : Drafting α} {next : α → Drafting β}
    {between : α → RoutineDraft → Prop} {last : β → RoutineDraft → Prop}
    (first : Drafts action draft between bad)
    (second : ∀ result changed, between result changed → Drafts (next result) changed last bad) :
    Drafts (action >>= next) draft last bad := by
  rcases first.cases with ⟨result, changed, done, fine⟩ | ⟨error, changed, failed, poor⟩
  · unfold Drafts
    rw [runOn_bind_ok done]
    exact second result changed fine
  · exact of_error (runOn_bind_error failed next) poor

/-- Less is told. -/
theorem imp {action : Drafting α} {fine : α → RoutineDraft → Prop}
    {poor : Error → RoutineDraft → Prop} (drafts : Drafts action draft good bad)
    (better : ∀ result next, good result next → fine result next)
    (worse : ∀ error next, bad error next → poor error next) : Drafts action draft fine poor := by
  rcases drafts.cases with ⟨result, next, done, holds⟩ | ⟨error, next, failed, holds⟩
  · exact of_ok done (better result next holds)
  · exact of_error failed (worse error next holds)

/-- What two accounts tell of an action holds together. -/
theorem and {action : Drafting α} {fine : α → RoutineDraft → Prop}
    {poor : Error → RoutineDraft → Prop} (first : Drafts action draft good bad)
    (second : Drafts action draft fine poor) :
    Drafts action draft (fun result next => good result next ∧ fine result next)
      fun error next => bad error next ∧ poor error next := by
  rcases first.cases with ⟨result, next, done, holds⟩ | ⟨error, next, failed, holds⟩
  · refine .of_ok done ⟨holds, ?_⟩
    unfold Drafts at second
    rwa [done] at second
  · refine .of_error failed ⟨holds, ?_⟩
    unfold Drafts at second
    rwa [failed] at second

/-- A change of the routine. -/
theorem modify {change : RoutineDraft → RoutineDraft} {good : Unit → RoutineDraft → Prop}
    (fine : good () (change draft)) : Drafts (modify change) draft good bad :=
  of_ok rfl fine

/-- A value that may be missing. -/
theorem liftExcept {outcome : Except Error α}
    (fine : ∀ result, outcome = .ok result → good result draft)
    (poor : ∀ error, outcome = .error error → bad error draft) :
    Drafts (liftExcept outcome : Drafting α) draft good bad := by
  cases outcome with
  | ok result => exact pure (fine result rfl)
  | error error => exact throw (poor error rfl)

end Drafts

/-! ## Declarations -/

/-- The line that declares a local. -/
def declarationText (entry : Local) (value : String) : String :=
  "let " ++ entry.name ++ ": " ++ entry.type.name ++ " = " ++ value ++ ";"

/-- The routine with one more local, declared with its first value. -/
def RoutineDraft.declared (entry : Local) (value : String) (draft : RoutineDraft) : RoutineDraft :=
  { draft.useType entry.type.name with
    table := draft.table.add entry
    commands := draft.commands ++ lineOf (declarationText entry value) }

/-- A new routine has no locals. -/
@[simp] theorem RoutineDraft.locals_start (kind : RoutineKind) (params : List (String × String)) :
    (RoutineDraft.start kind params).locals = [] :=
  rfl

/-- A name is free when no local has it. -/
theorem localOf?_eq_none_iff (draft : RoutineDraft) (name : String) :
    draft.localOf? name = none ↔ ∀ entry ∈ draft.locals, entry.name ≠ name :=
  LocalTable.map_eq_none_iff

/-- The names of the locals differ. -/
theorem RoutineDraft.names_nodup (draft : RoutineDraft) : (draft.locals.map Local.name).Nodup := by
  rw [RoutineDraft.locals, LocalTable.names_toList]
  exact draft.table.inStep.once

/-- A local that is declared is the last one. -/
theorem RoutineDraft.locals_declared {entry : Local} (free : draft.localOf? entry.name = none)
    (value : String) : (draft.declared entry value).locals = draft.locals ++ [entry] :=
  LocalTable.toList_add free

/-- Other names stay as they are. -/
theorem RoutineDraft.localOf?_declared_of_ne {entry : Local} {name : String}
    (other : name ≠ entry.name) (value : String) (draft : RoutineDraft) :
    (draft.declared entry value).localOf? name = draft.localOf? name :=
  LocalTable.map_add_of_ne other draft.table

/-- A local whose name is free is declared. -/
theorem runOn_declare {entry : Local} (free : draft.localOf? entry.name = none) (value : String) :
    (Drafting.declare entry value).runOn draft = (.ok (), draft.declared entry value) := by
  have added : (Drafting.addLocal entry).runOn draft = (.ok (),
      { draft.useType entry.type.name with table := draft.table.add entry }) := by
    show Drafting.runOn (if (draft.localOf? entry.name).isSome then _ else _) draft = _
    rw [if_neg (by simp [free])]
    rfl
  exact runOn_bind_ok added fun _ => Drafting.line (declarationText entry value)

/-! ## Going on with a routine -/

/-- The modules of the types of all locals are imported. -/
def RoutineDraft.Provided (draft : RoutineDraft) : Prop :=
  ∀ entry ∈ draft.locals, ∀ moduleName ∈ Symbol.modulesOfType entry.type.name,
    moduleName ∈ draft.imports

/-- The second routine goes on with the first: it has the same heading and no module less, and what
it imports stays in order. -/
structure Continues (draft next : RoutineDraft) : Prop where
  kind : next.kind = draft.kind
  params : next.params = draft.params
  imports : ∀ moduleName ∈ draft.imports, moduleName ∈ next.imports
  known : (∀ moduleName ∈ draft.imports, moduleName ∈ Symbol.modules) →
    ∀ moduleName ∈ next.imports, moduleName ∈ Symbol.modules
  provided : draft.Provided → next.Provided

namespace Continues

variable {next last : RoutineDraft}

/-- Nothing is added. -/
theorem refl (draft : RoutineDraft) : Continues draft draft :=
  ⟨rfl, rfl, fun _ known => known, fun known => known, fun provided => provided⟩

/-- One continuation after another. -/
theorem trans (first : Continues draft next) (second : Continues next last) :
    Continues draft last where
  kind := second.kind.trans first.kind
  params := second.params.trans first.params
  imports := fun moduleName known => second.imports moduleName (first.imports moduleName known)
  known := fun known => second.known (first.known known)
  provided := fun provided => second.provided (first.provided provided)

/-- More commands. -/
theorem extend (commands : List Command) (draft : RoutineDraft) :
    Continues draft (draft.extend commands) :=
  ⟨rfl, rfl, fun _ known => known, fun known => known, fun provided => provided⟩

/-- The module of a name is a known one. -/
theorem mem_modules_of_moduleOf? {symbol moduleName : String}
    (found : Symbol.moduleOf? symbol = some moduleName) : moduleName ∈ Symbol.modules := by
  obtain ⟨entry, member, rfl⟩ := Option.map_eq_some_iff.1 found
  have listed : ∀ entry ∈ Symbol.provided, entry.1 ∈ Symbol.modules := by decide
  exact listed entry (List.mem_of_find?_eq_some member)

/-- The modules of a type are known ones. -/
theorem mem_modules_of_modulesOfType {typeName moduleName : String}
    (found : moduleName ∈ Symbol.modulesOfType typeName) : moduleName ∈ Symbol.modules := by
  obtain ⟨word, -, named⟩ := List.mem_filterMap.1 found
  exact mem_modules_of_moduleOf? named

/-- More modules. -/
theorem importing {modules : List String}
    (listed : ∀ moduleName ∈ modules, moduleName ∈ Symbol.modules) (draft : RoutineDraft) :
    Continues draft { draft with imports := insertModules modules draft.imports } where
  kind := rfl
  params := rfl
  imports := fun moduleName known => (mem_insertModules moduleName modules _).2 (.inr known)
  known := by
    intro known moduleName member
    rcases (mem_insertModules moduleName modules _).1 member with new | old
    · exact listed moduleName new
    · exact known moduleName old
  provided := fun provided entry member moduleName needed =>
    (mem_insertModules moduleName modules _).2 (.inr (provided entry member moduleName needed))

/-- The module of a name. -/
theorem useSymbol (symbol : String) (draft : RoutineDraft) :
    Continues draft (draft.useSymbol symbol) :=
  importing (fun _ member => mem_modules_of_moduleOf? (Option.mem_toList.1 member)) draft

/-- The modules of a type. -/
theorem useType (typeName : String) (draft : RoutineDraft) :
    Continues draft (draft.useType typeName) :=
  importing (fun _ member => mem_modules_of_modulesOfType member) draft

/-- One more local. -/
theorem declared (entry : Local) (value : String) (draft : RoutineDraft) :
    Continues draft (draft.declared entry value) := by
  obtain ⟨kind, params, imports, known, provided⟩ := useType entry.type.name draft
  refine ⟨kind, params, imports, known, fun before other member moduleName needed => ?_⟩
  rcases LocalTable.mem_toList_add member with old | new
  · exact provided before other old moduleName needed
  · rw [new] at needed
    exact (mem_insertModules _ _ _).2 (.inl needed)

end Continues

end QueryFusion.Emit
