import QueryFusion.Generate.Inline
import QueryFusion.Proofs.Emit.GoingBack

/-!
# Expressions that are not inlined

Inlining an expression declares locals until it meets a part that it does not support, at any depth.
It gives up then, and the routine goes back to where it was before: what follows is the evaluation
by the engine, as if inlining had not been tried.
-/

namespace QueryFusion.Generate

open Emit

/-! ## Inlining only adds -/

namespace Inlining

/-- The next local is declared, unless its name is taken. -/
theorem declare_grows (inlining : Inlining) (type : LocalType) (value : String) (number : Nat) :
    Grows (inlining.declare type value number) :=
  (Grows.declare _ _).bind fun _ => .pure _

/-- A local is made boolean. -/
theorem toBoolean_grows (inlining : Inlining) (entry : Local) (number : Nat) :
    Grows (inlining.toBoolean entry number) := by
  unfold toBoolean
  split
  · exact .pure _
  · split
    · exact .throw _
    · exact inlining.declare_grows _ _ _

/-- Whatever part of an expression has been inlined, the routine has only been added to. -/
theorem inline_grows (inlining : Inlining) (expr : Expr) (number : Nat) :
    Grows (inlining.inline expr number) := by
  induction expr generalizing number with
  | column index type =>
    rw [inline]
    split
    · exact .pure _
    · exact .throw _
  | constant value type =>
    rw [inline]
    exact (Grows.liftExcept _).bind fun _ => inlining.declare_grows _ _ _
  | arithmetic op left right type leftGrows rightGrows =>
    rw [inline]
    split
    · exact .throw _
    split
    · exact .throw _
    · refine (leftGrows _).bind fun first => (rightGrows _).bind fun second => ?_
      exact (Grows.liftExcept _).bind fun _ => inlining.declare_grows _ _ _
  | comparison mode left right leftGrows rightGrows =>
    rw [inline]
    split
    · exact .throw _
    · refine (leftGrows _).bind fun first => (rightGrows _).bind fun second => ?_
      exact (Grows.liftExcept _).bind fun _ => inlining.declare_grows _ _ _
  | and left right leftGrows rightGrows | or left right leftGrows rightGrows =>
    rw [inline]
    refine (leftGrows _).bind fun plainLeft => (inlining.toBoolean_grows _ _).bind fun first => ?_
    refine (rightGrows _).bind fun plainRight => (inlining.toBoolean_grows _ _).bind fun second =>
      ?_
    exact inlining.declare_grows _ _ _
  | not operand grows =>
    rw [inline]
    refine (grows _).bind fun plain => (inlining.toBoolean_grows _ _).bind fun entry => ?_
    exact inlining.declare_grows _ _ _
  | isNull operand grows =>
    rw [inline]
    exact (grows _).bind fun entry => inlining.declare_grows _ _ _
  | cast operand type | abs operand =>
    exact .throw _

end Inlining

/-! ## Evaluation by the engine -/

section Engine

variable (id : NodeId) (suffix : String) (inputs : List Local) (source : String)

/-- The local that holds the row of the inputs. -/
def rowLocal : Local :=
  ⟨stemOf id suffix ++ "_row", .row⟩

/-- The local that holds the value. -/
def resultLocal : Local :=
  ⟨stemOf id suffix, .value⟩

/-- The routine with the row of the inputs. -/
def withRow (draft : RoutineDraft) : RoutineDraft :=
  { draft with
    commands := draft.commands ++ lineOf (declarationText (rowLocal id suffix)
      (invoke "HeapRow" "of" (inputs.map Local.name)))
    table := draft.table.add (rowLocal id suffix)
    imports := insertModule "sql.row" draft.imports }

/-- The routine with the row of the inputs and the value on it. -/
def withEval (draft : RoutineDraft) : RoutineDraft :=
  { draft with
    commands := draft.commands ++
      (lineOf (declarationText (rowLocal id suffix)
        (invoke "HeapRow" "of" (inputs.map Local.name))) ++
        lineOf (declarationText (resultLocal id suffix)
          (invoke source "eval" [(rowLocal id suffix).name])))
    table := (draft.table.add (rowLocal id suffix)).add (resultLocal id suffix)
    imports := insertModules ["sql.row", "sql.expression"] draft.imports }

/-- The outcome of the evaluation by the engine: it fails when one of its two names is taken. -/
def evaluated (draft : RoutineDraft) : Except Error Local × RoutineDraft :=
  if (draft.localOf? (rowLocal id suffix).name).isSome then
    (.error (draft.takenError (rowLocal id suffix)), draft.addImport "sql.row")
  else if (draft.localOf? (resultLocal id suffix).name).isSome then
    (.error (draft.takenError (resultLocal id suffix)),
      (withRow id suffix inputs draft).addImport "sql.expression")
  else (.ok (resultLocal id suffix), withEval id suffix inputs source draft)

end Engine

/-- A module that is there already is not put in again. -/
theorem insertModule_twice (moduleName : String) (imports : List String) :
    insertModule moduleName (insertModule moduleName imports) = insertModule moduleName
      imports := by
  induction imports with
  | nil => simp [insertModule]
  | cons first rest step =>
    by_cases before : moduleName < first
    · simp [insertModule, before]
    · by_cases same : moduleName = first
      · simp [insertModule, same]
      · simp [insertModule, before, same, step]

variable {id : NodeId} {suffix : String} {inputs : List Local} {source : String}
  {draft : RoutineDraft}

/-- The row of the inputs is declared. -/
theorem declared_row (draft : RoutineDraft) :
    (draft.useSymbol "HeapRow").declared (rowLocal id suffix)
      (invoke "HeapRow" "of" (inputs.map Local.name)) = withRow id suffix inputs draft := by
  have owner : (Symbol.moduleOf? "HeapRow").toList = ["sql.row"] := by decide
  have type : Symbol.modulesOfType (rowLocal id suffix).type.name = ["sql.row"] :=
    show Symbol.modulesOfType LocalType.row.name = _ by decide
  have imports : insertModules (Symbol.modulesOfType (rowLocal id suffix).type.name)
      (insertModules (Symbol.moduleOf? "HeapRow").toList draft.imports) =
        insertModule "sql.row" draft.imports := by
    rw [owner, type]
    exact insertModule_twice _ _
  unfold RoutineDraft.declared RoutineDraft.useType RoutineDraft.useSymbol withRow
  rw [imports]

/-- The value is declared behind the row. -/
theorem declared_result (draft : RoutineDraft) :
    ((withRow id suffix inputs draft).useSymbol "Expression").declared (resultLocal id suffix)
      (invoke source "eval" [(rowLocal id suffix).name]) =
        withEval id suffix inputs source draft := by
  have owner : (Symbol.moduleOf? "Expression").toList = ["sql.expression"] := by decide
  have type : Symbol.modulesOfType (resultLocal id suffix).type.name = [] :=
    show Symbol.modulesOfType LocalType.value.name = _ by decide
  unfold RoutineDraft.declared RoutineDraft.useType RoutineDraft.useSymbol
  rw [owner, type]
  simp [withRow, withEval, insertModules]

/-- The name of the value is free behind the row when it was free before. -/
theorem localOf?_withRow (inputs : List Local) (draft : RoutineDraft) :
    (withRow id suffix inputs draft).localOf? (resultLocal id suffix).name =
      draft.localOf? (resultLocal id suffix).name := by
  have apart : (resultLocal id suffix).name ≠ (rowLocal id suffix).name := by
    intro same
    have length := congrArg (fun text => text.toList.length) same
    simp [rowLocal, resultLocal] at length
  exact LocalTable.map_add_of_ne apart draft.table

/-- Evaluation by the engine adds the row and the value, when their names are free. -/
theorem runOn_emitEval (draft : RoutineDraft) :
    (emitEval id suffix inputs source).runOn draft = evaluated id suffix inputs source draft := by
  have called : (Drafting.invokeStatic "HeapRow" "of" (inputs.map Local.name)).runOn draft =
      (.ok (invoke "HeapRow" "of" (inputs.map Local.name)), draft.useSymbol "HeapRow") := rfl
  have used : Drafting.runOn (modify (RoutineDraft.useSymbol Script.Ty.expression.text))
      (withRow id suffix inputs draft) =
        (.ok (), (withRow id suffix inputs draft).useSymbol "Expression") := rfl
  unfold emitEval evaluated
  refine (runOn_bind_ok called _).trans ?_
  split
  · rename_i taken
    have refused := @runOn_declare_taken (draft.useSymbol "HeapRow") (rowLocal id suffix) taken
      (invoke "HeapRow" "of" (inputs.map Local.name))
    exact runOn_bind_error refused _
  · rename_i free
    have declared := @Emit.runOn_declare (draft.useSymbol "HeapRow") (rowLocal id suffix)
      (Option.not_isSome_iff_eq_none.1 free) (invoke "HeapRow" "of" (inputs.map Local.name))
    rw [declared_row] at declared
    refine (runOn_bind_ok declared _).trans ((runOn_bind_ok used _).trans ?_)
    rw [← localOf?_withRow inputs]
    split
    · rename_i taken
      have refused := @runOn_declare_taken ((withRow id suffix inputs draft).useSymbol "Expression")
        (resultLocal id suffix) taken (invoke source "eval" [(rowLocal id suffix).name])
      exact runOn_bind_error refused _
    · rename_i also
      have declared := @Emit.runOn_declare ((withRow id suffix inputs draft).useSymbol "Expression")
        (resultLocal id suffix) (Option.not_isSome_iff_eq_none.1 also)
        (invoke source "eval" [(rowLocal id suffix).name])
      rw [declared_result] at declared
      exact runOn_bind_ok declared _

/-- The evaluation by the engine succeeds when its two names are free. -/
theorem runOn_emitEval_of_free (free : draft.localOf? (rowLocal id suffix).name = none)
    (also : draft.localOf? (resultLocal id suffix).name = none) :
    (emitEval id suffix inputs source).runOn draft =
      (.ok (resultLocal id suffix), withEval id suffix inputs source draft) := by
  rw [runOn_emitEval]
  simp [evaluated, free, also]

/-- The row and the value are the new locals. -/
theorem locals_withEval (free : draft.localOf? (rowLocal id suffix).name = none)
    (also : draft.localOf? (resultLocal id suffix).name = none) :
    (withEval id suffix inputs source draft).locals =
      draft.locals ++ [rowLocal id suffix, resultLocal id suffix] := by
  have behind := (localOf?_withRow inputs draft).trans also
  have last : (withEval id suffix inputs source draft).locals =
      (withRow id suffix inputs draft).locals ++ [resultLocal id suffix] :=
    LocalTable.toList_add behind
  have first : (withRow id suffix inputs draft).locals = draft.locals ++ [rowLocal id suffix] :=
    LocalTable.toList_add free
  rw [last, first, List.append_assoc]
  rfl

/-- The routine goes on with the row and the value. -/
theorem continues_withEval : Continues draft (withEval id suffix inputs source draft) := by
  rw [← declared_result, ← declared_row]
  exact ((Continues.useSymbol _ _).trans (.declared _ _ _)).trans
    ((Continues.useSymbol _ _).trans (.declared _ _ _))

/-! ## Giving up -/

/-- An expression that is inlined leaves the routine as its inlining does. -/
theorem runOn_emitExpression_inlined {expr : Expr} {entry : Local} {next : Nat}
    {changed : RoutineDraft}
    (inlined : (Inlining.inline ⟨stemOf id suffix, inputs⟩ expr 0).runOn draft =
      (.ok (entry, next), changed)) :
    (emitExpression id suffix expr inputs source).runOn draft = (.ok entry, changed) := by
  have got : Drafting.runOn get draft = (.ok draft, draft) := rfl
  unfold emitExpression
  refine (runOn_bind_ok got _).trans ?_
  exact runOn_tryCatch_ok (runOn_bind_ok inlined _) _

/-- An expression that is not inlined is evaluated by the engine, from the routine as it was. -/
theorem runOn_emitExpression {expr : Expr} {reason : String} {left : RoutineDraft}
    (refused : (Inlining.inline ⟨stemOf id suffix, inputs⟩ expr 0).runOn draft =
      (.error (.unsupported reason), left)) :
    (emitExpression id suffix expr inputs source).runOn draft =
      (emitEval id suffix inputs source).runOn draft := by
  have restored : left.rollback draft.mark = draft := by
    have extended := (Inlining.inline_grows ⟨stemOf id suffix, inputs⟩ expr 0).extends_runOn draft
    rw [refused] at extended
    exact extended.rollback_eq
  have got : Drafting.runOn get draft = (.ok draft, draft) := rfl
  have gone_back : Drafting.runOn (modify (RoutineDraft.rollback draft.mark)) left =
      (.ok (), draft) := congrArg (Prod.mk _) restored
  unfold emitExpression
  refine (runOn_bind_ok got _).trans ?_
  refine (runOn_tryCatch_error (runOn_bind_error refused _) _).trans ?_
  exact runOn_bind_ok gone_back _

/-- The code of an expression is that of its inlining, or else that of its evaluation by the engine,
from the routine as it was. -/
theorem emitExpression_drafts {expr : Expr} {good : Local → RoutineDraft → Prop}
    {bad : Error → RoutineDraft → Prop}
    (tried : Drafts (Inlining.inline ⟨stemOf id suffix, inputs⟩ expr 0) draft
      (fun result next => good result.1 next)
      fun error _ => (∃ reason, error = .unsupported reason) ∧
        Drafts (emitEval id suffix inputs source) draft good bad) :
    Drafts (emitExpression id suffix expr inputs source) draft good bad := by
  rcases tried.cases with ⟨⟨entry, next⟩, changed, inlined, fine⟩ |
    ⟨error, left, refused, ⟨reason, rfl⟩, evaluates⟩
  · exact .of_ok (runOn_emitExpression_inlined inlined) fine
  · unfold Drafts at evaluates ⊢
    rwa [runOn_emitExpression refused]

/-- Giving up leaves no trace. Going back to a mark undoes any steps of emission: commands, the map
of the locals, their order and the modules are what they were. An expression that is not inlined
adds the row and the value to the routine as it was, whatever had been declared for its parts. -/
theorem giving_up_leaves_no_trace (draft : RoutineDraft) (steps : List Emission) (id : NodeId)
    (suffix : String) (expr : Expr) (inputs : List Local) (source : String) :
    (Emission.runAll steps draft).rollback draft.mark = draft ∧
      ∀ reason left, (Inlining.inline ⟨stemOf id suffix, inputs⟩ expr 0).runOn draft =
          (.error (.unsupported reason), left) →
        (emitExpression id suffix expr inputs source).runOn draft =
          evaluated id suffix inputs source draft := by
  refine ⟨(Emission.extends_runAll steps draft).rollback_eq, fun reason left refused => ?_⟩
  rw [runOn_emitExpression refused, runOn_emitEval]

/-- One more than a quotient; a division is not inlined. -/
def oneMoreThanQuotient : Expr :=
  .arithmetic .plus (.constant (.int 1) .int)
    (.arithmetic .divide (.column 0 .int) (.column 1 .int) .int) .int

/-- A routine with the two columns. -/
def columnsDraft : RoutineDraft :=
  { RoutineDraft.start (.method "advance" none) [] with
    table := (LocalTable.empty.add ⟨"_1_c", .scalar .int⟩).add ⟨"_1_d", .scalar .int⟩ }

/-- The constant has been declared when the division is met, and is gone afterwards. -/
theorem giving_up_leaves_no_trace_quotient : ∃ reason left,
    (Inlining.inline ⟨stemOf 4 "project_1", columnsDraft.locals⟩ oneMoreThanQuotient 0).runOn
      columnsDraft = (.error (.unsupported reason), left) ∧
    left.locals.map Local.name = ["_1_c", "_1_d", "_4_project_1_0"] ∧
    (emitExpression 4 "project_1" oneMoreThanQuotient columnsDraft.locals "source").runOn
      columnsDraft = evaluated 4 "project_1" columnsDraft.locals "source" columnsDraft := by
  obtain ⟨reason, left, refused, declared⟩ : ∃ reason left,
      (Inlining.inline ⟨stemOf 4 "project_1", columnsDraft.locals⟩ oneMoreThanQuotient 0).runOn
        columnsDraft = (.error (.unsupported reason), left) ∧
      left.locals.map Local.name = ["_1_c", "_1_d", "_4_project_1_0"] :=
    ⟨_, _, rfl, by decide +kernel⟩
  exact ⟨reason, left, refused, declared, (giving_up_leaves_no_trace columnsDraft [] 4 "project_1"
    oneMoreThanQuotient columnsDraft.locals "source").2 reason left refused⟩

end QueryFusion.Generate
