import QueryFusion.Proofs.Generate.EmittedExpressions

/-!
# Values of emitted expressions

Whichever code an expression has, it computes the value of the expression on the row of its inputs:
either part by part, or by the engine on a row that is made of the inputs. When the expression
fails, so does the code, with the same error.
-/

namespace QueryFusion

namespace Script

/-- Slots of values hold these values. -/
theorem valuesOf_map_value (row : Row) : valuesOf (row.map Slot.value) = .ok row := by
  induction row with
  | nil => rfl
  | cons value rest step =>
    rw [List.map_cons, valuesOf, step]
    rfl

/-- The engine evaluates an expression on a row. -/
theorem callMethod_eval (expr : Expr) (row : Row) (memory : Memory) :
    callMethod "eval" (.handle (.expression expr)) [.row row] memory =
      ((expr.eval row).map Slot.value, memory) := by
  have evaluated : invoke memory.cursors .eval (.handle (.expression expr)) [.row row] =
      (expr.eval row).map fun value => (Slot.value value, memory.cursors) := by
    simp only [invoke, Slot.isNull, evalArgument]
    cases expr.eval row <;> rfl
  have called : callMethod "eval" (.handle (.expression expr)) [.row row] memory =
      Script.called (invoke memory.cursors .eval (.handle (.expression expr)) [.row row]) memory :=
    rfl
  rw [called, evaluated]
  cases expr.eval row <;> rfl

end Script

namespace Generate

open Emit
open Script (Term Slot Env CompiledUnit Memory Denotes)

variable {unit : CompiledUnit} {memory : Memory} {env added : Env} {inputs : List Local} {row : Row}

/-- Locals as arguments. -/
theorem evalTerms_termOf (fed : List.Forall₂ (Carries env) inputs row) :
    Script.evalTerms unit env (inputs.map termOf) memory = (.ok (row.map Slot.value), memory) := by
  induction fed with
  | nil => rfl
  | @cons input value inputs row head rest step =>
    have first : Script.evalTerm unit env (termOf input) memory = (.ok (.value value), memory) :=
      head.denotes
    rw [List.map_cons, Script.evalTerms, Script.Effect.bind_apply_ok first,
      Script.Effect.bind_apply_ok step]
    rfl

namespace Inlining

variable {inlining : Inlining} {keeper : Keeper} {expr : Expr} {imports : List String}
  {entry : Local} {bindings : List Binding}

/-- The engine evaluates the expression on the row of the inputs. -/
theorem leaves_evaluated (fed : inlining.Feeds env row) (free : env.content? "HeapRow" = none)
    (keeps : keeper.Keeps unit memory env expr) (apart : keeper ≠ .held inlining.rowName) :
    Leaves unit memory env [inlining.rowBinding, inlining.evalBinding keeper]
      ⟨inlining.stem, .value⟩ (expr.eval row) := by
  have made : Denotes unit memory env inlining.rowBinding.value (.ok (.row row)) :=
    .row free (evalTerms_termOf fed) (Script.valuesOf_map_value row)
  have binds : Binds unit memory env [inlining.rowBinding] [(inlining.rowName, .row row)] :=
    .declare made
  have rows : Establishes unit memory env [inlining.rowBinding] (.ok ())
      fun after _ => after = (inlining.rowName, .row row) :: env := ⟨_, binds, rfl⟩
  have whole : Leaves unit memory env ([inlining.rowBinding] ++ [inlining.evalBinding keeper])
      ⟨inlining.stem, .value⟩ ((.ok () : Except Error Unit) >>= fun _ => expr.eval row) := by
    refine rows.bind ?_
    rintro added ⟨⟩ - same
    rw [same]
    have kept : keeper.Keeps unit memory ((inlining.rowName, .row row) :: env) expr :=
      keeps.cons apart
    have given : Denotes unit memory ((inlining.rowName, .row row) :: env)
        (.name .first inlining.rowName) (.ok (.row row)) := .name (by simp [Env.content?])
    have evaluated : Denotes unit memory ((inlining.rowName, .row row) :: env)
        (inlining.evalBinding keeper).value ((expr.eval row).map Slot.value) :=
      .method (by cases keeper <;> rfl) kept.staticOwner?_eq rfl kept given.argument
        (Script.callMethod_eval expr row memory)
    exact .declare evaluated fun value _ => Script.fits_any 0 value
  exact whole

/-- Behind the code of an expression its local carries the value that the expression gives on the
row of the inputs; where the expression fails, the code fails with the same error. -/
theorem Emits.leaves (emits : inlining.Emits keeper expr imports entry bindings)
    (fed : inlining.Feeds env row)
    (apart : ∀ input ∈ inlining.inputs, inlining.Settled input 0 expr.span)
    (free : env.content? "HeapRow" = none) (keeps : keeper.Keeps unit memory env expr)
    (other : keeper ≠ .held inlining.rowName) :
    Leaves unit memory env bindings entry (expr.eval row) := by
  cases emits with
  | inlined inlines =>
    obtain ⟨-, bound, -⟩ := inlines.numbered
    exact inlines.leaves fed apart (by omega)
  | evaluated => exact leaves_evaluated fed free keeps other

end Inlining

end Generate

end QueryFusion
