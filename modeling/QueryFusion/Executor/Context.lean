import QueryFusion.Error

/-!
# Execution contexts

One execution of a plan has an id and can be cancelled. Cancellation is seen between two steps of an
executor, never inside one.
-/

namespace QueryFusion

/-- The context of one execution. -/
structure Context where
  queryId : UInt64
  cancelled : Bool
  deriving DecidableEq, Inhabited

namespace Context

/-- The context of a new execution. -/
def start (queryId : UInt64) : Context :=
  ⟨queryId, false⟩

/-- The context after cancellation. -/
def cancel (context : Context) : Context :=
  { context with cancelled := true }

/-- Fails when the execution is cancelled. -/
def check (context : Context) : Except Error Unit :=
  if context.cancelled then .error .cancelled else .ok ()

/-- Execution goes on exactly until it is cancelled. -/
theorem check_eq_ok_iff (context : Context) :
    context.check = .ok () ↔ context.cancelled = false := by
  simp only [check]
  split <;> simp_all

end Context

end QueryFusion
