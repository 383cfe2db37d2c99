import QueryFusion.Proofs.Script.Safety
import QueryFusion.Script.Instance

/-!
# Calls of an instance

An instance may be called in any order. A call out of order is refused and leaves no trace; any
other call runs its routine. The invariant behind this says where the marks of an instance come
from: a node is bound by the one call that bound it, and an instance is armed by a setup that
succeeded, when all of its nodes had been bound. So a unit that is bound in part never handles a
row.
-/

namespace QueryFusion.Script

/-- A call of an instance. -/
inductive Call
  | prepare (id : NodeId) (state : ExecutorState)
  | setup (context : Context)
  | advance

/-- What a call answers; only an advance tells how far it has come. -/
abbrev Reply := Except Error (Option Progress)

/-- Calls with their replies, the last one first. -/
abbrev CallLog := List (Call × Reply)

namespace Call

/-- Makes a call. -/
def perform (fuel : Nat) (subject : UnitInstance) : Call → Step UnitInstance (Option Progress)
  | prepare id state =>
    (subject.prepare fuel id state).map fun step => (step.1.map fun _ => none, step.2)
  | setup context => (subject.setup fuel context).map fun step => (step.1.map fun _ => none, step.2)
  | advance => (subject.advance fuel).map fun step => (step.1.map some, step.2)

/-- Makes one call after another, each with its own fuel, and adds them to a log. -/
def performAll : List (Nat × Call) → CallLog → UnitInstance → Option (CallLog × UnitInstance)
  | [], log, subject => some (log, subject)
  | (fuel, call) :: rest, log, subject =>
    match call.perform fuel subject with
    | none => none
    | some (reply, next) => performAll rest ((call, reply) :: log) next

/-- The routine that a call is meant to run. -/
def routine (unit : CompiledUnit) : Call → Routine
  | prepare .. => unit.prepare
  | setup _ => unit.setup
  | advance => unit.advance

/-- The arguments of that routine. -/
def arguments : Call → List Slot
  | prepare id state => [.handle (.executor id state)]
  | setup context => [.handle (.context context)]
  | advance => []

/-- The error of a call out of order, if it is one. -/
def refusal? (subject : UnitInstance) : Call → Option Error
  | prepare id _ =>
    if !subject.subsumes id then
      some (.binding ("node " ++ id.text ++ " is not subsumed by " ++ subject.unit.name))
    else if subject.bound.contains id then
      some (.binding ("node " ++ id.text ++ " already bound to " ++ subject.unit.name))
    else none
  | setup context =>
    match subject.unbound?, context.check with
    | some id, _ =>
      some (.binding ("node " ++ id.text ++ " of " ++ subject.unit.name ++ " was never prepared"))
    | none, .error error => some error
    | none, .ok () => none
  | advance =>
    if subject.armed then none else some (.binding (subject.unit.name ++ " advanced before setup"))

/-- The reply to a call whose routine has ended, and the instance after it. -/
def conclude (subject : UnitInstance) : Call → Except Error Slot × Memory → Reply × UnitInstance
  | prepare id _, (.ok _, memory) =>
    (.ok none, { subject.withMemory memory with bound := id :: subject.bound })
  | setup _, (.ok _, memory) => (.ok none, { subject.withMemory memory with armed := true })
  | setup _, (.error error, memory) =>
    (.error error, { subject.withMemory memory with armed := false })
  | advance, (.ok (.progress progress), memory) => (.ok (some progress), subject.withMemory memory)
  | advance, (.ok other, memory) =>
    (.error (.internal ("advance of " ++ subject.unit.name ++ " returned " ++ other.kindName)),
      subject.withMemory memory)
  | _, (.error error, memory) => (.error error, subject.withMemory memory)

variable {subject : UnitInstance} {call : Call} {error : Error}

/-- A call is refused, or its routine is run and the call concluded with the outcome. -/
theorem perform_eq (fuel : Nat) (subject : UnitInstance) (call : Call) :
    call.perform fuel subject =
      match call.refusal? subject with
      | some error => some (.error error, subject)
      | none =>
        (run subject.unit (call.routine subject.unit) fuel call.arguments subject.memory).map
          (call.conclude subject) := by
  cases call with
  | prepare id state =>
    rw [perform, UnitInstance.prepare, refusal?]
    by_cases known : subject.subsumes id = true
    · by_cases bound : subject.bound.contains id = true
      · simp only [known, bound]
        rfl
      · simp only [known, bound]
        simp only [routine, arguments]
        rcases run subject.unit subject.unit.prepare fuel _ subject.memory with
          _ | ⟨_ | _, _⟩ <;> rfl
    · simp only [known]
      rfl
  | setup context =>
    rw [perform, UnitInstance.setup, refusal?]
    cases subject.unbound? with
    | some id => rfl
    | none =>
      cases context.check with
      | error error => rfl
      | ok _ =>
        simp only [routine, arguments]
        rcases run subject.unit subject.unit.setup fuel _ subject.memory with
          _ | ⟨_ | _, _⟩ <;> rfl
  | advance =>
    rw [perform, UnitInstance.advance, refusal?]
    cases subject.armed with
    | false => rfl
    | true =>
      simp only [routine, arguments]
      rcases run subject.unit subject.unit.advance fuel _ subject.memory with
        _ | ⟨_ | slot, _⟩
      · rfl
      · rfl
      · cases slot <;> rfl

/-- A refused call answers with its error and leaves the instance as it was. -/
theorem perform_refused (refused : call.refusal? subject = some error) (fuel : Nat) :
    call.perform fuel subject = some (.error error, subject) := by
  rw [perform_eq, refused]

/-- Only a node of the unit that is not bound yet is bound. -/
theorem refusal?_prepare_eq_none {id : NodeId} {state : ExecutorState} :
    (prepare id state).refusal? subject = none ↔
      id ∈ subject.unit.subsumedIds ∧ id ∉ subject.bound := by
  rw [refusal?, UnitInstance.subsumes, List.contains_eq_mem, List.contains_eq_mem]
  by_cases known : id ∈ subject.unit.subsumedIds <;> by_cases bound : id ∈ subject.bound <;>
    simp [known, bound]

/-- Only an instance whose nodes are all bound is set up, and only while it is not cancelled. -/
theorem refusal?_setup_eq_none {context : Context} :
    (setup context).refusal? subject = none ↔
      subject.unbound? = none ∧ context.check = .ok () := by
  rw [refusal?]
  cases subject.unbound? with
  | some id => simp
  | none => cases context.check <;> simp

/-- Only an armed instance is advanced. -/
theorem refusal?_advance_eq_none : advance.refusal? subject = none ↔ subject.armed = true := by
  rw [refusal?]
  cases subject.armed <;> simp

/-- A call out of order is answered with a binding error; a setup may also find the execution
cancelled. -/
theorem refusal?_error (refused : call.refusal? subject = some error) :
    (∃ reason, error = .binding reason) ∨
      error = .cancelled ∧ ∃ context, call = setup context ∧ context.cancelled = true := by
  cases call with
  | prepare id state =>
    rw [refusal?] at refused
    split at refused
    · exact .inl ⟨_, (Option.some.inj refused).symm⟩
    · split at refused
      · exact .inl ⟨_, (Option.some.inj refused).symm⟩
      · cases refused
  | setup context =>
    rw [refusal?, Context.check] at refused
    cases missing : subject.unbound? with
    | some id =>
      rw [missing] at refused
      exact .inl ⟨_, (Option.some.inj refused).symm⟩
    | none =>
      cases cancelled : context.cancelled with
      | false =>
        simp [missing, cancelled] at refused
      | true =>
        simp only [missing, cancelled] at refused
        exact .inr ⟨(Option.some.inj refused).symm, context, rfl, cancelled⟩
  | advance =>
    rw [refusal?] at refused
    split at refused
    · cases refused
    · exact .inl ⟨_, (Option.some.inj refused).symm⟩

/-- The call binds a node. -/
def binds (id : NodeId) : Call × Reply → Bool
  | (prepare other _, .ok _) => other == id
  | _ => false

/-- The call is a setup that succeeded. -/
def arms : Call × Reply → Bool
  | (setup _, .ok _) => true
  | _ => false

end Call

open Call

namespace UnitInstance

/-- All nodes are bound exactly when there is no unbound one. -/
theorem unbound?_eq_none_iff (subject : UnitInstance) :
    subject.unbound? = none ↔ ∀ id ∈ subject.unit.subsumedIds, id ∈ subject.bound := by
  simp [unbound?]

variable {unit : CompiledUnit} {log : CallLog} {subject : UnitInstance}

/-- Where the marks of an instance come from. -/
structure Recorded (unit : CompiledUnit) (log : CallLog) (subject : UnitInstance) : Prop where
  same : subject.unit = unit
  /-- A node is bound by a call, and by one call only. -/
  counted : ∀ id, log.countP (binds id) = if id ∈ subject.bound then 1 else 0
  once : subject.bound.Nodup
  subsumed : ∀ id ∈ subject.bound, id ∈ unit.subsumedIds
  /-- An armed instance was set up when all nodes had been bound. -/
  armed : subject.armed = true → log.any arms = true ∧ subject.unbound? = none

/-- Nothing has happened to a new instance. -/
theorem Recorded.start (unit : CompiledUnit) (batchSize : Nat) :
    Recorded unit [] (start unit batchSize) where
  same := rfl
  counted _ := rfl
  once := .nil
  subsumed _ member := nomatch member
  armed armed := nomatch armed

/-- A call that changes no mark and neither binds nor arms keeps the record. -/
theorem Recorded.unmarked {call : Call} {reply : Reply} (recorded : Recorded unit log subject)
    (plain : ∀ id, binds id (call, reply) = false) (memory : Memory) :
    Recorded unit ((call, reply) :: log) (subject.withMemory memory) where
  same := recorded.same
  counted id := by
    rw [List.countP_cons, plain id]
    exact recorded.counted id
  once := recorded.once
  subsumed := recorded.subsumed
  armed armed := by
    obtain ⟨before, whole⟩ := recorded.armed armed
    exact ⟨by rw [List.any_cons, before, Bool.or_true], whole⟩

/-- A call that has ended is recorded. -/
theorem Recorded.conclude {call : Call} (recorded : Recorded unit log subject)
    (admitted : call.refusal? subject = none) (outcome : Except Error Slot × Memory) :
    Recorded unit ((call, (call.conclude subject outcome).1) :: log)
      (call.conclude subject outcome).2 := by
  obtain ⟨result, memory⟩ := outcome
  cases call with
  | prepare id state =>
    cases result with
    | error error => exact recorded.unmarked (fun _ => rfl) memory
    | ok slot =>
      obtain ⟨known, fresh⟩ := refusal?_prepare_eq_none.1 admitted
      exact {
        same := recorded.same
        counted := by
          intro other
          rw [List.countP_cons, recorded.counted other]
          by_cases same : id = other
          · subst same
            simp [Call.conclude, binds, fresh]
          · have apart : ¬ other = id := fun equal => same equal.symm
            simp [Call.conclude, binds, same, apart]
        once := List.nodup_cons.2 ⟨fresh, recorded.once⟩
        subsumed := by
          intro other member
          rcases List.mem_cons.1 member with rfl | before
          · exact recorded.same ▸ known
          · exact recorded.subsumed other before
        armed := by
          intro armed
          obtain ⟨before, whole⟩ := recorded.armed armed
          refine ⟨by rw [List.any_cons, before, Bool.or_true], ?_⟩
          rw [unbound?_eq_none_iff] at whole ⊢
          exact fun other member => List.mem_cons_of_mem _ (whole other member) }
  | setup context =>
    have kept := @Recorded.unmarked _ _ _ (.setup context) (.ok none) recorded (fun _ => rfl) memory
    cases result with
    | error error => exact { recorded.unmarked (fun _ => rfl) memory with armed := nofun }
    | ok slot => exact { kept with armed := fun _ => ⟨rfl, (refusal?_setup_eq_none.1 admitted).1⟩ }
  | advance =>
    cases result with
    | error error => exact recorded.unmarked (fun _ => rfl) memory
    | ok slot => cases slot <;> exact recorded.unmarked (fun _ => rfl) memory

/-- Every call is recorded. -/
theorem Recorded.perform {call : Call} {fuel : Nat} {reply : Reply} {next : UnitInstance}
    (recorded : Recorded unit log subject)
    (performed : call.perform fuel subject = some (reply, next)) :
    Recorded unit ((call, reply) :: log) next := by
  rw [perform_eq] at performed
  cases refused : call.refusal? subject with
  | some error =>
    rw [refused] at performed
    cases performed
    exact recorded.unmarked (fun id => by cases call <;> rfl) subject.memory
  | none =>
    rw [refused] at performed
    obtain ⟨outcome, -, ended⟩ := Option.map_eq_some_iff.1 performed
    have concluded := recorded.conclude refused outcome
    rw [ended] at concluded
    exact concluded

/-- Any calls are recorded. -/
theorem Recorded.performAll {calls : List (Nat × Call)} {last : CallLog} {final : UnitInstance}
    (recorded : Recorded unit log subject)
    (performed : Call.performAll calls log subject = some (last, final)) :
    Recorded unit last final := by
  induction calls generalizing log subject with
  | nil =>
    cases performed
    exact recorded
  | cons first rest step =>
    obtain ⟨fuel, call⟩ := first
    rw [Call.performAll] at performed
    split at performed
    · cases performed
    · rename_i reply next ended
      exact step (recorded.perform ended) performed

/-- The instance is guarded: what its marks say has happened, and no routine runs before its
time. -/
structure Guarded (unit : CompiledUnit) (log : CallLog) (subject : UnitInstance) : Prop where
  same : subject.unit = unit
  /-- The bound nodes are those that a call has bound. -/
  bound : ∀ id, id ∈ subject.bound ↔ ∃ event ∈ log, binds id event = true
  /-- A node is bound once. -/
  once : ∀ id, log.countP (binds id) ≤ 1
  /-- Only nodes of the unit are bound. -/
  subsumed : ∀ id ∈ subject.bound, id ∈ unit.subsumedIds
  /-- A call out of order fails as such, and changes nothing. -/
  refused : ∀ (call : Call) (error : Error), call.refusal? subject = some error →
    ((∃ reason, error = .binding reason) ∨
      error = .cancelled ∧ ∃ context, call = .setup context ∧ context.cancelled = true) ∧
    ∀ fuel, call.perform fuel subject = some (.error error, subject)
  /-- Any other call runs its routine. -/
  runs : ∀ call : Call, call.refusal? subject = none → ∀ fuel, call.perform fuel subject =
    (run unit (call.routine unit) fuel call.arguments subject.memory).map (call.conclude subject)
  /-- The setup routine runs only when all nodes are bound. -/
  complete : ∀ context, (Call.setup context).refusal? subject = none →
    ∀ id ∈ unit.subsumedIds, id ∈ subject.bound
  /-- The advance routine runs only after a setup has succeeded, hence when all nodes are bound. -/
  armed : Call.advance.refusal? subject = none →
    (∃ event ∈ log, arms event = true) ∧ ∀ id ∈ unit.subsumedIds, id ∈ subject.bound

/-- After any calls a new instance is guarded. -/
theorem guarded_performAll (unit : CompiledUnit) (batchSize : Nat) {calls : List (Nat × Call)}
    {log : CallLog} {subject : UnitInstance}
    (performed : Call.performAll calls [] (start unit batchSize) = some (log, subject)) :
    Guarded unit log subject := by
  have recorded := (Recorded.start unit batchSize).performAll performed
  constructor
  case same => exact recorded.same
  case bound =>
    intro id
    rw [← List.countP_pos_iff, recorded.counted id]
    split <;> simp_all
  case once =>
    intro id
    rw [recorded.counted id]
    split <;> omega
  case subsumed => exact recorded.subsumed
  case refused => exact fun call error refused => ⟨refusal?_error refused, perform_refused refused⟩
  case runs =>
    intro call admitted fuel
    rw [perform_eq, admitted, recorded.same]
  case complete =>
    intro context admitted
    rw [← recorded.same]
    exact (unbound?_eq_none_iff subject).1 (refusal?_setup_eq_none.1 admitted).1
  case armed =>
    intro admitted
    obtain ⟨before, whole⟩ := recorded.armed (refusal?_advance_eq_none.1 admitted)
    exact ⟨List.any_eq_true.1 before, recorded.same ▸ (unbound?_eq_none_iff subject).1 whole⟩

/-- Calls of an instance of the reader of keys: set up too early, bound, bound again, advanced too
early, set up, and advanced, when the routine finds that a field was never set. -/
def keyReaderCalls : List (Nat × Call) :=
  [(40, .setup (.start 1)), (40, .prepare 3 .hidden), (40, .prepare 3 .hidden), (40, .advance),
    (40, .setup (.start 1)), (40, .advance)]

/-- The instance stays guarded, and is armed in the end. -/
theorem guarded_performAll_keyReader : ∃ unit log subject, compile keyReader "m.U" = .ok unit ∧
    Call.performAll keyReaderCalls [] (start unit 2) = some (log, subject) ∧
    log.map (fun event => event.2.toOption) = [none, some none, none, none, some none, none] ∧
    Guarded unit log subject := by
  obtain ⟨unit, compiled, parts⟩ := compile_keyReader
  have computed : (Call.performAll keyReaderCalls [] (start unit 2)).map (fun outcome =>
      outcome.1.map fun event => event.2.toOption) =
    some [none, some none, none, none, some none, none] := by
    obtain ⟨name, qualifiedName, primaryId, _, _, constants, names, _, _, _⟩ := unit
    obtain ⟨rfl, rfl, rfl, rfl, rfl⟩ := parts
    rfl
  obtain ⟨⟨log, subject⟩, performed, replies⟩ := Option.map_eq_some_iff.1 computed
  exact ⟨unit, log, subject, compiled, performed, replies, guarded_performAll unit 2 performed⟩

end UnitInstance

end QueryFusion.Script
