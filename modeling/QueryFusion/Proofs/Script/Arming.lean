import QueryFusion.Proofs.Script.Lifecycle

/-!
# Instances after a failed setup

A setup that succeeds arms an instance, and one that fails disarms it, so that a unit which could
not be set up handles no row. There is one exception: a setup that finds its execution cancelled is
refused before the mark is taken away, and an instance that an earlier setup has armed stays armed.
The mark of an instance is computed from its log, and the invariant says that the instance has it.
-/

namespace QueryFusion.Script

open Call

namespace Call

/-- The call is a setup that found its execution cancelled. -/
def stopped : Call × Reply → Bool
  | (setup context, .error .cancelled) => context.cancelled
  | _ => false

/-- What is stopped is a setup. -/
theorem eq_of_stopped {event : Call × Reply} (halted : stopped event = true) :
    ∃ context, event = (setup context, .error .cancelled) := by
  unfold stopped at halted
  split at halted
  · exact ⟨_, rfl⟩
  · cases halted

/-- A setup of an execution that goes on is not stopped. -/
theorem stopped_eq_false {context : Context} (running : context.cancelled = false) (reply : Reply) :
    stopped (setup context, reply) = false := by
  cases reply with
  | ok answer => rfl
  | error error =>
    cases error with
    | cancelled => exact running
    | _ => rfl

/-- The call is a setup that was not stopped. -/
def decisive : Call × Reply → Bool
  | (setup context, reply) => !stopped (setup context, reply)
  | _ => false

/-- The mark that a log leaves: the last setup that was not stopped has succeeded. -/
def armedAfter (log : CallLog) : Bool :=
  (log.find? decisive).any arms

variable {since earlier : CallLog} {event : Call × Reply}

/-- A setup that was not stopped decides the mark. -/
theorem armedAfter_of_decisive (decides : decisive event = true) :
    armedAfter (event :: earlier) = arms event := by
  rw [armedAfter, List.find?_cons_of_pos decides, Option.any_some]

/-- Any other call leaves it as it is. -/
theorem armedAfter_of_not_decisive (silent : decisive event = false) :
    armedAfter (event :: earlier) = armedAfter earlier := by
  rw [armedAfter, List.find?_cons_of_neg (by simp [silent]), armedAfter]

/-- Without a setup that succeeds there is no mark. -/
theorem armedAfter_eq_false {log : CallLog} (none_armed : ∀ event ∈ log, arms event = false) :
    armedAfter log = false := by
  unfold armedAfter
  cases found : log.find? decisive with
  | none => rfl
  | some event => exact none_armed event (List.mem_of_find?_eq_some found)

/-- A setup that fails without being stopped takes the mark away, until another one succeeds. -/
theorem armedAfter_failed {context : Context} {error : Error}
    (failed : stopped (setup context, .error error) = false)
    (none_since : ∀ event ∈ since, arms event = false) :
    armedAfter (since ++ (setup context, .error error) :: earlier) = false := by
  have decides : decisive (setup context, .error error) = true := by simp [decisive, failed]
  unfold armedAfter
  rw [List.find?_append, List.find?_cons_of_pos decides]
  cases found : since.find? decisive with
  | none => rfl
  | some event => exact none_since event (List.mem_of_find?_eq_some found)

/-- A setup that succeeds leaves the mark, as long as every later one is stopped. -/
theorem armedAfter_succeeded {context : Context} {answer : Option Progress}
    (all_stopped : ∀ other reply, (setup other, reply) ∈ since →
      stopped (setup other, reply) = true) :
    armedAfter (since ++ (setup context, .ok answer) :: earlier) = true := by
  have silent : since.find? decisive = none := by
    rw [List.find?_eq_none]
    rintro ⟨call, reply⟩ member
    cases call with
    | setup other => simp [decisive, all_stopped other reply member]
    | prepare id state => exact Bool.false_ne_true
    | advance => exact Bool.false_ne_true
  rw [armedAfter, List.find?_append, silent]
  rfl

end Call

namespace UnitInstance

variable {unit : CompiledUnit} {log : CallLog} {subject : UnitInstance}

/-- A call that is no setup leaves the mark as it is. -/
theorem armed_conclude (subject : UnitInstance) (call : Call)
    (other : ∀ context, call ≠ .setup context) (outcome : Except Error Slot × Memory) :
    (call.conclude subject outcome).2.armed = subject.armed := by
  obtain ⟨result, memory⟩ := outcome
  cases call with
  | setup context => exact absurd rfl (other context)
  | prepare id state => cases result <;> rfl
  | advance =>
    cases result with
    | error error => rfl
    | ok slot => cases slot <;> rfl

/-- A setup that is refused is stopped, or finds an instance without the mark. -/
theorem stopped_or_disarmed {context : Context} {error : Error}
    (recorded : Recorded unit log subject)
    (refused : (Call.setup context).refusal? subject = some error) :
    stopped (.setup context, .error error) = true ∨
      stopped (.setup context, .error error) = false ∧ subject.armed = false := by
  rw [refusal?] at refused
  cases missing : subject.unbound? with
  | some id =>
    rw [missing] at refused
    obtain rfl := Option.some.inj refused
    refine .inr ⟨rfl, Bool.eq_false_iff.2 fun armed => ?_⟩
    rw [(recorded.armed armed).2] at missing
    cases missing
  | none =>
    rw [missing, Context.check] at refused
    cases halted : context.cancelled with
    | false => simp [halted] at refused
    | true =>
      simp only [halted, if_true] at refused
      obtain rfl := Option.some.inj refused
      exact .inl halted

/-- The mark follows the log over every call. -/
theorem armed_perform {call : Call} {fuel : Nat} {reply : Reply} {next : UnitInstance}
    (recorded : Recorded unit log subject) (marked : subject.armed = armedAfter log)
    (performed : call.perform fuel subject = some (reply, next)) :
    next.armed = armedAfter ((call, reply) :: log) := by
  rw [perform_eq] at performed
  cases refused : call.refusal? subject with
  | some error =>
    rw [refused] at performed
    cases performed
    cases call with
    | setup context =>
      rcases stopped_or_disarmed recorded refused with halted | ⟨failed, disarmed⟩
      · rw [armedAfter_of_not_decisive (by simp [decisive, halted]), marked]
      · rw [armedAfter_of_decisive (by simp [decisive, failed]), disarmed]
        rfl
    | prepare id state => exact marked
    | advance => exact marked
  | none =>
    rw [refused] at performed
    obtain ⟨⟨result, memory⟩, -, ended⟩ := Option.map_eq_some_iff.1 performed
    cases call with
    | setup context =>
      have running : context.cancelled = false :=
        (Context.check_eq_ok_iff context).1 (refusal?_setup_eq_none.1 refused).2
      have decides : decisive (.setup context, reply) = true := by
        rw [decisive, stopped_eq_false running reply]
        rfl
      rw [armedAfter_of_decisive decides]
      cases result <;> cases ended <;> rfl
    | prepare id state =>
      have kept := armed_conclude subject (.prepare id state) nofun (result, memory)
      rw [ended] at kept
      exact kept.trans marked
    | advance =>
      have kept := armed_conclude subject .advance nofun (result, memory)
      rw [ended] at kept
      exact kept.trans marked

/-- The mark follows the log over any calls. -/
theorem armed_performAll {calls : List (Nat × Call)} {last : CallLog} {final : UnitInstance}
    (recorded : Recorded unit log subject) (marked : subject.armed = armedAfter log)
    (performed : Call.performAll calls log subject = some (last, final)) :
    final.armed = armedAfter last := by
  induction calls generalizing log subject with
  | nil =>
    cases performed
    exact marked
  | cons first rest step =>
    obtain ⟨fuel, call⟩ := first
    rw [Call.performAll] at performed
    split at performed
    · cases performed
    · rename_i reply next ended
      exact step (recorded.perform ended) (armed_perform recorded marked ended) performed

/-- An advance is refused, and changes nothing. -/
def Disarmed (subject : UnitInstance) : Prop :=
  ∀ fuel, Call.advance.perform fuel subject =
    some (.error (.binding (subject.unit.name ++ " advanced before setup")), subject)

/-- An instance without the mark refuses to advance. -/
theorem disarmed_of_armed_eq_false (unmarked : subject.armed = false) : subject.Disarmed := by
  refine perform_refused ?_
  simp [refusal?, unmarked]

/-- What the setups of a log mean for the next advance. -/
structure ArmedBySetups (unit : CompiledUnit) (log : CallLog) (subject : UnitInstance) : Prop where
  /-- After a setup that failed without being stopped, no advance gets through until another setup
  succeeds. -/
  failed : ∀ since context error earlier,
    log = since ++ (Call.setup context, Except.error error) :: earlier →
    stopped (.setup context, .error error) = false → (∀ event ∈ since, arms event = false) →
    subject.Disarmed
  /-- Before the first setup that succeeds none does. -/
  early : (∀ event ∈ log, arms event = false) → subject.Disarmed
  /-- After a setup that succeeded the routine is run, also when later ones were stopped. -/
  runs : ∀ since context answer earlier,
    log = since ++ (Call.setup context, Except.ok answer) :: earlier →
    (∀ other reply, (Call.setup other, reply) ∈ since → stopped (.setup other, reply) = true) →
    ∀ fuel, Call.advance.perform fuel subject =
      (run unit unit.advance fuel [] subject.memory).map (Call.advance.conclude subject)

/-- A failed setup disarms an instance, unless it finds its execution cancelled: so it is after any
calls. -/
theorem armed_by_setups (unit : CompiledUnit) (batchSize : Nat) {calls : List (Nat × Call)}
    {log : CallLog} {subject : UnitInstance}
    (performed : Call.performAll calls [] (start unit batchSize) = some (log, subject)) :
    ArmedBySetups unit log subject := by
  have begun := Recorded.start unit batchSize
  have recorded := begun.performAll performed
  have marked := armed_performAll begun rfl performed
  constructor
  case failed =>
    intro since context error earlier split unstopped none_since
    exact disarmed_of_armed_eq_false
      (marked.trans (split ▸ armedAfter_failed unstopped none_since))
  case early =>
    intro none_armed
    exact disarmed_of_armed_eq_false (marked.trans (armedAfter_eq_false none_armed))
  case runs =>
    intro since context answer earlier split all_stopped fuel
    have armed : subject.armed = true := marked.trans (split ▸ armedAfter_succeeded all_stopped)
    rw [perform_eq, refusal?_advance_eq_none.2 armed, recorded.same]
    rfl

/-- A unit that can be set up once: the second time its code divides by zero. -/
def singleUse : String :=
  "module m;import sql.exec;unit U extends CompiledExec\x7bfield left:Int;" ++
    "new()\x7bsuper(1,[1]);\x7dfn prepare(exec:Exec)\x7bthis.left=1;\x7d" ++
    "fn setup(ctx:FragmentContext)\x7bthis.left=1/this.left-1;\x7d" ++
    "fn advance()->IterationResult\x7breturn IterationResult.FETCHED_DONE;\x7d\x7d"

/-- Calls of an instance of that unit: bound, set up, and set up again for a cancelled execution. -/
def stoppedCalls : List (Nat × Call) :=
  [(60, .prepare 1 .hidden), (60, .setup (.start 1)), (60, .setup (Context.start 2).cancel)]

/-- Calls of an instance of that unit: bound, set up, set up again, and cancelled in a third
setup. -/
def failedCalls : List (Nat × Call) :=
  [(60, .prepare 1 .hidden), (60, .setup (.start 1)), (60, .setup (.start 2)),
    (60, .setup (Context.start 3).cancel)]

/-- What is answered: which of the failing calls succeed, and an advance behind the stopped ones. -/
theorem singleUse_answers : (compile singleUse "m.U").toOption.map (fun unit =>
    ((Call.performAll failedCalls [] (start unit 4)).map fun outcome =>
        outcome.1.map fun event => event.2.toOption.isSome,
      (Call.performAll stoppedCalls [] (start unit 4)).bind fun outcome =>
        (Call.advance.perform 60 outcome.2).map fun reply =>
          (outcome.1.head?.map stopped, reply.1.toOption))) =
    some (some [false, false, true, true], some (some true, some (some .finished))) := by
  decide +kernel

/-- The second setup fails in its code, and the instance is still disarmed when the third one is
stopped. -/
theorem armed_by_setups_singleUse : ∃ unit log subject, compile singleUse "m.U" = .ok unit ∧
    Call.performAll failedCalls [] (start unit 4) = some (log, subject) ∧
    log.map (fun event => event.2.toOption.isSome) = [false, false, true, true] ∧
    ArmedBySetups unit log subject := by
  obtain ⟨unit, compiled, computed⟩ := Option.map_eq_some_iff.1 singleUse_answers
  obtain ⟨answers, -⟩ := Prod.mk.inj computed
  obtain ⟨⟨log, subject⟩, performed, replies⟩ := Option.map_eq_some_iff.1 answers
  exact ⟨unit, log, subject, toOption_eq_some_iff.1 compiled, performed, replies,
    armed_by_setups unit 4 performed⟩

/-- A setup that fails does not always disarm: an instance that is armed advances although its last
setup has found the execution cancelled. -/
theorem armed_after_failed_setup : ∃ unit log subject context earlier next,
    compile singleUse "m.U" = .ok unit ∧
    Call.performAll stoppedCalls [] (start unit 4) = some (log, subject) ∧
    log = (.setup context, .error .cancelled) :: earlier ∧
    Call.advance.perform 60 subject = some (.ok (some .finished), next) := by
  obtain ⟨unit, compiled, computed⟩ := Option.map_eq_some_iff.1 singleUse_answers
  obtain ⟨-, answers⟩ := Prod.mk.inj computed
  obtain ⟨⟨log, subject⟩, performed, advanced⟩ := Option.bind_eq_some_iff.1 answers
  obtain ⟨⟨reply, next⟩, advance, same⟩ := Option.map_eq_some_iff.1 advanced
  obtain ⟨stops, finished⟩ := Prod.mk.inj same
  obtain ⟨event, first, halted⟩ := Option.map_eq_some_iff.1 stops
  obtain ⟨earlier, rfl⟩ := List.head?_eq_some_iff.1 first
  obtain ⟨context, rfl⟩ := eq_of_stopped halted
  obtain rfl : reply = .ok (some .finished) := toOption_eq_some_iff.1 finished
  exact ⟨unit, _, subject, context, earlier, next, toOption_eq_some_iff.1 compiled, performed, rfl,
    advance⟩

end UnitInstance

end QueryFusion.Script
