import QueryFusion.Proofs.Generate.Binding
import QueryFusion.Proofs.Generate.FieldValues

/-!
# Values of rows

The code that a run writes for a row computes what the run makes of the current entry: behind its
steps the locals of the row carry the values of the row; where the run drops the entry the steps go
on with the next one, and where the run fails they fail with the same error. Each operator is
followed in its own place: the fields of the scan are read, a condition is tested, the expressions
of a projection are evaluated on the row so far.
-/

namespace QueryFusion

/-- Whether a value passes is told by its truth value. -/
theorem Value.passes_eq (value : Value) :
    value.passes = value.truth >>= fun truth => .ok (truth == some true) := by
  cases value with
  | boolean truth => cases truth <;> rfl
  | _ => rfl

/-- A result that is never dropped is followed by what is made of it. -/
theorem passOn_map {α β : Type} (first : Except Error α) (next : α → Except Error (Option β)) :
    passOn (first.map some) next = first >>= next := by
  cases first <;> rfl

/-- A row passes a filter by the truth value of its condition. -/
theorem Filter.transform_eq (condition : Expr) (row : Row) : Filter.transform condition row =
    ((condition.eval row >>= Value.truth) >>= fun truth =>
      .ok (if truth == some true then some row else none)) := by
  have tested : ∀ value : Value, (value.passes >>= fun passed =>
      (.ok (if passed then some row else none) : Except Error (Option Row))) =
        value.truth >>= fun truth => .ok (if truth == some true then some row else none) := by
    intro value
    rw [Value.passes_eq, bind_assoc]
    rfl
  rw [Filter.transform, bind_assoc]
  exact congrArg _ (funext tested)

/-- The output row of an entry is selected from its fields, if they pass the filter. -/
theorem ScanState.outputRow_eq (spec : ScanSpec) (map : EntryMap) (entry : Entry) :
    (spec.over map).outputRow entry =
      passOn (((spec.over map).readFields entry (spec.paths.zip spec.types)).map some) fun fields =>
        passOn (spec.filter.elim (.ok (some fields)) fun condition =>
          Filter.transform condition fields)
          fun kept => (ScanState.select kept spec.projects).map some := by
  have selected : ∀ fields : Row, (ScanState.select fields spec.projects >>= fun row =>
      (.ok (some row) : Except Error (Option Row))) = (ScanState.select fields spec.projects).map
        some := by
    intro fields
    cases ScanState.select fields spec.projects <;> rfl
  rw [passOn_map, ScanState.outputRow]
  refine congrArg _ (funext fun fields => ?_)
  cases filtered : spec.filter with
  | none =>
    simp only [ScanSpec.over, filtered, ok_bind, if_true, Option.elim_none, passOn_some]
    exact selected fields
  | some condition =>
    simp only [ScanSpec.over, filtered, Option.elim_some, Filter.transform]
    cases condition.eval fields with
    | error error => rfl
    | ok value =>
      simp only [ok_bind]
      cases value.passes with
      | error error => rfl
      | ok passed =>
        cases passed with
        | false => rfl
        | true => exact selected fields

namespace Script

variable {unit : CompiledUnit} {memory : Memory} {env : Env}

/-- A disjunction is true when its first part is. -/
theorem Denotes.or_true {position : Position} {left right : Term}
    (part : Denotes unit memory env left (.ok (.truth true))) :
    Denotes unit memory env (.binary position .or left right) (.ok (.truth true)) := by
  unfold Denotes
  rw [evalTerm, Effect.bind_apply_ok part]
  rfl

/-- A condition that denotes a truth value is tested. -/
theorem Denotes.tested {condition : Term} {truth : Bool}
    (part : Denotes unit memory env condition (.ok (.truth truth))) :
    testTerm unit env condition memory = (.ok truth, memory) := by
  unfold testTerm
  rw [Effect.bind_apply_ok part]
  rfl

/-- One statement. -/
theorem execStmts_single (fuel : Nat) (statement : Stmt) :
    execStmts unit fuel [statement] env memory = execStmt unit fuel statement env memory := by
  rw [execStmts]
  show Step.andThen (execStmt unit fuel statement env memory) _ = _
  rcases execStmt unit fuel statement env memory with _ | ⟨_ | ⟨_ | _ | _ | _, _⟩, _⟩ <;> rfl

/-- The locals of an enclosing block behind an inner one. -/
theorem Env.restore_append (added outer : Env) : Env.restore (added ++ outer) outer = outer := by
  simp [Env.restore]

end Script

namespace Generate

open Emit
open Script (Term Slot Env CompiledUnit Memory Denotes execStmts)

/-! ## Steps -/

/-- Executing the steps puts these contents before those of the locals so far. -/
structure Passes (unit : CompiledUnit) (memory : Memory) (env : Env) (steps : List RowStep)
    (added : Env) : Prop where
  runs : ∀ fuel, execStmts unit fuel (steps.map RowStep.statement) env memory =
    some (.ok (.through, added ++ env), memory)
  names : added.map Prod.fst =
    ((steps.flatMap RowStep.bindings).map fun binding => binding.entry.name).reverse

/-- Executing the steps leads to the outcome: locals of which this holds, the next entry when there
is no result, or the error. -/
def Processes {α : Type} (unit : CompiledUnit) (memory : Memory) (env : Env) (steps : List RowStep)
    (outcome : Except Error (Option α)) (holds : Env → α → Prop) : Prop :=
  match outcome with
  | .ok (some result) => ∃ added, Passes unit memory env steps added ∧ holds (added ++ env) result
  | .ok none => ∀ fuel, ∃ added, execStmts unit fuel (steps.map RowStep.statement) env memory =
      some (.ok (.proceed, added ++ env), memory)
  | .error error => ∀ fuel,
      execStmts unit fuel (steps.map RowStep.statement) env memory = some (.error error, memory)

section Processing

variable {α β : Type} {unit : CompiledUnit} {memory : Memory} {env : Env}
  {holds : Env → α → Prop}

/-- What declarations establish is processed. -/
theorem Establishes.processes {bindings : List Binding} {outcome : Except Error α}
    (established : Establishes unit memory env bindings outcome holds) :
    Processes unit memory env (bindings.map .bind) (outcome.map some) holds := by
  cases outcome with
  | error error =>
    intro fuel
    rw [RowStep.map_statement_bind]
    exact established fuel
  | ok result =>
    obtain ⟨added, binds, held⟩ := established
    refine ⟨added, ⟨fun fuel => ?_, ?_⟩, held⟩
    · rw [RowStep.map_statement_bind]
      exact binds.runs fuel
    · rw [RowStep.flatMap_bindings_bind]
      exact binds.names

variable {first second : List RowStep} {outcome : Except Error (Option α)}
  {next : α → Except Error (Option β)} {last : Env → β → Prop}

/-- Steps behind others. -/
theorem Processes.bind (head : Processes unit memory env first outcome holds)
    (tail : ∀ added result, Passes unit memory env first added → holds (added ++ env) result →
      Processes unit memory (added ++ env) second (next result) last) :
    Processes unit memory env (first ++ second) (passOn outcome next) last := by
  rcases outcome with error | _ | result
  · intro fuel
    rw [List.map_append, Script.execStmts_append, head fuel]
    rfl
  · intro fuel
    obtain ⟨added, stopped⟩ := head fuel
    refine ⟨added, ?_⟩
    rw [List.map_append, Script.execStmts_append, stopped]
    rfl
  · obtain ⟨added, passes, held⟩ := head
    have rest := tail added result passes held
    rw [passOn_some]
    rcases final : next result with error | _ | answer
    · rw [final] at rest
      intro fuel
      rw [List.map_append, Script.execStmts_append, passes.runs fuel]
      exact rest fuel
    · rw [final] at rest
      intro fuel
      obtain ⟨more, stopped⟩ := rest fuel
      refine ⟨more ++ added, ?_⟩
      rw [List.map_append, Script.execStmts_append, passes.runs fuel, List.append_assoc]
      exact stopped
    · rw [final] at rest
      obtain ⟨more, further, also⟩ := rest
      refine ⟨more ++ added, ⟨fun fuel => ?_, ?_⟩, by rwa [List.append_assoc]⟩
      · rw [List.map_append, Script.execStmts_append, passes.runs fuel, List.append_assoc]
        exact further.runs fuel
      · rw [List.map_append, further.names, passes.names, List.flatMap_append, List.map_append,
          List.reverse_append]

/-- The test of a local that holds a truth value: true unless the local is true. -/
theorem Carries.failing {entry : Local} {truth : Truth}
    (carries : Carries env entry truth.toValue) :
    Denotes unit memory env (RowStep.failing entry) (.ok (.truth (truth != some true))) := by
  have missing : Denotes unit memory env (equalTerm entry (.null .first)) _ := carries.equal_null
  cases truth with
  | none => exact missing.or_true
  | some truth =>
    have opposite : Denotes unit memory env (.not .first (termOf entry)) (.ok (.truth !truth)) :=
      carries.denotes.not
    have either : Denotes unit memory env (RowStep.failing entry) _ := missing.or opposite
    cases truth <;> exact either

/-- A result is passed on when the local that is tested is true. -/
theorem Processes.skip {entry : Local} {truth : Truth} {result : α}
    (carries : Carries env entry truth.toValue) (held : holds env result) :
    Processes unit memory env [.skip entry]
      (.ok (if truth == some true then some result else none)) holds := by
  have tested := (carries.failing : Denotes unit memory env _ _).tested
  have branched : ∀ fuel, execStmts unit fuel [(RowStep.skip entry).statement] env memory =
      if truth == some true then some (.ok (.through, env), memory)
      else some (.ok (.proceed, env), memory) := by
    intro fuel
    have left : Script.inBraces (execStmts unit fuel [.proceed .first]) env memory =
        some (.ok (.proceed, env), memory) :=
      congrArg (fun after => some (Except.ok (Script.Exit.proceed, after), memory))
        (Env.restore_append [] env)
    rw [Script.execStmts_single, RowStep.statement, Script.execStmt_branch tested, left]
    rcases truth with _ | _ | _ <;> rfl
  by_cases passes : truth = some true
  · simp only [passes, beq_self_eq_true, if_true] at branched ⊢
    exact ⟨[], ⟨branched, rfl⟩, held⟩
  · have other : (truth == some true) = false := beq_eq_false_iff_ne.2 passes
    simp only [other, Bool.false_eq_true, if_false] at branched ⊢
    exact fun fuel => ⟨[], branched fuel⟩

/-- What follows without a step. -/
theorem Processes.map (processed : Processes unit memory env first outcome holds)
    (follows : ∀ after result, holds after result →
      ∃ other, next result = .ok (some other) ∧ last after other) :
    Processes unit memory env first (passOn outcome next) last := by
  rw [← List.append_nil first]
  refine processed.bind fun added result _ held => ?_
  obtain ⟨other, same, left⟩ := follows _ _ held
  rw [same]
  exact ⟨[], ⟨fun _ => rfl, rfl⟩, left⟩

end Processing

/-! ## Conditions -/

/-- No local hides a name of the engine. -/
def Quiet (env : Env) : Prop :=
  ∀ name, ¬ Underscored name → env.content? name = none

section Conditions

variable {unit : CompiledUnit} {memory : Memory} {env added : Env} {id : NodeId}
  {inputs : List Local} {row : Row} {condition : Expr}

/-- There are no locals at the beginning of a row. -/
theorem Quiet.nil : Quiet [] :=
  fun _ _ => rfl

/-- Names of generated code hide none of the engine. -/
theorem Quiet.past {bindings : List Binding} (quiet : Quiet env)
    (names : added.map Prod.fst = (bindings.map fun binding => binding.entry.name).reverse)
    (named : ∀ binding ∈ bindings, Underscored binding.entry.name) : Quiet (added ++ env) := by
  intro name other
  refine (content?_past names fun binding member same => ?_).trans (quiet name other)
  exact other (same ▸ named binding member)

/-- Nothing hides the rows of the engine. -/
theorem Quiet.unowned (quiet : Quiet env) : env.content? "HeapRow" = none :=
  quiet _ (not_underscored (by decide))

/-- Inputs that are not named below a stem have none of the numbered names below it. -/
theorem settled_of_apart {suffix : String}
    (apart : ∀ input ∈ inputs, ¬ Under (stemOf id suffix) input.name)
    (limit : Nat) : ∀ input ∈ inputs, Inlining.Settled ⟨stemOf id suffix, inputs⟩ input 0 limit :=
  fun input member number _ _ same =>
    apart input member (same ▸ (expressionName_nameOf id suffix inputs number).1)

/-- The code of an expression is evaluated, and leaves its inputs alone. -/
theorem Inlining.Emits.evaluates {suffix : String} {keeper : Keeper} {imports : List String}
    {entry : Local} {bindings : List Binding}
    (emits : Inlining.Emits ⟨stemOf id suffix, inputs⟩ keeper condition imports entry bindings)
    (fed : List.Forall₂ (Carries env) inputs row)
    (apart : ∀ input ∈ inputs, ¬ Under (stemOf id suffix) input.name) (quiet : Quiet env)
    (keeps : keeper.Keeps unit memory env condition)
    (other : keeper ≠ .held (Inlining.rowName ⟨stemOf id suffix, inputs⟩)) :
    Leaves unit memory env bindings entry (condition.eval row) :=
  emits.leaves fed (settled_of_apart apart _) quiet.unowned keeps other

/-- A condition that has been made boolean is tested: the row is kept when it is true. -/
theorem processes_test {declared : List Binding} {tested : Local}
    (established : Establishes unit memory env declared (condition.eval row >>= Value.truth)
      fun after truth => Carries after tested truth.toValue)
    (fed : List.Forall₂ (Carries env) inputs row)
    (apart : ∀ input ∈ inputs, ∀ binding ∈ declared, binding.entry.name ≠ input.name) :
    Processes unit memory env (declared.map .bind ++ [RowStep.skip tested])
      (Filter.transform condition row)
      fun after values => List.Forall₂ (Carries after) inputs values := by
  rw [Filter.transform_eq, ← passOn_map]
  refine established.processes.bind fun added truth passes carries => ?_
  have names := passes.names
  rw [RowStep.flatMap_bindings_bind] at names
  exact .skip carries (carries_past fed names apart)

/-- A local that is cast to a boolean. -/
theorem establishes_passed {entry : Local} {value : Value} (carries : Carries env entry value) :
    Establishes unit memory env [passedBinding id entry] value.truth
      fun after truth => Carries after (passedLocal id) truth.toValue := by
  have named : Script.Ty.resolve? (writtenType .boolean).name (writtenType .boolean).argument =
      some .boolean := rfl
  have converted : Script.castSlot .boolean (.value value) =
      (DataType.boolean.convert value).map Slot.value := rfl
  refine Inlining.establishes_truth ?_
  rw [← converted]
  cases shape : entry.type with
  | object className =>
    have taken : Denotes unit memory env (.cast .first (termOf entry) (writtenType .value)) _ :=
      carries.denotes.cast rfl
    exact taken.cast named
  | _ => exact carries.denotes.cast named

variable {kind : VariableKind} {steps : List RowStep}

/-- The code of a condition keeps a row when the condition is true of it. -/
theorem TestCode.processes (code : TestCode id kind inputs condition steps)
    (fed : List.Forall₂ (Carries env) inputs row)
    (apart : ∀ input ∈ inputs, ¬ Under (stemOf id "filter") input.name) (quiet : Quiet env)
    (keeps : (Keeper.field (kind.fieldOf id)).Keeps unit memory env condition) :
    Processes unit memory env steps (Filter.transform condition row)
      fun after values => List.Forall₂ (Carries after) inputs values := by
  have within := code.within
  have other : Keeper.field (kind.fieldOf id) ≠ .held
      (Inlining.rowName ⟨stemOf id "filter", inputs⟩) :=
    fun same => by cases same
  cases code with
  | boolean emits typed =>
    rw [List.flatMap_append, RowStep.flatMap_bindings_bind] at within
    refine processes_test ?_ fed fun input member binding declared same => ?_
    · refine (emits.evaluates fed apart quiet keeps other).map fun after value carries => ?_
      obtain ⟨truth, rfl⟩ := carries.exists_truth typed
      exact ⟨truth, Truth.truth_toValue truth, carries⟩
    · exact apart input member (same ▸ within binding (List.mem_append_left _ declared))
  | @cast _ entry bindings emits different =>
    have parts : bindings.map RowStep.bind ++
          [RowStep.bind (passedBinding id entry), RowStep.skip (passedLocal id)] =
        (bindings ++ [passedBinding id entry]).map RowStep.bind ++
          [RowStep.skip (passedLocal id)] := by
      simp
    rw [parts] at within ⊢
    rw [List.flatMap_append, RowStep.flatMap_bindings_bind] at within
    refine processes_test ?_ fed fun input member binding declared same => ?_
    · exact (emits.evaluates fed apart quiet keeps other).bind fun _ _ _ carries =>
        establishes_passed carries
    · exact apart input member (same ▸ within binding (List.mem_append_left _ declared))

/-- The code of a condition that may be missing. -/
theorem OptionalTestCode.processes {filter : Option Expr}
    (code : OptionalTestCode id kind inputs filter steps)
    (fed : List.Forall₂ (Carries env) inputs row)
    (apart : ∀ input ∈ inputs, ¬ Under (stemOf id "filter") input.name) (quiet : Quiet env)
    (keeps : ∀ condition ∈ filter, (Keeper.field (kind.fieldOf id)).Keeps unit memory env
      condition) :
    Processes unit memory env steps
      (filter.elim (.ok (Option.some row)) fun condition => Filter.transform condition row)
      fun after values => List.Forall₂ (Carries after) inputs values := by
  cases code with
  | none => exact ⟨[], ⟨fun _ => rfl, rfl⟩, fed⟩
  | some tests => exact tests.processes fed apart quiet (keeps _ rfl)

end Conditions

/-! ## Projections -/

section Projections

variable {unit : CompiledUnit} {memory : Memory} {env : Env} {id : NodeId}
  {row projected : List Local} {values : Row}

/-- An expression of a list in a field. -/
theorem keeps_item {all : List Expr} {expression : Expr} {index : Nat}
    (field : Script.readField unit (VariableKind.projectExpressions.fieldOf id) memory =
      (.ok (.handle (.expressions all)), memory))
    (found : all[index]? = some expression) (small : index < 2 ^ 31) :
    (projectKeeper id index).Keeps unit memory env expression := by
  have list : Denotes unit memory env
      (.member .first (.this .first) (VariableKind.projectExpressions.fieldOf id)) _ := .field field
  have number : Denotes unit memory env (.int .first (Int32.ofNat index))
      (.ok (.value (.int (Int32.ofNat index)))) := rfl
  have whole : (Int32.ofNat index).toInt = index := by
    rw [Int32.toInt_ofNat_of_lt]
    omega
  have item : Script.itemAt all (Int32.ofNat index) = .ok expression := by
    have positive : ¬ Int32.ofNat index < 0 := by
      rw [Int32.lt_iff_toInt_lt, whole]
      simp
    rw [Script.itemAt, if_neg positive, whole, Int.toNat_natCast, found]
  have listed : Script.listItem (.expressions all) (Int32.ofNat index) =
      .ok (.handle (.expression expression)) := by
    rw [Script.listItem, item]
    rfl
  have invoked : Script.invoke memory.cursors .listGet (.handle (.expressions all))
      [.value (.int (Int32.ofNat index))] = .ok (.handle (.expression expression),
        memory.cursors) := by
    show (Script.listItem _ (Int32.ofNat index) >>= fun slot => .ok (slot, memory.cursors)) = _
    rw [listed]
    rfl
  have called : Script.callMethod "get" (.handle (.expressions all))
      [.value (.int (Int32.ofNat index))] memory = Script.called
        (Script.invoke memory.cursors .listGet (.handle (.expressions all))
          [.value (.int (Int32.ofNat index))]) memory := rfl
  refine .method rfl rfl rfl list number.argument ?_
  rw [called, invoked]
  rfl

/-- The expressions of a projection are evaluated on the row so far. -/
theorem ProjectsCode.establishes {expressions done : List Expr} {index : Nat}
    {bindings : List Binding}
    (code : ProjectsCode False id row expressions index projected bindings)
    (behind : done.length = index)
    (fed : List.Forall₂ (Carries env) row values)
    (apart : ∀ input ∈ row, ¬ Under (nodeStem id) input.name) (quiet : Quiet env)
    (named : ∀ binding ∈ bindings, Underscored binding.entry.name)
    (field : Script.readField unit (VariableKind.projectExpressions.fieldOf id) memory =
      (.ok (.handle (.expressions (done ++ expressions))), memory)) :
    Establishes unit memory env bindings (evalAll values expressions)
      fun after results => List.Forall₂ (Carries after) projected results := by
  induction code generalizing done env with
  | nil => exact .nil .nil
  | @cons imports expression rest index entry others first bindings emits small further step =>
    rw [List.forall_mem_append] at named
    have below : ∀ {number name}, Under (projection id row number).stem name →
        Under (nodeStem id) name := fun under => @Under.shorten (nodeStem id) _ _ under
    have free : ∀ input ∈ row, ¬ Under (projection id row index).stem input.name :=
      fun input member under => apart input member (below under)
    have head : Leaves unit memory env first entry (expression.eval values) := by
      cases emits with
      | inlined inlines =>
        obtain ⟨-, bound, -⟩ := inlines.numbered
        exact inlines.leaves fed (settled_of_apart free _) (by omega)
      | evaluated untyped =>
        have found : (done ++ expression :: rest)[index]? = some expression := by
          simp [← behind]
        exact Inlining.leaves_evaluated fed quiet.unowned
          (keeps_item field found (small not_false untyped)) fun same => by cases same
    have within : Within (projection id row index).stem first := emits.within
    have kept : ∀ input ∈ row, ∀ binding ∈ first, binding.entry.name ≠ input.name :=
      fun input member binding declared same => free input member (same ▸ within binding declared)
    have later : ∀ binding ∈ bindings, binding.entry.name ≠ entry.name := by
      intro binding member same
      obtain ⟨number, above, under⟩ := further.under binding member
      rw [same] at under
      rcases emits.declared with input | ⟨earlier, declared, rfl⟩
      · exact apart entry input (below under)
      · have := projection_unique (within earlier declared) under
        omega
    rw [evalAll]
    refine head.bind fun added value binds carries => ?_
    rw [List.append_cons] at field
    exact .consed carries later (step (by simp [behind]) (carries_past fed binds.names kept)
      (quiet.past binds.names named.1) named.2 field)

end Projections

/-! ## Runs -/

/-- The unit has what the code of a run reads: its cursor stands on the entry, and its fields hold
what the nodes of the run expose. -/
def Equips (unit : CompiledUnit) (memory : Memory) (entry : Entry) : Plan → Prop
  | .scan id spec =>
    Reads unit memory id entry ∧ ∀ condition ∈ spec.filter,
      Script.readField unit (VariableKind.scanFilter.fieldOf id) memory =
        (.ok (.handle (.expression condition)), memory)
  | .filter id condition input =>
    Script.readField unit (VariableKind.filterCondition.fieldOf id) memory =
      (.ok (.handle (.expression condition)), memory) ∧ Equips unit memory entry input
  | .project id expressions input =>
    Script.readField unit (VariableKind.projectExpressions.fieldOf id) memory =
      (.ok (.handle (.expressions expressions)), memory) ∧ Equips unit memory entry input
  | .root .. | .sort .. | .join .. => True

/-- The code of a run makes of the current entry what the run makes of it. -/
theorem RowCode.processes {unit : CompiledUnit} {memory : Memory} {plan : Plan} {row : List Local}
    {steps : List RowStep} {entry : Entry} (code : RowCode False plan row steps)
    (compilable : plan.isCompilable = true) (equips : Equips unit memory entry plan)
    (named : ∀ binding ∈ steps.flatMap RowStep.bindings, Underscored binding.entry.name)
    (map : EntryMap) :
    Processes unit memory [] steps (plan.image map entry)
      fun after values => List.Forall₂ (Carries after) row values := by
  induction code with
  | @scan id spec fields row bindings steps read distinct tests apart selected =>
    rw [List.flatMap_append, List.forall_mem_append, RowStep.flatMap_bindings_bind] at named
    have plain := ScanSpec.plain_of_checkScan (Plan.checkScan_of_isCompilable compilable)
    have loaded : ScanLocals.empty.Loaded ([] : Env) spec entry := .empty
    have once : Unrepeated ([] ++ bindings) := distinct
    have established := read.establishes plain .empty loaded once equips.1 map
    have free : ∀ input ∈ fields, ¬ Under (stemOf id "filter") input.name := by
      intro input member
      obtain ⟨binding, declared, rfl⟩ := read.types_eq.2 input member
      exact apart binding declared
    rw [Plan.image, ScanState.outputRow_eq]
    refine established.processes.bind fun added values passes fed => ?_
    have names := passes.names
    rw [RowStep.flatMap_bindings_bind] at names
    have kept := tests.processes fed free (Quiet.nil.past names named.1) fun condition filtered =>
      Denotes.field (equips.2 condition filtered)
    refine kept.map fun after chosen carried => ?_
    obtain ⟨picked, known, held⟩ := select_of_selectLocals selected carried
    exact ⟨picked, by rw [known]; rfl, held⟩
  | @filter id condition input row before steps below tests apart step =>
    rw [List.flatMap_append, List.forall_mem_append] at named
    refine (step compilable equips.2 named.1).bind fun added values passes fed => ?_
    refine tests.processes fed (fun input member under => ?_) (Quiet.nil.past passes.names named.1)
      (Denotes.field equips.1)
    obtain ⟨binding, declared, rfl⟩ := below.types_eq.2 input member
    exact apart binding declared (@Under.shorten (nodeStem id) _ "filter" under)
  | @project id expressions input row projected before bindings below projects apart step =>
    rw [List.flatMap_append, List.forall_mem_append, RowStep.flatMap_bindings_bind] at named
    refine (step compilable equips.2 named.1).bind fun added values passes fed => ?_
    have free : ∀ input ∈ row, ¬ Under (nodeStem id) input.name := by
      intro input member
      obtain ⟨binding, declared, rfl⟩ := below.types_eq.2 input member
      exact apart binding declared
    have transformed :
        Project.transform expressions values = (evalAll values expressions).map some := by
      rw [Project.transform]
      cases evalAll values expressions <;> rfl
    rw [transformed]
    exact (projects.establishes (rfl : ([] : List Expr).length = 0) fed free
      (Quiet.nil.past passes.names named.1) named.2 equips.1).processes

end Generate

end QueryFusion
