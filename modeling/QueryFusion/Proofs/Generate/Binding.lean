import QueryFusion.Proofs.Executor.Fuel
import QueryFusion.Proofs.Executor.RunRows
import QueryFusion.Proofs.Generate.EmittedExpressions
import QueryFusion.Proofs.Generate.Realization

/-!
# Binding a compiled run

The unit of a run keeps what its nodes expose. An executor that is offered to the unit sets the
fields of its node and no others, whatever the other fields hold.
-/

namespace QueryFusion

/-! ## Contents of fields -/

namespace Script

/-- What the fields of a unit hold, by name. -/
abbrev Contents := String → Slot

/-- The contents with another content of one field. -/
def Contents.assign (content : Contents) (name : String) (slot : Slot) : Contents :=
  fun other => if other = name then slot else content other

/-- The contents with other contents of several fields. -/
def Contents.assignAll (content : Contents) (entries : List (String × Slot)) : Contents :=
  entries.foldl (fun content entry => content.assign entry.1 entry.2) content

/-- A field that is not among several fields holds what it held. -/
theorem Contents.assignAll_of_not_mem {content : Contents} {entries : List (String × Slot)}
    {name : String} (other : name ∉ entries.map Prod.fst) :
    content.assignAll entries name = content name := by
  induction entries generalizing content with
  | nil => rfl
  | cons entry rest step =>
    rw [List.map_cons, List.mem_cons, not_or] at other
    exact (step other.2).trans (if_neg other.1)

/-- One of several fields with different names holds what it is set to. -/
theorem Contents.assignAll_of_mem {content : Contents} {entries : List (String × Slot)}
    {name : String} {slot : Slot} (apart : (entries.map Prod.fst).Nodup)
    (member : (name, slot) ∈ entries) : content.assignAll entries name = slot := by
  induction entries generalizing content with
  | nil => cases member
  | cons entry rest step =>
    rw [List.map_cons, List.nodup_cons] at apart
    rcases List.mem_cons.1 member with rfl | later
    · exact (assignAll_of_not_mem apart.1).trans (if_pos rfl)
    · exact step apart.2 later

/-- What fields hold is what they held or what one of them was set to. -/
theorem Contents.assignAll_cases (content : Contents) (entries : List (String × Slot))
    (name : String) :
    content.assignAll entries name = content name ∨
      (name, content.assignAll entries name) ∈ entries := by
  induction entries generalizing content with
  | nil => exact .inl rfl
  | cons entry rest step =>
    rcases step (content.assign entry.1 entry.2) with kept | set
    · by_cases same : name = entry.1
      · have here : content.assignAll (entry :: rest) name = entry.2 := kept.trans (if_pos same)
        rw [here, same]
        exact .inr List.mem_cons_self
      · exact .inl (kept.trans (if_neg same))
    · exact .inr (List.mem_cons_of_mem _ set)

/-- Fields with different names may be set in any order. -/
theorem Contents.assignAll_perm {content : Contents} {entries others : List (String × Slot)}
    (apart : (entries.map Prod.fst).Nodup) (perm : entries.Perm others) :
    content.assignAll entries = content.assignAll others := by
  funext name
  by_cases member : name ∈ entries.map Prod.fst
  · obtain ⟨⟨_, slot⟩, listed, rfl⟩ := List.mem_map.1 member
    rw [assignAll_of_mem apart listed,
      assignAll_of_mem ((perm.map Prod.fst).nodup_iff.1 apart) (perm.mem_iff.1 listed)]
  · rw [assignAll_of_not_mem member,
      assignAll_of_not_mem fun listed => member ((perm.map Prod.fst).mem_iff.2 listed)]

/-- The memory of a unit whose fields hold these contents. -/
def Memory.of (unit : CompiledUnit) (content : Contents) (batch : RowBatch)
    (cursors : List Cursor) :
    Memory :=
  ⟨unit.fields.map fun field => content field.name, batch, cursors⟩

section Contents

variable {unit : CompiledUnit} {content : Contents} {batch : RowBatch} {cursors : List Cursor}
  {name : String} {slot : Slot}

/-- The fields of a new instance are not set. -/
theorem Memory.start_eq (unit : CompiledUnit) (batchSize : Nat) :
    Memory.start unit batchSize = .of unit (fun _ => .unset) (.empty batchSize) [] := by
  rw [Memory.start, Memory.of, List.map_const']

/-- A field has its place. -/
theorem fieldIndex?_of_mem (member : name ∈ unit.fields.map FieldInfo.name) :
    ∃ index, ∃ inside : index < unit.fields.length,
      fieldIndex? unit name = some index ∧ unit.fields[index].name = name := by
  cases found : fieldIndex? unit name with
  | none =>
    obtain ⟨field, listed, rfl⟩ := List.mem_map.1 member
    have differs := List.findIdx?_eq_none_iff.1 found field listed
    simp at differs
  | some index =>
    obtain ⟨inside, same, -⟩ := List.findIdx?_eq_some_iff_getElem.1 found
    exact ⟨index, inside, rfl, eq_of_beq same⟩

/-- A field that is set is read. -/
theorem readField_of (member : name ∈ unit.fields.map FieldInfo.name)
    (set : content name ≠ .unset) :
    readField unit name (.of unit content batch cursors) =
      (.ok (content name), .of unit content batch cursors) := by
  obtain ⟨index, inside, found, same⟩ := fieldIndex?_of_mem member
  have entry : entryAt "field" (Memory.of unit content batch cursors).fields index =
      .ok (content name) := by
    simp [entryAt, Memory.of, List.getElem?_eq_getElem inside, same]
  have loaded : loadField unit (Memory.of unit content batch cursors).fields index =
      .ok (content name) := by
    rw [loadField, entry, ok_bind]
    split
    · rename_i unset
      exact absurd unset set
    · rfl
  rw [readField, found]
  exact congrArg (·, _) loaded

/-- A field is set. -/
theorem writeField_of (apart : (unit.fields.map FieldInfo.name).Nodup)
    (member : name ∈ unit.fields.map FieldInfo.name) (slot : Slot) :
    writeField unit name slot (.of unit content batch cursors) =
      (.ok (), .of unit (content.assign name slot) batch cursors) := by
  obtain ⟨index, inside, found, same⟩ := fieldIndex?_of_mem member
  have fields : (unit.fields.map fun field => content field.name).set index slot =
      unit.fields.map fun field => content.assign name slot field.name := by
    refine List.ext_getElem (by simp) fun other first second => ?_
    have there : other < unit.fields.length := by simpa using second
    rw [List.getElem_set, List.getElem_map, List.getElem_map]
    by_cases here : index = other
    · subst here
      simp [Contents.assign, same]
    · have differs : unit.fields[other].name ≠ name := by
        intro equal
        have places := @List.Nodup.getElem_inj_iff _ _ apart index (by simpa using inside) other
          (by simpa using there)
        rw [List.getElem_map, List.getElem_map, same, equal] at places
        exact here (places.1 rfl)
      rw [if_neg here, Contents.assign, if_neg differs]
  rw [writeField, found]
  simp only [Memory.of, fields]

end Contents

/-! ## Statements -/

section Statements

variable {unit : CompiledUnit} {fuel : Nat} {env : Env} {memory changed written : Memory}
  {position : Position} {slot : Slot}

/-- A local is declared. -/
theorem execStmt_declare {name : String} {type : TypeName} {value : Term}
    (done : evalTerm unit env value memory = (.ok slot, changed)) :
    execStmt unit fuel (.declare position name type value) env memory =
      some (.ok (.through, (name, slot) :: env), changed) := by
  rw [execStmt]
  show Step.andThen (some (evalTerm unit env value memory)) _ = _
  rw [done]
  rfl

/-- A field is set. -/
theorem execStmt_setField {field : String} {value : Term}
    (done : evalTerm unit env value memory = (.ok slot, changed))
    (set : writeField unit field slot changed = (.ok (), written)) :
    execStmt unit fuel (.setField position field value) env memory =
      some (.ok (.through, env), written) := by
  rw [execStmt]
  show Step.andThen (some (evalTerm unit env value memory)) _ = _
  rw [done]
  show Step.andThen (some (writeField unit field slot changed)) _ = _
  rw [set]
  rfl

/-- A branch depends on its condition. -/
theorem execStmt_branch {condition : Term} {block : List Stmt} {truth : Bool}
    (tested : testTerm unit env condition memory = (.ok truth, changed)) :
    execStmt unit fuel (.branch position condition block) env memory =
      if truth then inBraces (execStmts unit fuel block) env changed
      else some (.ok (.through, env), changed) := by
  rw [execStmt]
  show Step.andThen (some (testTerm unit env condition memory)) _ = _
  rw [tested]
  rfl

/-- A statement that falls through is followed by the next ones. -/
theorem execStmts_cons {statement : Stmt} {rest : List Stmt} {next : Env}
    (done : execStmt unit fuel statement env memory = some (.ok (.through, next), changed)) :
    execStmts unit fuel (statement :: rest) env memory = execStmts unit fuel rest next changed := by
  rw [execStmts]
  show Step.andThen (execStmt unit fuel statement env memory) _ = _
  rw [done]
  rfl

/-- An answer ends the statements. -/
theorem execStmts_answer {value : Term} {rest : List Stmt}
    (done : evalTerm unit env value memory = (.ok slot, changed)) :
    execStmts unit fuel (.answer position value :: rest) env memory =
      some (.ok (.answer slot, env), changed) := by
  rw [execStmts, execStmt]
  show Step.andThen (Step.andThen (some (evalTerm unit env value memory)) _) _ = _
  rw [done]
  rfl

end Statements

end Script

namespace Generate

open Emit
open Script (Term TypeName Ty Stmt Slot Env CompiledUnit FieldInfo Memory Contents Denotes
  ExecutorKind UnitInstance execStmt execStmts)

/-! ## What a node exposes -/

/-- What a variable holds behind an executor with this state. -/
def VariableKind.exposed (state : ExecutorState) (kind : VariableKind) : Slot :=
  match state, kind with
  | .scan scan, .scanMap => .handle (.map scan.map)
  | .scan scan, .scanPartitions => .handle (.partitions scan.partitions)
  | .scan scan, .scanKeyShape => .handle (.shape scan.keyShape)
  | .scan scan, .scanValueShape => .handle (.shape scan.valueShape)
  | .scan scan, .scanPaths => .handle (.paths scan.paths)
  | .scan scan, .scanTypes => .handle (.types scan.types)
  | .scan scan, .scanProjects => .handle (.indexes scan.projects)
  | .scan scan, .scanFilter =>
    match scan.filter with
    | some condition => .handle (.expression condition)
    | none => .value .null
  | .filter condition, .filterCondition => .handle (.expression condition)
  | .project expressions, .projectExpressions => .handle (.expressions expressions)
  | _, _ => .unset

/-- The fields that an executor of the node sets, with what they hold then. -/
def Generator.exposures (generator : Generator) (state : ExecutorState) : List (String × Slot) :=
  (generator.stateVariables.filter StateVariable.hasPrepare).map fun entry =>
    (entry.name, entry.kind.exposed state)

/-- The state is that of an executor of the node's kind. -/
inductive Generator.Suits : Generator → ExecutorState → ExecutorKind → Prop
  | scan {id : NodeId} {spec : ScanSpec} {state : ScanState} :
    Suits (.scan id spec) (.scan state) .scan
  | filter {id : NodeId} {own condition : Expr} : Suits (.filter id own) (.filter condition) .filter
  | project {id : NodeId} {own expressions : List Expr} :
    Suits (.project id own) (.project expressions) .project

section Exposing

variable {generator : Generator} {state : ExecutorState} {kind : ExecutorKind}
  {entry : StateVariable}

/-- The kind is that of the node and of the executor. -/
theorem Generator.Suits.kinds (suits : generator.Suits state kind) :
    generator.executorKind? = some kind ∧ state.kindName = kind.name := by
  cases suits <;> exact ⟨rfl, rfl⟩

/-- The parts of a scan fit the types of its variables. -/
theorem exposed_scan_fits (scan : ScanState) (count : Nat) {pair : VariableKind × Script.Method}
    (member : pair ∈ scanBindings) : (pair.1.exposed (.scan scan)).Fits count pair.1.ty := by
  revert pair
  simp only [scanBindings, List.forall_mem_cons, List.not_mem_nil, false_implies, implies_true,
    and_true]
  refine ⟨⟨rfl, nofun⟩, ⟨rfl, nofun⟩, ⟨rfl, nofun⟩, ⟨rfl, nofun⟩, ⟨rfl, nofun⟩, ⟨rfl, nofun⟩,
    ⟨rfl, nofun⟩, ?_⟩
  cases filtered : scan.filter <;> simp only [VariableKind.exposed, filtered]
  · exact Slot.fits_null count nofun
  · exact ⟨rfl, nofun⟩

/-- A bound variable fits its type. -/
theorem Generator.Suits.exposed_fits (suits : generator.Suits state kind)
    (member : entry ∈ generator.stateVariables) (bound : entry.hasPrepare = true) (count : Nat) :
    (entry.kind.exposed state).Fits count entry.kind.ty := by
  cases suits with
  | @scan id spec scan =>
    rcases List.mem_append.1 member with listed | last
    · obtain ⟨pair, inside, rfl⟩ := List.mem_map.1 listed
      exact exposed_scan_fits scan count inside
    · rw [List.mem_singleton.1 last] at bound
      cases bound
  | filter | project =>
    rw [List.mem_singleton.1 member]
    exact ⟨rfl, nofun⟩

/-- The methods of a scan give its parts. -/
theorem callMethod_scan (scan : ScanState) (id : NodeId) (memory : Memory)
    {pair : VariableKind × Script.Method} (member : pair ∈ scanBindings) :
    Script.callMethod pair.2.name (.handle (.executor id (.scan scan))) [] memory =
      (.ok (pair.1.exposed (.scan scan)), memory) := by
  revert pair
  simp only [scanBindings, List.forall_mem_cons, List.not_mem_nil, false_implies, implies_true,
    and_true]
  refine ⟨rfl, rfl, rfl, rfl, rfl, rfl, rfl, ?_⟩
  have called : Script.callMethod Script.Method.scanFilter.name
      (.handle (.executor id (.scan scan))) [] memory = Script.called
        (Script.invoke memory.cursors .scanFilter (.handle (.executor id (.scan scan))) [])
          memory :=
    rfl
  have part : Script.invoke memory.cursors .scanFilter (.handle (.executor id (.scan scan))) [] =
      .ok (VariableKind.scanFilter.exposed (.scan scan), memory.cursors) := by
    cases filtered : scan.filter <;>
      simp only [Script.invoke, Slot.isNull, Script.scanPart?, VariableKind.exposed,
        filtered] <;> rfl
  rw [called, part]
  rfl

/-- The method that a variable is bound from gives what the variable holds. -/
theorem Generator.Suits.callMethod (suits : generator.Suits state kind)
    (member : entry ∈ generator.stateVariables) {method : String}
    (bound : entry.origin = .bound method) (id : NodeId) (memory : Memory) :
    Script.callMethod method (.handle (.executor id state)) [] memory =
      (.ok (entry.kind.exposed state), memory) := by
  cases suits with
  | @scan _ spec scan =>
    rcases List.mem_append.1 member with listed | last
    · obtain ⟨pair, inside, rfl⟩ := List.mem_map.1 listed
      cases bound
      exact callMethod_scan scan id memory inside
    · rw [List.mem_singleton.1 last] at bound
      cases bound
  | filter | project =>
    rw [List.mem_singleton.1 member] at bound ⊢
    cases bound
    rfl

end Exposing

/-! ## Binding one node -/

section Blocks

variable {unit : CompiledUnit} {content : Contents} {batch : RowBatch} {cursors : List Cursor}
  {fuel : Nat} {env : Env} {generator : Generator} {state : ExecutorState} {kind : ExecutorKind}
  {id : NodeId}

/-- Variables of a node are set one by one. -/
theorem Generator.Suits.exec_bindStatements (suits : generator.Suits state kind)
    (apart : (unit.fields.map FieldInfo.name).Nodup)
    (found : env.content? (executorName generator.id) = some (.handle (.executor id state)))
    {entries : List StateVariable} (own : ∀ entry ∈ entries, entry ∈ generator.stateVariables)
    (fields : ∀ entry ∈ entries, entry.name ∈ unit.fields.map FieldInfo.name) :
    execStmts unit fuel (entries.flatMap StateVariable.bindStatements) env
        (.of unit content batch cursors) =
      some (.ok (.through, env), .of unit (content.assignAll
        ((entries.filter StateVariable.hasPrepare).map fun entry =>
          (entry.name, entry.kind.exposed state))) batch cursors) := by
  induction entries generalizing content with
  | nil => rfl
  | cons entry rest step =>
    rw [List.forall_mem_cons] at own fields
    rw [List.flatMap_cons, Script.execStmts_append]
    cases origin : entry.origin with
    | bound method =>
      have bound : entry.hasPrepare = true := by rw [StateVariable.hasPrepare, origin]
      have place : env.content? (executorName entry.nodeId) =
          some (.handle (.executor id state)) := by
        rw [Generator.nodeId_of_mem own.1, found]
      obtain ⟨instruction, has⟩ := Generator.methodOf?_of_mem own.1 suits.kinds.1 origin
      have called : Denotes unit (.of unit content batch cursors) env
          (.call .first (.name .first (executorName entry.nodeId)) method [])
          (.ok (entry.kind.exposed state)) :=
        .method rfl (by simp [Env.staticOwner?, place]) (Script.methodOf?_name has).2.1
          (.name place) rfl (suits.callMethod own.1 origin id _)
      have first : execStmts unit fuel entry.bindStatements env (.of unit content batch cursors) =
          some (.ok (.through, env),
            .of unit (content.assign entry.name (entry.kind.exposed state)) batch cursors) := by
        rw [StateVariable.bindStatements, origin]
        rw [Script.execStmts_cons (Script.execStmt_setField called
          (Script.writeField_of apart fields.1 _))]
        rfl
      rw [first]
      simp only [Step.andThen]
      rw [step own.2 fields.2, List.filter_cons_of_pos bound]
      rfl
    | none | opened =>
      have other : entry.hasPrepare ≠ true := by simp [StateVariable.hasPrepare, origin]
      have first : entry.bindStatements = [] := by rw [StateVariable.bindStatements, origin]
      rw [first, List.filter_cons_of_neg other, ← step own.2 fields.2]
      rfl

/-- The parameter of the routine that binds the unit. -/
def offered (id : NodeId) (state : ExecutorState) : Env :=
  [("exec", .handle (.executor id state))]

/-- The executor is tested for its node. -/
theorem testTerm_nodeTest (other : NodeId) (memory : Memory) :
    Script.testTerm unit (offered id state) (nodeTest other) memory =
      (.ok (decide (id = other)), memory) := by
  have place : (offered id state).content? "exec" = some (.handle (.executor id state)) := rfl
  have called : Script.callMethod "id" (.handle (.executor id state)) [] memory =
      (.ok (.value (.int id)), memory) := by
    cases state <;> rfl
  have first : Denotes unit memory (offered id state)
      (.call .first (.name .first "exec") "id" []) (.ok (.value (.int id))) :=
    .method rfl rfl (by decide) (.name place) rfl called
  have plain : Script.BinaryOp.equal ≠ .and ∧ Script.BinaryOp.equal ≠ .or := by decide
  have tested : Denotes unit memory (offered id state) (nodeTest other) _ :=
    .binary plain first (.literal rfl)
  have compared : Comparison.equal.apply (.int id) (.int other) = .ok (decide (id = other)) := by
    have same : compare id.toInt other.toInt = .eq ↔ id = other := by
      rw [Int.compare_eq_eq, Int32.toInt_inj]
    have held : Comparison.equal.apply (.int id) (.int other) =
        .ok (some (compare id.toInt other.toInt) == some .eq) := rfl
    rw [held, ← beq_eq_decide]
    congr 1
    rw [Bool.eq_iff_iff, beq_iff_eq, beq_iff_eq, Option.some_inj, same]
  have outcome : Script.BinaryOp.equal.apply (.value (.int id)) (.value (.int other)) =
      .ok (.truth (decide (id = other))) := by
    have applied := @Script.apply_comparison (.int id) (.int other) rfl rfl .equal
    rw [compared] at applied
    exact applied
  rw [ok_bind, ok_bind, outcome] at tested
  unfold Script.testTerm
  rw [Script.Effect.bind_apply_ok tested]
  rfl

/-- The block of another node does nothing. -/
theorem exec_prepareStatement_other {registry : Registry} {node : NodeId × String}
    (other : id ≠ node.1) (memory : Memory) :
    execStmt unit fuel (prepareStatement registry node) (offered id state) memory =
      some (.ok (.through, offered id state), memory) := by
  rw [prepareStatement, Script.execStmt_branch (testTerm_nodeTest node.1 memory)]
  simp [other]

/-- The kind of an executor is a type of the engine. -/
theorem resolve_executorKind (kind : ExecutorKind) :
    Ty.resolve? kind.name none = some (.specificExecutor kind) := by
  cases kind <;> rfl

/-- An executor is cast to its own kind. -/
theorem castSlot_executor (named : state.kindName = kind.name) :
    Script.castSlot (.specificExecutor kind) (.handle (.executor id state)) =
      .ok (.handle (.executor id state)) := by
  rw [Script.castSlot, Script.CastTarget.apply, if_pos named]

/-- The block of the node takes what its executor exposes. -/
theorem Generator.Suits.exec_block (suits : generator.Suits state kind)
    (apart : (unit.fields.map FieldInfo.name).Nodup)
    (fields : ∀ entry ∈ generator.stateVariables, entry.name ∈ unit.fields.map FieldInfo.name) :
    execStmt unit fuel (.branch .first (nodeTest generator.id)
        (executorStatement (generator.id, kind.name) ::
          generator.stateVariables.flatMap StateVariable.bindStatements))
        (offered generator.id state) (.of unit content batch cursors) =
      some (.ok (.through, offered generator.id state),
        .of unit (content.assignAll (generator.exposures state)) batch cursors) := by
  let own := (executorName generator.id, Slot.handle (.executor generator.id state))
  have place : (offered generator.id state).content? "exec" = some own.2 := rfl
  have cast : Denotes unit (.of unit content batch cursors) (offered generator.id state)
      (.cast .first (.name .first "exec") ⟨kind.name, none, .first⟩) _ :=
    .cast (.name place) (resolve_executorKind kind)
  rw [ok_bind, castSlot_executor suits.kinds.2] at cast
  have declared : execStmt unit fuel (executorStatement (generator.id, kind.name))
      (offered generator.id state) (.of unit content batch cursors) =
        some (.ok (.through, own :: offered generator.id state), .of unit content batch cursors) :=
    Script.execStmt_declare cast
  have found : Env.content? (own :: offered generator.id state) (executorName generator.id) =
      some own.2 := by
    simp [Env.content?, own]
  have body : execStmts unit fuel (executorStatement (generator.id, kind.name) ::
      generator.stateVariables.flatMap StateVariable.bindStatements) (offered generator.id state)
      (.of unit content batch cursors) = some (.ok (.through, own :: offered generator.id state),
        .of unit (content.assignAll (generator.exposures state)) batch cursors) := by
    rw [Script.execStmts_cons declared]
    exact suits.exec_bindStatements apart found (fun _ member => member) fields
  rw [Script.execStmt_branch (testTerm_nodeTest generator.id _), decide_eq_true rfl, if_pos rfl,
    Script.inBraces, body]
  rfl

end Blocks

/-! ## Binding a run -/

section Runs

variable {plan : Plan} {unit : CompiledUnit} {content : Contents} {batch : RowBatch}
  {cursors : List Cursor} {fuel : Nat} {generator : Generator} {state : ExecutorState}
  {kind : ExecutorKind} {row : List Local} {steps : List RowStep}

/-- The variables of the nodes of a run are fields of its unit. -/
theorem Realizes.fields_of_mem (realizes : Realizes plan row steps unit)
    (member : generator ∈ plan.runGenerators) :
    ∀ entry ∈ generator.stateVariables, entry.name ∈ unit.fields.map FieldInfo.name := by
  intro entry listed
  rw [realizes.parts.2.2, List.map_map]
  exact List.mem_map.2 ⟨entry, List.mem_flatMap.2 ⟨generator, member, listed⟩, rfl⟩

/-- Blocks of other nodes do nothing. -/
theorem exec_others {registry : Registry} {id : NodeId} {nodes : List (NodeId × String)}
    (others : ∀ node ∈ nodes, id ≠ node.1) (memory : Memory) :
    execStmts unit fuel (nodes.map (prepareStatement registry)) (offered id state) memory =
      some (.ok (.through, offered id state), memory) := by
  induction nodes with
  | nil => rfl
  | cons node rest step =>
    rw [List.forall_mem_cons] at others
    rw [List.map_cons, Script.execStmts_cons (exec_prepareStatement_other others.1 memory)]
    exact step others.2

/-- The routine that binds the unit takes what the executor of a node exposes, and nothing else. -/
theorem Realizes.exec_prepare (realizes : Realizes plan row steps unit)
    (member : generator ∈ plan.runGenerators) (suits : generator.Suits state kind) :
    Script.execRoutine unit fuel (prepareDecl plan) [.handle (.executor generator.id state)]
        (.of unit content batch cursors) =
      some (.ok .unset, .of unit (content.assignAll (generator.exposures state)) batch
        cursors) := by
  have compilable := realizes.run.compilable
  have apart := realizes.run.apart
  have listed : (generator.id, kind.name) ∈ (registryOf plan).nodes := by
    refine List.mem_flatMap.2 ⟨generator, member, ?_⟩
    rw [Generator.nodes_eq, suits.kinds.1]
    exact List.mem_singleton_self _
  obtain ⟨before, after, split⟩ := List.append_of_mem listed
  have once := registryOf_apart compilable apart
  rw [split, List.map_append, List.map_cons, List.nodup_append, List.nodup_cons] at once
  have block := @Generator.Suits.exec_block unit content batch cursors fuel _ _ _ suits
    realizes.fields_apart (realizes.fields_of_mem member)
  rw [← prepareStatement_eq compilable apart member] at block
  have body : execStmts unit fuel (prepareDecl plan).body (offered generator.id state)
      (.of unit content batch cursors) = some (.ok (.through, offered generator.id state),
        .of unit (content.assignAll (generator.exposures state)) batch cursors) := by
    rw [prepareDecl]
    dsimp only
    rw [split, List.map_append, List.map_cons, Script.execStmts_append, exec_others]
    · simp only [Step.andThen]
      rw [Script.execStmts_cons block]
      refine exec_others (fun node inside same => once.2.1.1 ?_) _
      exact List.mem_map.2 ⟨node, inside, same.symm⟩
    · exact fun node inside same => once.2.2 _ (List.mem_map_of_mem inside) _ List.mem_cons_self
        same.symm
  have start : Script.bindParams (prepareDecl plan).params
      [.handle (.executor generator.id state)] = offered generator.id state := rfl
  rw [Script.execRoutine, start, body]
  rfl

/-- Every field is not set, or holds something of its type. -/
def FieldsFit (plan : Plan) (count : Nat) (content : Contents) : Prop :=
  ∀ entry ∈ (registryOf plan).declared,
    content entry.name = .unset ∨ (content entry.name).Fits count entry.kind.ty

/-- Fields of which none is set fit. -/
theorem FieldsFit.unset (plan : Plan) (count : Nat) : FieldsFit plan count fun _ => .unset :=
  fun _ _ => .inl rfl

/-- A field that is set to something of its type fits. -/
theorem FieldsFit.assign {count : Nat} {slot : Slot} {entry : StateVariable}
    (fits : FieldsFit plan count content) (typed : slot.Fits count entry.kind.ty) :
    FieldsFit plan count (content.assign entry.name slot) := by
  intro other member
  unfold Contents.assign
  split
  · rename_i same
    rw [(StateVariable.name_inj same).2]
    exact .inr typed
  · exact fits other member

/-- What an executor exposes fits. -/
theorem FieldsFit.exposures {count : Nat} (fits : FieldsFit plan count content)
    (suits : generator.Suits state kind) :
    FieldsFit plan count (content.assignAll (generator.exposures state)) := by
  have each : ∀ entry ∈ generator.stateVariables.filter StateVariable.hasPrepare,
      (entry.kind.exposed state).Fits count entry.kind.ty := fun entry member =>
    suits.exposed_fits (List.mem_filter.1 member).1 (List.mem_filter.1 member).2 count
  rw [Contents.assignAll, Generator.exposures]
  generalize generator.stateVariables.filter StateVariable.hasPrepare = entries at each
  induction entries generalizing content with
  | nil => exact fits
  | cons entry rest step =>
    rw [List.forall_mem_cons] at each
    exact step (fits.assign each.1) each.2

/-- Contents that fit make a memory that fits. -/
theorem Realizes.memory_fits (realizes : Realizes plan row steps unit)
    (fits : FieldsFit plan cursors.length content)
    (reached : ∀ cursor ∈ cursors, cursor.Reachable) :
    (Memory.of unit content batch cursors).Fits unit.fields := by
  refine ⟨?_, reached⟩
  rw [Memory.of, realizes.parts.2.2, List.map_map, List.forall₂_map_left_iff,
    List.forall₂_map_right_iff, List.forall₂_same]
  exact fits

/-- Offering the executor of a node to an instance that it is new to binds the node. -/
theorem Realizes.prepare (realizes : Realizes plan row steps unit)
    (member : generator ∈ plan.runGenerators) (suits : generator.Suits state kind)
    (fits : FieldsFit plan cursors.length content) (reached : ∀ cursor ∈ cursors, cursor.Reachable)
    {bound : List NodeId} (new : generator.id ∉ bound) (armed : Bool) : ∃ enough, ∀ fuel,
      enough ≤ fuel →
      (⟨unit, .of unit content batch cursors, bound, armed⟩ : UnitInstance).prepare fuel
      generator.id
        state = some (.ok (), ⟨unit, .of unit (content.assignAll (generator.exposures state)) batch
          cursors, generator.id :: bound, armed⟩) := by
  have runs := realizes.prepare_iff
    (realizes.memory_fits fits reached : (Memory.of unit content batch
    cursors).Fits unit.fields) generator.id state
  obtain ⟨enough, ran⟩ := (runs _).2 ⟨0, realizes.exec_prepare member suits⟩
  have subsumed : unit.subsumedIds.contains generator.id = true := by
    rw [realizes.parts.2.1, List.contains_iff_mem]
    exact id_mem_runIds realizes.run.compilable member
  have free : bound.contains generator.id = false := by simpa using new
  refine ⟨enough, fun fuel more => ?_⟩
  refine UnitInstance.prepare_agrees more generator.id state _ _ ?_
  rw [UnitInstance.prepare, UnitInstance.subsumes, subsumed, free]
  simp only [Bool.not_true, Bool.false_eq_true, if_false, ran]
  rfl

end Runs

end Generate

end QueryFusion
