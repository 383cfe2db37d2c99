import QueryFusion.Proofs.Generate.RowCode

/-!
# Static types of rows

Which locals make up the row of a run, and which local a condition becomes, is known from the plan:
fields have the types that the scan reads them as, whole objects their class, and expressions the
types that inlining gives them. The code of a row has exactly these types, and takes its row from
the locals that it declares.
-/

namespace QueryFusion

open Generate Emit

/-- The type of the local of a whole key or value. -/
def Shape.localType : Shape → LocalType
  | .ofClass className => .object className
  | .scalar _ => .value

namespace ScanSpec

/-- The type of the local of a field: a whole object keeps its class. -/
def fieldType (spec : ScanSpec) (field : FieldPath × DataType) : LocalType :=
  match field.1.below, spec.shapeOf field.1.ofKey with
  | none, .ofClass className => .object className
  | _, _ => .scalar field.2

/-- The types of all fields that a scan reads. -/
def fieldTypes (spec : ScanSpec) : List LocalType :=
  (spec.paths.zip spec.types).map spec.fieldType

end ScanSpec

namespace Plan

/-- The types of the columns of a run. -/
def columnTypes : Plan → List LocalType
  | scan _ spec => spec.projects.filterMap fun index => spec.fieldTypes[index]?
  | filter _ _ input => input.columnTypes
  | project _ expressions input => expressions.map (exprType input.columnTypes)
  | root .. | sort .. | join .. => []

/-- The types of the conditions of a run, as they are before they are made boolean: that of the scan
and those of the filters. -/
def conditionTypes : Plan → List LocalType
  | scan _ spec => spec.filter.toList.map (exprType spec.fieldTypes)
  | filter _ condition input => input.conditionTypes ++ [exprType input.columnTypes condition]
  | project _ _ input => input.conditionTypes
  | root .. | sort .. | join .. => []

end Plan

namespace Generate

/-! ## Locals of expressions -/

/-- The local is declared by one of the bindings. -/
def Declared (bindings : List Binding) (entry : Local) : Prop :=
  ∃ binding ∈ bindings, binding.entry = entry

namespace Declared

variable {first second : List Binding} {entry : Local}

/-- More declarations behind. -/
theorem left (declared : Declared first entry) : Declared (first ++ second) entry := by
  obtain ⟨binding, member, same⟩ := declared
  exact ⟨binding, List.mem_append_left _ member, same⟩

/-- More declarations in front. -/
theorem right (declared : Declared second entry) : Declared (first ++ second) entry := by
  obtain ⟨binding, member, same⟩ := declared
  exact ⟨binding, List.mem_append_right _ member, same⟩

/-- The last declaration. -/
theorem last {binding : Binding} : Declared (first ++ [binding]) binding.entry :=
  ⟨binding, List.mem_append_right _ (List.mem_singleton_self _), rfl⟩

end Declared

namespace Inlining

variable {inlining : Inlining} {keeper : Keeper} {expr : Expr} {imports : List String}
  {entry : Local} {bindings : List Binding}

/-- What an expression becomes is an input or a new local. -/
theorem Emits.declared (emits : inlining.Emits keeper expr imports entry bindings) :
    entry ∈ inlining.inputs ∨ Declared bindings entry := by
  cases emits with
  | inlined inlines =>
    cases inlines with
    | column present => exact .inl (List.mem_of_getElem? present)
    | constant written => exact .inr (@Declared.last [] _)
    | arithmetic | comparison | logical | not | isNull => exact .inr .last
  | evaluated => exact .inr (@Declared.last [_] _)

end Inlining

/-! ## Locals of a scan -/

/-- The locals of a scan have the types of the plan, and have been declared. -/
structure ScanLocals.Agrees (spec : ScanSpec) (bindings : List Binding) (locals : ScanLocals) :
    Prop where
  top : ∀ ofKey entry, locals.top ofKey = some entry →
    entry.type = (spec.shapeOf ofKey).localType ∧ Declared bindings entry
  fields : ∀ field entry, (field, entry) ∈ locals.fields →
    entry.type = spec.fieldType field ∧ Declared bindings entry

section Scanning

variable {id : NodeId} {spec : ScanSpec} {ofKey : Bool} {locals next : ScanLocals}
  {top entry : Local} {done bindings : List Binding} {path : FieldPath} {type : DataType}

/-- The local that is read last is known. -/
theorem ScanLocals.top_withTop (locals : ScanLocals) (ofKey other : Bool) (top : Local) :
    (locals.withTop ofKey top).top other = if other = ofKey then some top
    else locals.top other := by
  cases ofKey <;> cases other <;> rfl

/-- The fields do not change. -/
theorem ScanLocals.fields_withTop (locals : ScanLocals) (ofKey : Bool) (top : Local) :
    (locals.withTop ofKey top).fields = locals.fields := by
  cases ofKey <;> rfl

/-- A scan without locals. -/
theorem ScanLocals.Agrees.empty : ScanLocals.empty.Agrees spec [] where
  top := by
    intro ofKey entry found
    cases ofKey <;> cases found
  fields := fun _ _ member => nomatch member

/-- More declarations. -/
theorem ScanLocals.Agrees.more (agrees : locals.Agrees spec done) (bindings : List Binding) :
    locals.Agrees spec (done ++ bindings) where
  top := fun ofKey entry found => (agrees.top ofKey entry found).imp id Declared.left
  fields := fun field entry member => (agrees.fields field entry member).imp id Declared.left

/-- One more field. -/
theorem ScanLocals.Agrees.withField (agrees : locals.Agrees spec done)
    (typed : entry.type = spec.fieldType (path, type)) (declared : Declared done entry) :
    (locals.withField path type entry).Agrees spec done where
  top := agrees.top
  fields := by
    intro field other member
    rcases List.mem_cons.1 member with same | old
    · obtain ⟨rfl, rfl⟩ := Prod.mk.inj same
      exact ⟨typed, declared⟩
    · exact agrees.fields field other old

/-- The type of the local of a whole key or value. -/
theorem topBinding_type (id : NodeId) (ofKey : Bool) (shape : Shape) :
    (topBinding id ofKey shape).entry.type = shape.localType := by
  cases shape <;> rfl

/-- A whole key or value has its type. -/
theorem TopCode.agrees (code : TopCode id spec ofKey locals top next bindings)
    (agrees : locals.Agrees spec done) :
    top.type = (spec.shapeOf ofKey).localType ∧ Declared (done ++ bindings) top ∧
      next.Agrees spec (done ++ bindings) := by
  cases code with
  | known found =>
    obtain ⟨typed, declared⟩ := agrees.top ofKey top found
    exact ⟨typed, declared.left, agrees.more []⟩
  | read missing =>
    have typed := topBinding_type id ofKey (spec.shapeOf ofKey)
    refine ⟨typed, .last, ⟨fun other entry found => ?_, fun field entry member => ?_⟩⟩
    · rw [ScanLocals.top_withTop] at found
      split at found
      · rename_i same
        cases found
        exact ⟨same ▸ typed, .last⟩
      · exact (agrees.more _).top other entry found
    · rw [ScanLocals.fields_withTop] at member
      exact (agrees.more _).fields field entry member

/-- A field has its type. -/
theorem FieldCode.agrees (code : FieldCode id spec path type locals entry next bindings)
    (agrees : locals.Agrees spec done) :
    entry.type = spec.fieldType (path, type) ∧ Declared (done ++ bindings) entry ∧
      next.Agrees spec (done ++ bindings) := by
  cases code with
  | whole below shape read =>
    obtain ⟨typed, declared, behind⟩ := read.agrees agrees
    refine ⟨?_, declared, behind⟩
    rw [typed, ScanSpec.fieldType, below, shape]
    rfl
  | scalar below shape read named =>
    obtain ⟨-, -, behind⟩ := read.agrees agrees
    rw [← List.append_assoc]
    refine ⟨?_, @Declared.last _ ⟨⟨_, .scalar type⟩, _⟩, behind.more _⟩
    rw [ScanSpec.fieldType, below, shape]
  | field below shape read named =>
    obtain ⟨-, -, behind⟩ := read.agrees agrees
    rw [← List.append_assoc]
    refine ⟨?_, @Declared.last _ ⟨⟨_, .scalar type⟩, _⟩, behind.more _⟩
    rw [ScanSpec.fieldType, below]

/-- All fields have their types. -/
theorem FieldsCode.agrees {fields : List (FieldPath × DataType)} {row : List Local}
    (code : FieldsCode id spec fields locals row bindings) (agrees : locals.Agrees spec done) :
    row.map Local.type = fields.map spec.fieldType ∧
      ∀ entry ∈ row, Declared (done ++ bindings) entry := by
  induction code generalizing done with
  | nil => exact ⟨rfl, fun _ member => nomatch member⟩
  | again seen further step =>
    obtain ⟨typed, declared⟩ := agrees.fields _ _ seen
    obtain ⟨types, others⟩ := step agrees
    exact ⟨by rw [List.map_cons, List.map_cons, typed, types],
      List.forall_mem_cons.2 ⟨declared.left, others⟩⟩
  | fresh read further step =>
    obtain ⟨typed, declared, behind⟩ := read.agrees agrees
    obtain ⟨types, others⟩ := step (behind.withField typed declared)
    rw [List.append_assoc] at others
    refine ⟨by rw [List.map_cons, List.map_cons, typed, types], List.forall_mem_cons.2 ⟨?_, others⟩⟩
    rw [← List.append_assoc]
    exact declared.left

/-- The fields of a scan have the types of the plan. -/
theorem FieldsCode.types_eq {row : List Local}
    (code : FieldsCode id spec (spec.paths.zip spec.types) .empty row bindings) :
    row.map Local.type = spec.fieldTypes ∧ ∀ entry ∈ row, Declared bindings entry :=
  code.agrees .empty

/-- The selected locals are those of the indices. -/
theorem selectLocals_eq {fields row : List Local} {projects : List Nat}
    (selected : selectLocals id fields projects = .ok row) :
    row = projects.filterMap fun index => fields[index]? := by
  induction projects generalizing row with
  | nil =>
    cases selected
    rfl
  | cons index rest step =>
    rw [selectLocals] at selected
    cases found : fields[index]? with
    | none =>
      rw [found] at selected
      cases selected
    | some entry =>
      rw [found] at selected
      obtain ⟨others, further, selected⟩ := bind_eq_ok_iff.1 selected
      cases selected
      rw [List.filterMap_cons, found, step further]

end Scanning

/-! ## Locals of a run -/

/-- The expressions of a projection have the types of the plan. -/
theorem ProjectsCode.types_eq {wide : Prop} {id : NodeId} {row projected : List Local}
    {expressions : List Expr} {index : Nat} {bindings : List Binding}
    (code : ProjectsCode wide id row expressions index projected bindings) :
    projected.map Local.type = expressions.map (exprType (row.map Local.type)) ∧
      ∀ entry ∈ projected, entry ∈ row ∨ Declared bindings entry := by
  induction code with
  | nil => exact ⟨rfl, fun _ member => nomatch member⟩
  | cons emits small further step =>
    obtain ⟨types, others⟩ := step
    have typed := emits.type_eq
    refine ⟨by rw [List.map_cons, List.map_cons, types, typed]; rfl,
      List.forall_mem_cons.2 ⟨?_, ?_⟩⟩
    · exact emits.declared.imp_right Declared.left
    · exact fun entry member => (others entry member).imp_right Declared.right

/-- The row of a run has the types of the plan, and its locals have been declared. -/
theorem RowCode.types_eq {wide : Prop} {plan : Plan} {row : List Local} {steps : List RowStep}
    (code : RowCode wide plan row steps) : row.map Local.type = plan.columnTypes ∧
      ∀ entry ∈ row, Declared (steps.flatMap RowStep.bindings) entry := by
  induction code with
  | @scan id spec fields row bindings steps read distinct tests apart selected =>
    obtain ⟨types, declared⟩ := read.types_eq
    obtain rfl := selectLocals_eq selected
    rw [List.flatMap_append, RowStep.flatMap_bindings_bind]
    constructor
    · rw [Plan.columnTypes, ← types, List.map_filterMap]
      simp only [List.getElem?_map]
    · intro entry member
      obtain ⟨index, -, found⟩ := List.mem_filterMap.1 member
      exact (declared entry (List.mem_of_getElem? found)).left
  | filter below tests apart step =>
    obtain ⟨types, declared⟩ := step
    refine ⟨types, fun entry member => ?_⟩
    rw [List.flatMap_append]
    exact (declared entry member).left
  | project below projects apart step =>
    obtain ⟨types, declared⟩ := step
    obtain ⟨projected, inside⟩ := projects.types_eq
    rw [List.flatMap_append, RowStep.flatMap_bindings_bind]
    refine ⟨by rw [projected, types]; rfl, fun entry member => ?_⟩
    rcases inside entry member with old | new
    · exact (declared entry old).left
    · exact new.right

end Generate

end QueryFusion
