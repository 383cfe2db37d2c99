import QueryFusion.Proofs.Generate.Naming
import QueryFusion.Proofs.Outcome

/-!
# Names of fields

The fields of a scan are read into locals that are named after them. A field of a name that is taken
gets its index in addition; that name can be taken as well, by a field that is called so. A scan is
written exactly when this does not happen.
-/

namespace QueryFusion.Generate

open Emit

/-! ## Fields of scans -/

/-- The field reads the path as the type, and no field before it does. -/
def FirstRead (fields : List (FieldPath × DataType)) (index : Nat) (path : FieldPath)
    (type : DataType) : Prop :=
  fields[index]? = some (path, type) ∧ ∀ earlier < index, fields[earlier]? ≠ some (path, type)

/-- The names that the first fields of a scan take below the key or the value: their own names, and
their own names with their indices where these were taken before. -/
inductive Taken (fields : List (FieldPath × DataType)) : Nat → Bool → String → Prop
  | named {limit index : Nat} {path : FieldPath} {type : DataType} {field : String}
      (before : index < limit) (read : fields[index]? = some (path, type))
      (below : path.below = some field) : Taken fields limit path.ofKey field
  | numbered {limit index : Nat} {path : FieldPath} {type : DataType} {field : String}
      (before : index < limit) (read : FirstRead fields index path type)
      (below : path.below = some field) (taken : Taken fields index path.ofKey field) :
      Taken fields limit path.ofKey (field ++ "_" ++ toString index)

/-- The name of the field is taken, and so is the one with its index. -/
def ClashAt (fields : List (FieldPath × DataType)) (index : Nat) : Prop :=
  ∃ path type field, FirstRead fields index path type ∧ path.below = some field ∧
    Taken fields index path.ofKey field ∧
    Taken fields index path.ofKey (field ++ "_" ++ toString index)

/-- Names that were taken stay so. -/
theorem Taken.mono {fields : List (FieldPath × DataType)} {limit further : Nat} {ofKey : Bool}
    {name : String} (taken : Taken fields limit ofKey name) (bound : limit ≤ further) :
    Taken fields further ofKey name := by
  cases taken with
  | named before read below => exact .named (by omega) read below
  | numbered before read below taken => exact .numbered (by omega) read below taken

/-- The names that one more field takes. -/
theorem taken_succ_iff {fields : List (FieldPath × DataType)} {index : Nat} {path : FieldPath}
    {type : DataType} (read : fields[index]? = some (path, type)) (ofKey : Bool) (name : String) :
    Taken fields (index + 1) ofKey name ↔ Taken fields index ofKey name ∨
      ∃ field, path.ofKey = ofKey ∧ path.below = some field ∧ (name = field ∨
        FirstRead fields index path type ∧ Taken fields index ofKey field ∧
          name = field ++ "_" ++ toString index) := by
  constructor
  · intro taken
    cases taken with
    | @named _ earlier _ _ _ before found below =>
      rcases Nat.lt_succ_iff_lt_or_eq.1 before with less | rfl
      · exact .inl (.named less found below)
      · rw [read] at found
        cases found
        exact .inr ⟨_, rfl, below, .inl rfl⟩
    | @numbered _ earlier _ _ _ before found below taken =>
      rcases Nat.lt_succ_iff_lt_or_eq.1 before with less | rfl
      · exact .inl (.numbered less found below taken)
      · have same := found.1
        rw [read] at same
        cases same
        exact .inr ⟨_, rfl, below, .inr ⟨found, taken, rfl⟩⟩
  · rintro (taken | ⟨field, rfl, below, rfl | ⟨first, taken, rfl⟩⟩)
    · exact taken.mono (Nat.le_succ _)
    · exact .named (Nat.lt_succ_self _) read below
    · exact .numbered (Nat.lt_succ_self _) first below taken

/-- The part of a name that stands for the key or the value. -/
def sideName (ofKey : Bool) : String :=
  if ofKey then "key" else "value"

/-- The name of the local that holds the whole key or value. -/
def topName (id : NodeId) (ofKey : Bool) : String :=
  stemOf id "top" ++ "_" ++ sideName ofKey

end QueryFusion.Generate

namespace QueryFusion

/-- The shape of the key or the value. -/
def ScanSpec.shapeOf (spec : ScanSpec) (ofKey : Bool) : Shape :=
  if ofKey then spec.keyShape else spec.valueShape

/-- The local of the whole key or value, if there is one. -/
def Generate.ScanLocals.top (locals : ScanLocals) (ofKey : Bool) : Option Emit.Local :=
  if ofKey then locals.key else locals.value

end QueryFusion

namespace QueryFusion.Generate

open Emit

/-- The names in a routine after some fields of a scan. -/
structure ScanNames (id : NodeId) (spec : ScanSpec) (fields : List (FieldPath × DataType))
    (index : Nat) (locals : ScanLocals) (draft : RoutineDraft) : Prop where
  /-- There are no locals but those of the key and the value, and those of fields. -/
  roles : ∀ entry ∈ draft.locals, ∃ role ∈ ["top", "key", "value"],
    Under (stemOf id role) entry.name
  /-- The whole key or value is declared once. -/
  top : ∀ ofKey, locals.top ofKey = none → Lacks draft (· = topName id ofKey)
  /-- Below a class, exactly the names of fields are taken. -/
  classes : ∀ ofKey className, spec.shapeOf ofKey = .ofClass className → ∀ field,
    (∃ entry ∈ draft.locals, entry.name = stemOf id (sideName ofKey) ++ "_" ++ field) ↔
      Taken fields index ofKey field
  /-- A scalar is read under its own name, or under one with the index of the field. -/
  scalars : ∀ ofKey type, spec.shapeOf ofKey = .scalar type → ∀ entry ∈ draft.locals,
    Under (stemOf id (sideName ofKey)) entry.name → entry.name = stemOf id (sideName ofKey) ∨
      ∃ earlier < index, entry.name = stemOf id (sideName ofKey) ++ "_" ++ toString earlier
  /-- The fields read so far are known. -/
  known : ∀ path type, (locals.fields.find? fun entry => entry.1 == (path, type)).isSome = true ↔
    ∃ earlier < index, fields[earlier]? = some (path, type)

variable {id : NodeId} {spec : ScanSpec} {fields : List (FieldPath × DataType)} {index : Nat}
  {locals : ScanLocals} {draft : RoutineDraft}

/-- The parts of names in a scan. -/
theorem plain_roles : Plain "top" ∧ Plain "key" ∧ Plain "value" ∧ Plain "filter" ∧
    Plain "project" ∧ Plain "output" := by
  unfold Plain
  decide

/-- The part of the key or the value is a plain one. -/
theorem plain_sideName (ofKey : Bool) : Plain (sideName ofKey) := by
  cases ofKey <;> unfold Plain <;> decide

/-- A name that belongs to the whole key or value belongs to no field. -/
theorem top_apart {name : String} {ofKey : Bool} (top : Under (stemOf id "top") name) :
    ¬ Under (stemOf id (sideName ofKey)) name := by
  intro side
  have same := top.role_unique side plain_roles.1 (plain_sideName ofKey)
  cases ofKey <;> exact absurd same (by decide)

/-- A name belongs to the key or to the value only. -/
theorem side_unique {name : String} {first second : Bool}
    (left : Under (stemOf id (sideName first)) name)
    (right : Under (stemOf id (sideName second)) name) : first = second := by
  have same := left.role_unique right (plain_sideName first) (plain_sideName second)
  cases first <;> cases second <;> first | rfl | exact absurd same (by decide)

/-- The names after the declaration of the whole key or value. -/
theorem ScanNames.withTop (names : ScanNames id spec fields index locals draft) {ofKey : Bool}
    {top : Local} {next : RoutineDraft} (named : top.name = topName id ofKey)
    (grown : next.locals = draft.locals ++ [top]) :
    ScanNames id spec fields index (if ofKey then { locals with key := some top }
      else { locals with value := some top }) next := by
  have under : Under (stemOf id "top") top.name := .inr ⟨sideName ofKey, named⟩
  have members : ∀ entry, entry ∈ next.locals ↔ entry ∈ draft.locals ∨ entry = top := by
    intro entry
    rw [grown, List.mem_append, List.mem_singleton]
  have kept : (if ofKey then { locals with key := some top }
      else { locals with value := some top }).fields = locals.fields := by
    cases ofKey <;> rfl
  refine ⟨?_, ?_, ?_, ?_, ?_⟩
  · intro entry member
    rcases (members entry).1 member with old | rfl
    · exact names.roles entry old
    · exact ⟨"top", List.mem_cons_self, under⟩
  · intro side missing entry member same
    rcases (members entry).1 member with old | rfl
    · refine names.top side ?_ entry old same
      cases ofKey <;> cases side <;> simp_all [ScanLocals.top]
    · rw [named] at same
      cases ofKey <;> cases side <;> simp [topName, sideName, ScanLocals.top] at same missing
  · intro side className shape field
    rw [← names.classes side className shape field]
    constructor
    · rintro ⟨entry, member, same⟩
      rcases (members entry).1 member with old | rfl
      · exact ⟨entry, old, same⟩
      · exact absurd (.inr ⟨field, same⟩) (top_apart under)
    · rintro ⟨entry, member, same⟩
      exact ⟨entry, (members entry).2 (.inl member), same⟩
  · intro side type shape entry member below
    rcases (members entry).1 member with old | rfl
    · exact names.scalars side type shape entry old below
    · exact absurd below (top_apart under)
  · intro path type
    rw [kept]
    exact names.known path type

/-- The whole key or value is declared on first use. -/
theorem emitTop_succeeds (names : ScanNames id spec fields index locals draft) (ofKey : Bool) :
    Succeeds (emitTop id spec ofKey locals) draft fun result next =>
      ScanNames id spec fields index result.2 next ∧ result.2.fields = locals.fields := by
  have kept : ∀ top, (if ofKey then { locals with key := some top }
      else { locals with value := some top }).fields = locals.fields := by
    cases ofKey <;> exact fun _ => rfl
  have written : "_" ++ id.text ++ "_top_" ++
      (if ofKey then Script.Method.cursorKey else .cursorValue).name = topName id ofKey := by
    cases ofKey <;> simp [topName, stemOf, sideName, Script.Method.name, String.append_assoc]
  unfold emitTop
  cases found : (if ofKey then locals.key else locals.value) with
  | some top => exact .pure ⟨names, rfl⟩
  | none =>
    have free := names.top ofKey found
    dsimp only
    rw [written]
    cases (if ofKey then spec.keyShape else spec.valueShape) with
    | ofClass className =>
      exact (declare_succeeds free _).bind fun _ next grown =>
        .pure ⟨names.withTop rfl grown, kept _⟩
    | scalar type =>
      exact (declare_succeeds free _).bind fun _ next grown =>
        .pure ⟨names.withTop rfl grown, kept _⟩

/-- A field is known behind those before it. -/
theorem ScanNames.known_cons (names : ScanNames id spec fields index locals draft)
    {path : FieldPath} {type : DataType} (read : fields[index]? = some (path, type))
    (entry : Local) (otherPath : FieldPath) (otherType : DataType) :
    ((((path, type), entry) :: locals.fields).find?
        fun known => known.1 == (otherPath, otherType)).isSome = true ↔
      ∃ earlier < index + 1, fields[earlier]? = some (otherPath, otherType) := by
  rw [List.find?_cons]
  split
  · rename_i same
    rw [beq_iff_eq] at same
    simp only [Option.isSome_some, true_iff]
    exact ⟨index, Nat.lt_succ_self _, same ▸ read⟩
  · rename_i other
    rw [names.known]
    constructor
    · rintro ⟨earlier, less, found⟩
      exact ⟨earlier, Nat.lt_succ_of_lt less, found⟩
    · rintro ⟨earlier, less, found⟩
      rcases Nat.lt_succ_iff_lt_or_eq.1 less with before | rfl
      · exact ⟨earlier, before, found⟩
      · rw [read] at found
        cases found
        simp at other

/-- The names after a field that needs no local of its own. -/
theorem ScanNames.unchanged (names : ScanNames id spec fields index locals draft)
    {next : ScanLocals} (tops : ∀ ofKey, next.top ofKey = locals.top ofKey)
    (taken : ∀ ofKey name, Taken fields (index + 1) ofKey name ↔ Taken fields index ofKey name)
    (known : ∀ path type, (next.fields.find? fun entry => entry.1 == (path, type)).isSome = true ↔
      ∃ earlier < index + 1, fields[earlier]? = some (path, type)) :
    ScanNames id spec fields (index + 1) next draft := by
  refine ⟨names.roles, fun ofKey missing => ?_, fun ofKey className shape field => ?_,
    fun ofKey type shape entry member sided => ?_, known⟩
  · exact names.top ofKey (by rw [← tops, missing])
  · rw [taken]
    exact names.classes ofKey className shape field
  · rcases names.scalars ofKey type shape entry member sided with same | ⟨earlier, less, same⟩
    · exact .inl same
    · exact .inr ⟨earlier, Nat.lt_succ_of_lt less, same⟩

/-- The names after a field that was read before. -/
theorem ScanNames.again (names : ScanNames id spec fields index locals draft) {path : FieldPath}
    {type : DataType} (read : fields[index]? = some (path, type))
    (seen : ∃ earlier < index, fields[earlier]? = some (path, type)) :
    ScanNames id spec fields (index + 1) locals draft := by
  obtain ⟨earlier, less, found⟩ := seen
  refine names.unchanged (fun _ => rfl) (fun ofKey name => ?_) fun otherPath otherType => ?_
  · rw [taken_succ_iff read, or_iff_left_of_imp]
    rintro ⟨field, rfl, below, rfl | ⟨first, -, -⟩⟩
    · exact .named less found below
    · exact absurd found (first.2 earlier less)
  · rw [names.known]
    constructor
    · rintro ⟨other, before, same⟩
      exact ⟨other, Nat.lt_succ_of_lt before, same⟩
    · rintro ⟨other, before, same⟩
      rcases Nat.lt_succ_iff_lt_or_eq.1 before with before | rfl
      · exact ⟨other, before, same⟩
      · rw [read] at same
        cases same
        exact ⟨earlier, less, found⟩

/-- The names after a whole object, whose local serves as the field. -/
theorem ScanNames.whole (names : ScanNames id spec fields index locals draft) {path : FieldPath}
    {type : DataType} (read : fields[index]? = some (path, type)) (whole : path.below = none)
    (entry : Local) :
    ScanNames id spec fields (index + 1)
      { locals with fields := ((path, type), entry) :: locals.fields } draft := by
  refine names.unchanged (fun _ => rfl) (fun ofKey name => ?_) (names.known_cons read entry)
  rw [taken_succ_iff read, or_iff_left]
  rintro ⟨field, -, below, -⟩
  rw [whole] at below
  cases below

/-- A local below the key or the value has one of the roles, and is no whole key or value. -/
theorem ScanNames.declared (names : ScanNames id spec fields index locals draft) {ofKey : Bool}
    {entry : Local} {next : RoutineDraft} (under : Under (stemOf id (sideName ofKey)) entry.name)
    (grown : next.locals = draft.locals ++ [entry]) :
    (∀ other ∈ next.locals, ∃ role ∈ ["top", "key", "value"], Under (stemOf id role) other.name) ∧
      ∀ side, locals.top side = none → Lacks next (· = topName id side) := by
  unfold Lacks
  simp only [grown, List.forall_mem_append, List.forall_mem_singleton]
  refine ⟨⟨names.roles, sideName ofKey, by cases ofKey <;> decide, under⟩, fun side missing =>
    ⟨names.top side missing, fun same => top_apart (.inr ⟨sideName side, same⟩) under⟩⟩

/-- The names after a scalar. -/
theorem ScanNames.withScalar (names : ScanNames id spec fields index locals draft)
    {path : FieldPath} {type scalar : DataType} {entry : Local} {next : RoutineDraft}
    (read : fields[index]? = some (path, type)) (whole : path.below = none)
    (shape : spec.shapeOf path.ofKey = .scalar scalar)
    (grown : next.locals = draft.locals ++ [entry])
    (named : entry.name = stemOf id (sideName path.ofKey) ∨
      entry.name = stemOf id (sideName path.ofKey) ++ "_" ++ toString index) :
    ScanNames id spec fields (index + 1)
      { locals with fields := ((path, type), entry) :: locals.fields } next := by
  have under : Under (stemOf id (sideName path.ofKey)) entry.name := by
    rcases named with same | same
    · exact .inl same
    · exact .inr ⟨_, same⟩
  have members : ∀ other, other ∈ next.locals ↔ other ∈ draft.locals ∨ other = entry := by
    intro other
    rw [grown, List.mem_append, List.mem_singleton]
  have before := names.whole read whole entry
  obtain ⟨roles, tops⟩ := names.declared under grown
  refine ⟨roles, tops, ?_, ?_, before.known⟩
  · intro side className sideShape name
    rw [← before.classes side className sideShape name]
    constructor
    · rintro ⟨other, member, same⟩
      rcases (members other).1 member with old | rfl
      · exact ⟨other, old, same⟩
      · obtain rfl := side_unique under (.inr ⟨name, same⟩)
        rw [shape] at sideShape
        cases sideShape
    · rintro ⟨other, member, same⟩
      exact ⟨other, (members other).2 (.inl member), same⟩
  · intro side sideType sideShape other member sided
    rcases (members other).1 member with old | rfl
    · exact before.scalars side sideType sideShape other old sided
    · obtain rfl := side_unique under sided
      exact named.imp_right fun same => ⟨index, Nat.lt_succ_self _, same⟩

/-- The names after a field that is read from a class. -/
theorem ScanNames.withField (names : ScanNames id spec fields index locals draft)
    {path : FieldPath} {type : DataType} {className field : String} {entry : Local}
    {next : RoutineDraft} (read : FirstRead fields index path type)
    (below : path.below = some field) (shape : spec.shapeOf path.ofKey = .ofClass className)
    (grown : next.locals = draft.locals ++ [entry])
    (named : ¬ Taken fields index path.ofKey field ∧
        entry.name = stemOf id (sideName path.ofKey) ++ "_" ++ field ∨
      Taken fields index path.ofKey field ∧
        entry.name = stemOf id (sideName path.ofKey) ++ "_" ++ (field ++ "_" ++ toString index)) :
    ScanNames id spec fields (index + 1)
      { locals with fields := ((path, type), entry) :: locals.fields } next := by
  have under : Under (stemOf id (sideName path.ofKey)) entry.name := by
    rcases named with ⟨-, same⟩ | ⟨-, same⟩
    · exact .inr ⟨_, same⟩
    · exact .inr ⟨_, same⟩
  have members : ∀ other, other ∈ next.locals ↔ other ∈ draft.locals ∨ other = entry := by
    intro other
    rw [grown, List.mem_append, List.mem_singleton]
  obtain ⟨roles, tops⟩ := names.declared under grown
  refine ⟨roles, tops, ?_, ?_, ?_⟩
  · intro side otherClass sideShape name
    rw [taken_succ_iff read.1, ← names.classes side otherClass sideShape name]
    constructor
    · rintro ⟨other, member, same⟩
      rcases (members other).1 member with old | rfl
      · exact .inl ⟨other, old, same⟩
      · obtain rfl := side_unique under (.inr ⟨name, same⟩)
        right
        refine ⟨field, rfl, below, ?_⟩
        rcases named with ⟨-, mine⟩ | ⟨taken, mine⟩
        · rw [mine] at same
          exact .inl (String.append_right_inj _ |>.1 same).symm
        · rw [mine] at same
          exact .inr ⟨read, taken, (String.append_right_inj _ |>.1 same).symm⟩
    · rintro (⟨other, member, same⟩ | ⟨ownField, rfl, ownBelow, cases⟩)
      · exact ⟨other, (members other).2 (.inl member), same⟩
      · rw [below] at ownBelow
        cases ownBelow
        rcases cases with rfl | ⟨-, taken, rfl⟩
        · rcases named with ⟨-, mine⟩ | ⟨taken, -⟩
          · exact ⟨entry, (members entry).2 (.inr rfl), mine⟩
          · obtain ⟨other, member, same⟩ := (names.classes _ _ sideShape _).2 taken
            exact ⟨other, (members other).2 (.inl member), same⟩
        · rcases named with ⟨free, -⟩ | ⟨-, mine⟩
          · exact absurd taken free
          · exact ⟨entry, (members entry).2 (.inr rfl), mine⟩
  · intro side scalar sideShape other member sided
    rcases (members other).1 member with old | rfl
    · rcases names.scalars side scalar sideShape other old sided with same | ⟨earlier, less, same⟩
      · exact .inl same
      · exact .inr ⟨earlier, Nat.lt_succ_of_lt less, same⟩
    · obtain rfl := side_unique under sided
      rw [shape] at sideShape
      cases sideShape
  · exact names.known_cons read.1 entry

/-- A field takes its own name if that is free, else the one with its index. -/
theorem declareField_drafts {α : Type} (name value : String) (type : DataType) (index : Nat)
    (rest : α) :
    Drafts
      (do
        let taken := ((← get).localOf? name).isSome
        let entry : Local := ⟨if taken then name ++ "_" ++ toString index else name, .scalar type⟩
        Drafting.declare entry value
        pure (entry, rest)) draft
      (fun result next => result.2 = rest ∧ next.locals = draft.locals ++ [result.1] ∧
        (Lacks draft (· = name) ∧ result.1.name = name ∨
          ¬ Lacks draft (· = name) ∧ Lacks draft (· = name ++ "_" ++ toString index) ∧
            result.1.name = name ++ "_" ++ toString index))
      fun _ _ => ¬ Lacks draft (· = name) ∧ ¬ Lacks draft (· = name ++ "_" ++ toString index) := by
  refine get_succeeds.bind ?_
  rintro _ _ ⟨rfl, rfl⟩
  rename RoutineDraft => draft
  by_cases free : Lacks draft (· = name)
  · have missing : (draft.localOf? name).isSome = false := by
      rw [(localOf?_eq_none_iff draft name).2 free]
      rfl
    simp only [missing, Bool.false_eq_true, if_false]
    refine (declare_succeeds free value).bind fun _ next grown =>
      .pure ⟨rfl, grown, .inl ⟨free, rfl⟩⟩
  · have found : (draft.localOf? name).isSome = true := by
      rw [← Option.isNone_eq_false_iff, Bool.eq_false_iff, ne_eq, Option.isNone_iff_eq_none]
      exact fun missing => free ((localOf?_eq_none_iff draft name).1 missing)
    simp only [found, if_true]
    refine ((declare_drafts _ value).imp (fun _ _ added => added)
      fun _ _ refused => ⟨free, refused⟩).bind fun _ next added => ?_
    exact .pure ⟨rfl, added.2, .inr ⟨free, added.1, rfl⟩⟩

/-- Names are free below a class exactly when no field took them. -/
theorem ScanNames.lacks_iff (names : ScanNames id spec fields index locals draft) {ofKey : Bool}
    {className : String} (shape : spec.shapeOf ofKey = .ofClass className) (field : String) :
    Lacks draft (· = stemOf id (sideName ofKey) ++ "_" ++ field) ↔
      ¬ Taken fields index ofKey field := by
  rw [← names.classes ofKey className shape field]
  simp only [Lacks, not_exists, not_and]

/-- The field at the index is the one read there, so only that one can clash. -/
theorem clashAt_iff {path : FieldPath} {type : DataType} (read : FirstRead fields index path type) :
    ClashAt fields index ↔ ∃ field, path.below = some field ∧
      Taken fields index path.ofKey field ∧
      Taken fields index path.ofKey (field ++ "_" ++ toString index) := by
  constructor
  · rintro ⟨otherPath, otherType, field, first, below, taken, also⟩
    have same := first.1
    rw [read.1] at same
    cases same
    exact ⟨field, below, taken, also⟩
  · rintro ⟨field, below, taken, also⟩
    exact ⟨path, type, field, read, below, taken, also⟩

/-- A scalar is numbered by the index of its column, which no column before has. -/
theorem ScanNames.lacks_numbered (names : ScanNames id spec fields index locals draft)
    {ofKey : Bool} {scalar : DataType}
    (shape : (if ofKey then spec.keyShape else spec.valueShape) = .scalar scalar) :
    Lacks draft (· = stemOf id (sideName ofKey) ++ "_" ++ toString index) := by
  intro entry member same
  rcases names.scalars ofKey scalar shape entry member (.inr ⟨_, same⟩) with
    bare | ⟨earlier, less, other⟩
  · have length := congrArg (fun text => text.toList.length) (bare.symm.trans same)
    simp at length
  · have equal := toString_inj (String.append_right_inj _ |>.1 (other.symm.trans same))
    omega

/-- A field is read under a free name unless its names clash. -/
theorem emitField_drafts (names : ScanNames id spec fields index locals draft) {path : FieldPath}
    {type : DataType} (read : FirstRead fields index path type)
    (accepted : checkField spec.keyShape spec.valueShape path type = .ok ()) :
    Drafts (emitField id spec index path type locals) draft
      (fun result next => ScanNames id spec fields (index + 1)
        { result.2 with fields := ((path, type), result.1) :: result.2.fields } next ∧
          ¬ ClashAt fields index)
      fun _ _ => ClashAt fields index := by
  have clash := clashAt_iff read
  have stem : "_" ++ id.text ++ "_" ++ (if path.ofKey then "key" else "value") =
      stemOf id (sideName path.ofKey) := rfl
  unfold emitField
  refine (emitTop_succeeds names path.ofKey).bind ?_
  rintro ⟨top, known⟩ changed ⟨names, -⟩
  dsimp only at names ⊢
  rw [stem]
  cases below : path.below with
  | none =>
    have calm : ¬ ClashAt fields index := by
      rw [clash, below]
      rintro ⟨field, never, -⟩
      cases never
    cases shape : (if path.ofKey then spec.keyShape else spec.valueShape) with
    | ofClass className => exact .pure ⟨names.whole read.1 below top, calm⟩
    | scalar scalar =>
      refine (declareField_drafts _ _ type index known).imp ?_ ?_
      · rintro ⟨entry, _⟩ next ⟨rfl, grown, named⟩
        refine ⟨names.withScalar read.1 below shape grown ?_, calm⟩
        rcases named with ⟨-, same⟩ | ⟨-, -, same⟩
        · exact .inl same
        · exact .inr same
      · rintro _ _ ⟨-, taken⟩
        exact absurd (names.lacks_numbered shape) taken
  | some field =>
    cases shape : (if path.ofKey then spec.keyShape else spec.valueShape) with
    | scalar scalar =>
      simp only [checkField, below, shape] at accepted
      split at accepted <;> cases accepted
    | ofClass className =>
      have numbered : stemOf id (sideName path.ofKey) ++ "_" ++ field ++ "_" ++ toString index =
          stemOf id (sideName path.ofKey) ++ "_" ++ (field ++ "_" ++ toString index) := by
        simp only [String.append_assoc]
      refine (declareField_drafts _ _ type index known).imp ?_ ?_
      · rintro ⟨entry, _⟩ next ⟨rfl, grown, named⟩
        rw [numbered, names.lacks_iff shape, names.lacks_iff shape] at named
        refine ⟨names.withField read below shape grown ?_, ?_⟩
        · rcases named with ⟨free, same⟩ | ⟨taken, -, same⟩
          · exact .inl ⟨free, same⟩
          · exact .inr ⟨not_not.1 taken, same⟩
        · rw [clash]
          rintro ⟨other, same, taken, also⟩
          rw [below] at same
          cases same
          rcases named with ⟨free, -⟩ | ⟨-, free, -⟩
          · exact free taken
          · exact free also
      · intro _ _ refused
        rw [numbered, names.lacks_iff shape, names.lacks_iff shape, not_not, not_not] at refused
        exact clash.2 ⟨field, below, refused.1, refused.2⟩

/-- All fields are read unless the names of one of them clash. -/
theorem emitFields_drafts (names : ScanNames id spec fields index locals draft)
    {rest : List (FieldPath × DataType)} (left : fields.drop index = rest)
    (accepted : checkFields spec.keyShape spec.valueShape rest = .ok ()) :
    Drafts (emitFields id spec rest index locals) draft
      (fun result next => result.length = rest.length ∧
        (∀ entry ∈ next.locals, ∃ role ∈ ["top", "key", "value"],
          Under (stemOf id role) entry.name) ∧ ∀ later, index ≤ later → ¬ ClashAt fields later)
      fun _ _ => ∃ later, ClashAt fields later := by
  induction rest generalizing index locals draft with
  | nil =>
    refine .pure ⟨rfl, names.roles, fun later behind clash => ?_⟩
    obtain ⟨path, type, field, ⟨read, -⟩, -⟩ := clash
    obtain ⟨inside, -⟩ := List.getElem?_eq_some_iff.1 read
    have := List.drop_eq_nil_iff.1 left
    omega
  | cons pair rest step =>
    obtain ⟨path, type⟩ := pair
    have read : fields[index]? = some (path, type) := by
      rw [← List.head?_drop, left]
      rfl
    have behind : fields.drop (index + 1) = rest := by
      rw [← List.tail_drop, left]
      rfl
    obtain ⟨nothing, this, others⟩ := bind_eq_ok_iff.1 accepted
    rw [emitFields]
    cases found : locals.fields.find? fun entry => entry.1 == (path, type) with
    | some entry =>
      have seen := (names.known path type).1 (by rw [found]; rfl)
      refine (step (names.again read seen) behind others).bind fun result next done => ?_
      refine .pure ⟨by simp [done.1], done.2.1, fun later above clash => ?_⟩
      rcases Nat.lt_or_eq_of_le above with more | rfl
      · exact done.2.2 later more clash
      · obtain ⟨otherPath, otherType, field, ⟨here, first⟩, -⟩ := clash
        rw [read] at here
        cases here
        obtain ⟨earlier, less, again⟩ := seen
        exact first earlier less again
    | none =>
      have first : FirstRead fields index path type := by
        refine ⟨read, fun earlier less again => ?_⟩
        have seen := (names.known path type).2 ⟨earlier, less, again⟩
        rw [found] at seen
        cases seen
      refine ((emitField_drafts names first this).imp (fun _ _ done => done)
        fun _ _ clash => ⟨index, clash⟩).bind ?_
      rintro ⟨entry, known⟩ changed ⟨names, calm⟩
      refine (step names behind others).bind fun result next done => ?_
      refine .pure ⟨by simp [done.1], done.2.1, fun later above clash => ?_⟩
      rcases Nat.lt_or_eq_of_le above with more | rfl
      · exact done.2.2 later more clash
      · exact calm clash

/-- The names before the first field. -/
theorem ScanNames.start (id : NodeId) (spec : ScanSpec) (fields : List (FieldPath × DataType))
    (empty : draft.locals = []) : ScanNames id spec fields 0 .empty draft := by
  have absent : ∀ entry, entry ∉ draft.locals := by
    intro entry member
    rw [empty] at member
    cases member
  refine ⟨fun entry member => absurd member (absent entry), fun _ _ entry member =>
    absurd member (absent entry), fun ofKey className _ field => ⟨?_, ?_⟩, fun _ _ _ entry member =>
    absurd member (absent entry), fun path type => ⟨?_, ?_⟩⟩
  · rintro ⟨entry, member, -⟩
    exact absurd member (absent entry)
  · intro taken
    cases taken with
    | named before => cases before
    | numbered before => cases before
  · intro found
    cases found
  · rintro ⟨earlier, less, -⟩
    cases less

/-- Locals of a scan that can be selected. -/
theorem selectLocals_ok (id : NodeId) {fields : List Local} {projects : List Nat}
    (inside : ∀ project ∈ projects, project < fields.length) :
    ∃ row, selectLocals id fields projects = .ok row := by
  induction projects with
  | nil => exact ⟨[], rfl⟩
  | cons project rest step =>
    obtain ⟨row, selected⟩ := step fun other member => inside other (List.mem_cons_of_mem _ member)
    have present := inside project List.mem_cons_self
    refine ⟨fields[project] :: row, ?_⟩
    simp only [selectLocals, List.getElem?_eq_getElem present]
    rw [selected, ok_bind]

/-- What a scan that can be compiled fulfils. -/
theorem checkScan_ok {spec : ScanSpec} (accepted : checkScan spec = .ok ()) :
    (∀ project ∈ spec.projects, project < (spec.paths.zip spec.types).length) ∧
      checkFields spec.keyShape spec.valueShape (spec.paths.zip spec.types) = .ok () := by
  unfold checkScan at accepted
  split at accepted
  · cases accepted
  · rename_i same
    split at accepted
    · cases accepted
    · rename_i inside
      obtain ⟨_, -, accepted⟩ := bind_eq_ok_iff.1 accepted
      obtain ⟨_, -, accepted⟩ := bind_eq_ok_iff.1 accepted
      refine ⟨fun project member => ?_, accepted⟩
      have bound := List.find?_eq_none.1 inside project member
      simp only [ge_iff_le, decide_eq_true_eq] at bound
      rw [List.length_zip]
      omega

/-! ## Nodes -/

/-- All locals belong to some nodes, and the output row of the last one is not among them. -/
def Owned (ids : List NodeId) (last : NodeId) (draft : RoutineDraft) : Prop :=
  ∀ entry ∈ draft.locals, (∃ id ∈ ids, Under (nodeStem id) entry.name) ∧
    ¬ Under (stemOf last "output") entry.name

/-- Another node takes names under its own id only, with a part that is no output row. -/
theorem Owned.behind {ids : List NodeId} {id last : NodeId} {role : String}
    {before next : RoutineDraft} (owned : Owned ids last before) (plain : Plain role)
    (other : role ≠ "output") (adds : Adds before next (Under (stemOf id role)))
    (new : ∀ owner ∈ ids, owner ≠ id) : Owned (ids ++ [id]) id next := by
  obtain ⟨more, grown, named⟩ := adds
  intro entry member
  rw [grown] at member
  rcases List.mem_append.1 member with old | fresh
  · obtain ⟨⟨owner, listed, under⟩, -⟩ := owned entry old
    refine ⟨⟨owner, List.mem_append_left _ listed, under⟩, fun output => ?_⟩
    exact new owner listed (under.node_unique (@Under.shorten (nodeStem id) _ "output" output))
  · have under := named entry fresh
    refine ⟨⟨id, List.mem_append_right _ (List.mem_singleton_self id),
      @Under.shorten (nodeStem id) _ role under⟩, fun output => ?_⟩
    exact other (under.role_unique output plain plain_roles.2.2.2.2.2)

/-- The names of another node are free. -/
theorem Owned.lacks {ids : List NodeId} {id last : NodeId} {stem : String} {before : RoutineDraft}
    (owned : Owned ids last before) (new : ∀ owner ∈ ids, owner ≠ id) :
    Lacks before (Under (nodeStem id ++ "_" ++ stem)) := by
  intro entry member under
  obtain ⟨⟨owner, listed, mine⟩, -⟩ := owned entry member
  exact new owner listed (mine.node_unique under.shorten)

/-- The code of a scan is written unless the names of two fields clash. -/
theorem emitScan_drafts (accepted : checkScan spec = .ok ()) (empty : draft.locals = []) :
    Drafts (emitScan id spec) draft
      (fun _ next => Owned [id] id next ∧ ¬ ∃ index, ClashAt (spec.paths.zip spec.types) index)
      fun _ _ => ∃ index, ClashAt (spec.paths.zip spec.types) index := by
  obtain ⟨inside, accepted⟩ := checkScan_ok accepted
  have owned : ∀ {role : String} {name : String}, Plain role → role ≠ "output" →
      Under (stemOf id role) name → (∃ owner ∈ [id], Under (nodeStem owner) name) ∧
        ¬ Under (stemOf id "output") name := by
    intro role name plain other under
    refine ⟨⟨id, List.mem_singleton_self id, @Under.shorten (nodeStem id) _ role under⟩, ?_⟩
    intro output
    exact other (under.role_unique output plain plain_roles.2.2.2.2.2)
  have plain : ∀ role ∈ ["top", "key", "value"],
      Plain role ∧ role ≠ "output" ∧ role ≠ "filter" := by
    intro role member
    obtain ⟨top, key, value, -⟩ := plain_roles
    simp only [List.mem_cons, List.not_mem_nil, or_false] at member
    rcases member with rfl | rfl | rfl
    · exact ⟨top, by decide, by decide⟩
    · exact ⟨key, by decide, by decide⟩
    · exact ⟨value, by decide, by decide⟩
  unfold emitScan
  refine (opening_succeeds _).bind
    fun _ opened same => ?_
  refine (emitFields_drafts (.start id spec _ (same.trans empty)) List.drop_zero accepted).bind ?_
  rintro row next ⟨size, roles, calm⟩
  have calm : ¬ ∃ index, ClashAt (spec.paths.zip spec.types) index := by
    rintro ⟨index, clash⟩
    exact calm index (Nat.zero_le _) clash
  rw [← size] at inside
  obtain ⟨selected, chosen⟩ := selectLocals_ok id inside
  rw [chosen]
  have fieldsOwned : Owned [id] id next := by
    intro entry member
    obtain ⟨role, listed, under⟩ := roles entry member
    exact owned (plain role listed).1 (plain role listed).2.1 under
  cases spec.filter with
  | none => exact .pure ⟨fieldsOwned, calm⟩
  | some filter =>
    have free : Lacks next (Under (stemOf id "filter")) := by
      intro entry member other
      obtain ⟨role, listed, under⟩ := roles entry member
      exact (plain role listed).2.2
        (under.role_unique other (plain role listed).1 plain_roles.2.2.2.1)
    refine (emitCondition_succeeds filter row _ free).bind fun passed tested adds => ?_
    refine (emitSkipUnless_succeeds passed).bind fun _ last kept => .pure ⟨?_, calm⟩
    obtain ⟨more, grown, named⟩ := adds
    intro entry member
    rw [kept, grown] at member
    rcases List.mem_append.1 member with old | new
    · exact fieldsOwned entry old
    · exact owned plain_roles.2.2.2.1 (by decide) (named entry new)

end QueryFusion.Generate
