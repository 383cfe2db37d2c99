import QueryFusion.Proofs.Executor.RunRows
import QueryFusion.Proofs.Generate.AcceptedRows
import QueryFusion.Proofs.Generate.EmittedValues

/-!
# Values of fields

The declarations of a scan read what the scan reads: each field of the current entry, converted to
its type, in the order of the scan. A whole key or value is checked against its class when it is
read, so the declarations fail where the first field below it would.
-/

namespace QueryFusion

open Generate Emit

/-! ## Fields of an entry -/

/-- The whole key or value of an entry. -/
def sideOf (ofKey : Bool) (entry : Entry) : Value :=
  if ofKey then entry.1 else entry.2

/-- The value of a field of an entry, converted to the type it is read as. -/
def ScanSpec.readField (spec : ScanSpec) (entry : Entry) (field : FieldPath × DataType) :
    Except Error Value := do
  let raw ← field.1.extract entry.1 entry.2 spec.keyShape spec.valueShape
  field.2.convert raw

/-- What stands below a whole key or value, or itself. -/
def FieldPath.descend (below : Option String) (value : Value) : Except Error Value :=
  match below with
  | none => .ok value
  | some name => follow value (dottedParts name)

/-- A field is taken from a whole key or value that has passed its check. -/
theorem ScanSpec.readField_eq (spec : ScanSpec) (entry : Entry) (path : FieldPath)
    (type : DataType) :
    spec.readField entry (path, type) =
      ((spec.shapeOf path.ofKey).validate (sideOf path.ofKey entry) >>= fun _ =>
        FieldPath.descend path.below (sideOf path.ofKey entry) >>= type.convert) := by
  have whole : path.extract entry.1 entry.2 spec.keyShape spec.valueShape =
      ((spec.shapeOf path.ofKey).validate (sideOf path.ofKey entry) >>= fun _ =>
        FieldPath.descend path.below (sideOf path.ofKey entry)) := by
    rw [FieldPath.extract]
    cases path.below <;> rfl
  rw [readField, whole, bind_assoc]

/-- Fields are read one after another. -/
theorem ScanState.readFields_cons (spec : ScanSpec) (map : EntryMap) (entry : Entry)
    (field : FieldPath × DataType) (rest : List (FieldPath × DataType)) :
    (spec.over map).readFields entry (field :: rest) = (do
      let value ← spec.readField entry field
      let values ← (spec.over map).readFields entry rest
      .ok (value :: values)) := by
  rw [ScanState.readFields, ScanSpec.readField, bind_assoc]
  rfl

/-- What a class lets pass is left alone when it is taken for an object. -/
theorem Shape.convert_of_validate {className : String} {value : Value}
    (valid : (Shape.ofClass className).validate value = .ok ()) :
    DataType.object.convert value = .ok value := by
  cases value with
  | null | object => rfl
  | _ => cases valid

namespace Script

/-- A cast to a scalar type converts. -/
theorem castSlot_scalarTy {type : DataType} (typed : type ≠ .null) (value : Value) :
    castSlot (scalarTy type) (.value value) = (type.convert value).map Slot.value := by
  cases type with
  | null => exact absurd rfl typed
  | object => cases value <;> rfl
  | _ => rfl

/-- A cast to a class checks. -/
theorem castSlot_object (className : String) (value : Value) :
    castSlot (.object (some className)) (.value value) =
      ((Shape.ofClass className).validate value).map fun _ => .value value := by
  show (value.expectClass className >>= fun _ => .ok (Slot.value value)) = _
  show _ = (value.expectClass className).map _
  cases value.expectClass className <;> rfl

/-- What has been converted may be stored under the type. -/
theorem fits_convert {type : DataType} {value result : Value} (typed : type ≠ .null)
    (done : type.convert value = .ok result) :
    Slot.Fits 0 (.value result) (LocalType.scalar type).ty := by
  have known := DataType.convert_typed done
  cases type with
  | null => exact absurd rfl typed
  | object =>
    rcases known with rfl | known
    · exact (LocalType.holds_iff (.scalar .object) _).1 trivial
    · cases result with
      | object identity className fields => exact (LocalType.holds_iff (.scalar .object) _).1 rfl
      | _ => cases known
  | _ => exact Slot.fits_scalar 0 rfl known

/-- What passes the check of a class may be stored as an object of the class. -/
theorem fits_validate {className : String} {value : Value}
    (valid : (Shape.ofClass className).validate value = .ok ()) :
    Slot.Fits 0 (.value value) (LocalType.object className).ty := by
  refine (LocalType.holds_iff _ _).1 ?_
  cases value with
  | null => trivial
  | object identity actual fields =>
    by_cases same : actual = className
    · exact same
    · have refused : (Shape.ofClass className).validate (.object identity actual fields) =
          .error (.unexpectedObjectType className actual) := if_neg same
      rw [refused] at valid
      cases valid
  | _ => cases valid

namespace Denotes

variable {unit : CompiledUnit} {memory : Memory} {env : Env} {position : Position}

/-- The field of an object, read by its getter. -/
theorem getter {place : Position} {word field : String} {value : Value}
    (getterOf : fieldOfGetter? (getterName field) = some field)
    (found : env.content? word = some (.value value)) :
    Denotes unit memory env (.call position (.name place word) (getterName field) [])
      ((readGetter field value).map Slot.value) := by
  have other : (Term.name place word).isThis = false := rfl
  have unowned : env.staticOwner? (.name place word) = none := by
    simp [Env.staticOwner?, found]
  have part : Denotes unit memory env (.name place word) (.ok (.value value)) := .name found
  unfold Denotes
  rw [evalTerm]
  simp only [other, Bool.false_eq_true, if_false, unowned, getterOf]
  rw [Effect.bind_apply_ok part]
  show (getterSlot field (.value value), memory) = _
  have read : getterSlot field (.value value) = (readGetter field value).map Slot.value := by
    show (readGetter field value >>= fun content => .ok (Slot.value content)) = _
    cases readGetter field value <;> rfl
  rw [read]

end Denotes

end Script

/-! ## Checked fields -/

/-- A name of one part is its own part. -/
theorem dottedParts_of_depth {path : FieldPath} {name : String} (below : path.below = some name)
    (shallow : ¬ path.depth > 1) : dottedParts name = [name] := by
  have count : (dottedParts name).length ≤ 1 := by
    have depth : path.depth = (dottedParts name).length := by rw [FieldPath.depth, below]
    omega
  have whole := Script.Prints.intercalate_dottedParts name
  cases parts : dottedParts name with
  | nil =>
    have present : dottedParts name ≠ [] := by simp [dottedParts, segmentsOf_ne_nil]
    exact absurd parts present
  | cons part rest =>
    rw [parts, List.length_cons] at count
    have none : rest = [] := List.eq_nil_of_length_eq_zero (by omega)
    rw [parts, none] at whole
    rw [none, ← whole]
    simp

/-- What a field of a scan that can be compiled satisfies: it has a type, a whole object is read as
one, and a field of an object is the one that its getter reads. -/
structure ScanSpec.Plain (spec : ScanSpec) (path : FieldPath) (type : DataType) : Prop where
  typed : type ≠ .null
  whole : ∀ className, path.below = none → spec.shapeOf path.ofKey = .ofClass className →
    type = .object
  field : ∀ className name, path.below = some name → spec.shapeOf path.ofKey = .ofClass className →
    dottedParts name = [name] ∧ fieldOfGetter? (getterName name) = some name

/-- A field that has been checked is plain. -/
theorem ScanSpec.plain_of_checkField {spec : ScanSpec} {path : FieldPath} {type : DataType}
    (checked : checkField spec.keyShape spec.valueShape path type = .ok ()) :
    spec.Plain path type := by
  have shaped : (if path.ofKey then spec.keyShape else spec.valueShape) =
      spec.shapeOf path.ofKey := rfl
  unfold checkField at checked
  rw [shaped] at checked
  split at checked
  · cases checked
  rename_i typed
  refine ⟨typed, fun className below shape => ?_, fun className name below shape => ?_⟩
  · simp only [below, shape] at checked
    split at checked
    · assumption
    · cases checked
  · simp only [below, shape] at checked
    split at checked
    · cases checked
    rename_i shallow
    split at checked
    · rename_i valid
      rw [Bool.and_eq_true, beq_iff_eq] at valid
      exact ⟨dottedParts_of_depth below shallow, valid.2⟩
    · cases checked

/-- The fields of a scan that can be compiled are plain. -/
theorem ScanSpec.plain_of_checkScan {spec : ScanSpec} (accepted : checkScan spec = .ok ()) :
    ∀ field ∈ spec.paths.zip spec.types, spec.Plain field.1 field.2 := by
  intro field member
  exact plain_of_checkField (checkField_of_mem (checkScan_ok accepted).2 member)

namespace Generate

open Script (Slot Env CompiledUnit Memory Denotes)

/-! ## What the declarations of a scan leave -/

section Establishing

variable {α β : Type} {unit : CompiledUnit} {memory : Memory} {env : Env} {bindings : List Binding}
  {outcome : Except Error α} {holds : Env → α → Prop}

/-- What is established is known to be the outcome. -/
theorem Establishes.known (established : Establishes unit memory env bindings outcome holds) :
    Establishes unit memory env bindings outcome fun after result =>
      outcome = .ok result ∧ holds after result := by
  cases outcome with
  | error error => exact established
  | ok result =>
    obtain ⟨added, binds, held⟩ := established
    exact ⟨added, binds, rfl, held⟩

/-- What follows without a declaration. -/
theorem Establishes.map {next : α → Except Error β} {last : Env → β → Prop}
    (established : Establishes unit memory env bindings outcome holds)
    (follows : ∀ after result, holds after result → ∃ other, next result = .ok other ∧
      last after other) :
    Establishes unit memory env bindings (outcome >>= next) last := by
  rw [← List.append_nil bindings]
  refine established.bind fun added result _ held => ?_
  obtain ⟨other, same, left⟩ := follows _ _ held
  rw [same]
  exact .nil left

/-- A local that carries a value stands before those that are declared behind it. -/
theorem Establishes.consed {entry : Local} {value : Value} {row : List Local}
    {rest : Except Error Row} (carries : Carries env entry value)
    (apart : ∀ binding ∈ bindings, binding.entry.name ≠ entry.name)
    (others : Establishes unit memory env bindings rest fun after values =>
      List.Forall₂ (Carries after) row values) :
    Establishes unit memory env bindings (rest >>= fun values => .ok (value :: values))
      fun after values => List.Forall₂ (Carries after) (entry :: row) values := by
  cases rest with
  | error error => exact others
  | ok values =>
    obtain ⟨added, binds, held⟩ := others
    exact ⟨added, binds, .cons (carries.past binds.names apart) held⟩

end Establishing

/-- The locals of a scan hold what they are read from, checked and converted. -/
structure ScanLocals.Loaded (env : Env) (spec : ScanSpec) (item : Entry) (locals : ScanLocals) :
    Prop where
  top : ∀ ofKey top, locals.top ofKey = some top →
    (spec.shapeOf ofKey).validate (sideOf ofKey item) = .ok () ∧ Carries env top (sideOf ofKey item)
  fields : ∀ field entry, (field, entry) ∈ locals.fields →
    ∃ value, spec.readField item field = .ok value ∧ Carries env entry value

/-- The current key and value can be read. -/
def Reads (unit : CompiledUnit) (memory : Memory) (id : NodeId) (item : Entry) : Prop :=
  ∀ ofKey env, Denotes unit memory env (readTerm id ofKey) (.ok (.value (sideOf ofKey item)))

section Scanning

variable {id : NodeId} {spec : ScanSpec} {ofKey : Bool} {locals next : ScanLocals}
  {top entry : Local}
  {done bindings more : List Binding} {path : FieldPath} {type : DataType} {unit : CompiledUnit}
  {memory : Memory} {env added : Env} {item : Entry}

/-- A scan without locals. -/
theorem ScanLocals.Loaded.empty : ScanLocals.empty.Loaded env spec item where
  top := by
    intro ofKey entry found
    cases ofKey <;> cases found
  fields := by
    intro field entry member
    cases member

/-- Later declarations have other names than the local. -/
theorem Declared.ne (declared : Declared done entry) (once : Unrepeated (done ++ more)) :
    ∀ binding ∈ more, binding.entry.name ≠ entry.name := by
  obtain ⟨earlier, member, rfl⟩ := declared
  rw [Unrepeated, List.map_append, List.nodup_append] at once
  intro binding behind same
  exact once.2.2 _ (List.mem_map_of_mem member) _ (List.mem_map_of_mem behind) same.symm

/-- The locals hold the same behind more declarations. -/
theorem ScanLocals.Loaded.past (loaded : locals.Loaded env spec item)
    (agrees : locals.Agrees spec done) (once : Unrepeated (done ++ more))
    (binds : Binds unit memory env more added) : locals.Loaded (added ++ env) spec item where
  top := by
    intro ofKey top found
    obtain ⟨valid, carries⟩ := loaded.top ofKey top found
    exact ⟨valid, carries.past binds.names ((agrees.top ofKey top found).2.ne once)⟩
  fields := by
    intro field entry member
    obtain ⟨value, read, carries⟩ := loaded.fields field entry member
    exact ⟨value, read, carries.past binds.names ((agrees.fields field entry member).2.ne once)⟩

/-- One more field. -/
theorem ScanLocals.Loaded.withField {value : Value} (loaded : locals.Loaded env spec item)
    (read : spec.readField item (path, type) = .ok value) (carries : Carries env entry value) :
    (locals.withField path type entry).Loaded env spec item where
  top := loaded.top
  fields := by
    intro field other member
    rcases List.mem_cons.1 member with same | old
    · obtain ⟨rfl, rfl⟩ := Prod.mk.inj same
      exact ⟨value, read, carries⟩
    · exact loaded.fields field other old

/-- The declaration of a whole key or value. -/
theorem topBinding_establishes (reads : Reads unit memory id item) (ofKey : Bool) (shape : Shape) :
    Establishes unit memory env [topBinding id ofKey shape] (shape.validate (sideOf ofKey item))
      fun after _ => Carries after (topBinding id ofKey shape).entry (sideOf ofKey item) := by
  have read := reads ofKey env
  cases shape with
  | scalar type =>
    have part : Leaves unit memory env [topBinding id ofKey (.scalar type)]
        (topBinding id ofKey (.scalar type)).entry (.ok (sideOf ofKey item)) :=
      .declare read fun value _ => Script.fits_any 0 value
    exact part
  | ofClass className =>
    have named : Script.Ty.resolve? (writtenType (.object (some className))).name
        (writtenType (.object (some className))).argument = some (.object (some className)) := rfl
    have casted : Denotes unit memory env (topBinding id ofKey (.ofClass className)).value _ :=
      read.cast named
    rw [ok_bind, Script.castSlot_object] at casted
    have valued : ((Shape.ofClass className).validate (sideOf ofKey item)).map
        (fun _ => Slot.value (sideOf ofKey item)) =
          (((Shape.ofClass className).validate (sideOf ofKey item)).map
            fun _ => sideOf ofKey item).map Slot.value := by
      cases (Shape.ofClass className).validate (sideOf ofKey item) <;> rfl
    rw [valued] at casted
    have part : Leaves unit memory env [topBinding id ofKey (.ofClass className)]
        (topBinding id ofKey (.ofClass className)).entry
        (((Shape.ofClass className).validate (sideOf ofKey item)).map fun _ =>
          sideOf ofKey item) := by
      refine .declare casted fun value same => ?_
      cases valid : (Shape.ofClass className).validate (sideOf ofKey item) with
      | error error =>
        rw [valid] at same
        cases same
      | ok nothing =>
        rw [valid] at same
        cases same
        exact Script.fits_validate valid
    cases valid : (Shape.ofClass className).validate (sideOf ofKey item) with
    | error error =>
      rw [valid] at part
      exact part
    | ok nothing =>
      rw [valid] at part
      exact part

/-- A whole key or value is checked and carried. -/
theorem TopCode.establishes (code : TopCode id spec ofKey locals top next bindings)
    (agrees : locals.Agrees spec done) (loaded : locals.Loaded env spec item)
    (once : Unrepeated (done ++ bindings)) (reads : Reads unit memory id item) :
    Establishes unit memory env bindings ((spec.shapeOf ofKey).validate (sideOf ofKey item))
      fun after _ => Carries after top (sideOf ofKey item) ∧ next.Loaded after spec item := by
  cases code with
  | known found =>
    obtain ⟨valid, carries⟩ := loaded.top ofKey top found
    rw [valid]
    exact .nil ⟨carries, loaded⟩
  | read missing =>
    have established := (@topBinding_establishes id unit memory env item reads ofKey
      (spec.shapeOf ofKey)).known
    cases valid : (spec.shapeOf ofKey).validate (sideOf ofKey item) with
    | error error =>
      rw [valid] at established
      exact established
    | ok nothing =>
      rw [valid] at established
      obtain ⟨added, binds, -, carries⟩ := established
      have kept := loaded.past agrees once binds
      refine ⟨added, binds, carries, ⟨fun other entry found => ?_, fun field entry member => ?_⟩⟩
      · rw [ScanLocals.top_withTop] at found
        split at found
        · rename_i same
          cases found
          rw [same]
          exact ⟨valid, carries⟩
        · exact kept.top other entry found
      · rw [ScanLocals.fields_withTop] at member
        exact kept.fields field entry member

/-- One more declaration of a local with a type. -/
theorem establishes_scalar {name : String} {term : Script.Term} {outcome : Except Error Value}
    (part : Denotes unit memory env term (outcome.map Slot.value))
    (typed : ∀ value, outcome = .ok value → Slot.Fits 0 (.value value) (LocalType.scalar type).ty)
    (agrees : locals.Agrees spec done) (loaded : locals.Loaded env spec item)
    (once : Unrepeated (done ++ [⟨⟨name, .scalar type⟩, term⟩])) :
    Establishes unit memory env [⟨⟨name, .scalar type⟩, term⟩] outcome fun after value =>
      Carries after ⟨name, .scalar type⟩ value ∧ locals.Loaded after spec item := by
  have declared : Leaves unit memory env [⟨⟨name, .scalar type⟩, term⟩]
      ⟨name, .scalar type⟩ outcome :=
    .declare part typed
  cases outcome with
  | error error => exact declared
  | ok value =>
    obtain ⟨added, binds, carries⟩ := declared
    exact ⟨added, binds, carries, loaded.past agrees once binds⟩

/-- A field below an object of the class is null below null, and else the field of the object. -/
theorem denotes_fieldTerm {className field : String} {value : Value} (typed : type ≠ .null)
    (getter : fieldOfGetter? (getterName field) = some field)
    (valid : (Shape.ofClass className).validate value = .ok ()) (carries : Carries env top value) :
    Denotes unit memory env (fieldTerm top field type)
      ((FieldPath.follow value [field] >>= type.convert).map Slot.value) := by
  refine .conditional carries.equal_null ?_
  cases value with
  | null =>
    have nothing : (FieldPath.follow .null [field] >>= type.convert).map Slot.value =
        .ok (.value .null) := by
      rw [FieldPath.follow, ok_bind, DataType.convert_null]
      rfl
    rw [nothing]
    exact .null
  | object identity actual fields =>
    have named : Script.Ty.resolve? (writtenType (scalarTy type)).name
        (writtenType (scalarTy type)).argument = some (scalarTy type) := by
      cases type with
      | null => exact absurd rfl typed
      | _ => rfl
    have read : Denotes unit memory env (.call .first (termOf top) (getterName field) []) _ :=
      .getter getter carries.content
    have casted : Denotes unit memory env
      (.cast .first (.call .first (termOf top) (getterName field) [])
        (writtenType (scalarTy type))) _ := read.cast named
    have outcome : ((Script.readGetter field (.object identity actual fields)).map Slot.value >>=
        Script.castSlot (scalarTy type)) =
          (FieldPath.follow (.object identity actual fields) [field] >>= type.convert).map
            Slot.value := by
      show ((requireField actual fields field).map Slot.value >>= _) =
        ((requireField actual fields field >>= fun next => .ok next) >>= type.convert).map
          Slot.value
      cases requireField actual fields field with
      | error error => rfl
      | ok content => exact Script.castSlot_scalarTy typed content
    exact outcome ▸ casted
  | _ => cases valid

/-- A field is read, checked and converted. -/
theorem FieldCode.establishes (code : FieldCode id spec path type locals entry next bindings)
    (plain : spec.Plain path type) (agrees : locals.Agrees spec done)
    (loaded : locals.Loaded env spec item) (once : Unrepeated (done ++ bindings))
    (reads : Reads unit memory id item) :
    Establishes unit memory env bindings (spec.readField item (path, type)) fun after value =>
      Carries after entry value ∧ next.Loaded after spec item := by
  rw [ScanSpec.readField_eq]
  cases code with
  | whole below shape read =>
    have top := (read.establishes agrees loaded once reads).known
    have object := plain.whole _ below shape
    rw [below]
    refine top.map fun after nothing held => ?_
    obtain ⟨valid, carries, known⟩ := held
    rw [shape] at valid
    refine ⟨_, ?_, carries, known⟩
    rw [FieldPath.descend, ok_bind, object]
    exact Shape.convert_of_validate valid
  | scalar below shape read named =>
    rw [← List.append_assoc] at once
    have top := (read.establishes agrees loaded once.left reads).known
    have behind := (read.agrees agrees).2.2
    rw [below]
    refine top.bind fun added nothing _ held => ?_
    obtain ⟨-, carries, known⟩ := held
    have named : Script.Ty.resolve? (writtenType (scalarTy type)).name
        (writtenType (scalarTy type)).argument = some (scalarTy type) := by
      cases type with
      | null => exact absurd rfl plain.typed
      | _ => rfl
    have casted : Denotes unit memory (added ++ env) (.cast .first (termOf _)
        (writtenType (scalarTy type))) _ := carries.denotes.cast named
    rw [ok_bind, Script.castSlot_scalarTy plain.typed] at casted
    rw [FieldPath.descend, ok_bind]
    exact establishes_scalar casted (fun _ => Script.fits_convert plain.typed) behind known once
  | field below shape read named =>
    rw [← List.append_assoc] at once
    have top := (read.establishes agrees loaded once.left reads).known
    have behind := (read.agrees agrees).2.2
    obtain ⟨parts, getter⟩ := plain.field _ _ below shape
    rw [below]
    refine top.bind fun added nothing _ held => ?_
    obtain ⟨valid, carries, known⟩ := held
    rw [shape] at valid
    have part := @denotes_fieldTerm _ type unit memory (added ++ env) _ _ _ plain.typed getter valid
      carries
    rw [FieldPath.descend, parts]
    refine establishes_scalar part (fun value same => ?_) behind known once
    obtain ⟨raw, -, converted⟩ := bind_eq_ok_iff.1 same
    exact Script.fits_convert plain.typed converted

/-- The fields of a scan are read one after another. -/
theorem FieldsCode.establishes {fields : List (FieldPath × DataType)} {row : List Local}
    (code : FieldsCode id spec fields locals row bindings)
    (plain : ∀ field ∈ fields, spec.Plain field.1 field.2) (agrees : locals.Agrees spec done)
    (loaded : locals.Loaded env spec item) (once : Unrepeated (done ++ bindings))
    (reads : Reads unit memory id item) (map : EntryMap) :
    Establishes unit memory env bindings ((spec.over map).readFields item fields)
      fun after values =>
      List.Forall₂ (Carries after) row values := by
  induction code generalizing done env with
  | nil => exact .nil .nil
  | @again path type rest locals entry others bindings seen further step =>
    rw [List.forall_mem_cons] at plain
    obtain ⟨value, read, carries⟩ := loaded.fields _ _ seen
    have declared := (agrees.fields _ _ seen).2
    rw [ScanState.readFields_cons, read, ok_bind]
    exact .consed carries (declared.ne once) (step plain.2 agrees loaded once)
  | @fresh path type rest locals next entry others first bindings read further step =>
    rw [List.forall_mem_cons] at plain
    rw [← List.append_assoc] at once
    obtain ⟨typed, declared, behind⟩ := read.agrees agrees
    have head := (read.establishes plain.1 agrees loaded once.left reads).known
    rw [ScanState.readFields_cons]
    refine head.bind fun added value _ held => ?_
    obtain ⟨same, carries, known⟩ := held
    exact .consed carries (declared.ne once)
      (step plain.2 (behind.withField typed declared) (known.withField same carries) once)

/-- The selected locals carry the selected values. -/
theorem select_of_selectLocals {fields row : List Local} {values : Row} {projects : List Nat}
    (selected : selectLocals id fields projects = .ok row)
    (carried : List.Forall₂ (Carries env) fields values) :
    ∃ chosen, ScanState.select values projects = .ok chosen ∧
      List.Forall₂ (Carries env) row chosen := by
  induction projects generalizing row with
  | nil =>
    cases selected
    exact ⟨[], rfl, .nil⟩
  | cons index rest step =>
    rw [selectLocals] at selected
    cases found : fields[index]? with
    | none =>
      rw [found] at selected
      cases selected
    | some entry =>
      rw [found] at selected
      obtain ⟨others, further, same⟩ := bind_eq_ok_iff.1 selected
      cases same
      obtain ⟨chosen, known, held⟩ := step further
      obtain ⟨inside, here⟩ := List.getElem?_eq_some_iff.1 found
      have bound : index < values.length := carried.length_eq ▸ inside
      have column : Row.column values index = .ok values[index] := by
        simp [Row.column, List.getElem?_eq_getElem bound]
      refine ⟨values[index] :: chosen, ?_, .cons ?_ held⟩
      · rw [ScanState.select, column, ok_bind, known]
        rfl
      · rw [← here]
        exact carried.get inside bound

end Scanning

end Generate

end QueryFusion
