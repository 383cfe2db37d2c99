import QueryFusion.Generate.Inline
import QueryFusion.Generate.Variable
import QueryFusion.Script.Token

/-!
# Code of scans

A scan becomes a loop over its cursor. Key and value are read on first use, once for each row, and
checked against their class; every field is read once, also when it is asked for twice.
-/

namespace QueryFusion.Generate

open Emit

/-! ## Scans that can be compiled -/

/-- A name that source text may use: Latin letters, digits and underscores, no digit in front, and
not reserved. -/
def isIdentifier (name : String) : Bool :=
  match name.toList with
  | [] => false
  | first :: rest =>
    (first.isAlpha || first == '_') && rest.all (fun c => c.isAlphanum || c == '_') &&
      !Script.isKeyword name

/-- A class whose name can be written in source. -/
def checkShape : Shape → Except Error Unit
  | .ofClass name =>
    if (dottedParts name).all isIdentifier then .ok ()
    else .error (.unsupported ("class name " ++ name))
  | .scalar _ => .ok ()

/-- A field whose reading can be written in source. The name of a field must be the one that its
getter stands for. -/
def checkField (keyShape valueShape : Shape) (path : FieldPath) (type : DataType) :
    Except Error Unit :=
  let shape := if path.ofKey then keyShape else valueShape
  if type = .null then .error (.unsupported ("field " ++ path.text ++ " has no type"))
  else
    match path.below, shape with
    | none, .ofClass _ =>
      if type = .object then .ok ()
      else .error (.unsupported ("top-level object " ++ path.text ++ " read as " ++ type.text))
    | none, .scalar _ => .ok ()
    | some _, .scalar _ =>
      .error (.unsupported ("nested path " ++ path.text ++ " below a scalar"))
    | some field, .ofClass _ =>
      if path.depth > 1 then
        .error (.unsupported ("path " ++ path.text ++ " is nested too deep"))
      else if isIdentifier field && fieldOfGetter? (getterName field) == some field then .ok ()
      else .error (.unsupported ("field name " ++ field))

/-- Checks the fields of a scan one by one. -/
def checkFields (keyShape valueShape : Shape) :
    List (FieldPath × DataType) → Except Error Unit
  | [] => .ok ()
  | (path, type) :: rest => do
    checkField keyShape valueShape path type
    checkFields keyShape valueShape rest

/-- Checks that a scan can be compiled. -/
def checkScan (spec : ScanSpec) : Except Error Unit :=
  if spec.paths.length ≠ spec.types.length then
    .error (.unsupported "field paths and types differ in length")
  else
    match spec.projects.find? fun project => project ≥ spec.paths.length with
    | some project => .error (.unsupported ("projection of missing field " ++ toString project))
    | none => do
      checkShape spec.keyShape
      checkShape spec.valueShape
      checkFields spec.keyShape spec.valueShape (spec.paths.zip spec.types)

/-! ## State -/

/-- The variables of a scan, with the methods that they are bound from. -/
def scanBindings : List (VariableKind × Script.Method) :=
  [(.scanMap, .scanMap), (.scanPartitions, .scanPartitions), (.scanKeyShape, .scanKeyShape),
   (.scanValueShape, .scanValueShape), (.scanPaths, .scanPaths), (.scanTypes, .scanTypes),
   (.scanProjects, .scanProjects), (.scanFilter, .scanFilter)]

/-- Declares the state of a scan. -/
def declareScan (id : NodeId) : Registering Unit := do
  Registry.addNode id Script.ExecutorKind.scan.name
  Registry.declareAll
    (scanBindings.map (fun entry => ⟨id, entry.1, .bound entry.2.name⟩) ++
      [⟨id, .scanCursor, .opened⟩])

/-! ## Rows -/

/-- The locals of a scan so far. -/
structure ScanLocals where
  key : Option Local
  value : Option Local
  /-- The fields read, by path and type. -/
  fields : List ((FieldPath × DataType) × Local)

/-- The scan without locals. -/
def ScanLocals.empty : ScanLocals :=
  ⟨none, none, []⟩

/-- The local of the key or the value, declared on first use. -/
def emitTop (id : NodeId) (spec : ScanSpec) (ofKey : Bool) (locals : ScanLocals) :
    Drafting (Local × ScanLocals) := do
  match if ofKey then locals.key else locals.value with
  | some top => pure (top, locals)
  | none =>
    let method := if ofKey then Script.Method.cursorKey else .cursorValue
    let read := invoke (VariableKind.scanCursor.sourceOf id) method.name []
    let name := "_" ++ id.text ++ "_top_" ++ method.name
    let top : Local :=
      match if ofKey then spec.keyShape else spec.valueShape with
      | .ofClass className => ⟨name, .object className⟩
      | .scalar _ => ⟨name, .value⟩
    Drafting.declare top
      (match top.type with
       | .object _ => castTo read top.type.name
       | _ => read)
    pure (top, if ofKey then { locals with key := some top } else { locals with value := some top })

/-- The local of a field, declared in any case; a name that is taken gets the index of the field. -/
def emitField (id : NodeId) (spec : ScanSpec) (index : Nat) (path : FieldPath) (type : DataType)
    (locals : ScanLocals) : Drafting (Local × ScanLocals) := do
  let side := if path.ofKey then "key" else "value"
  let shape := if path.ofKey then spec.keyShape else spec.valueShape
  let (top, next) ← emitTop id spec path.ofKey locals
  let typeName := (LocalType.scalar type).name
  let stem := "_" ++ id.text ++ "_" ++ side
  let declare (name value : String) : Drafting (Local × ScanLocals) := do
    let taken := ((← get).localOf? name).isSome
    let entry : Local := ⟨if taken then name ++ "_" ++ toString index else name, .scalar type⟩
    Drafting.declare entry value
    pure (entry, next)
  match path.below, shape with
  | none, .ofClass _ => pure (top, next)
  | none, .scalar _ => declare stem (castTo top.name typeName)
  | some field, .ofClass _ =>
    declare (stem ++ "_" ++ field) ("(" ++ top.name ++ " == null) ? null : " ++
      castTo (invoke top.name (getterName field) []) typeName)
  | some _, .scalar _ =>
    throw (.unsupported ("nested path " ++ path.text ++ " below a scalar"))

/-- The locals of all fields; a field read before is not read again. -/
def emitFields (id : NodeId) (spec : ScanSpec) :
    List (FieldPath × DataType) → Nat → ScanLocals → Drafting (List Local)
  | [], _, _ => pure []
  | (path, type) :: rest, index, locals => do
    match locals.fields.find? fun entry => entry.1 == (path, type) with
    | some entry =>
      let others ← emitFields id spec rest (index + 1) locals
      pure (entry.2 :: others)
    | none =>
      let (entry, next) ← emitField id spec index path type locals
      let others ← emitFields id spec rest (index + 1)
        { next with fields := ((path, type), entry) :: next.fields }
      pure (entry :: others)

/-- The locals of the output row. -/
def selectLocals (id : NodeId) (fields : List Local) : List Nat → Except Error (List Local)
  | [] => .ok []
  | index :: rest =>
    match fields[index]? with
    | some entry => do
      let others ← selectLocals id fields rest
      .ok (entry :: others)
    | none =>
      .error (.planInvariant
        ("scan " ++ id.text ++ " projects field " ++ toString index ++ " of " ++
          toString fields.length))

/-- Opens the loop over the entries, reads the fields and skips the rows that the filter drops. -/
def emitScan (id : NodeId) (spec : ScanSpec) : Drafting (List Local) := do
  let advanced := invoke (VariableKind.scanCursor.sourceOf id) Script.Method.cursorAdvance.name []
  Drafting.opening ("while (" ++ advanced ++ ") \x7b")
  let fields ← emitFields id spec (spec.paths.zip spec.types) 0 .empty
  match spec.filter with
  | some filter => do
    let passed ← emitCondition id "filter" filter fields (VariableKind.scanFilter.sourceOf id)
    emitSkipUnless passed
  | none => pure ()
  liftExcept (selectLocals id fields spec.projects)

end QueryFusion.Generate
