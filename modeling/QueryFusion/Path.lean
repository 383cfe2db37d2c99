import QueryFusion.Value.Object

/-!
# Field paths

A path addresses the key or the value of a map entry, or a field below one of them: `__key` is the
whole key, `this` the whole value, `__key.id` a field of the key and `name` a field of the value. A
path is read against the declared shapes of key and value.
-/

namespace QueryFusion

/-- The parts of a text between points. -/
def segmentsOf : List Char → List (List Char)
  | [] => [[]]
  | c :: rest =>
    if c = '.' then [] :: segmentsOf rest
    else
      match segmentsOf rest with
      | [] => [[c]]
      | segment :: others => (c :: segment) :: others

/-- A text has at least one part. -/
theorem segmentsOf_ne_nil (text : List Char) : segmentsOf text ≠ [] := by
  cases text with
  | nil => simp [segmentsOf]
  | cons c rest =>
    rw [segmentsOf]
    split
    · simp
    · split <;> simp

/-- The parts, with points between them, make up the text. -/
theorem intercalate_segmentsOf (text : List Char) :
    List.intercalate ['.'] (segmentsOf text) = text := by
  induction text with
  | nil => rfl
  | cons c rest step =>
    have present := segmentsOf_ne_nil rest
    rw [segmentsOf]
    split
    · rename_i point
      cases parts : segmentsOf rest with
      | nil => contradiction
      | cons segment others =>
        rw [parts] at step
        simp only [List.intercalate, List.intersperse, List.flatten] at step ⊢
        simp [← step, point]
    · cases parts : segmentsOf rest with
      | nil => contradiction
      | cons segment others =>
        rw [parts] at step
        cases others with
        | nil => simpa [List.intercalate] using step
        | cons next more => simpa [List.intercalate, List.intersperse] using step

/-- The parts of a dotted name. -/
def dottedParts (name : String) : List String :=
  (segmentsOf name.toList).map String.ofList

/-- What a map declares its keys or values to be. -/
inductive Shape
  /-- Domain objects of a class. -/
  | ofClass (name : String)
  /-- Plain values of a type. -/
  | scalar (type : DataType)
  deriving DecidableEq, Inhabited

namespace Shape

/-- The class of a shape of objects. -/
def className? : Shape → Option String
  | ofClass name => some name
  | scalar _ => none

/-- Accepts the top-level values of a shape; only classes are checked. -/
def validate (shape : Shape) (value : Value) : Except Error Unit :=
  match shape with
  | ofClass name => value.expectClass name
  | scalar _ => .ok ()

/-- The text of a shape. -/
def text : Shape → String
  | ofClass name => name
  | scalar type => type.text

end Shape

/-- The address of a field of a map entry. -/
structure FieldPath where
  /-- The path starts at the key rather than at the value. -/
  ofKey : Bool
  /-- The dotted name below the start, if the path does not end there. -/
  below : Option String
  deriving DecidableEq, Inhabited

namespace FieldPath

/-- The name of the whole key. -/
def keyName : String := "__key"

/-- The name of the whole value. -/
def valueName : String := "this"

/-- Reads the text of a path. -/
def parse (text : String) : Except Error FieldPath :=
  if (segmentsOf text.toList).any List.isEmpty then
    .error (.planInvariant ("invalid field path '" ++ text ++ "'"))
  else if text = keyName then .ok ⟨true, none⟩
  else if text = valueName then .ok ⟨false, none⟩
  else
    match text.toList with
    | '_' :: '_' :: 'k' :: 'e' :: 'y' :: '.' :: rest => .ok ⟨true, some (String.ofList rest)⟩
    | 't' :: 'h' :: 'i' :: 's' :: '.' :: rest => .ok ⟨false, some (String.ofList rest)⟩
    | _ => .ok ⟨false, some text⟩

/-- The text of a path. -/
def text (path : FieldPath) : String :=
  match path.below, path.ofKey with
  | none, true => keyName
  | none, false => valueName
  | some name, true => keyName ++ "." ++ name
  | some name, false => name

/-- The path addresses the whole key or value. -/
def isTop (path : FieldPath) : Bool :=
  path.below.isNone

/-- Number of steps below the start. -/
def depth (path : FieldPath) : Nat :=
  match path.below with
  | none => 0
  | some name => (dottedParts name).length

/-- Follows field names down from a value; below null everything is null. -/
def follow (value : Value) : List String → Except Error Value
  | [] => .ok value
  | name :: rest =>
    match value with
    | .null => .ok .null
    | .object _ className fields => do
      let next ← requireField className fields name
      follow next rest
    | other => .error (.typeMismatch "OBJECT" other.dataType.text)

/-- The value that a path addresses in an entry. -/
def extract (path : FieldPath) (key value : Value) (keyShape valueShape : Shape) :
    Except Error Value := do
  let start := if path.ofKey then key else value
  let shape := if path.ofKey then keyShape else valueShape
  shape.validate start
  match path.below with
  | none => .ok start
  | some name => follow start (dottedParts name)

end FieldPath

end QueryFusion
