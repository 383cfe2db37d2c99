import QueryFusion.Value

/-!
# Domain objects

Fields are found by their exact name, or else by their name with the case of Latin letters ignored:
a getter spells the first letter of its field in upper case, whatever the declaration does.
-/

namespace QueryFusion

/-- A text with its Latin letters in lower case. -/
def foldCase (text : String) : String :=
  text.map Char.toLower

/-- The value of a field: the first of this exact name, else the first of this name in any case. -/
def fieldValue? (fields : List (String × Value)) (name : String) : Option Value :=
  match fields.find? fun field => field.1 == name with
  | some field => some field.2
  | none => (fields.find? fun field => foldCase field.1 == foldCase name).map (·.2)

/-- The value of a field that the object must have. -/
def requireField (className : String) (fields : List (String × Value)) (name : String) :
    Except Error Value :=
  match fieldValue? fields name with
  | some value => .ok value
  | none => .error (.fieldNotFound className name)

/-- The method that reads a field. -/
def getterName (field : String) : String :=
  match field.toList with
  | [] => "get"
  | first :: rest => "get" ++ String.ofList (first.toUpper :: rest)

/-- The field that a method reads, when its name is that of a getter. -/
def fieldOfGetter? (method : String) : Option String :=
  match method.toList with
  | 'g' :: 'e' :: 't' :: first :: rest => some (String.ofList (first.toLower :: rest))
  | _ => none

/-- Accepts null and objects of the class. -/
def Value.expectClass (value : Value) (className : String) : Except Error Unit :=
  match value with
  | .null => .ok ()
  | .object _ actual _ =>
    if actual = className then .ok () else .error (.unexpectedObjectType className actual)
  | other => .error (.unexpectedObjectType className other.dataType.text)

end QueryFusion
