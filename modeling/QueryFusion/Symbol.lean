import QueryFusion.Text.Letter

/-!
# Names of the engine

Source units refer to types and functions of the engine by name, and import the module that provides
each of them. Generated source and the compiler share these names.
-/

namespace QueryFusion.Symbol

/-- The module that generated units belong to. -/
def unitModule : String := "sql.compiled"

/-- The base of every unit. -/
def baseUnit : String := "CompiledExec"

/-- How the names of generated units start. -/
def unitNameStart : String := "CompiledExec_"

/-- The modules that provide names of the engine. -/
def modules : List String :=
  ["sql.exec", "sql.row", "sql.expression", "sql.plan", "sql.storage"]

/-- The names that each module provides. -/
def provided : List (String × List String) :=
  [("sql.exec", ["Exec", "MapScanExec", "FilterExec", "ProjectExec", "MapScanIterator",
      "FragmentContext", "IterationResult", "MapScanUtils", "CompiledExec"]),
   ("sql.row", ["Row", "HeapRow"]),
   ("sql.expression", ["Expression"]),
   ("sql.plan", ["QueryPath", "DataType", "TopObjectDescriptor"]),
   ("sql.storage", ["MapContainer", "PartitionIdSet"])]

/-- The module that must be imported to use a name; built-in names need none. -/
def moduleOf? (name : String) : Option String :=
  (provided.find? fun entry => entry.2.contains name).map (·.1)

/-- A character of a name. -/
def isNameChar (c : Char) : Bool :=
  Text.isLetterOrDigit c || c == '_'

/-- The longest runs of name characters in a text, with empty ones between adjacent other
characters. -/
def wordsOf : List Char → List (List Char)
  | [] => [[]]
  | c :: rest =>
    if isNameChar c then
      match wordsOf rest with
      | [] => [[c]]
      | word :: others => (c :: word) :: others
    else [] :: wordsOf rest

/-- The modules needed by a type as it is written, one for each name in it. -/
def modulesOfType (typeName : String) : List String :=
  (wordsOf typeName.toList).filterMap fun word => moduleOf? (String.ofList word)

end QueryFusion.Symbol
