import QueryFusion.Emit.Routine

/-!
# Units under construction

A unit under construction has its fields and routines in order. Its imports are those of its base,
its fields and its routines, each module once and in ascending order.
-/

namespace QueryFusion.Emit

/-- A unit under construction. -/
structure UnitDraft where
  moduleName : String
  name : String
  base : String
  imports : List String
  /-- Names and types of the fields. -/
  fields : List (String × String)
  routines : List RoutineDraft
  deriving Inhabited

namespace UnitDraft

/-- A unit without members. -/
def start (moduleName name base : String) : UnitDraft :=
  ⟨moduleName, name, base, (Symbol.moduleOf? base).toList, [], []⟩

/-- The name of the unit behind that of its module. -/
def qualifiedName (unit : UnitDraft) : String :=
  unit.moduleName ++ "." ++ unit.name

/-- The unit with one more module. -/
def addImport (moduleName : String) (unit : UnitDraft) : UnitDraft :=
  { unit with imports := insertModule moduleName unit.imports }

/-- The unit with one more field, of a name that no other field has. -/
def addField (name typeName : String) (unit : UnitDraft) : Except Error UnitDraft :=
  if unit.fields.any fun field => field.1 == name then
    .error (.internal ("field " ++ name ++ " already declared"))
  else
    .ok { unit with
      imports := insertModules (Symbol.modulesOfType typeName) unit.imports
      fields := unit.fields ++ [(name, typeName)] }

/-- The unit with one more routine. -/
def addRoutine (routine : RoutineDraft) (unit : UnitDraft) : UnitDraft :=
  { unit with
    imports := insertModules routine.imports unit.imports
    routines := unit.routines ++ [routine] }

/-- The import lines, with an empty line behind them if there are any. -/
def importLines (unit : UnitDraft) : List Command :=
  if unit.imports.isEmpty then []
  else
    (unit.imports.flatMap fun moduleName => lineOf ("import " ++ moduleName ++ ";")) ++
      [Command.newLine]

/-- The source text of a unit. -/
def source (unit : UnitDraft) : String :=
  render <|
    lineOf ("module " ++ unit.moduleName ++ ";") ++ [Command.newLine] ++ unit.importLines ++
    lineOf ("unit " ++ unit.name ++ " extends " ++ unit.base ++ " \x7b") ++ [Command.indent] ++
    (unit.fields.flatMap fun field => lineOf ("field " ++ field.1 ++ ": " ++ field.2 ++ ";")) ++
    (unit.routines.flatMap fun routine => .newLine :: routine.emit) ++
    [Command.dedent] ++ lineOf "\x7d"

end UnitDraft

end QueryFusion.Emit
