import QueryFusion.Emit.Command
import QueryFusion.Emit.LocalTable
import QueryFusion.Emit.Snippet
import QueryFusion.Error
import QueryFusion.Symbol

/-!
# Routines under construction

A routine under construction holds its body as commands, the locals declared so far and the modules
that its body needs. What has been added since a mark can be taken back as a whole.
-/

namespace QueryFusion.Emit

/-- A constructor, or a method with its result type if it has one. -/
inductive RoutineKind
  | constructor
  | method (name : String) (returnType : Option String)
  deriving DecidableEq, Inhabited

/-- Puts a module at its place among modules in ascending order, each of them once. -/
def insertModule (moduleName : String) : List String → List String
  | [] => [moduleName]
  | first :: rest =>
    if moduleName < first then moduleName :: first :: rest
    else if moduleName = first then first :: rest
    else first :: insertModule moduleName rest

/-- Puts several modules at their places. -/
def insertModules (modules imports : List String) : List String :=
  modules.foldl (fun all moduleName => insertModule moduleName all) imports

/-- Exactly the inserted module is new. -/
theorem mem_insertModule (moduleName other : String) (imports : List String) :
    other ∈ insertModule moduleName imports ↔ other = moduleName ∨ other ∈ imports := by
  induction imports with
  | nil => simp [insertModule]
  | cons first rest step =>
    simp only [insertModule]
    split
    · simp
    · split
      · rename_i same
        simp [same]
      · simp only [List.mem_cons, step]
        exact or_left_comm

/-- Exactly the inserted modules are new. -/
theorem mem_insertModules (other : String) (modules imports : List String) :
    other ∈ insertModules modules imports ↔ other ∈ modules ∨ other ∈ imports := by
  induction modules generalizing imports with
  | nil => simp [insertModules]
  | cons first rest step =>
    have unfolded : insertModules (first :: rest) imports =
        insertModules rest (insertModule first imports) := rfl
    rw [unfolded, step, mem_insertModule, List.mem_cons, or_left_comm, or_assoc]

/-- A routine under construction. -/
structure RoutineDraft where
  kind : RoutineKind
  /-- Names and types of the parameters. -/
  params : List (String × String)
  commands : List Command
  /-- The locals declared so far, by name and in the order of their declaration. -/
  table : LocalTable
  /-- The modules needed, in ascending order. -/
  imports : List String
  deriving Inhabited

/-- A state of a routine to which it can go back. -/
structure Mark where
  commandCount : Nat
  localCount : Nat
  imports : List String
  deriving DecidableEq, Inhabited

namespace RoutineDraft

/-- A routine without a body. -/
def start (kind : RoutineKind) (params : List (String × String)) : RoutineDraft :=
  let typeNames :=
    match kind with
    | .method _ (some type) => type :: params.map Prod.snd
    | _ => params.map Prod.snd
  ⟨kind, params, [], .empty, insertModules (typeNames.flatMap Symbol.modulesOfType) []⟩

/-- The name of a routine. -/
def name (draft : RoutineDraft) : String :=
  match draft.kind with
  | .constructor => "new"
  | .method name _ => name

/-- The routine with one more module. -/
def addImport (moduleName : String) (draft : RoutineDraft) : RoutineDraft :=
  { draft with imports := insertModule moduleName draft.imports }

/-- The routine with the module that provides a name. -/
def useSymbol (symbol : String) (draft : RoutineDraft) : RoutineDraft :=
  { draft with imports := insertModules (Symbol.moduleOf? symbol).toList draft.imports }

/-- The routine with the modules that a type refers to. -/
def useType (typeName : String) (draft : RoutineDraft) : RoutineDraft :=
  { draft with imports := insertModules (Symbol.modulesOfType typeName) draft.imports }

/-- The routine with more commands at its end. -/
def extend (commands : List Command) (draft : RoutineDraft) : RoutineDraft :=
  { draft with commands := draft.commands ++ commands }

/-- Adding commands together is adding them one after the other. -/
theorem extend_append (first second : List Command) (draft : RoutineDraft) :
    draft.extend (first ++ second) = (draft.extend first).extend second := by
  simp only [extend, List.append_assoc]

/-- The local of a name. -/
def localOf? (draft : RoutineDraft) (name : String) : Option Local :=
  draft.table.map name

/-- The locals in the order of their declaration. -/
def locals (draft : RoutineDraft) : List Local :=
  draft.table.toList

/-- The current state. -/
def mark (draft : RoutineDraft) : Mark :=
  ⟨draft.commands.length, draft.table.order.length, draft.imports⟩

/-- The routine without what was added since a mark. -/
def rollback (mark : Mark) (draft : RoutineDraft) : RoutineDraft :=
  { draft with
    commands := draft.commands.take mark.commandCount
    table := draft.table.truncate mark.localCount
    imports := mark.imports }

/-- The first line of a routine. -/
def header (draft : RoutineDraft) : String :=
  let params := String.intercalate ", " (draft.params.map fun param => param.1 ++ ": " ++ param.2)
  match draft.kind with
  | .constructor => "new(" ++ params ++ ") \x7b"
  | .method name (some type) => "fn " ++ name ++ "(" ++ params ++ ") -> " ++ type ++ " \x7b"
  | .method name none => "fn " ++ name ++ "(" ++ params ++ ") \x7b"

/-- The whole routine as commands. -/
def emit (draft : RoutineDraft) : List Command :=
  lineOf draft.header ++ [Command.indent] ++ draft.commands ++ [Command.dedent] ++ lineOf "\x7d"

end RoutineDraft

/-- Writing a routine. What has been written stays when a step fails. -/
abbrev Drafting (α : Type) := ExceptT Error (StateM RoutineDraft) α

namespace Drafting

/-- Adds commands. -/
def emit (commands : List Command) : Drafting Unit :=
  modify (RoutineDraft.extend commands)

/-- Adds a full line. -/
def line (text : String) : Drafting Unit :=
  emit (lineOf text)

/-- Adds a line, and indents what follows. -/
def opening (text : String) : Drafting Unit :=
  emit (lineOf text ++ [Command.indent])

/-- Takes the indentation back, and closes a block. -/
def closing : Drafting Unit :=
  emit (.dedent :: lineOf "\x7d")

/-- Registers a local. -/
def addLocal (entry : Local) : Drafting Unit := do
  let draft ← get
  if (draft.localOf? entry.name).isSome then
    throw (.internal ("local " ++ entry.name ++ " already declared in " ++ draft.name))
  else
    set { draft.useType entry.type.name with table := draft.table.add entry }

/-- Declares a local with its first value. -/
def declare (entry : Local) (value : String) : Drafting Unit := do
  addLocal entry
  line ("let " ++ entry.name ++ ": " ++ entry.type.name ++ " = " ++ value ++ ";")

/-- A call of a function of the engine, whose module is imported. -/
def invokeStatic (owner method : String) (arguments : List String) : Drafting String := do
  modify (RoutineDraft.useSymbol owner)
  pure (invoke owner method arguments)

/-- A constant of the engine, whose module is imported. -/
def staticMember (owner member : String) : Drafting String := do
  modify (RoutineDraft.useSymbol owner)
  pure (owner ++ "." ++ member)

/-- Runs an action on a routine. -/
def runOn {α : Type} (action : Drafting α) (draft : RoutineDraft) :
    Except Error α × RoutineDraft :=
  (ExceptT.run action).run draft

end Drafting

end QueryFusion.Emit
