import QueryFusion.Emit.Unit
import QueryFusion.Generate.Fragment
import QueryFusion.Hash
import QueryFusion.Script.Lower

/-!
# Source of fragments

A fragment becomes a unit with a field for each state variable, a constructor that names its nodes,
a block for each node that binds its fields, the setup code and the loop over its rows. The name of
a unit is a hash of its source, so that equal fragments give one text and are compiled once.
-/

namespace QueryFusion.Generate

open Emit

/-- The source of a unit, with its name. -/
structure GeneratedUnit where
  name : String
  qualifiedName : String
  source : String
  deriving DecidableEq, Inhabited

/-- Declares the state of all generators. -/
def declareAll : List Generator → Registering Unit
  | [] => pure ()
  | generator :: rest => do
    generator.declare
    declareAll rest

/-- Adds a field for each variable. -/
def addFields (unit : UnitDraft) : List StateVariable → Except Error UnitDraft
  | [] => .ok unit
  | entry :: rest => do
    let next ← unit.addField entry.name entry.kind.ty.text
    addFields next rest

/-- Writes code for each of several items. -/
def emitEach {α : Type} (write : α → Drafting Unit) : List α → Drafting Unit
  | [] => pure ()
  | item :: rest => do
    write item
    emitEach write rest

/-- The constructor, which names the nodes of the fragment. -/
def constructorOf (fragment : Fragment) : RoutineDraft :=
  let ids := String.intercalate ", " (fragment.subsumedIds.map NodeId.text)
  (RoutineDraft.start .constructor []).extend
    (lineOf ("super(" ++ fragment.primaryId.text ++ ", [" ++ ids ++ "]);"))

/-- The block that binds the fields of one node. -/
def emitPrepareBlock (registry : Registry) (node : NodeId × String) : Drafting Unit := do
  let entry := "exec_" ++ node.1.text
  Drafting.opening
    ("if (" ++ invoke "exec" Script.Method.executorId.name [] ++ " == " ++ node.1.text ++ ") \x7b")
  modify (RoutineDraft.useType node.2)
  Drafting.line ("let " ++ entry ++ ": " ++ node.2 ++ " = " ++ castTo "exec" node.2 ++ ";")
  emitEach (StateVariable.prepare entry) (registry.variablesOf node.1)
  Drafting.closing

/-- The routine that binds the unit to an executor. -/
def prepareOf (registry : Registry) : RoutineDraft :=
  ((emitEach (emitPrepareBlock registry) registry.nodes).runOn
    (.start (.method "prepare" none) [("exec", Script.Ty.executor.text)])).2

/-- The routine that sets the unit up for an execution. -/
def setupOf (registry : Registry) : RoutineDraft :=
  ((emitEach StateVariable.setup registry.declared).runOn
    (.start (.method "setup" none) [("ctx", Script.Ty.context.text)])).2

/-- Writes the routine that produces a batch. -/
def emitAdvance (tree : GeneratorTree) : Drafting Unit := do
  Drafting.line (invoke "this" "clearBatch" [] ++ ";")
  emitLoop tree
  let done ← Drafting.staticMember Script.Ty.progress.text "FETCHED_DONE"
  Drafting.line ("return " ++ done ++ ";")

/-- The routine that produces a batch. -/
def advanceOf (tree : GeneratorTree) : Except Error RoutineDraft :=
  match (emitAdvance tree).runOn (.start (.method "advance" (some Script.Ty.progress.text)) []) with
  | (.ok (), routine) => .ok routine
  | (.error error, _) => .error error

/-- Sixteen digits of base sixteen. -/
def hexDigits (word : UInt64) : String :=
  let digits := Nat.toDigits 16 word.toNat
  String.ofList (List.replicate (16 - digits.length) '0' ++ digits)

/-- The name that stands for the unit until its hash is known. -/
def placeholderName : String :=
  Symbol.unitNameStart ++ hexDigits 0

/-- The unit of a fragment under the placeholder name. -/
def draftOf (fragment : Fragment) : Except Error UnitDraft := do
  let (declared, registry) :=
    Registry.runOn (declareAll (fragment.generators.map GeneratorTree.generator)) .empty
  declared
  let unit ← addFields (.start Symbol.unitModule placeholderName Symbol.baseUnit) registry.declared
  let advance ← advanceOf fragment.tree
  .ok ((((unit.addRoutine (constructorOf fragment)).addRoutine (prepareOf registry)).addRoutine
    (setupOf registry)).addRoutine advance)

/-- The hash of a source text. -/
def hashOf (source : String) : UInt64 :=
  (Hash.State.empty.addText source).finish

/-- The source of a fragment; its name is a hash of the source under the placeholder name. -/
def Fragment.generate (fragment : Fragment) : Except Error GeneratedUnit := do
  let draft ← draftOf fragment
  let unit := { draft with name := Symbol.unitNameStart ++ hexDigits (hashOf draft.source) }
  .ok ⟨unit.name, unit.qualifiedName, unit.source⟩

/-- Compiles generated source. -/
def GeneratedUnit.compile (generated : GeneratedUnit) : Except Error Script.CompiledUnit :=
  Script.compile generated.source generated.qualifiedName

end QueryFusion.Generate
