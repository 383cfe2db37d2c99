import QueryFusion.Generate.Scan

/-!
# Generators

A generator writes the code of one plan node. The generators of a fragment stand in a tree, whose
top hands the finished row on; the code of a node stands inside the loops of the nodes below it.
-/

namespace QueryFusion.Generate

open Emit

/-- Writes the code of a plan node. -/
inductive Generator
  | scan (id : NodeId) (spec : ScanSpec)
  | filter (id : NodeId) (condition : Expr)
  | project (id : NodeId) (expressions : List Expr)
  /-- Adds the row to the batch, for a consumer outside the fragment. -/
  | output (id : NodeId)
  /-- A node that stays interpreted; it has no code. -/
  | interpreted (id : NodeId)
  deriving Inhabited

namespace Generator

/-- The plan node of a generator. -/
def id : Generator → NodeId
  | scan id _ | filter id _ | project id _ | output id | interpreted id => id

/-- The name of the kind of a generator. -/
def kindName : Generator → String
  | scan .. => "MapScan"
  | filter .. => "Filter"
  | project .. => "Project"
  | output _ => "NonTerminal"
  | interpreted _ => "Unsupported"

/-- The node has code. -/
def isCompilable : Generator → Bool
  | interpreted _ => false
  | _ => true

/-- No other generator takes the row of this one. -/
def isTerminal : Generator → Bool
  | output _ => true
  | _ => false

/-- The error of an interpreted node among compiled ones. -/
def interpretedError (id : NodeId) : Error :=
  .internal ("interpreted node " ++ id.text ++ " inside a compiled fragment")

/-- Declares the state of a node. -/
def declare : Generator → Registering Unit
  | scan id _ => declareScan id
  | filter id _ => do
    Registry.addNode id Script.ExecutorKind.filter.name
    Registry.declareAll [⟨id, .filterCondition, .bound Script.Method.filterCondition.name⟩]
  | project id _ => do
    Registry.addNode id Script.ExecutorKind.project.name
    Registry.declareAll [⟨id, .projectExpressions, .bound Script.Method.projectExpressions.name⟩]
  | output _ => pure ()
  | interpreted id => throw (interpretedError id)

/-- The locals of a projection, one for each expression. -/
def emitProjects (id : NodeId) (row : List Local) : List Expr → Nat → Drafting (List Local)
  | [], _ => pure []
  | expression :: rest, index => do
    let number := toString index
    let source := invoke (VariableKind.projectExpressions.sourceOf id) Script.Method.listGet.name
      [number]
    let entry ← emitExpression id ("project_" ++ number) expression row source
    let others ← emitProjects id row rest (index + 1)
    pure (entry :: others)

/-- Adds the row to the batch; a full batch ends the step. -/
def emitOutput (id : NodeId) (row : List Local) : Drafting Unit := do
  let result : Local := ⟨"_" ++ id.text ++ "_output_row", .row⟩
  let rowValue ← Drafting.invokeStatic "HeapRow" "of" (row.map Local.name)
  Drafting.declare result rowValue
  let fetched ← Drafting.staticMember Script.Ty.progress.text "FETCHED"
  Drafting.opening ("if (!" ++ invoke "this" "addToBatch" [result.name] ++ ") \x7b")
  Drafting.line ("return " ++ fetched ++ ";")
  Drafting.closing

/-- The row of the node below, which must be there. -/
def requireRow (id : NodeId) : Option (List Local) → Drafting (List Local)
  | some row => pure row
  | none => throw (.planInvariant ("node " ++ id.text ++ " has no upstream row"))

/-- Writes the code of a node for one row: from the row of the node below to its own row. The top
generator has none. -/
def rowStart (below : Option (List Local)) : Generator → Drafting (Option (List Local))
  | scan id spec =>
    if below.isSome then
      throw (.planInvariant ("scan " ++ id.text ++ " has an upstream row"))
    else do
      let row ← emitScan id spec
      pure (some row)
  | filter id condition => do
    let row ← requireRow id below
    let passed ← emitCondition id "filter" condition row (VariableKind.filterCondition.sourceOf id)
    emitSkipUnless passed
    pure (some row)
  | project id expressions => do
    let row ← requireRow id below
    let projected ← emitProjects id row expressions 0
    pure (some projected)
  | output id => do
    let row ← requireRow id below
    emitOutput id row
    pure none
  | interpreted id => throw (interpretedError id)

/-- Closes what the code of a node has opened. -/
def rowEnd : Generator → Drafting Unit
  | scan .. => Drafting.closing
  | _ => pure ()

end Generator

/-- A generator with those of the nodes below it. -/
inductive GeneratorTree
  | node (generator : Generator) (children : List GeneratorTree)
  deriving Inhabited

namespace GeneratorTree

/-- The generator on top. -/
def generator : GeneratorTree → Generator
  | node generator _ => generator

/-- The trees below. -/
def children : GeneratorTree → List GeneratorTree
  | node _ children => children

mutual

/-- All trees, those below first. -/
def postOrder : GeneratorTree → List GeneratorTree
  | node generator children => postOrderAll children ++ [node generator children]

/-- All trees of several, from left to right. -/
def postOrderAll : List GeneratorTree → List GeneratorTree
  | [] => []
  | tree :: rest => tree.postOrder ++ postOrderAll rest

end

end GeneratorTree

/-- Writes the code of nodes from the leaf up; the last one must take the row. -/
def emitRowStarts : List Generator → Option (List Local) → Drafting Unit
  | [], none => pure ()
  | [], some _ => throw (.internal "fragment output row was not consumed")
  | generator :: rest, below => do
    Drafting.line ("// NODE START: " ++ generator.id.text ++ " (" ++ generator.kindName ++ ")")
    let row ← generator.rowStart below
    emitRowStarts rest row

/-- Closes the code of nodes from the top down. -/
def emitRowEnds : List Generator → Drafting Unit
  | [] => pure ()
  | generator :: rest => do
    generator.rowEnd
    Drafting.line ("// NODE END  : " ++ generator.id.text)
    emitRowEnds rest

/-- Writes the loop over the rows of a fragment, which must not branch. -/
def emitLoop (tree : GeneratorTree) : Drafting Unit := do
  let trees := tree.postOrder
  match trees.find? fun subtree => subtree.children.length > 1 with
  | some branch =>
    throw (.planInvariant ("compiled fragment branches at node " ++ branch.generator.id.text))
  | none =>
    let generators := trees.map GeneratorTree.generator
    emitRowStarts generators none
    emitRowEnds generators.reverse

end QueryFusion.Generate
