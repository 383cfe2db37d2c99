import QueryFusion.Emit.Routine
import QueryFusion.Plan.Node
import QueryFusion.Script.Code

/-!
# State of generated units

A state variable is a field of a generated unit that belongs to one plan node. It is set when the
unit is bound to an executor, or anew for each execution. Names come from the node and the kind of
the variable alone, so that equal plans give equal source.
-/

namespace QueryFusion.Generate

open Emit

/-- The kinds of state variables. -/
inductive VariableKind
  | scanMap
  | scanPartitions
  | scanKeyShape
  | scanValueShape
  | scanPaths
  | scanTypes
  | scanProjects
  | scanFilter
  | scanCursor
  | filterCondition
  | projectExpressions
  deriving DecidableEq, Inhabited

namespace VariableKind

/-- All kinds. -/
def all : List VariableKind :=
  [scanMap, scanPartitions, scanKeyShape, scanValueShape, scanPaths, scanTypes, scanProjects,
   scanFilter, scanCursor, filterCondition, projectExpressions]

/-- The end of the name of a variable. -/
def suffix : VariableKind → String
  | scanMap => "map_scan_map"
  | scanPartitions => "map_scan_parts"
  | scanKeyShape => "map_scan_key_descriptor"
  | scanValueShape => "map_scan_value_descriptor"
  | scanPaths => "map_scan_field_paths"
  | scanTypes => "map_scan_field_types"
  | scanProjects => "map_scan_projects"
  | scanFilter => "map_scan_filter"
  | scanCursor => "map_scan_record_iterator"
  | filterCondition => "filter_condition"
  | projectExpressions => "project_expressions"

/-- The type of a variable. -/
def ty : VariableKind → Script.Ty
  | scanMap => .map
  | scanPartitions => .partitions
  | scanKeyShape | scanValueShape => .shape
  | scanPaths => .list .path
  | scanTypes => .list .dataType
  | scanProjects => .list .int
  | scanFilter | filterCondition => .expression
  | scanCursor => .cursor
  | projectExpressions => .list .expression

/-- The field of a node. -/
def fieldOf (kind : VariableKind) (id : NodeId) : String :=
  "_" ++ id.text ++ "_" ++ kind.suffix

/-- The field of a node as an expression. -/
def sourceOf (kind : VariableKind) (id : NodeId) : String :=
  thisField (kind.fieldOf id)

end VariableKind

/-- When and how a variable is set. -/
inductive VariableOrigin
  /-- Never by generated code. -/
  | none
  /-- When the unit is bound: from a method of the executor. -/
  | bound (method : String)
  /-- For each execution: a new cursor over the map and the partitions of the same node. -/
  | opened
  deriving DecidableEq, Inhabited

/-- A field of a generated unit. -/
structure StateVariable where
  nodeId : NodeId
  kind : VariableKind
  origin : VariableOrigin
  deriving DecidableEq, Inhabited

namespace StateVariable

/-- The field of a variable. -/
def name (entry : StateVariable) : String :=
  entry.kind.fieldOf entry.nodeId

/-- The variable is set when the unit is bound. -/
def hasPrepare (entry : StateVariable) : Bool :=
  match entry.origin with
  | .bound _ => true
  | _ => false

/-- The variable is set for each execution. -/
def hasSetup (entry : StateVariable) : Bool :=
  entry.origin == .opened

/-- Writes the code that sets the variable when the unit is bound to an executor. -/
def prepare (executor : String) (entry : StateVariable) : Drafting Unit :=
  match entry.origin with
  | .bound method =>
    Drafting.line (thisField entry.name ++ " = " ++ invoke executor method [] ++ ";")
  | _ => pure ()

/-- Writes the code that sets the variable for an execution. -/
def setup (entry : StateVariable) : Drafting Unit :=
  match entry.origin with
  | .opened => do
    let created ← Drafting.invokeStatic "MapScanUtils" "createIterator"
      [VariableKind.scanMap.sourceOf entry.nodeId,
       VariableKind.scanPartitions.sourceOf entry.nodeId]
    Drafting.line (thisField entry.name ++ " = " ++ created ++ ";")
  | _ => pure ()

end StateVariable

/-- The state that the nodes of a fragment declare, in order. -/
structure Registry where
  /-- The nodes, each with the type of its executor. -/
  nodes : List (NodeId × String)
  /-- The variables, no two of one name. -/
  declared : List StateVariable
  deriving Inhabited

/-- Declaring state. What has been declared stays when a step fails. -/
abbrev Registering (α : Type) := ExceptT Error (StateM Registry) α

namespace Registry

/-- The registry without state. -/
def empty : Registry :=
  ⟨[], []⟩

/-- The variables of a node. -/
def variablesOf (registry : Registry) (id : NodeId) : List StateVariable :=
  registry.declared.filter fun entry => entry.nodeId == id

/-- Registers a node, once. -/
def addNode (id : NodeId) (executorType : String) : Registering Unit := do
  let registry ← get
  if registry.nodes.any fun node => node.1 == id then
    throw (.internal ("node " ++ id.text ++ " registered twice"))
  else set { registry with nodes := registry.nodes ++ [(id, executorType)] }

/-- Declares a variable, once, and hands out its field. -/
def declare (entry : StateVariable) : Registering String := do
  let registry ← get
  if registry.declared.any fun other => other.name == entry.name then
    throw (.internal ("state variable " ++ entry.name ++ " declared twice"))
  else
    set { registry with declared := registry.declared ++ [entry] }
    pure entry.name

/-- Declares several variables. -/
def declareAll : List StateVariable → Registering Unit
  | [] => pure ()
  | entry :: rest => do
    let _ ← declare entry
    declareAll rest

/-- Runs an action on a registry. -/
def runOn {α : Type} (action : Registering α) (registry : Registry) : Except Error α × Registry :=
  (ExceptT.run action).run registry

end Registry

end QueryFusion.Generate
