import QueryFusion.Proofs.Executor.Interpretation

/-!
# Rows of runs

A run is a scan with filters and projections above it. What it makes of an entry of the map is the
output row of the scan, passed on by one operator after another, unless one of them drops it or
fails.
-/

namespace QueryFusion

variable {α β γ : Type}

/-- What is made of a result that may be dropped. -/
def passOn (first : Except Error (Option α)) (next : α → Except Error (Option β)) :
    Except Error (Option β) :=
  first >>= fun
    | none => .ok none
    | some result => next result

section PassingOn

variable {error : Error} {result : α} {next : α → Except Error (Option β)}

@[simp] theorem passOn_error : passOn (.error error) next = .error error :=
  rfl

@[simp] theorem passOn_none : passOn (.ok none) next = .ok none :=
  rfl

@[simp] theorem passOn_some : passOn (.ok (some result)) next = next result :=
  rfl

end PassingOn

/-- The scan of all partitions of a map. -/
def ScanSpec.over (spec : ScanSpec) (map : EntryMap) : ScanState where
  map := map
  partitions := map.allPartitions
  keyShape := spec.keyShape
  valueShape := spec.valueShape
  paths := spec.paths
  types := spec.types
  projects := spec.projects
  filter := spec.filter

/-- What a run makes of an entry of its map. -/
def Plan.image (map : EntryMap) : Plan → Entry → Except Error (Option Row)
  | scan _ spec, entry => (spec.over map).outputRow entry
  | filter _ condition input, entry => passOn (input.image map entry) (Filter.transform condition)
  | project _ expressions input, entry =>
    passOn (input.image map entry) (Project.transform expressions)
  | root .., _ | sort .., _ | join .., _ => .ok none

end QueryFusion
