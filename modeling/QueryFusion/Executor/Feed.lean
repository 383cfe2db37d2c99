import QueryFusion.Executor.Batch

/-!
# Pulling rows from a producer

A feed hands on the rows of a producer one at a time and pulls the next batch when it runs out. The
producer is any state with a way to advance it and a view of the rows of its last step.
-/

namespace QueryFusion

/-- Outcome of a step that leaves a state behind, also when it fails. There is none when the fuel
ran out before the step ended. -/
abbrev Step (σ α : Type) := Option (Except Error α × σ)

/-- The step seen as one of a larger state. -/
def Step.embed {σ τ α : Type} (wrap : σ → τ) (step : Step σ α) : Step τ α :=
  step.map fun outcome => (outcome.1, wrap outcome.2)

/-- How rows are pulled from a producer. -/
structure Supply (σ : Type) where
  advance : σ → Step σ Progress
  /-- The rows of the last step. -/
  rows : σ → List Row

/-- Rows pulled from a producer and not yet handed on. -/
structure Feed (σ : Type) where
  producer : σ
  pending : List Row
  /-- The producer has no more rows. -/
  finished : Bool

namespace Feed

variable {σ : Type}

/-- The feed of a producer that has not been advanced. -/
def start (producer : σ) : Feed σ :=
  ⟨producer, [], false⟩

/-- Forgets the rows pulled before. -/
def reset (feed : Feed σ) : Feed σ :=
  start feed.producer

/-- The next row, or none at the end. A failed pull can be tried again. -/
def next (supply : Supply σ) : Nat → Feed σ → Step (Feed σ) (Option Row)
  | 0, _ => none
  | fuel + 1, feed =>
    match feed.pending with
    | row :: rest => some (.ok (some row), { feed with pending := rest })
    | [] =>
      if feed.finished then some (.ok none, feed)
      else
        match supply.advance feed.producer with
        | none => none
        | some (.error error, producer) => some (.error error, { feed with producer := producer })
        | some (.ok progress, producer) =>
          next supply fuel ⟨producer, supply.rows producer, progress.isFinished⟩

/-- Drains a feed; `taken` holds the rows so far, the last one first. -/
def drain (supply : Supply σ) : Nat → Feed σ → List Row → Step (Feed σ) (List Row)
  | 0, _, _ => none
  | fuel + 1, feed, taken =>
    match next supply fuel feed with
    | none => none
    | some (.error error, rest) => some (.error error, rest)
    | some (.ok none, rest) => some (.ok taken.reverse, rest)
    | some (.ok (some row), rest) => drain supply fuel rest (row :: taken)

/-- All remaining rows. -/
def collect (supply : Supply σ) (fuel : Nat) (feed : Feed σ) : Step (Feed σ) (List Row) :=
  drain supply fuel feed []

/-- Fills a batch with what a transformation makes of each row; rows without an image are
dropped. -/
def fill (supply : Supply σ) (transform : Row → Except Error (Option Row)) :
    Nat → Feed σ → RowBatch → Step (Feed σ × RowBatch) Progress
  | 0, _, _ => none
  | fuel + 1, feed, batch =>
    match next supply fuel feed with
    | none => none
    | some (.error error, rest) => some (.error error, (rest, batch))
    | some (.ok none, rest) => some (.ok .finished, (rest, batch))
    | some (.ok (some row), rest) =>
      match transform row with
      | .error error => some (.error error, (rest, batch))
      | .ok none => fill supply transform fuel rest batch
      | .ok (some image) =>
        if (batch.add image).hasRoom then fill supply transform fuel rest (batch.add image)
        else some (.ok .fetched, (rest, batch.add image))

end Feed

end QueryFusion
