import QueryFusion.Executor.Batch

/-!
# Settings

Whether plans are compiled, how many rows a batch holds and how many units are kept. A number of
zero counts as one.
-/

namespace QueryFusion

/-- The settings of a session. -/
structure Config where
  /-- Plans are compiled. -/
  enabled : Bool
  batchSize : Nat
  /-- Number of compiled units kept. -/
  cacheCapacity : Nat
  /-- Generated source is logged. -/
  logSource : Bool
  deriving DecidableEq, Inhabited

namespace Config

/-- The settings unless others are asked for. -/
def standard : Config :=
  ⟨true, RowBatch.defaultCapacity, 256, false⟩

/-- The settings that interpret every plan. -/
def disabled : Config :=
  { standard with enabled := false }

/-- The settings with another batch size, of at least one row. -/
def withBatchSize (size : Nat) (config : Config) : Config :=
  { config with batchSize := max size 1 }

/-- The settings with another number of units kept, at least one. -/
def withCacheCapacity (capacity : Nat) (config : Config) : Config :=
  { config with cacheCapacity := max capacity 1 }

/-- The batch size, at least one row. -/
def effectiveBatchSize (config : Config) : Nat :=
  max config.batchSize 1

/-- The text of the settings. -/
def text (config : Config) : String :=
  "CompilerConfig \x7b enabled: " ++ toString config.enabled ++ ", batch_size: " ++
    toString config.batchSize ++ ", cache_capacity: " ++ toString config.cacheCapacity ++
    ", log_source: " ++ toString config.logSource ++ " \x7d"

end Config

end QueryFusion
