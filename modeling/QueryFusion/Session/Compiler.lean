import QueryFusion.Executor.Template
import QueryFusion.Generate.Unit
import QueryFusion.Plan.Builder
import QueryFusion.Session.Cache
import QueryFusion.Session.Config

/-!
# Compiling plans

A plan is split into fragments, each of them is compiled, and the units make up a template.
Fragments with equal source share a unit, as long as it is kept: a unit is used again only for the
very source that it was compiled from.
-/

namespace QueryFusion

open Generate (Fragment GeneratedUnit partition)

variable [CacheLibrary]

/-- Compiles plans and keeps their units. -/
structure Compiler where
  config : Config
  cache : CacheLibrary.Store
  /-- How often a unit was found in the cache. -/
  hits : Nat
  /-- How often a unit had to be compiled. -/
  misses : Nat
  deriving Inhabited

namespace Compiler

/-- A compiler without units. -/
def start (config : Config) : Compiler :=
  ⟨config, CacheLibrary.new config.cacheCapacity, 0, 0⟩

/-- The unit of a source, from the cache if it is kept there. -/
def unitFor (generated : GeneratedUnit) (compiler : Compiler) :
    Except Error Script.CompiledUnit × Compiler :=
  let (found, cache) := CacheLibrary.get generated.qualifiedName compiler.cache
  match found.filter fun entry => entry.source == generated.source with
  | some entry => (.ok entry.unit, { compiler with cache := cache, hits := compiler.hits + 1 })
  | none =>
    let missed := { compiler with cache := cache, misses := compiler.misses + 1 }
    match generated.compile with
    | .error error => (.error error, missed)
    | .ok unit =>
      (.ok unit, { missed with
        cache := CacheLibrary.put ⟨generated.qualifiedName, generated.source, unit⟩ cache })

/-- The units of fragments, up to the first failure. -/
def unitsFor : List Fragment → Compiler → Except Error (List Script.CompiledUnit) × Compiler
  | [], compiler => (.ok [], compiler)
  | fragment :: rest, compiler =>
    match fragment.generate with
    | .error error => (.error error, compiler)
    | .ok generated =>
      match compiler.unitFor generated with
      | (.error error, next) => (.error error, next)
      | (.ok unit, next) =>
        match unitsFor rest next with
        | (.error error, final) => (.error error, final)
        | (.ok units, final) => (.ok (unit :: units), final)

/-- The template of a plan; there is none when compilation is disabled or nothing can be
compiled. -/
def tryTemplate (plan : Plan) (compiler : Compiler) : Except Error (Option Template) × Compiler :=
  if !compiler.config.enabled then (.ok none, compiler)
  else
    match partition plan with
    | .error error => (.error error, compiler)
    | .ok [] => (.ok none, compiler)
    | .ok fragments =>
      match compiler.unitsFor fragments with
      | (.error error, next) => (.error error, next)
      | (.ok units, next) =>
        ((Template.ofUnits units compiler.config.effectiveBatchSize).map some, next)

/-- The template of a plan; a plan that cannot be compiled has none. -/
def template (plan : Plan) (compiler : Compiler) : Option Template × Compiler :=
  match compiler.tryTemplate plan with
  | (.ok template, next) => (template, next)
  | (.error _, next) => (none, next)

/-- The compiler with all units removed. -/
def clear (compiler : Compiler) : Compiler :=
  { compiler with cache := CacheLibrary.clear compiler.cache }

/-- The text of a compiler: its settings and what its cache has done. -/
def text (compiler : Compiler) : String :=
  "CompilerManager \x7b config: " ++ compiler.config.text ++ ", stats: CacheStats \x7b hits: " ++
    toString compiler.hits ++ ", misses: " ++ toString compiler.misses ++ ", entries: " ++
    toString compiler.cache.entries.length ++ " \x7d \x7d"

end Compiler

end QueryFusion
