import Moaray.Config.Runtime

/-!
# The orchestrator's own view of a recipe

The orchestrator does not depend on the configuration, so a validated recipe is translated into
this type when it is wired; `toMoaRecipe` is that bridge.  Nor does it depend on the adapters:
providers are whatever its resolver yields.

* `Strategy`, `Recipe` — a resolved recipe.
* `Orchestrator` — two tables, from model names to providers and from recipe names to recipes.

The type of providers is a parameter.  In the gateway it is the type of the registry's entries,
guarded or not; in statements about the orchestrator alone it is anything, and what a provider does
is given with the run.
-/

namespace Moaray

open Framework

/-- MoA fusion strategy: which instruction the aggregator gets.  The rest of the prompt is the same.
-/
inductive Strategy
  /-- The aggregator fuses all successful proposer outputs into one answer. -/
  | concatSynthesize
  /-- A judge selects or merges the single best answer. -/
  | quorumJudge
  deriving DecidableEq, Repr

/-- A resolved recipe: the orchestrator looks its members up by their names. -/
structure Recipe where
  name : String
  proposers : List String
  aggregator : String
  strategy : Strategy
  armTimeoutMs : UInt64
  quorum : ℕ
  deriving DecidableEq, Repr

def toMoaRecipe (r : RecipeConfig) : Recipe where
  name := r.name
  proposers := r.proposers
  aggregator := r.aggregator
  strategy :=
    match r.strategy with
    | .concatSynthesize => .concatSynthesize
    | .quorumJudge => .quorumJudge
  armTimeoutMs := r.armTimeoutMs
  quorum := r.quorum

/-- The orchestrator: the providers its arms resolve to, and the recipes.  A run changes neither. -/
structure Orchestrator (π : Type) where
  resolver : Table String π
  recipes : Table String Recipe

namespace Orchestrator

variable {π : Type}

/-- Resolve a model name to its provider. -/
def resolve (o : Orchestrator π) (model : String) : Option π := o.resolver[model]?

def recipe (o : Orchestrator π) (name : String) : Option Recipe := o.recipes[name]?

end Orchestrator

end Moaray
