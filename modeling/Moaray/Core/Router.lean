import Moaray.Core.Text

/-!
# Model-name routing

The `model` of a request selects its path: a name with the prefix `moa/` names a recipe, the alias
`moa-auto` stands for the recipe `auto`, and any other name has to be a configured model.

* `RouteTarget` — the three outcomes.
* `route` — the order in which they are tried: the prefix first, so a configured model whose name
  has it is never reached, and a model of the alias's name is not either.

The registry's names are the caller's business, so routing takes a predicate for them.
-/

namespace Moaray

/-- Where a request should go, as far as its model name tells.  Whether there is such a model or
recipe is found out later. -/
inductive RouteTarget
  | passthrough (model : String)
  /-- MoA with the named recipe; the alias stands for the recipe `auto`. -/
  | moa (recipe : String)
  | unknown (model : String)
  deriving DecidableEq, Repr

def moaPrefix : String := "moa/"

def moaAuto : String := "moa-auto"

/-- Route a model name. -/
def route (model : String) (isKnownModel : String → Bool) : RouteTarget :=
  match stripPrefix model moaPrefix with
  | some recipe => if recipe.isEmpty then .unknown model else .moa recipe
  | none =>
      if model = moaAuto then .moa "auto"
      else if isKnownModel model then .passthrough model
      else .unknown model

end Moaray
