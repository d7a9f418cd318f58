import Cookbook.Graph
import Cookbook.Value.Arithmetic
/-!
# Cookbook.Graph.Amount

How much is used, and how objects read as text. The amount of a use is scaled by its portions; the
total of an ingredient is the sum over its registered uses. In text an amount, a unit and a name
are divided by spaces, and an empty one of them is left out.
-/

namespace Cookbook.Graph

/-- Texts divided by spaces, the empty ones left out. -/
def spaced (parts : List String) : String := " ".intercalate (parts.filter (· != ""))

/-- The amount of a use times its portions. -/
def scaled (g : Graph) (u : Ref .use) : Except Fault Value :=
  let use := g.uses.get u
  use.amount.times use.portions

/-- A use as text. -/
def useText (g : Graph) (u : Ref .use) : Except Fault String := do
  let owner := (g.uses.get u).owner
  let amount ← Value.writeAmount (← g.scaled u)
  return spaced [amount, g.ownerUnit owner, g.ownerName owner]

/-- The sum of the scaled amounts of an ingredient. -/
def total (g : Graph) (i : Ref .ingredient) : Except Fault Number :=
  Value.sumOfProducts <| (g.ingredients.get i).uses.map fun u =>
    ((g.uses.get u).amount, (g.uses.get u).portions)

/-- An ingredient with its total as text. -/
def display (g : Graph) (i : Ref .ingredient) : Except Fault String := do
  let ingredient := g.ingredients.get i
  let amount ← Value.writeAmount (← g.total i).toValue
  return spaced [amount, ingredient.unit, ingredient.name]

/-! ### Descriptions -/

/-- A description: the name of a kind with fields in parentheses. -/
def described (kind : String) (fields : List (String × String)) : String :=
  kind ++ "(" ++ ", ".intercalate (fields.map fun (key, v) => key ++ "=" ++ v) ++ ")"

/-- A use described. -/
def describeUse (g : Graph) (u : Ref .use) : Except Fault String := do
  let use := g.uses.get u
  let amount ← use.amount.quoted
  let owner := Text.quoted (g.ownerId use.owner)
  let portions ← use.portions.quoted
  return described "Use" [("amount", amount), ("belongs_to", owner), ("portions", portions)]

/-- An ingredient described. -/
def describeIngredient (g : Graph) (i : Ref .ingredient) : String :=
  let ingredient := g.ingredients.get i
  described "Ingredient" [("id", Text.quoted ingredient.id),
    ("name", Text.quoted ingredient.name), ("unit", Text.quoted ingredient.unit)]

/-- A supply described. -/
def describeSupply (g : Graph) (s : Ref .supply) : String :=
  let supply := g.supplies.get s
  described "Supply" [("id", Text.quoted supply.id), ("name", Text.quoted supply.name)]

/-- A step described. -/
def describeStep (g : Graph) (s : Ref .step) : String :=
  described "Step" [("name", Text.quoted (g.steps.get s).name)]

/-- A recipe described. -/
def describeRecipe (g : Graph) (r : Ref .recipe) : String :=
  let recipe := g.recipes.get r
  described "Recipe" [("name", Text.quoted recipe.name),
    ("ingredients", Nat.repr recipe.ingredients.length),
    ("supplies", Nat.repr recipe.supplies.length), ("steps", Nat.repr recipe.steps.length)]

end Cookbook.Graph
