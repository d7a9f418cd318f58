import Cookbook.Graph.Object
/-!
# Cookbook.Graph

All objects that exist, and the changes that always succeed: making an object, registering a use
with its owner, and setting portions. Portions scale ingredients only: setting those of a recipe
sets those of every use that is registered with one of its ingredients.
-/

namespace Cookbook

/-- All objects that exist. -/
structure Graph where
  ingredients : Shelf .ingredient Ingredient := {}
  supplies : Shelf .supply Supply := {}
  uses : Shelf .use Use := {}
  steps : Shelf .step Step := {}
  recipes : Shelf .recipe Recipe := {}

namespace Graph

/-- The graph without objects. -/
def empty : Graph := {}

instance : Inhabited Graph := ⟨empty⟩

/-! ### Reading -/

/-- The id of what a use is a use of. -/
def ownerId (g : Graph) : Owner → String
  | .ingredient r => (g.ingredients.get r).id
  | .supply r => (g.supplies.get r).id

/-- The name of what a use is a use of. -/
def ownerName (g : Graph) : Owner → String
  | .ingredient r => (g.ingredients.get r).name
  | .supply r => (g.supplies.get r).name

/-- The unit of what a use is a use of; equipment has none. -/
def ownerUnit (g : Graph) : Owner → String
  | .ingredient r => (g.ingredients.get r).unit
  | .supply _ => ""

/-- The id of the owner of a use. -/
def useId (g : Graph) (u : Ref .use) : String := g.ownerId (g.uses.get u).owner

/-- The first ingredient of a recipe with an id. -/
def findIngredient? (g : Graph) (r : Ref .recipe) (id : String) : Option (Ref .ingredient) :=
  (g.recipes.get r).ingredients.find? fun i => (g.ingredients.get i).id == id

/-- The first supply of a recipe with an id. -/
def findSupply? (g : Graph) (r : Ref .recipe) (id : String) : Option (Ref .supply) :=
  (g.recipes.get r).supplies.find? fun s => (g.supplies.get s).id == id

/-- The first ingredient use in a step with an id. -/
def findUseIngredient? (g : Graph) (s : Ref .step) (id : String) : Option (Ref .use) :=
  (g.steps.get s).useIngredients.find? fun u => g.useId u == id

/-- The first supply use in a step with an id. -/
def findUseSupply? (g : Graph) (s : Ref .step) (id : String) : Option (Ref .use) :=
  (g.steps.get s).useSupplies.find? fun u => g.useId u == id

/-! ### Making -/

/-- Make an ingredient. -/
def addIngredient (g : Graph) (i : Ingredient) : Graph × Ref .ingredient :=
  ({ g with ingredients := g.ingredients.add i }, g.ingredients.next)

/-- Make a supply. -/
def addSupply (g : Graph) (s : Supply) : Graph × Ref .supply :=
  ({ g with supplies := g.supplies.add s }, g.supplies.next)

/-- Make a use; it is not registered with its owner yet. -/
def addUse (g : Graph) (u : Use) : Graph × Ref .use :=
  ({ g with uses := g.uses.add u }, g.uses.next)

/-- Make a step; it belongs to no recipe yet. -/
def addStep (g : Graph) (s : Step) : Graph × Ref .step :=
  ({ g with steps := g.steps.add { s with recipe := none } }, g.steps.next)

/-- Make a recipe; its steps do not belong to it yet. -/
def addRecipe (g : Graph) (r : Recipe) : Graph × Ref .recipe :=
  ({ g with recipes := g.recipes.add r }, g.recipes.next)

/-! ### Changing -/

/-- Register a use at the end of the uses of an ingredient or a supply. -/
def register (g : Graph) (owner : Owner) (u : Ref .use) : Graph :=
  match owner with
  | .ingredient r =>
    { g with ingredients := g.ingredients.modify r fun i => { i with uses := i.uses ++ [u] } }
  | .supply r =>
    { g with supplies := g.supplies.modify r fun s => { s with uses := s.uses ++ [u] } }

/-- Set the portions of a use. -/
def setUsePortions (g : Graph) (u : Ref .use) (portions : Value) : Graph :=
  { g with uses := g.uses.modify u fun use => { use with portions } }

/-- Set the portions of every use that is registered with an ingredient. -/
def setIngredientPortions (g : Graph) (i : Ref .ingredient) (portions : Value) : Graph :=
  (g.ingredients.get i).uses.foldl (fun g u => g.setUsePortions u portions) g

/-- Set the portions of a recipe, and of the uses of its ingredients. -/
def setPortions (g : Graph) (r : Ref .recipe) (portions : Value) : Graph :=
  (g.recipes.get r).ingredients.foldl (fun g i => g.setIngredientPortions i portions)
    { g with recipes := g.recipes.modify r fun recipe => { recipe with portions } }

/-- Make a step belong to a recipe. -/
def setRecipe (g : Graph) (s : Ref .step) (r : Ref .recipe) : Graph :=
  { g with steps := g.steps.modify s fun step => { step with recipe := some r } }

end Graph

end Cookbook
