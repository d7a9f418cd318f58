import Cookbook.Graph.Shelf
import Cookbook.Value
/-!
# Cookbook.Graph.Object

The objects of a recipe. A recipe owns its ingredients, supplies and steps. A use says how much of
an ingredient or a supply a step takes; its owner and the step refer to the same use. A step knows
the recipe that it belongs to.
-/

namespace Cookbook

/-- What a use is a use of. -/
inductive Owner
  | ingredient (r : Ref .ingredient)
  | supply (r : Ref .supply)
deriving DecidableEq, Repr

/-- An amount of an ingredient or a supply, scaled by portions. -/
structure Use where
  amount : Value
  owner : Owner
  portions : Value := .int 1

instance : Inhabited Use := ⟨⟨.null, .ingredient ⟨0⟩, .int 1⟩⟩

/-- An ingredient and its uses in all steps. -/
structure Ingredient where
  id : String
  name : String
  unit : String
  uses : List (Ref .use) := []
deriving Inhabited

/-- A piece of equipment and its uses in all steps; it has no unit. -/
structure Supply where
  id : String
  name : String
  uses : List (Ref .use) := []
deriving Inhabited

/-- A step: its text, which may hold templates, and the uses in it. -/
structure Step where
  name : String
  text : String
  useIngredients : List (Ref .use) := []
  useSupplies : List (Ref .use) := []
  recipe : Option (Ref .recipe) := none
deriving Inhabited

/-- A recipe with its steps in order. -/
structure Recipe where
  name : String
  ingredients : List (Ref .ingredient) := []
  supplies : List (Ref .supply) := []
  steps : List (Ref .step) := []
  portions : Value := .int 1
deriving Inhabited

end Cookbook
