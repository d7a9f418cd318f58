import Cookbook.Proofs.Build.Sharing
/-!
# Cookbook.Proofs.Operation.Run

What can be done with objects from outside, one operation after the other: making them, building
them from records, linking and attaching them, and setting portions. A run is any sequence of
operations, each on objects that exist by then; it goes on after an operation that failed, from the
graph which that one left. `State` remembers which recipes were constructed: one whose making failed
halfway exists, and steps may belong to it, but it was not.
-/

namespace Cookbook

/-- Assign a recipe to a step, or no recipe, which only a step without a recipe can be assigned. -/
def Work.assign (s : Ref .step) : Option (Ref .recipe) → Work Unit
  | some r => attach s r
  | none => fun g =>
    let step := g.steps.get s
    match step.recipe with
    | none => (pure (), g)
    | some r => (Report.fail (.stepOfOtherRecipe step.name (g.recipes.get r).name), g)

/-- Something that can be done with objects. -/
inductive Operation
  | addIngredient (i : Ingredient)
  | addSupply (j : Supply)
  | addUse (u : Use)
  | addStep (s : Step)
  | makeRecipe (name : String) (ingredients : List (Ref .ingredient))
      (supplies : List (Ref .supply)) (steps : List (Ref .step))
  | buildStep (ingredients supplies : Build.Index) (v : Value)
  | buildRecipe (v portions : Value)
  | register (owner : Owner) (u : Ref .use)
  | setUsePortions (u : Ref .use) (portions : Value)
  | setIngredientPortions (i : Ref .ingredient) (portions : Value)
  | setPortions (r : Ref .recipe) (portions : Value)
  | assign (s : Ref .step) (recipe : Option (Ref .recipe))

namespace Shelf

instance {kind : Kind} {α : Type} (s : Shelf kind α) (r : Ref kind) : Decidable (s.Has r) :=
  inferInstanceAs (Decidable (_ = true))

end Shelf

namespace Graph

instance (g : Graph) : (o : Owner) → Decidable (g.HasOwner o)
  | .ingredient i => inferInstanceAs (Decidable (g.ingredients.Has i))
  | .supply j => inferInstanceAs (Decidable (g.supplies.Has j))

end Graph

namespace Operation

/-- The objects that an operation is on exist. -/
def Valid (g : Graph) : Operation → Prop
  | addIngredient i => ∀ u ∈ i.uses, g.uses.Has u
  | addSupply j => ∀ u ∈ j.uses, g.uses.Has u
  | addUse u => g.HasOwner u.owner
  | addStep s => ∀ u ∈ s.uses, g.uses.Has u
  | makeRecipe _ is js ss => (∀ i ∈ is, g.ingredients.Has i) ∧ (∀ j ∈ js, g.supplies.Has j) ∧
      ∀ s ∈ ss, g.steps.Has s
  | buildStep is js _ => ∀ o ∈ (is ++ js).map Prod.snd, g.HasOwner o
  | buildRecipe _ _ => True
  | register o u => g.HasOwner o ∧ g.uses.Has u
  | setUsePortions u _ => g.uses.Has u
  | setIngredientPortions i _ => g.ingredients.Has i
  | setPortions r _ => g.recipes.Has r
  | assign s r => g.steps.Has s ∧ ∀ r' ∈ r, g.recipes.Has r'

instance (g : Graph) : (op : Operation) → Decidable (op.Valid g)
  | addIngredient _ | addSupply _ | addStep _ | buildStep .. =>
      inferInstanceAs (Decidable (∀ _ ∈ _, _))
  | addUse u => inferInstanceAs (Decidable (g.HasOwner u.owner))
  | makeRecipe .. => inferInstanceAs (Decidable (_ ∧ _ ∧ _))
  | buildRecipe .. => inferInstanceAs (Decidable True)
  | register .. => inferInstanceAs (Decidable (_ ∧ _))
  | setUsePortions u _ => inferInstanceAs (Decidable (g.uses.Has u))
  | setIngredientPortions i _ => inferInstanceAs (Decidable (g.ingredients.Has i))
  | setPortions r _ => inferInstanceAs (Decidable (g.recipes.Has r))
  | assign .. => inferInstanceAs (Decidable (_ ∧ _))

/-- The graph after an operation, also after one that failed. -/
def perform (g : Graph) : Operation → Graph
  | addIngredient i => (g.addIngredient i).1
  | addSupply j => (g.addSupply j).1
  | addUse u => (g.addUse u).1
  | addStep s => (g.addStep s).1
  | makeRecipe name is js ss => (Work.makeRecipe name is js ss g).2
  | buildStep is js v => (Build.step is js v g).2
  | buildRecipe v p => (Build.recipe v p g).2
  | register o u => g.register o u
  | setUsePortions u p => g.setUsePortions u p
  | setIngredientPortions i p => g.setIngredientPortions i p
  | setPortions r p => g.setPortions r p
  | assign s r => (Work.assign s r g).2

/-- The recipe that an operation constructs, if it does. One that is built from a record is
constructed before its portions are set and put into words, so also where that fails. -/
def constructed? (g : Graph) : Operation → Option (Ref .recipe)
  | makeRecipe name is js ss => (Work.makeRecipe name is js ss g).1.outcome.toOption
  | buildRecipe v _ => (Build.recipeForOne v g).1.outcome.toOption
  | _ => none

end Operation

/-- All objects that exist, and those recipes among them that were constructed. -/
structure State where
  graph : Graph := .empty
  constructed : List (Ref .recipe) := []

namespace State

/-- The state after an operation. -/
def next (x : State) (op : Operation) : State where
  graph := op.perform x.graph
  constructed := x.constructed ++ (op.constructed? x.graph).toList

/-- A run of operations from one state to another. -/
inductive Run : State → List Operation → State → Prop
  | nil (x : State) : Run x [] x
  | cons {x y : State} {op : Operation} {ops : List Operation} (hop : op.Valid x.graph)
      (h : Run (x.next op) ops y) : Run x (op :: ops) y

end State

end Cookbook
