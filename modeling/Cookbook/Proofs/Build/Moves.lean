import Cookbook.Proofs.Build.Recipe
import Cookbook.Proofs.Graph.Link
import Cookbook.Proofs.Graph.Work
/-!
# Cookbook.Proofs.Build.Moves

What each change of a graph keeps, the making of a recipe from its record keeps too, whether it
succeeds or not (`moves_recipeForOne`). The changes are few: an object is made, a use is linked, or
a step gets its recipe. A relation between graphs that each of them keeps, and that goes from step
to step, is kept by all of that work.
-/

namespace Cookbook

namespace Build

open Work (Moves)

variable {R : Graph → Graph → Prop}

theorem moves_linkUse (hlink : ∀ g use, use.portions = .int 1 → R g (Graph.link g use))
    (owner : Owner) (amount : Value) : Moves R (linkUse owner amount) := fun g =>
  hlink g { amount, owner } rfl

variable [Std.Refl R] [IsTrans Graph R]

section

variable (hlink : ∀ g use, use.portions = .int 1 → R g (Graph.link g use))

include hlink

theorem moves_use (index : Index) (unknown : String → Warning) (v : Value) :
    Moves R (use index unknown v) := by
  refine .bind (.lift _) fun id => .bind (.lift _) fun found => ?_
  cases found with
  | none => exact .bind (.lift _) fun id => .bind (.report _) fun _ => .pure none
  | some owner =>
      exact .bind (.lift _) fun _ => .bind (moves_linkUse hlink owner _) fun u => .pure (some u)

theorem moves_uses (index : Index) (unknown : String → Warning) (vs : List Value) :
    Moves R (uses index unknown vs) := by
  induction vs with
  | nil => exact .pure []
  | cons v vs ih =>
      exact .bind (moves_use hlink index unknown v) fun _ => .bind ih fun _ => .pure _

variable (hstep : ∀ g s, R g (Graph.addStep g s).1)

include hstep

theorem moves_step (ingredients supplies : Index) (v : Value) :
    Moves R (step ingredients supplies v) :=
  .bind (.lift _) fun _ => .bind (.lift _) fun _ =>
    .bind (moves_uses hlink ingredients _ _) fun _ => .bind (.lift _) fun _ =>
      .bind (moves_uses hlink supplies _ _) fun _ => .bind (.lift _) fun _ =>
        .make fun g => hstep g _

theorem moves_steps (ingredients supplies : Index) (vs : List Value) :
    Moves R (steps ingredients supplies vs) :=
  .mapM' fun v _ => moves_step hlink hstep ingredients supplies v

end

theorem moves_addIngredients {is : List Ingredient}
    (hadd : ∀ g, ∀ i ∈ is, R g (Graph.addIngredient g i).1) : Moves R (addIngredients is) :=
  .mapM' fun i hi => .make fun g => hadd g i hi

theorem moves_addSupplies (hadd : ∀ g j, R g (Graph.addSupply g j).1) (js : List Supply) :
    Moves R (addSupplies js) :=
  .mapM' fun j _ => .make fun g => hadd g j

/-- Ingredients are made without uses, and uses and the recipe for one portion. -/
theorem moves_recipeForOne
    (hingredient : ∀ g i, Ingredient.unused i = i → R g (Graph.addIngredient g i).1)
    (hsupply : ∀ g j, R g (Graph.addSupply g j).1)
    (hlink : ∀ g use, use.portions = .int 1 → R g (Graph.link g use))
    (hstep : ∀ g s, R g (Graph.addStep g s).1)
    (hrecipe : ∀ g recipe, recipe.portions = .int 1 → R g (Graph.addRecipe g recipe).1)
    (hset : ∀ g s r, (∀ r' ∈ (g.steps.get s).recipe, r' = r) → R g (Graph.setRecipe g s r))
    (v : Value) : Moves R (recipeForOne v) := by
  refine .lift_bind fun is his => ?_
  have hingredients : Moves R (addIngredients is) :=
    moves_addIngredients fun g i hi => hingredient g i (unused_of_ingredients his i hi)
  exact .bind hingredients fun _ => .bind (.lift _) fun js =>
    .bind (moves_addSupplies hsupply js) fun _ => .bind (.lift _) fun _ =>
      .bind (moves_steps hlink hstep _ _ _) fun _ => .bind (.lift _) fun _ =>
        Work.moves_makeRecipe hset hrecipe _ _ _ _

end Build

end Cookbook
