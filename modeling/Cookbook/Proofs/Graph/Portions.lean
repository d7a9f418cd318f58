import Cookbook.Proofs.Graph.Frame
/-!
# Cookbook.Proofs.Graph.Portions

What setting portions changes. The portions of a recipe are set one ingredient and one use after the
other; together this sets those of the recipe and of every use that is registered with one of its
ingredients, and nothing else (`setPortions_eq`). So portions that are set leave nothing of those
that were set before (`setPortions_setPortions`), and of a run of assignments only the last one is
seen (`assign_setPortions`). Portions of two recipes can be set in either order, unless these share
a use and the portions are not the same (`setPortions_comm_iff`).
-/

namespace Cookbook

/-- A use with other portions. -/
def Use.withPortions (p : Value) (u : Use) : Use := { u with portions := p }

theorem Use.unscaled_withPortions (p : Value) (u : Use) :
    (u.withPortions p).unscaled = u.unscaled := rfl

theorem Use.withPortions_withPortions (p q : Value) (u : Use) :
    (u.withPortions p).withPortions q = u.withPortions q := rfl

namespace Graph

/-- Every use that is registered with an ingredient of a recipe. -/
def scaledUses (g : Graph) (r : Ref .recipe) : List (Ref .use) :=
  (g.recipes.get r).ingredients.flatMap fun i => (g.ingredients.get i).uses

/-- Every use of an ingredient that is met from a recipe: through its ingredients, and through its
steps. -/
def ingredientUses (g : Graph) (r : Ref .recipe) : List (Ref .use) :=
  ((g.recipes.get r).ingredients.flatMap fun i => (g.ingredients.get i).uses) ++
    (g.recipes.get r).steps.flatMap fun s => (g.steps.get s).useIngredients

/-- Every use of equipment that is met from a recipe: through its supplies, and through its
steps. -/
def supplyUses (g : Graph) (r : Ref .recipe) : List (Ref .use) :=
  ((g.recipes.get r).supplies.flatMap fun j => (g.supplies.get j).uses) ++
    (g.recipes.get r).steps.flatMap fun s => (g.steps.get s).useSupplies

theorem foldl_setUsePortions (us : List (Ref .use)) (p : Value) (g : Graph) :
    us.foldl (fun g u => g.setUsePortions u p) g =
      { g with uses := g.uses.modifyAll us (Use.withPortions p) } := by
  induction us generalizing g with
  | nil => rfl
  | cons u us ih =>
      rw [List.foldl_cons, ih]
      rfl

/-- Setting the portions of one ingredient after the other sets those of all their uses. -/
theorem foldl_setIngredientPortions (is : List (Ref .ingredient)) (p : Value) (g : Graph) :
    is.foldl (fun g i => g.setIngredientPortions i p) g =
      { g with
        uses := g.uses.modifyAll (is.flatMap fun i => (g.ingredients.get i).uses)
          (Use.withPortions p) } := by
  induction is generalizing g with
  | nil => rfl
  | cons i is ih =>
      rw [List.foldl_cons, ih, setIngredientPortions, foldl_setUsePortions, List.flatMap_cons]
      simp only [Shelf.modifyAll, List.foldl_append]

theorem setPortions_eq (g : Graph) (r : Ref .recipe) (p : Value) :
    g.setPortions r p =
      { g with
        uses := g.uses.modifyAll (g.scaledUses r) (Use.withPortions p)
        recipes := g.recipes.modify r fun recipe => { recipe with portions := p } } := by
  rw [setPortions, foldl_setIngredientPortions]
  rfl

theorem ingredients_setPortions (g : Graph) (r : Ref .recipe) (p : Value) :
    (g.setPortions r p).ingredients = g.ingredients := by
  rw [setPortions_eq]

theorem supplies_setPortions (g : Graph) (r : Ref .recipe) (p : Value) :
    (g.setPortions r p).supplies = g.supplies := by
  rw [setPortions_eq]

theorem steps_setPortions (g : Graph) (r : Ref .recipe) (p : Value) :
    (g.setPortions r p).steps = g.steps := by
  rw [setPortions_eq]

theorem get?_recipes_setPortions {g : Graph} {r : Ref .recipe} {recipe : Recipe} (p : Value)
    (h : g.recipes.get? r = some recipe) :
    (g.setPortions r p).recipes.get? r = some { recipe with portions := p } := by
  rw [setPortions_eq, Shelf.get?_modify_self, h]
  rfl

theorem get_recipes_setPortions {g : Graph} {r : Ref .recipe} (p : Value) (h : g.recipes.Has r) :
    (g.setPortions r p).recipes.get r = { g.recipes.get r with portions := p } := by
  obtain ⟨recipe, hrecipe⟩ := Option.isSome_iff_exists.mp h
  rw [Shelf.get_of_get? hrecipe]
  exact Shelf.get_of_get? (get?_recipes_setPortions p hrecipe)

theorem keeps_setPortions (g : Graph) (r : Ref .recipe) (p : Value) :
    Keeps g (g.setPortions r p) := by
  rw [setPortions_eq]
  exact ⟨.refl _ _, .refl _ _, Shelf.keeps_modifyAll (Use.unscaled_withPortions p) _ _, .refl _ _⟩

theorem get?_uses_setPortions (g : Graph) (r : Ref .recipe) (p : Value) (u : Ref .use) :
    (g.setPortions r p).uses.get? u =
      if u ∈ g.scaledUses r then (g.uses.get? u).map (Use.withPortions p) else g.uses.get? u := by
  rw [setPortions_eq]
  exact Shelf.get?_modifyAll (Use.withPortions_withPortions p p) _ _ _

theorem portions_setPortions {g : Graph} {r : Ref .recipe} {u : Ref .use} (p : Value)
    (hu : u ∈ g.scaledUses r) (hhas : g.uses.Has u) :
    ((g.setPortions r p).uses.get u).portions = p := by
  obtain ⟨use, huse⟩ := Option.isSome_iff_exists.mp hhas
  have hget := g.get?_uses_setPortions r p u
  rw [if_pos hu, huse] at hget
  rw [Shelf.get_of_get? hget]
  rfl

/-! ### Setting portions again and again -/

theorem recipe_ingredients_setPortions (g : Graph) (r r' : Ref .recipe) (p : Value) :
    ((g.setPortions r p).recipes.get r').ingredients = (g.recipes.get r').ingredients := by
  rw [setPortions_eq]
  rcases g.recipes.get_modify_cases r r' fun recipe => { recipe with portions := p } with
    hkept | ⟨-, hset⟩
  · rw [hkept]
  · rw [hset]

/-- Which uses are scaled does not depend on the portions of any recipe. -/
theorem scaledUses_setPortions (g : Graph) (r r' : Ref .recipe) (p : Value) :
    (g.setPortions r p).scaledUses r' = g.scaledUses r' := by
  simp only [scaledUses, ingredients_setPortions, recipe_ingredients_setPortions]

theorem setPortions_setPortions (g : Graph) (r : Ref .recipe) (p q : Value) :
    (g.setPortions r p).setPortions r q = g.setPortions r q := by
  rw [setPortions_eq _ r q, scaledUses_setPortions, setPortions_eq, setPortions_eq]
  congr 1
  · exact Shelf.modifyAll_modifyAll (Use.withPortions_withPortions p p)
      (Use.withPortions_withPortions q q) (Use.withPortions_withPortions p q) _ _
  · exact Shelf.modify_modify (f := fun recipe : Recipe => { recipe with portions := p })
      (fun _ => rfl) _ _

theorem setPortions_comm {g : Graph} {r r' : Ref .recipe} {p q : Value} (hne : r ≠ r')
    (h : p = q ∨ ∀ u ∈ g.scaledUses r, u ∉ g.scaledUses r') :
    (g.setPortions r p).setPortions r' q = (g.setPortions r' q).setPortions r p := by
  rw [setPortions_eq _ r' q, setPortions_eq (g.setPortions r' q), scaledUses_setPortions,
    scaledUses_setPortions, setPortions_eq, setPortions_eq]
  congr 1
  · refine Shelf.modifyAll_comm (Use.withPortions_withPortions p p)
      (Use.withPortions_withPortions q q) _ fun u hu hu' use => ?_
    rcases h with rfl | hdisjoint
    · rfl
    · exact absurd hu' (hdisjoint u hu)
  · exact Shelf.modify_comm hne _ _ _

/-- A use that two recipes share has the portions that were set last. -/
theorem setPortions_comm_iff {g : Graph} {r r' : Ref .recipe} {p q : Value} (hne : r ≠ r')
    (hhas : ∀ u ∈ g.scaledUses r, g.uses.Has u) :
    (g.setPortions r p).setPortions r' q = (g.setPortions r' q).setPortions r p ↔
      p = q ∨ ∀ u ∈ g.scaledUses r, u ∉ g.scaledUses r' := by
  refine ⟨fun heq => or_iff_not_imp_right.mpr fun hshared => ?_, setPortions_comm hne⟩
  obtain ⟨u, hu, hu'⟩ : ∃ u ∈ g.scaledUses r, u ∈ g.scaledUses r' := by
    by_contra hnone
    exact hshared fun u hu hu' => hnone ⟨u, hu, hu'⟩
  have hfirst : (((g.setPortions r' q).setPortions r p).uses.get u).portions = p := by
    refine portions_setPortions p ?_ ((g.keeps_setPortions r' q).uses.has (hhas u hu))
    rwa [scaledUses_setPortions]
  have hsecond : (((g.setPortions r p).setPortions r' q).uses.get u).portions = q := by
    refine portions_setPortions q ?_ ((g.keeps_setPortions r p).uses.has (hhas u hu))
    rwa [scaledUses_setPortions]
  rw [← hfirst, ← heq, hsecond]

/-- The graph after portions were assigned to a recipe, one value after the other. -/
def assign (g : Graph) (r : Ref .recipe) (ps : List Value) : Graph :=
  ps.foldl (fun g p => g.setPortions r p) g

theorem assign_cons (g : Graph) (r : Ref .recipe) (p : Value) (ps : List Value) :
    g.assign r (p :: ps) = (g.setPortions r p).assign r ps := rfl

/-- Only the last assignment is seen. -/
theorem assign_setPortions (g : Graph) (r : Ref .recipe) (p : Value) (ps : List Value) :
    (g.setPortions r p).assign r ps = g.setPortions r (ps.getLastD p) := by
  induction ps generalizing p with
  | nil => rfl
  | cons q ps ih => rw [assign_cons, setPortions_setPortions, ih, List.getLastD_cons]

end Graph

end Cookbook
