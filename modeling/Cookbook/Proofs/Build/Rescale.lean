import Cookbook.Proofs.Build.Recipe
/-!
# Cookbook.Proofs.Build.Rescale

The portions of a recipe from its making on. Setting portions walks over the ingredients of the
recipe only. It reaches every ingredient use of a step, since each of them is registered with an
ingredient of the recipe, and no use of equipment, since each of those is owned by a supply.

`Scaled` says so of one moment. It holds of every recipe that was built, and a recipe stays built
through every run of assignments (`Built.assign`).
-/

namespace Cookbook

namespace Build

variable {v p : Value} {g g' : Graph} {ws : List Warning} {r : Ref .recipe}

/-! ### Uses that are met from a recipe -/

/-- Every ingredient use of a step is registered with an ingredient of the recipe. -/
theorem Built.mem_scaledUses_of_step (h : Built v p g r) {s : Ref .step}
    (hs : s ∈ (g.recipes.get r).steps) {u : Ref .use} (hu : u ∈ (g.steps.get s).useIngredients) :
    u ∈ g.scaledUses r := by
  obtain ⟨i, hi, howner⟩ := List.mem_map.mp (h.shared.ingredients.owner_mem s hs u hu)
  have hregistered := h.shared.ingredients.mem_registered hs hu
  rw [← howner] at hregistered
  exact List.mem_flatMap.mpr ⟨i, hi, hregistered⟩

/-- An ingredient use that is met from a recipe is registered with one of its ingredients. -/
theorem Built.mem_scaledUses (h : Built v p g r) {u : Ref .use} (hu : u ∈ g.ingredientUses r) :
    u ∈ g.scaledUses r := by
  rcases List.mem_append.mp hu with hu | hu
  · exact hu
  · obtain ⟨s, hs, hmem⟩ := List.mem_flatMap.mp hu
    exact h.mem_scaledUses_of_step hs hmem

/-- A supply use that is met from a recipe is one of its steps. -/
theorem Built.mem_step_of_supplyUses (h : Built v p g r) {u : Ref .use}
    (hu : u ∈ g.supplyUses r) :
    ∃ s ∈ (g.recipes.get r).steps, u ∈ (g.steps.get s).useSupplies := by
  rcases List.mem_append.mp hu with hu | hu
  · obtain ⟨j, hj, hmem⟩ := List.mem_flatMap.mp hu
    have hj' : Owner.supply j ∈ (g.recipes.get r).supplies.map Owner.supply :=
      List.mem_map_of_mem hj
    exact h.shared.supplies.mem_step_of_registered hj' hmem
  · exact List.mem_flatMap.mp hu

/-! ### Assignments -/

/-- A run of assignments keeps a recipe built, with the portions that were assigned last. -/
theorem Built.assign (h : Built v p g r) (ps : List Value) :
    Built v (ps.getLastD p) (g.assign r ps) r := by
  induction ps generalizing p g with
  | nil => exact h
  | cons q ps ih =>
      rw [List.getLastD_cons, Graph.assign_cons]
      exact ih (h.setPortions q)

/-- A recipe and every use of an ingredient that is met from it have these portions; every use of
equipment is for one portion. -/
structure Scaled (g : Graph) (r : Ref .recipe) (p : Value) : Prop where
  recipe_portions : g.recipes.Has r ∧ (g.recipes.get r).portions = p
  ingredient_portions : ∀ u ∈ g.ingredientUses r, g.uses.Has u ∧ (g.uses.get u).portions = p
  supply_portions : ∀ u ∈ g.supplyUses r, g.uses.Has u ∧ (g.uses.get u).portions = .int 1

theorem Built.scaled (h : Built v p g r) : Scaled g r p where
  recipe_portions := ⟨h.has_recipe, h.portions_eq⟩
  ingredient_portions := by
    intro u hu
    obtain ⟨i, hi, hregistered⟩ := List.mem_flatMap.mp (h.mem_scaledUses hu)
    have hhas := h.shared.ingredients.has_registered (List.mem_map_of_mem hi) hregistered
    exact ⟨hhas, h.use_portions i hi u hregistered⟩
  supply_portions := by
    intro u hu
    obtain ⟨s, hs, hmem⟩ := h.mem_step_of_supplyUses hu
    exact ⟨h.shared.supplies.has_use s hs u hmem, h.supply_portions s hs u hmem⟩

/-- Whatever portions are assigned to a recipe that was made from a record: the recipe and all its
ingredient uses have those that were assigned last, or those that it was made with if none were, and
all its supply uses are for one portion. -/
theorem scaled_of_assign {p₀ : Value} (h : recipe v p₀ g = (⟨ws, .ok r⟩, g')) (ps : List Value) :
    Scaled (g'.assign r ps) r (ps.getLastD p₀) := by
  have hbuilt : Built v p₀ g' r := recipe_built h
  exact (hbuilt.assign ps).scaled

theorem scaled_of_assign_doubleSalt :
    let g := (recipe doubleSalt (.int 4) .empty).2
    recipe doubleSalt (.int 4) .empty = (⟨[], .ok ⟨0⟩⟩, g) ∧
      Scaled (g.assign ⟨0⟩ [.int 2, .int 7]) ⟨0⟩ (.int 7) := by
  intro g
  exact ⟨recipe_doubleSalt, scaled_of_assign recipe_doubleSalt [.int 2, .int 7]⟩

end Build

end Cookbook
