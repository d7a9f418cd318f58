import Cookbook.Proofs.Graph.Portions
/-!
# Cookbook.Proofs.Graph.Settled

The recipe of a step is written once. Attaching looks at the step first, and a step that belongs to
another recipe is not touched; nothing else writes this field of a step that exists. `Settles` is
the relation between two graphs which says so, and every change of a graph keeps it, also one that
fails halfway (`settles_makeRecipe`).
-/

namespace Cookbook

namespace Graph

/-- What is settled stays so: a step that belongs to a recipe still does, and every recipe has the
steps that it had. -/
structure Settles (g g' : Graph) : Prop where
  recipe : ∀ s r, (g.steps.get s).recipe = some r → (g'.steps.get s).recipe = some r
  steps : Shelf.Keeps Recipe.steps g.recipes g'.recipes

namespace Settles

variable {g g₁ g₂ : Graph}

instance : Std.Refl Settles := ⟨fun _ => ⟨fun _ _ h => h, .refl _ _⟩⟩

instance : IsTrans Graph Settles :=
  ⟨fun _ _ _ h h' => ⟨fun s r hr => h'.recipe s r (h.recipe s r hr), h.steps.trans h'.steps⟩⟩

theorem of_eq (hs : g₁.steps = g.steps) (hr : g₁.recipes = g.recipes) : Settles g g₁ := by
  constructor
  · rw [hs]
    exact fun _ _ h => h
  · rw [hr]
    exact .refl _ _

theorem addStep (g : Graph) (s : Step) : Settles g (g.addStep s).1 where
  recipe := by
    intro s' r h
    -- The new step belongs to no recipe, and there was none in its place.
    have hhas : g.steps.Has s' := by
      by_contra hnone
      have hget : g.steps.get? s' = none := Option.not_isSome_iff_eq_none.mp hnone
      rw [Shelf.get, hget] at h
      cases h
    exact (congrArg Step.recipe (Shelf.get_congr (Shelf.get?_add_of_has hhas _))).trans h
  steps := .refl _ _

theorem addRecipe (g : Graph) (r : Recipe) : Settles g (g.addRecipe r).1 where
  recipe := fun _ _ h => h
  steps := Shelf.keeps_of_added (.single g.recipes r) Recipe.steps

/-- A step that belongs to no other recipe may be attached to one. -/
theorem setRecipe (g : Graph) (s : Ref .step) (r : Ref .recipe)
    (h : ∀ r' ∈ (g.steps.get s).recipe, r' = r) : Settles g (g.setRecipe s r) where
  recipe := by
    intro s' r' hr'
    by_cases heq : s' = s
    · subst heq
      obtain rfl := h r' hr'
      rcases Work.recipe_setRecipe g s' s' r' with hset | hkept
      · exact hset
      · rw [hkept]
        exact hr'
    · rw [← hr']
      exact congrArg Step.recipe (Shelf.get_congr (g.steps.get?_modify_of_ne _ heq))
  steps := .refl _ _

theorem register (g : Graph) (owner : Owner) (u : Ref .use) : Settles g (g.register owner u) := by
  cases owner with
  | ingredient i => exact of_eq rfl rfl
  | supply j => exact of_eq rfl rfl

theorem setPortions (g : Graph) (r : Ref .recipe) (p : Value) : Settles g (g.setPortions r p) where
  recipe := by
    rw [g.steps_setPortions]
    exact fun _ _ h => h
  steps := by
    rw [g.setPortions_eq]
    exact Shelf.keeps_modify (m := fun recipe : Recipe => { recipe with portions := p })
      (fun _ => rfl) _ _

theorem setIngredientPortions (g : Graph) (i : Ref .ingredient) (p : Value) :
    Settles g (g.setIngredientPortions i p) := by
  rw [Graph.setIngredientPortions, foldl_setUsePortions]
  exact of_eq rfl rfl

end Settles

end Graph

namespace Work

theorem settles_attach (s : Ref .step) (r : Ref .recipe) : Moves Graph.Settles (attach s r) :=
  moves_attach Graph.Settles.setRecipe s r

theorem settles_makeRecipe (name : String) (is : List (Ref .ingredient)) (js : List (Ref .supply))
    (ss : List (Ref .step)) : Moves Graph.Settles (makeRecipe name is js ss) :=
  moves_makeRecipe Graph.Settles.setRecipe (fun g r _ => .addRecipe g r) name is js ss

end Work

end Cookbook
