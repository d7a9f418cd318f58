import Cookbook.Proofs.Build.Copy
import Cookbook.Proofs.Build.Rescale
import Cookbook.Proofs.Graph.View
/-!
# Cookbook.Proofs.Build.Rebuild

Portions leave no history. A recipe whose portions were set again and again is seen as the same
record made into a recipe once, for the portions that were set last.

The two recipes are in different graphs, so they are not equal. They are compared through a third
one, made from nothing and for one portion: both are copies of it that were scaled, the first one in
effect only once (`assign_setPortions`), and what is seen of a copy is what is seen of the original
(`view_moved`).
-/

namespace Cookbook

namespace Build

variable {v p : Value} {g g' : Graph} {ws : List Warning} {r : Ref .recipe}

theorem Built.hasUses (h : Built v p g r) : g.HasUses r where
  ingredient := fun u hu => (h.scaled.ingredient_portions u hu).1
  supply := fun u hu => (h.scaled.supply_portions u hu).1

/-- Scaling a recipe that was made for one portion fails only where the portions have no text. -/
theorem recipe_of_recipeForOne (h : recipeForOne v g = (⟨ws, .ok r⟩, g')) (p : Value) :
    recipe v p g = (⟨ws, p.write.map fun _ => r⟩, g'.setPortions r p) := by
  have hrest : (do
      Work.change (·.setPortions r p)
      let _ ← p.write
      return r : Work (Ref .recipe)) g' = (⟨[], p.write.map fun _ => r⟩, g'.setPortions r p) := by
    cases p.write <;> rfl
  unfold recipe
  rw [Work.bind_of_ok h, hrest, List.append_nil]

/-- **Rescaling is rebuilding.** After any run of assignments that ends with `p`, a recipe is seen
as the same record made into a recipe for `p`, in whatever graph. Making that one gives the same
warnings again, and fails only if `p` has no text. -/
theorem rescaled_eq_rebuilt {p₀ : Value} (h : recipe v p₀ g = (⟨ws, .ok r⟩, g')) (ps : List Value)
    (p : Value) (fresh : Graph) :
    ∃ r' fresh', recipe v p fresh = (⟨ws, p.write.map fun _ => r'⟩, fresh') ∧
      (g'.assign r (ps ++ [p])).view r = fresh'.view r' := by
  obtain ⟨g₀, s, hmade, -, rfl⟩ := recipe_inv h
  obtain ⟨e, e₀, hempty, rfl, hcopy, hanywhere⟩ := recipeForOne_anywhere hmade
  obtain ⟨fresh₀, hfresh, hcopy'⟩ := hanywhere fresh
  have hbuilt : Built v p (e₀.setPortions e p) e := (recipeForOne_built hempty).setPortions p
  -- Of the whole run of assignments only the last one is left.
  have hlast : (g₀.setPortions (e.moved g.sizes) p₀).assign (e.moved g.sizes) (ps ++ [p]) =
      g₀.setPortions (e.moved g.sizes) p := by
    rw [Graph.assign_setPortions, List.getLastD_concat]
  refine ⟨e.moved fresh.sizes, fresh₀.setPortions (e.moved fresh.sizes) p, ?_, ?_⟩
  · exact recipe_of_recipeForOne hfresh p
  · rw [hlast]
    -- Scaling goes on in step in the original and in both copies of it.
    have hview := (hcopy.setPortions e p).view_moved hbuilt.hasUses
    have hview' := (hcopy'.setPortions e p).view_moved hbuilt.hasUses
    exact hview.trans hview'.symm

/-- The record with an id twice, made for four portions, set to two and then to seven, and made
again beside itself for seven. -/
theorem rescaled_eq_rebuilt_doubleSalt :
    let g := (recipe doubleSalt (.int 4) .empty).2
    recipe doubleSalt (.int 4) .empty = (⟨[], .ok ⟨0⟩⟩, g) ∧
      ∃ r' fresh', recipe doubleSalt (.int 7) g = (⟨[], .ok r'⟩, fresh') ∧
        (g.assign ⟨0⟩ [.int 2, .int 7]).view ⟨0⟩ = fresh'.view r' := by
  intro g
  have hwrite : (Value.int 7).write = .ok "7" := rfl
  obtain ⟨r', fresh', hagain, hview⟩ := rescaled_eq_rebuilt recipe_doubleSalt [.int 2] (.int 7) g
  rw [hwrite] at hagain
  exact ⟨recipe_doubleSalt, r', fresh', hagain, hview⟩

end Build

end Cookbook
