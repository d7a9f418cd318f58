import Cookbook.Proofs.Build.Shape
import Cookbook.Proofs.Graph.Resolve
/-!
# Cookbook.Proofs.Build.Whole

Whole numbers in a recipe. If the amounts in a record are whole, so are all amounts in the graph of
the recipe, since every use comes from an entry of the record (`Sharing.exists_entry`). For a whole
number of portions the scaled amounts and the totals are whole then as well, and none of them fails.
-/

namespace Cookbook

/-! ### Whole products and sums -/

namespace Value

/-- A value that is a whole number, or counts as one. -/
def Counts (v : Value) (n : Int) : Prop := v.number? = some (.int n)

theorem times_of_counts {v w : Value} {m n : Int} (hv : v.Counts m) (hw : w.Counts n) :
    v.times w = .ok (.int (m * n)) := by
  unfold Counts at hv hw
  unfold times
  rw [hv, hw]
  rfl

/-- Products that are whole have a whole sum. -/
theorem addProducts_whole (total : Int) {pairs : List (Value × Value)}
    (h : ∀ pair ∈ pairs, ∃ n, pair.1.times pair.2 = .ok (.int n)) :
    ∃ n, addProducts (.int total) pairs = .ok (.int n) := by
  choose! product hproduct using h
  have hsum := addProducts_map hproduct total
  rw [List.map_id'] at hsum
  exact ⟨_, hsum⟩

end Value

/-! ### The uses of a step -/

namespace Graph

/-- A use in the text of a step is one of the step. -/
theorem mem_uses_of_segments {g : Graph} {s : Ref .step} {xs : List Segment} {u : Ref .use}
    (h : g.segments s = .ok xs) (hu : .use u ∈ xs) : u ∈ (g.steps.get s).uses := by
  unfold segments at h
  dsimp only at h
  split at h
  · cases h
  · cases h
    rcases List.mem_append.mp hu with hu | hu
    · obtain ⟨⟨before, t⟩, -, hu⟩ := List.mem_flatMap.mp hu
      rcases List.mem_cons.mp hu with hu | hu
      · cases hu
      · cases refers_of_resolve? (Option.mem_toList.mp hu) with
        | useIngredient hmem => exact List.mem_append_left _ hmem
        | useSupply hmem => exact List.mem_append_right _ hmem
    · cases List.mem_singleton.mp hu

end Graph

namespace Build

variable {v : Value} {g : Graph} {r : Ref .recipe}

/-- Every use of a step comes from an entry of the step's record. -/
theorem Sharing.exists_entry {d : Side} {vs : List Value} {ss : List (Ref .step)}
    (h : Sharing g d vs ss) {s : Ref .step} (hs : s ∈ ss) {u : Ref .use}
    (hu : u ∈ d.field (g.steps.get s)) :
    ∃ w ∈ vs, ∃ e ∈ w.listed d.key, useOf? d.index e = some (g.uses.get u).unscaled := by
  have hstep : (d.field (g.steps.get s)).map (fun u => (g.uses.get u).unscaled) ∈
      vs.map fun v => (v.listed d.key).filterMap (useOf? d.index) := by
    rw [← h.entries]
    exact List.mem_map_of_mem hs
  obtain ⟨w, hw, heq⟩ := List.mem_map.mp hstep
  have hentry : (g.uses.get u).unscaled ∈ (w.listed d.key).filterMap (useOf? d.index) := by
    rw [heq]
    exact List.mem_map_of_mem hu
  obtain ⟨e, he, huse⟩ := List.mem_filterMap.mp hentry
  exact ⟨w, hw, e, he, huse⟩

theorem counts_of_useOf? {index : Index} {e : Value} {use : Use} (he : isUse e = true)
    (h : useOf? index e = some use) : ∃ n, use.amount.Counts n := by
  have hwhole : (e.atKey "amount").isWhole = true := by
    rcases (Value.atKey_of_isRecordOf he (.tail _ (.head _))).2 with hnull | hwhole
    · rw [hnull]
      rfl
    · exact hwhole
  obtain ⟨id, owner, -, -, rfl⟩ := useOf?_inv h
  exact ⟨_, Value.number?_orElse_of_isWhole hwhole⟩

theorem listed_of_isStep {w : Value} (h : isStep w = true) :
    (∀ e ∈ w.listed "useIngredients", isUse e = true) ∧
      ∀ e ∈ w.listed "useSupplies", isUse e = true :=
  ⟨(Value.listed_of_isRecordOf h (.tail _ (.tail _ (.head _)))).2,
    (Value.listed_of_isRecordOf h (.tail _ (.tail _ (.tail _ (.head _))))).2⟩

theorem isStep_of_listed (h : isRecipe v = true) : ∀ w ∈ v.listed "steps", isStep w = true :=
  (Value.listed_of_isRecordOf h (.tail _ (.tail _ (.tail _ (.head _))))).2

namespace Built

variable {p : Int} {s : Ref .step} {u : Ref .use}

theorem portions_ingredientUse {q : Value} (h : Built v q g r)
    (hs : s ∈ (g.recipes.get r).steps) (hu : u ∈ (g.steps.get s).useIngredients) :
    (g.uses.get u).portions = q := by
  obtain ⟨i, hi, howner⟩ := List.mem_map.mp (h.shared.ingredients.owner_mem s hs u hu)
  have hregistered := h.shared.ingredients.mem_registered hs hu
  rw [← howner] at hregistered
  exact h.use_portions i hi u hregistered

theorem segments_ok {q : Value} (h : Built v q g r) :
    ∀ s ∈ (g.recipes.get r).steps, ∃ xs, g.segments s = .ok xs := by
  intro s hs
  obtain ⟨-, xs, hxs, -⟩ := Graph.segments_of_some (h.attached s hs)
  exact ⟨xs, hxs⟩

/-- The scaled amounts of a recipe are whole. -/
theorem exists_scaled (h : Built v (.int p) g r) (hv : isRecipe v = true)
    (hs : s ∈ (g.recipes.get r).steps) (hu : u ∈ (g.steps.get s).uses) :
    ∃ n, g.scaled u = .ok (.int n) := by
  rcases List.mem_append.mp hu with hu | hu
  · obtain ⟨w, hw, e, he, huse⟩ := h.shared.ingredients.exists_entry hs hu
    obtain ⟨n, hn⟩ :=
      counts_of_useOf? ((listed_of_isStep (isStep_of_listed hv w hw)).1 e he) huse
    have hportions := h.portions_ingredientUse hs hu
    exact ⟨n * p, Value.times_of_counts hn (by rw [hportions]; rfl)⟩
  · obtain ⟨w, hw, e, he, huse⟩ := h.shared.supplies.exists_entry hs hu
    obtain ⟨n, hn⟩ :=
      counts_of_useOf? ((listed_of_isStep (isStep_of_listed hv w hw)).2 e he) huse
    have hportions := h.supply_portions s hs u hu
    exact ⟨n * 1, Value.times_of_counts hn (by rw [hportions]; rfl)⟩

/-- The totals of a recipe are whole. -/
theorem exists_total (h : Built v (.int p) g r) (hv : isRecipe v = true) {i : Ref .ingredient}
    (hi : i ∈ (g.recipes.get r).ingredients) : ∃ n, g.total i = .ok (.int n) := by
  refine Value.addProducts_whole 0 fun pair hpair => ?_
  obtain ⟨u, hu, rfl⟩ := List.mem_map.mp hpair
  obtain ⟨s, hs, hstep⟩ :=
    h.shared.ingredients.mem_step_of_registered (List.mem_map_of_mem hi) hu
  obtain ⟨n, hn⟩ := h.exists_scaled hv hs (List.mem_append_left _ hstep)
  exact ⟨n, hn⟩

end Built

end Build

end Cookbook
