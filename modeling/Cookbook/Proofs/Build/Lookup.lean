import Cookbook.Proofs.Build.Whole
/-!
# Cookbook.Proofs.Build.Lookup

Two ways from an id to an ingredient or a supply. While the steps of a recipe are made, a use is
linked to the last owner with its id (`Built.owner_ingredientUse`, `Built.owner_supplyUse`); the
recipe itself, and so a template in a text, finds the first one. Both ends are read off the list of
all owners with the id, so the two ways lead to the same owner exactly if this list has one element
(`linked_found_iff`).
-/

namespace Cookbook

/-- In a list without repetition the last element is the first one only if it is the only one. -/
theorem head?_eq_some_iff_of_getLast? {α : Type} {xs : List α} {a : α} (hnodup : xs.Nodup)
    (h : xs.getLast? = some a) : xs.head? = some a ↔ xs = [a] := by
  cases xs with
  | nil => cases h
  | cons x xs =>
      rw [List.head?_cons, Option.some.injEq]
      constructor
      · rintro rfl
        cases xs with
        | nil => rfl
        | cons y ys =>
            rw [List.getLast?_cons_cons] at h
            exact absurd (List.mem_of_getLast? h) (List.nodup_cons.mp hnodup).1
      · intro heq
        exact (List.cons.inj heq).1

namespace Graph

/-! ### All owners with an id -/

/-- The ingredients of a recipe with an id, in order. -/
def ingredientsWith (g : Graph) (r : Ref .recipe) (id : String) : List (Ref .ingredient) :=
  (g.recipes.get r).ingredients.filter fun i => (g.ingredients.get i).id == id

/-- The supplies of a recipe with an id, in order. -/
def suppliesWith (g : Graph) (r : Ref .recipe) (id : String) : List (Ref .supply) :=
  (g.recipes.get r).supplies.filter fun j => (g.supplies.get j).id == id

theorem findIngredient?_eq_head? (g : Graph) (r : Ref .recipe) (id : String) :
    g.findIngredient? r id = (g.ingredientsWith r id).head? :=
  List.head?_filter.symm

theorem findSupply?_eq_head? (g : Graph) (r : Ref .recipe) (id : String) :
    g.findSupply? r id = (g.suppliesWith r id).head? :=
  List.head?_filter.symm

end Graph

namespace Build

/-! ### The owner of a use -/

/-- The index gives the last owner with an id. -/
theorem Index.lookup_lastWins_map {α : Type} (id : α → String) (owner : α → Owner) (xs : List α)
    (key : String) :
    (Index.lastWins (xs.map fun x => (id x, owner x))).lookup key =
      (xs.filter fun x => id x == key).getLast?.map owner := by
  rw [Index.lastWins, ← List.map_reverse, Graph.lookup_map_eq, ← List.head?_filter,
    List.filter_reverse, List.head?_reverse]

variable {v p : Value} {g g' : Graph} {ws : List Warning} {r : Ref .recipe} {s : Ref .step}
  {u : Ref .use}

/-- Where owners are indexed by their ids, a use is of the last owner with its id. -/
theorem Sharing.exists_last {α : Type} {d : Side} {id : α → String} {owner : α → Owner}
    {xs : List α} {vs : List Value} {ss : List (Ref .step)} (h : Sharing g d vs ss)
    (hindex : d.index = Index.lastWins (xs.map fun x => (id x, owner x)))
    (hid : ∀ x, g.ownerId (owner x) = id x) (hs : s ∈ ss)
    (hu : u ∈ d.field (g.steps.get s)) :
    ∃ x, (g.uses.get u).owner = owner x ∧
      (xs.filter fun x => id x == g.useId u).getLast? = some x := by
  obtain ⟨w, -, e, -, huse⟩ := h.exists_entry hs hu
  obtain ⟨key, o, -, hlookup, hdescribed⟩ := useOf?_inv huse
  rw [hindex, Index.lookup_lastWins_map] at hlookup
  obtain ⟨x, hlast, hlinked⟩ := Option.map_eq_some_iff.mp hlookup
  have howner : owner x = (g.uses.get u).owner :=
    hlinked.trans (congrArg Use.owner hdescribed).symm
  have hkey : g.useId u = key := by
    rw [Graph.useId, ← howner, hid]
    exact eq_of_beq (List.mem_filter.mp (List.mem_of_getLast? hlast)).2
  exact ⟨x, howner.symm, hkey ▸ hlast⟩

theorem Built.owner_ingredientUse (h : Built v p g r) (hs : s ∈ (g.recipes.get r).steps)
    (hu : u ∈ (g.steps.get s).useIngredients) :
    ∃ i, (g.uses.get u).owner = .ingredient i ∧
      (g.ingredientsWith r (g.useId u)).getLast? = some i :=
  h.shared.ingredients.exists_last rfl (fun _ => rfl) hs hu

theorem Built.owner_supplyUse (h : Built v p g r) (hs : s ∈ (g.recipes.get r).steps)
    (hu : u ∈ (g.steps.get s).useSupplies) :
    ∃ j, (g.uses.get u).owner = .supply j ∧ (g.suppliesWith r (g.useId u)).getLast? = some j :=
  h.shared.supplies.exists_last rfl (fun _ => rfl) hs hu

/-! ### Linked and found -/

/-- Of the owners with one id, uses are linked to the last one, and the first one is found; this is
the same one only where there is no other. -/
structure LinkedAndFound {kind : Kind} (owners : List (Ref kind)) (linked : Ref kind)
    (found : Option (Ref kind)) : Prop where
  linked_last : owners.getLast? = some linked
  found_first : found = owners.head?
  found_iff : found = some linked ↔ owners = [linked]

theorem linkedAndFound_of_last {kind : Kind} {owners : List (Ref kind)} {linked : Ref kind}
    (hnodup : owners.Nodup) (h : owners.getLast? = some linked) :
    LinkedAndFound owners linked owners.head? where
  linked_last := h
  found_first := rfl
  found_iff := head?_eq_some_iff_of_getLast? hnodup h

theorem Built.linkedAndFound_ingredient (h : Built v p g r) (hs : s ∈ (g.recipes.get r).steps)
    (hu : u ∈ (g.steps.get s).useIngredients) :
    ∃ i, (g.uses.get u).owner = .ingredient i ∧
      LinkedAndFound (g.ingredientsWith r (g.useId u)) i (g.findIngredient? r (g.useId u)) := by
  obtain ⟨i, howner, hlast⟩ := h.owner_ingredientUse hs hu
  rw [g.findIngredient?_eq_head?]
  exact ⟨i, howner, linkedAndFound_of_last (h.nodup_ingredients.filter _) hlast⟩

theorem Built.linkedAndFound_supply (h : Built v p g r) (hs : s ∈ (g.recipes.get r).steps)
    (hu : u ∈ (g.steps.get s).useSupplies) :
    ∃ j, (g.uses.get u).owner = .supply j ∧
      LinkedAndFound (g.suppliesWith r (g.useId u)) j (g.findSupply? r (g.useId u)) := by
  obtain ⟨j, howner, hlast⟩ := h.owner_supplyUse hs hu
  rw [g.findSupply?_eq_head?]
  exact ⟨j, howner, linkedAndFound_of_last (h.nodup_supplies.filter _) hlast⟩

/-- Templates with one id, one for a use and one for what it is a use of. If the first one is
replaced by a use, the second one is replaced by the owner of this use exactly if no other owner has
the id. -/
structure TemplatesAgree (g : Graph) (r : Ref .recipe) (s : Ref .step) : Prop where
  ingredients : ∀ id u, g.resolve? r s ⟨.useIngredient, id⟩ = some (.use u) →
    ∃ i, (g.uses.get u).owner = .ingredient i ∧
      (g.resolve? r s ⟨.ingredient, id⟩ = some (.ingredient i) ↔ g.ingredientsWith r id = [i])
  supplies : ∀ id u, g.resolve? r s ⟨.useSupply, id⟩ = some (.use u) →
    ∃ j, (g.uses.get u).owner = .supply j ∧
      (g.resolve? r s ⟨.supply, id⟩ = some (.supply j) ↔ g.suppliesWith r id = [j])

theorem resolve?_ingredient_iff {id : String} {i : Ref .ingredient} :
    g.resolve? r s ⟨.ingredient, id⟩ = some (.ingredient i) ↔ g.findIngredient? r id = some i := by
  simp [Graph.resolve?]

theorem resolve?_supply_iff {id : String} {j : Ref .supply} :
    g.resolve? r s ⟨.supply, id⟩ = some (.supply j) ↔ g.findSupply? r id = some j := by
  simp [Graph.resolve?]

theorem Built.templatesAgree (h : Built v p g r) (hs : s ∈ (g.recipes.get r).steps) :
    TemplatesAgree g r s where
  ingredients := by
    intro id u hresolve
    cases Graph.refers_of_resolve? hresolve with
    | useIngredient hu =>
        obtain ⟨i, howner, hfound⟩ := h.linkedAndFound_ingredient hs hu
        exact ⟨i, howner, resolve?_ingredient_iff.trans hfound.found_iff⟩
  supplies := by
    intro id u hresolve
    cases Graph.refers_of_resolve? hresolve with
    | useSupply hu =>
        obtain ⟨j, howner, hfound⟩ := h.linkedAndFound_supply hs hu
        exact ⟨j, howner, resolve?_supply_iff.trans hfound.found_iff⟩

/-- **Linked and found.** However a recipe was made from a record, every use in a step is linked to
the last owner with its id, and by this id the recipe finds the first one. So the owner of a use is
found, and a template for it speaks of the same owner as one for the use, exactly if the id is there
once. -/
theorem linked_found_iff (h : recipe v p g = (⟨ws, .ok r⟩, g'))
    (hs : s ∈ (g'.recipes.get r).steps) :
    (∀ u ∈ (g'.steps.get s).useIngredients, ∃ i, (g'.uses.get u).owner = .ingredient i ∧
        LinkedAndFound (g'.ingredientsWith r (g'.useId u)) i
          (g'.findIngredient? r (g'.useId u))) ∧
      (∀ u ∈ (g'.steps.get s).useSupplies, ∃ j, (g'.uses.get u).owner = .supply j ∧
        LinkedAndFound (g'.suppliesWith r (g'.useId u)) j (g'.findSupply? r (g'.useId u))) ∧
      TemplatesAgree g' r s := by
  have hbuilt : Built v p g' r := recipe_built h
  exact ⟨fun u => hbuilt.linkedAndFound_ingredient hs, fun u => hbuilt.linkedAndFound_supply hs,
    hbuilt.templatesAgree hs⟩

/-- The graph of a recipe with two ingredients of one id. -/
def saltGraph : Graph := (recipe doubleSalt (.int 4) .empty).2

theorem recipe_saltGraph :
    recipe doubleSalt (.int 4) .empty = (⟨[], .ok ⟨0⟩⟩, saltGraph) := recipe_doubleSalt

theorem step_saltGraph : ⟨0⟩ ∈ (saltGraph.recipes.get ⟨0⟩).steps := by
  have hsteps : (saltGraph.recipes.get ⟨0⟩).steps = [⟨0⟩, ⟨1⟩] := by decide +kernel
  rw [hsteps]
  exact List.mem_cons_self

theorem use_saltGraph : ⟨0⟩ ∈ (saltGraph.steps.get ⟨0⟩).useIngredients := by
  have huses : (saltGraph.steps.get ⟨0⟩).useIngredients = [⟨0⟩, ⟨1⟩] := by decide +kernel
  rw [huses]
  exact List.mem_cons_self

theorem owner_saltGraph : (saltGraph.uses.get ⟨0⟩).owner = .ingredient ⟨1⟩ := by decide +kernel

theorem found_saltGraph : saltGraph.findIngredient? ⟨0⟩ (saltGraph.useId ⟨0⟩) = some ⟨0⟩ := by
  decide +kernel

/-- The first use of the first step is linked to the second one. -/
theorem linked_found_saltGraph :
    recipe doubleSalt (.int 4) .empty = (⟨[], .ok ⟨0⟩⟩, saltGraph) ∧
      ⟨0⟩ ∈ (saltGraph.recipes.get ⟨0⟩).steps ∧
      LinkedAndFound [⟨0⟩, ⟨1⟩] (⟨1⟩ : Ref .ingredient) (some ⟨0⟩) ∧
      TemplatesAgree saltGraph ⟨0⟩ ⟨0⟩ := by
  have hwith : saltGraph.ingredientsWith ⟨0⟩ (saltGraph.useId ⟨0⟩) = [⟨0⟩, ⟨1⟩] := by decide +kernel
  obtain ⟨hingredients, -, htemplates⟩ := linked_found_iff recipe_saltGraph step_saltGraph
  obtain ⟨i, hi, hlinked⟩ := hingredients ⟨0⟩ use_saltGraph
  obtain rfl : i = ⟨1⟩ := Owner.ingredient.inj (hi.symm.trans owner_saltGraph)
  refine ⟨recipe_saltGraph, step_saltGraph, ?_, htemplates⟩
  rw [← hwith, ← found_saltGraph]
  exact hlinked

/-- The recipe does not find the ingredient that this use is a use of. -/
theorem not_found_saltGraph :
    recipe doubleSalt (.int 4) .empty = (⟨[], .ok ⟨0⟩⟩, saltGraph) ∧
      ¬ ∀ s ∈ (saltGraph.recipes.get ⟨0⟩).steps, ∀ u ∈ (saltGraph.steps.get s).useIngredients,
        ∀ i, (saltGraph.uses.get u).owner = .ingredient i →
          saltGraph.findIngredient? ⟨0⟩ (saltGraph.ingredients.get i).id = some i := by
  refine ⟨recipe_saltGraph, fun hfinds => ?_⟩
  have hid : saltGraph.useId ⟨0⟩ = (saltGraph.ingredients.get ⟨1⟩).id := by
    rw [Graph.useId, owner_saltGraph]
    rfl
  have hlinked := hfinds ⟨0⟩ step_saltGraph ⟨0⟩ use_saltGraph ⟨1⟩ owner_saltGraph
  rw [← hid, found_saltGraph] at hlinked
  cases hlinked

end Build

end Cookbook
