import Cookbook.Graph
import Cookbook.Proofs.Graph.Shelf
/-!
# Cookbook.Proofs.Graph.Link

Linking uses to their owners. A link makes a use and registers it, so the use is shared: the caller
has the reference, and the owner has the same one. `Linked` sums up any number of links. The uses
are new objects; each owner has gained its own among them, at the end and in order; steps and
recipes are untouched.
-/

namespace Cookbook

/-- An ingredient with more uses at the end. -/
def Ingredient.addUses (i : Ingredient) (us : List (Ref .use)) : Ingredient :=
  { i with uses := i.uses ++ us }

/-- A supply with more uses at the end. -/
def Supply.addUses (s : Supply) (us : List (Ref .use)) : Supply :=
  { s with uses := s.uses ++ us }

@[simp] theorem Ingredient.addUses_nil (i : Ingredient) : i.addUses [] = i := by
  simp [addUses]

@[simp] theorem Supply.addUses_nil (s : Supply) : s.addUses [] = s := by
  simp [addUses]

@[simp] theorem Ingredient.addUses_addUses (i : Ingredient) (us us' : List (Ref .use)) :
    (i.addUses us).addUses us' = i.addUses (us ++ us') := by
  simp [addUses]

@[simp] theorem Supply.addUses_addUses (s : Supply) (us us' : List (Ref .use)) :
    (s.addUses us).addUses us' = s.addUses (us ++ us') := by
  simp [addUses]

namespace Graph

/-- A use that is made and registered with its owner. -/
def link (g : Graph) (use : Use) : Graph := (g.addUse use).1.register use.owner g.uses.next

/-- Those uses that have an owner, in order. -/
def ownedBy (g : Graph) (owner : Owner) (us : List (Ref .use)) : List (Ref .use) :=
  us.filter fun u => (g.uses.get u).owner = owner

theorem ownedBy_congr {g g' : Graph} {us : List (Ref .use)}
    (h : ∀ u ∈ us, (g'.uses.get u).owner = (g.uses.get u).owner) (owner : Owner) :
    g'.ownedBy owner us = g.ownedBy owner us := by
  refine List.filter_congr fun u hu => ?_
  rw [h u hu]

theorem ownedBy_append (g : Graph) (owner : Owner) (us us' : List (Ref .use)) :
    g.ownedBy owner (us ++ us') = g.ownedBy owner us ++ g.ownedBy owner us' :=
  List.filter_append us us'

theorem ownedBy_eq_nil {g : Graph} {owner : Owner} {us : List (Ref .use)}
    (h : ∀ u ∈ us, (g.uses.get u).owner ≠ owner) : g.ownedBy owner us = [] := by
  refine List.filter_eq_nil_iff.mpr fun u hu => ?_
  simpa using h u hu

/-! ### One link -/

theorem uses_link (g : Graph) (use : Use) : (g.link use).uses = g.uses.add use := by
  unfold link register
  split <;> rfl

theorem ownedBy_link_next (g : Graph) (use : Use) (owner : Owner) :
    (g.link use).ownedBy owner [g.uses.next] =
      if use.owner = owner then [g.uses.next] else [] := by
  have hget : (g.link use).uses.get g.uses.next = use := by
    rw [uses_link]
    exact Shelf.get_of_get? (g.uses.get?_add_next use)
  simp only [ownedBy, List.filter_cons, List.filter_nil, hget, decide_eq_true_eq]

theorem get?_ingredients_link (g : Graph) (use : Use) (i : Ref .ingredient) :
    (g.link use).ingredients.get? i = (g.ingredients.get? i).map
      (·.addUses ((g.link use).ownedBy (.ingredient i) [g.uses.next])) := by
  rw [ownedBy_link_next]
  unfold link register addUse
  split
  · rename_i j howner
    dsimp only at howner ⊢
    rw [howner]
    by_cases heq : i = j
    · subst heq
      simp [Ingredient.addUses]
    · simp [g.ingredients.get?_modify_of_ne _ heq, Ne.symm heq]
  · rename_i s howner
    dsimp only at howner ⊢
    simp [howner]

theorem get?_supplies_link (g : Graph) (use : Use) (s : Ref .supply) :
    (g.link use).supplies.get? s = (g.supplies.get? s).map
      (·.addUses ((g.link use).ownedBy (.supply s) [g.uses.next])) := by
  rw [ownedBy_link_next]
  unfold link register addUse
  split
  · rename_i i howner
    dsimp only at howner ⊢
    simp [howner]
  · rename_i s' howner
    dsimp only at howner ⊢
    rw [howner]
    by_cases heq : s = s'
    · subst heq
      simp [Supply.addUses]
    · simp [g.supplies.get?_modify_of_ne _ heq, Ne.symm heq]

/-! ### Many links -/

/-- Uses were linked. -/
structure Linked (g g' : Graph) (us : List (Ref .use)) (as : List Use) : Prop where
  uses : g.uses.Added g'.uses us as
  ingredients : ∀ i, g'.ingredients.get? i =
    (g.ingredients.get? i).map (·.addUses (g'.ownedBy (.ingredient i) us))
  supplies : ∀ s, g'.supplies.get? s =
    (g.supplies.get? s).map (·.addUses (g'.ownedBy (.supply s) us))
  steps : g'.steps = g.steps
  recipes : g'.recipes = g.recipes

namespace Linked

theorem refl (g : Graph) : Linked g g [] [] where
  uses := .refl g.uses
  ingredients := by simp [ownedBy]
  supplies := by simp [ownedBy]
  steps := rfl
  recipes := rfl

theorem single (g : Graph) (use : Use) : Linked g (g.link use) [g.uses.next] [use] where
  uses := g.uses_link use ▸ .single g.uses use
  ingredients := g.get?_ingredients_link use
  supplies := g.get?_supplies_link use
  steps := by
    unfold link register
    split <;> rfl
  recipes := by
    unfold link register
    split <;> rfl

theorem trans {g g₁ g₂ : Graph} {us us' : List (Ref .use)} {as as' : List Use}
    (h : Linked g g₁ us as) (h' : Linked g₁ g₂ us' as') :
    Linked g g₂ (us ++ us') (as ++ as') := by
  -- The uses that were linked first keep their owners.
  have howned (owner : Owner) : g₂.ownedBy owner us = g₁.ownedBy owner us :=
    ownedBy_congr (fun u hu => by rw [Shelf.get_congr (h'.uses.kept u (h.uses.has hu))]) owner
  constructor
  case uses => exact h.uses.trans h'.uses
  case ingredients =>
    intro i
    rw [h'.ingredients, h.ingredients, Option.map_map, ownedBy_append, howned]
    congr 1
    exact funext fun a => a.addUses_addUses _ _
  case supplies =>
    intro s
    rw [h'.supplies, h.supplies, Option.map_map, ownedBy_append, howned]
    congr 1
    exact funext fun a => a.addUses_addUses _ _
  case steps => exact h'.steps.trans h.steps
  case recipes => exact h'.recipes.trans h.recipes

end Linked

end Graph

end Cookbook
