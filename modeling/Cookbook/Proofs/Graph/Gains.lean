import Cookbook.Proofs.Graph.Separate
/-!
# Cookbook.Proofs.Graph.Gains

Portions are set at one time, and uses are registered at any time. A use is for one portion when it
is made, and from then on it has the portions that were last set of a recipe which it was scaled by.
So which of the uses of an ingredient have the portions of its recipe is a matter of when they were
registered: those that were there when the portions were set (`Scaled`), and those behind them are
for one portion.

`Gains` is the relation between graphs where no portions are set: all uses and recipes are as they
were, new ones are for one portion, and so are the uses that an ingredient has gained. It keeps what
is scaled (`ScaledUpTo.of_gains`), and so does setting portions of another recipe
(`ScaledUpTo.setPortions_of_ne`).
-/

namespace Cookbook

namespace Shelf

variable {kind : Kind} {α : Type} {P : α → Prop} {s s₁ s₂ : Shelf kind α}

/-- All objects are as they were, and new ones meet a condition. -/
structure Extends (P : α → Prop) (s s' : Shelf kind α) : Prop where
  kept : ∀ r, s.Has r → s'.get? r = s.get? r
  new : ∀ r a, ¬ s.Has r → s'.get? r = some a → P a

namespace Extends

theorem refl (P : α → Prop) (s : Shelf kind α) : Extends P s s where
  kept := fun _ _ => rfl
  new := fun _ _ hnot hget => absurd (has_of_get? hget) hnot

theorem has (h : Extends P s s₁) {r : Ref kind} (hr : s.Has r) : s₁.Has r := by
  rw [Has, h.kept r hr]
  exact hr

theorem get [Inhabited α] (h : Extends P s s₁) {r : Ref kind} (hr : s.Has r) : s₁.get r = s.get r :=
  get_congr (h.kept r hr)

theorem trans (h : Extends P s s₁) (h' : Extends P s₁ s₂) : Extends P s s₂ where
  kept := fun r hr => (h'.kept r (h.has hr)).trans (h.kept r hr)
  new := by
    intro r a hnot hget
    by_cases hr : s₁.Has r
    · exact h.new r a hnot (h'.kept r hr ▸ hget)
    · exact h'.new r a hr hget

theorem add (s : Shelf kind α) {a : α} (ha : P a) : Extends P s (s.add a) where
  kept := fun _ hr => get?_add_of_has hr a
  new := by
    intro r b hnot hget
    by_cases heq : r = s.next
    · subst heq
      rw [get?_add_next] at hget
      exact Option.some.inj hget ▸ ha
    · rw [get?_add_of_ne _ _ heq] at hget
      exact absurd (has_of_get? hget) hnot

end Extends

end Shelf

namespace Graph

variable {g g' g₁ g₂ : Graph} {r r' : Ref .recipe} {i : Ref .ingredient} {u : Ref .use}

theorem has_of_mem_ingredients (hi : i ∈ (g.recipes.get r).ingredients) : g.recipes.Has r := by
  refine Points.holds (points_of_recipe (y := i.handle) ?_)
  exact List.mem_append_left _ (List.mem_append_left _ (List.mem_map_of_mem hi))

/-- A use of an ingredient for one portion. -/
structure SingleUse (g : Graph) (i : Ref .ingredient) (u : Ref .use) : Prop where
  has : g.uses.Has u
  owner : (g.uses.get u).owner = .ingredient i
  portions : (g.uses.get u).portions = .int 1

/-- No portions were set: uses and recipes are as they were, new ones are for one portion, and
ingredients have gained none but uses of their own for one portion. -/
structure Gains (g g' : Graph) : Prop where
  uses : g.uses.Extends (·.portions = .int 1) g'.uses
  recipes : g.recipes.Extends (·.portions = .int 1) g'.recipes
  gained : ∀ i, ∃ added, (g'.ingredients.get i).uses = (g.ingredients.get i).uses ++ added ∧
    ∀ u ∈ added, g'.SingleUse i u

theorem SingleUse.of_gains (h : g.SingleUse i u) (hg : Gains g g') : g'.SingleUse i u where
  has := hg.uses.has h.has
  owner := by rw [hg.uses.get h.has, h.owner]
  portions := by rw [hg.uses.get h.has, h.portions]

namespace Gains

theorem refl (g : Graph) : Gains g g where
  uses := .refl _ _
  recipes := .refl _ _
  gained := fun _ => ⟨[], (List.append_nil _).symm, List.forall_mem_nil _⟩

theorem trans (h : Gains g g₁) (h' : Gains g₁ g₂) : Gains g g₂ where
  uses := h.uses.trans h'.uses
  recipes := h.recipes.trans h'.recipes
  gained := by
    intro i
    obtain ⟨added, hadded, hsingle⟩ := h.gained i
    obtain ⟨added', hadded', hsingle'⟩ := h'.gained i
    refine ⟨added ++ added', by rw [hadded', hadded, List.append_assoc], ?_⟩
    exact List.forall_mem_append.mpr ⟨fun u hu => (hsingle u hu).of_gains h', hsingle'⟩

instance : Std.Refl Gains := ⟨refl⟩

instance : IsTrans Graph Gains := ⟨fun _ _ _ => trans⟩

/-- Where ingredients gain no uses it is enough to look at uses and recipes. -/
theorem of_registered (huses : g.uses.Extends (·.portions = .int 1) g'.uses)
    (hrecipes : g.recipes.Extends (·.portions = .int 1) g'.recipes)
    (h : ∀ i, (g'.ingredients.get i).uses = (g.ingredients.get i).uses) : Gains g g' where
  uses := huses
  recipes := hrecipes
  gained := fun i => ⟨[], by rw [h i, List.append_nil], List.forall_mem_nil _⟩

theorem of_eq (huses : g'.uses = g.uses) (hrecipes : g'.recipes = g.recipes)
    (h : g'.ingredients = g.ingredients) : Gains g g' :=
  of_registered (huses ▸ .refl _ _) (hrecipes ▸ .refl _ _) fun i => by rw [h]

theorem addIngredient (g : Graph) {a : Ingredient} (ha : a.uses = []) :
    Gains g (g.addIngredient a).1 := by
  refine of_registered (.refl _ _) (.refl _ _) fun i => ?_
  by_cases heq : i = g.ingredients.next
  · subst heq
    have hnone : g.ingredients.get? g.ingredients.next = none := by
      simpa [Shelf.Has] using g.ingredients.not_has_next
    calc ((g.ingredients.add a).get g.ingredients.next).uses
      _ = [] := by rw [Shelf.get_of_get? (g.ingredients.get?_add_next a), ha]
      _ = (g.ingredients.get g.ingredients.next).uses := by rw [Shelf.get, hnone]; rfl
  · exact congrArg Ingredient.uses (Shelf.get_congr (g.ingredients.get?_add_of_ne a heq))

theorem addUse (g : Graph) {use : Use} (h : use.portions = .int 1) : Gains g (g.addUse use).1 :=
  of_registered (.add _ h) (.refl _ _) fun _ => rfl

theorem addRecipe (g : Graph) {recipe : Recipe} (h : recipe.portions = .int 1) :
    Gains g (g.addRecipe recipe).1 :=
  of_registered (.refl _ _) (.add _ h) fun _ => rfl

theorem register (h : g.SingleUse i u) : Gains g (g.register (.ingredient i) u) where
  uses := .refl _ _
  recipes := .refl _ _
  gained := by
    intro i'
    rcases g.registered_register_cases (.ingredient i) (.ingredient i') u with hkept | ⟨heq, hset⟩
    · exact ⟨[], hkept.trans (List.append_nil _).symm, List.forall_mem_nil _⟩
    · obtain rfl := Owner.ingredient.inj heq
      exact ⟨[u], hset, List.forall_mem_singleton.mpr ⟨h.has, h.owner, h.portions⟩⟩

theorem link (g : Graph) {use : Use} (h : use.portions = .int 1) : Gains g (g.link use) := by
  have hadd := addUse g h
  unfold Graph.link
  cases howner : use.owner with
  | supply j => exact hadd.trans (of_eq rfl rfl rfl)
  | ingredient i =>
      have hget : (g.addUse use).1.uses.get g.uses.next = use :=
        Shelf.get_of_get? (g.uses.get?_add_next use)
      refine hadd.trans (register ⟨Shelf.has_of_get? (g.uses.get?_add_next use), ?_, ?_⟩)
      · rw [hget, howner]
      · rw [hget, h]

/-- The recipes that have an ingredient still have it. -/
theorem mem_ingredients (h : Gains g g') (hi : i ∈ (g.recipes.get r).ingredients) :
    i ∈ (g'.recipes.get r).ingredients := by
  rwa [h.recipes.get (has_of_mem_ingredients hi)]

end Gains

/-! ### What is scaled -/

/-- The uses of an ingredient are its own, and a use that no recipe scales is for one portion. -/
structure Regular (g : Graph) : Prop where
  own : ∀ i, ∀ u ∈ (g.ingredients.get i).uses,
    g.uses.Has u ∧ (g.uses.get u).owner = .ingredient i
  unscaled : ∀ u, g.uses.Has u → (∀ r, u ∉ g.scaledUses r) → (g.uses.get u).portions = .int 1

/-- The first uses of an ingredient have the portions of a recipe, and those behind them are for one
portion. -/
def ScaledUpTo (g : Graph) (r : Ref .recipe) (i : Ref .ingredient) (us : List (Ref .use)) : Prop :=
  ∃ added, (g.ingredients.get i).uses = us ++ added ∧
    (∀ u ∈ us, (g.uses.get u).portions = (g.recipes.get r).portions) ∧
    ∀ u ∈ added, (g.uses.get u).portions = .int 1

namespace Regular

theorem empty : Regular .empty where
  own := fun _ _ hu => absurd hu List.not_mem_nil
  unscaled := fun u hu => absurd hu (not_holds_empty u.handle)

/-- A recipe scales the uses of its own ingredients only. -/
theorem mem_ingredients (h : g.Regular) (hu : u ∈ (g.ingredients.get i).uses)
    (hr : u ∈ g.scaledUses r) : i ∈ (g.recipes.get r).ingredients := by
  obtain ⟨i', hi', hu'⟩ := List.mem_flatMap.mp hr
  have howner : Owner.ingredient i' = .ingredient i :=
    (h.own i' u hu').2.symm.trans (h.own i u hu).2
  exact Owner.ingredient.inj howner ▸ hi'

theorem of_gains (h : g.Regular) (hg : Gains g g') : g'.Regular where
  own := by
    intro i u hu
    obtain ⟨added, hadded, hsingle⟩ := hg.gained i
    rw [hadded] at hu
    rcases List.mem_append.mp hu with hu | hu
    · obtain ⟨hhas, howner⟩ := h.own i u hu
      exact ⟨hg.uses.has hhas, by rw [hg.uses.get hhas, howner]⟩
    · exact ⟨(hsingle u hu).has, (hsingle u hu).owner⟩
  unscaled := by
    intro u hu hfree
    by_cases hhas : g.uses.Has u
    · rw [hg.uses.get hhas]
      refine h.unscaled u hhas fun r hr => hfree r ?_
      -- What was scaled before still is.
      obtain ⟨i, hi, hregistered⟩ := List.mem_flatMap.mp hr
      obtain ⟨added, hadded, -⟩ := hg.gained i
      refine List.mem_flatMap.mpr ⟨i, hg.mem_ingredients hi, ?_⟩
      exact hadded ▸ List.mem_append_left _ hregistered
    · obtain ⟨use, huse⟩ := Option.isSome_iff_exists.mp hu
      rw [Shelf.get_of_get? huse]
      exact hg.uses.new u use hhas huse

theorem setPortions (h : g.Regular) (r : Ref .recipe) (p : Value) :
    (g.setPortions r p).Regular where
  own := by
    intro i u hu
    rw [ingredients_setPortions] at hu
    obtain ⟨hhas, howner⟩ := h.own i u hu
    have hkeeps := g.keeps_setPortions r p
    exact ⟨hkeeps.uses.has hhas, (hkeeps.owner_eq hhas).trans howner⟩
  unscaled := by
    intro u hu hfree
    have hget := g.get?_uses_setPortions r p u
    have hfree' : ∀ r', u ∉ g.scaledUses r' := fun r' => by
      rw [← g.scaledUses_setPortions r r' p]
      exact hfree r'
    rw [if_neg (hfree' r)] at hget
    rw [Shelf.get_congr hget]
    refine h.unscaled u ?_ hfree'
    rwa [Shelf.Has, ← hget]

end Regular

namespace ScaledUpTo

variable {us : List (Ref .use)}

theorem of_gains (h : g.ScaledUpTo r i us) (hown : g.Regular) (hr : g.recipes.Has r)
    (hg : Gains g g') : g'.ScaledUpTo r i us := by
  obtain ⟨added, hadded, hscaled, hsingle⟩ := h
  obtain ⟨added', hadded', hsingle'⟩ := hg.gained i
  have hget : ∀ u ∈ us ++ added, g'.uses.get u = g.uses.get u := fun u hu =>
    hg.uses.get (hown.own i u (hadded ▸ hu)).1
  refine ⟨added ++ added', by rw [hadded', hadded, List.append_assoc], fun u hu => ?_, ?_⟩
  · rw [hget u (List.mem_append_left _ hu), hg.recipes.get hr]
    exact hscaled u hu
  · refine List.forall_mem_append.mpr ⟨fun u hu => ?_, fun u hu => (hsingle' u hu).portions⟩
    rw [hget u (List.mem_append_right _ hu)]
    exact hsingle u hu

end ScaledUpTo

end Graph

end Cookbook
