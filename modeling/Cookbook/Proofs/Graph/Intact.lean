import Cookbook.Proofs.Graph.Separate
import Cookbook.Proofs.Graph.View
/-!
# Cookbook.Proofs.Graph.Intact

What is seen of a recipe depends on what it holds, and on nothing else that can change. A recipe is
`Intact` in a later graph if all objects that it holds are as they were and all that is seen of it
is the same; the first implies the second (`Stable.intact`), since all else that is read is what was
set when objects were made: the owner of a use may be held by another recipe, and so may be the
recipe that a step belongs to.

A `Change` is made to a recipe from outside: portions are set, or a newly made use is registered
with one of its ingredients or supplies. It changes objects that the recipe holds, and no others
(`Change.object?_apply`), so a separate recipe stays intact (`Change.intact_apply`).
-/

namespace Cookbook

/-- References that are not moved. -/
def Offset.none : Offset := fun _ => 0

@[simp] theorem Ref.moved_none {kind : Kind} (r : Ref kind) : r.moved .none = r := by
  simp [moved, Offset.none]

@[simp] theorem Owner.moved_none (owner : Owner) : owner.moved .none = owner := by
  cases owner <;> simp [moved]

@[simp] theorem Use.moved_none (u : Use) : u.moved .none = u := by simp [moved]

@[simp] theorem Ingredient.moved_none (i : Ingredient) : i.moved .none = i := by simp [moved]

@[simp] theorem Supply.moved_none (j : Supply) : j.moved .none = j := by simp [moved]

@[simp] theorem Step.moved_none (s : Step) : s.moved .none = s := by simp [moved]

@[simp] theorem Recipe.moved_none (r : Recipe) : r.moved .none = r := by simp [moved]

@[simp] theorem Segment.moved_none (x : Segment) : x.moved .none = x := by
  cases x <;> simp [moved]

namespace Graph

variable {g g' : Graph} {r r' : Ref .recipe} {o : Owner} {u : Ref .use}

/-- A recipe holds the same objects, and all that is seen of it is the same. -/
structure Intact (g g' : Graph) (r : Ref .recipe) : Prop where
  objects : ∀ x, g.Part r x → g'.object? x = g.object? x
  view : g'.view r = g.view r
  segments : ∀ s ∈ (g.recipes.get r).steps, g'.segments s = g.segments s
  stepText : ∀ s ∈ (g.recipes.get r).steps, ∀ marks, g'.stepText marks s = g.stepText marks s
  display : ∀ i ∈ (g.recipes.get r).ingredients, g'.display i = g.display i
  describeUse : ∀ u, g.Part r u.handle → g'.describeUse u = g.describeUse u

/-! ### What is seen -/

theorem Closed.hasOwner (hg : g.Closed) (hu : g.uses.Has u) : g.HasOwner (g.uses.get u).owner :=
  hasOwner_of_holds (hg _ _ (points_of_use hu))

namespace Keeps

theorem ownerId_eq (h : Keeps g g') (ho : g.HasOwner o) : g'.ownerId o = g.ownerId o := by
  cases o with
  | ingredient i => exact h.ingredient_id_eq ho
  | supply j => exact h.supply_id_eq ho

theorem ownerName_eq (h : Keeps g g') (ho : g.HasOwner o) : g'.ownerName o = g.ownerName o := by
  cases o with
  | ingredient i =>
      have hname := congrArg Ingredient.name (h.ingredients.get ho)
      exact hname
  | supply j =>
      have hname := congrArg Supply.name (h.supplies.get ho)
      exact hname

theorem ownerUnit_eq (h : Keeps g g') (ho : g.HasOwner o) : g'.ownerUnit o = g.ownerUnit o := by
  cases o with
  | ingredient i =>
      have hunit := congrArg Ingredient.unit (h.ingredients.get ho)
      exact hunit
  | supply j => rfl

end Keeps

namespace Stable

theorem useMirror (h : Stable g g') (hg : g.Closed) (hu : g.uses.Has u)
    (hsame : g'.object? u.handle = g.object? u.handle) : UseMirror .none g g' u := by
  have howner := hg.hasOwner hu
  refine ⟨?_, ?_, ?_, ?_⟩
  · rw [Ref.moved_none, Use.moved_none]
    exact Shelf.get_congr hsame
  · rw [Owner.moved_none, h.keeps.ownerId_eq howner]
  · rw [Owner.moved_none, h.keeps.ownerName_eq howner]
  · rw [Owner.moved_none, h.keeps.ownerUnit_eq howner]

theorem homeMirror (h : Stable g g') (hg : g.Closed) (hr : g.recipes.Has r) :
    HomeMirror .none g g' r where
  ingredients := by simp [h.ingredients_eq hr]
  supplies := by simp [h.supplies_eq hr]
  ingredient := by
    intro i hi
    have hhas : g.ingredients.Has i := hg.holds_of_part (x := i.handle) hr hi
    rw [Ref.moved_none, h.keeps.ingredients.get hhas]
  supply := by
    intro j hj
    have hhas : g.supplies.Has j := hg.holds_of_part (x := j.handle) hr hj
    rw [Ref.moved_none, h.keeps.supplies.get hhas]

/-- A recipe is its own copy where the objects that it holds are as they were. -/
theorem mirror (h : Stable g g') (hg : g.Closed) (hr : g.recipes.Has r)
    (hparts : ∀ x, g.Part r x → g'.object? x = g.object? x) : Mirror .none g g' r := by
  have huse : ∀ u : Ref .use, g.Part r u.handle → UseMirror .none g g' u := fun u hu =>
    h.useMirror hg (hg.holds_of_part hr hu) (hparts _ hu)
  constructor
  case recipe =>
    rw [Ref.moved_none, Recipe.moved_none]
    exact Shelf.get_congr (hparts r.handle rfl)
  case ingredient =>
    intro i hi
    constructor
    · rw [Ref.moved_none, Ingredient.moved_none]
      exact Shelf.get_congr (hparts i.handle hi)
    · exact fun u hu => huse u (part_use_iff.mpr (.inl ⟨.ingredient i, hi, hu⟩))
  case supply =>
    intro j hj
    constructor
    · rw [Ref.moved_none, Supply.moved_none]
      exact Shelf.get_congr (hparts j.handle hj)
    · exact fun u hu => huse u (part_use_iff.mpr (.inl ⟨.supply j, hj, hu⟩))
  case step =>
    intro s hs
    have hstep {u : Ref .use} (hu : u ∈ (g.steps.get s).uses) : UseMirror .none g g' u :=
      huse u (part_use_iff.mpr (.inr ⟨s, hs, hu⟩))
    constructor
    case step =>
      rw [Ref.moved_none, Step.moved_none]
      exact Shelf.get_congr (hparts s.handle hs)
    case ingredientUse => exact fun u hu => hstep (List.mem_append_left _ hu)
    case supplyUse => exact fun u hu => hstep (List.mem_append_right _ hu)
    case home =>
      -- The step may belong to another recipe, which need not be as it was.
      intro r' hr'
      refine h.homeMirror hg (hg s.handle r'.handle (points_of_step ?_))
      exact List.mem_append_right _ (List.mem_map_of_mem (Option.mem_toList.mpr hr'))

/-- A recipe is intact where the objects that it holds are as they were. -/
theorem intact (h : Stable g g') (hg : g.Closed) (hr : g.recipes.Has r)
    (hparts : ∀ x, g.Part r x → g'.object? x = g.object? x) : Intact g g' r := by
  have hmirror := h.mirror hg hr hparts
  constructor
  case objects => exact hparts
  case view => simpa using hmirror.view_moved
  case segments =>
    intro s hs
    have hsegments := (hmirror.step s hs).segments_moved
    have hsame : List.map (fun x : Segment => x.moved .none) = id := by
      funext xs
      simp
    rw [Ref.moved_none, hsame] at hsegments
    rw [hsegments]
    cases g.segments s <;> rfl
  case stepText =>
    intro s hs marks
    simpa using (hmirror.step s hs).stepText_moved marks
  case display =>
    intro i hi
    simpa using (hmirror.ingredient i hi).display_moved
  case describeUse =>
    intro u hu
    have huse : g.uses.Has u := hg.holds_of_part hr hu
    have hget : g'.uses.get u = g.uses.get u := Shelf.get_congr (hparts u.handle hu)
    simp only [Graph.describeUse, hget, h.keeps.ownerId_eq (hg.hasOwner huse)]

end Stable

end Graph

/-! ### Changes -/

/-- Something that is done to a recipe. -/
inductive Change
  | setPortions (portions : Value)
  | setIngredientPortions (i : Ref .ingredient) (portions : Value)
  | setUsePortions (u : Ref .use) (portions : Value)
  | addUse (member : Owner) (use : Use)

namespace Change

/-- What is changed is held by the recipe. -/
def On (g : Graph) (r : Ref .recipe) : Change → Prop
  | setPortions _ => True
  | setIngredientPortions i _ => g.Part r i.handle
  | setUsePortions u _ => g.Part r u.handle
  | addUse member _ => g.Part r member.handle

/-- The graph after a change of a recipe. -/
def apply (g : Graph) (r : Ref .recipe) : Change → Graph
  | setPortions p => g.setPortions r p
  | setIngredientPortions i p => g.setIngredientPortions i p
  | setUsePortions u p => g.setUsePortions u p
  | addUse member use => (g.addUse use).1.register member (g.addUse use).2

variable {g : Graph} {r r' : Ref .recipe} {c : Change}

theorem stable_apply (c : Change) (g : Graph) (r : Ref .recipe) : g.Stable (c.apply g r) := by
  cases c with
  | setPortions p => exact (Graph.Accrues.setPortions g r p).toStable
  | setIngredientPortions i p => exact (Graph.Accrues.setIngredientPortions g i p).toStable
  | setUsePortions u p => exact (Graph.Accrues.setUsePortions g u p).toStable
  | addUse member use =>
      exact (Graph.Accrues.add g .use use).toStable.trans (.register _ member _)

/-- A change of a recipe changes no object that the recipe does not hold. -/
theorem object?_apply (h : c.On g r) {x : Handle} (hx : g.Holds x) (hnot : ¬ g.Part r x) :
    (c.apply g r).object? x = g.object? x := by
  cases c with
  | setPortions p =>
      obtain ⟨kind, a⟩ := x
      show ((g.setPortions r p).shelf kind).get? a = (g.shelf kind).get? a
      cases kind with
      | use =>
          have hscaled : a ∉ g.scaledUses r := fun hmem => hnot (.inl (List.mem_append_left _ hmem))
          exact (g.get?_uses_setPortions r p a).trans (if_neg hscaled)
      | recipe =>
          rw [g.setPortions_eq]
          exact g.recipes.get?_modify_of_ne _ hnot
      | _ =>
          rw [g.setPortions_eq]
          rfl
  | setIngredientPortions i p =>
      obtain ⟨kind, a⟩ := x
      show ((g.setIngredientPortions i p).shelf kind).get? a = (g.shelf kind).get? a
      rw [Graph.setIngredientPortions, Graph.foldl_setUsePortions]
      cases kind with
      | use =>
          have hother : a ∉ (g.ingredients.get i).uses := fun hmem =>
            hnot (Graph.part_use_iff.mpr (.inl ⟨.ingredient i, h, hmem⟩))
          exact (Shelf.get?_modifyAll (Use.withPortions_withPortions p p) _ _ a).trans
            (if_neg hother)
      | _ => rfl
  | setUsePortions u p => exact g.object?_alter_of_ne u _ fun heq => hnot (heq ▸ h)
  | addUse member use =>
      have hne : x ≠ member.handle := fun heq => hnot (heq ▸ h)
      refine Eq.trans ?_ (Graph.object?_add_of_holds .use use hx)
      cases member with
      | ingredient i => exact Graph.object?_alter_of_ne _ i _ hne
      | supply j => exact Graph.object?_alter_of_ne _ j _ hne

/-- **Separate recipes do not see each other's changes.** -/
theorem intact_apply (h : c.On g r) (hg : g.Closed) (hr' : g.recipes.Has r')
    (hseparate : g.Separate r r') : g.Intact (c.apply g r) r' := by
  refine (c.stable_apply g r).intact hg hr' fun x hx => ?_
  exact object?_apply h (hg.holds_of_part hr' hx) fun hmem => hseparate x hmem hx

end Change

end Cookbook
