import Cookbook.Proofs.Build.Sharing
import Cookbook.Proofs.Graph.Portions
import Cookbook.Proofs.Graph.Reference
/-!
# Cookbook.Proofs.Graph.Separate

What a recipe holds: itself, its ingredients, supplies and steps, and the uses of all these
(`Part`). Of what a recipe holds only the uses ever get more, and only where one is registered with
an ingredient or a supply. Two recipes are `Separate` if they hold nothing together.

`Accrues` is the relation between graphs that keeps recipes separate (`Separate.of_accrues`):
whatever was set when an object was made is as it was, and an owner has gained no uses but new ones
of its own. Registering a use by hand is the one change that is not of this kind; it keeps two
recipes separate if the use is not held by one and the owner by the other (`Separate.register`).
-/

namespace Cookbook

/-- A recipe apart from its portions. -/
def Recipe.unscaled (r : Recipe) : Recipe := { r with portions := .int 1 }

namespace Graph

/-- A recipe holds an object. -/
def Part (g : Graph) (r : Ref .recipe) : Handle → Prop
  | ⟨.ingredient, i⟩ => i ∈ (g.recipes.get r).ingredients
  | ⟨.supply, j⟩ => j ∈ (g.recipes.get r).supplies
  | ⟨.use, u⟩ => u ∈ g.ingredientUses r ∨ u ∈ g.supplyUses r
  | ⟨.step, s⟩ => s ∈ (g.recipes.get r).steps
  | ⟨.recipe, r'⟩ => r' = r

instance (g : Graph) (r : Ref .recipe) : (x : Handle) → Decidable (g.Part r x)
  | ⟨.ingredient, i⟩ => inferInstanceAs (Decidable (i ∈ (g.recipes.get r).ingredients))
  | ⟨.supply, j⟩ => inferInstanceAs (Decidable (j ∈ (g.recipes.get r).supplies))
  | ⟨.use, u⟩ => inferInstanceAs (Decidable (u ∈ g.ingredientUses r ∨ u ∈ g.supplyUses r))
  | ⟨.step, s⟩ => inferInstanceAs (Decidable (s ∈ (g.recipes.get r).steps))
  | ⟨.recipe, r'⟩ => inferInstanceAs (Decidable (r' = r))

variable {g g' g₁ g₂ : Graph} {r r' : Ref .recipe} {o : Owner} {u : Ref .use} {s : Ref .step}

/-- The uses that a recipe holds are those that are registered with its ingredients and supplies,
and those in its steps. -/
theorem part_use_iff : g.Part r u.handle ↔
    (∃ o : Owner, g.Part r o.handle ∧ u ∈ g.registered o) ∨
      ∃ s : Ref .step, g.Part r s.handle ∧ u ∈ (g.steps.get s).uses := by
  constructor
  · rintro (hu | hu) <;> rcases List.mem_append.mp hu with hu | hu <;>
      obtain ⟨a, ha, hu⟩ := List.mem_flatMap.mp hu
    · exact .inl ⟨.ingredient a, ha, hu⟩
    · exact .inr ⟨a, ha, List.mem_append_left _ hu⟩
    · exact .inl ⟨.supply a, ha, hu⟩
    · exact .inr ⟨a, ha, List.mem_append_right _ hu⟩
  · rintro (⟨o, ho, hu⟩ | ⟨s, hs, hu⟩)
    · cases o with
      | ingredient i => exact .inl (List.mem_append_left _ (List.mem_flatMap.mpr ⟨i, ho, hu⟩))
      | supply j => exact .inr (List.mem_append_left _ (List.mem_flatMap.mpr ⟨j, ho, hu⟩))
    · rcases List.mem_append.mp hu with hu | hu
      · exact .inl (List.mem_append_right _ (List.mem_flatMap.mpr ⟨s, hs, hu⟩))
      · exact .inr (List.mem_append_right _ (List.mem_flatMap.mpr ⟨s, hs, hu⟩))

theorem HasOwner.holds (h : g.HasOwner o) : g.Holds o.handle := by cases o <;> exact h

theorem hasOwner_of_holds (h : g.Holds o.handle) : g.HasOwner o := by cases o <;> exact h

theorem points_of_registered (hu : u ∈ g.registered o) : g.Points o.handle u.handle := by
  cases o with
  | ingredient i => exact points_of_ingredient hu
  | supply j => exact points_of_supply hu

theorem points_of_step_uses (hu : u ∈ (g.steps.get s).uses) : g.Points s.handle u.handle := by
  refine points_of_step (List.mem_append_left _ ?_)
  rw [← List.map_append]
  exact List.mem_map_of_mem hu

/-- What a recipe holds is reached from it. -/
theorem Part.reaches {x : Handle} (h : g.Part r x) : g.Reaches r.handle x := by
  have hpoints : ∀ y ∈ Kind.handles .recipe (g.recipes.get r), g.Reaches r.handle y := fun y hy =>
    .single (points_of_recipe hy)
  have howner : ∀ o : Owner, g.Part r o.handle → g.Reaches r.handle o.handle := by
    intro o ho
    refine hpoints _ (List.mem_append_left _ ?_)
    cases o with
    | ingredient i => exact List.mem_append_left _ (List.mem_map_of_mem ho)
    | supply j => exact List.mem_append_right _ (List.mem_map_of_mem ho)
  have hstep : ∀ s : Ref .step, g.Part r s.handle → g.Reaches r.handle s.handle := fun s hs =>
    hpoints _ (List.mem_append_right _ (List.mem_map_of_mem hs))
  obtain ⟨kind, a⟩ := x
  cases kind with
  | ingredient => exact howner (.ingredient a) h
  | supply => exact howner (.supply a) h
  | step => exact hstep a h
  | recipe =>
      obtain rfl : a = r := h
      exact .refl
  | use =>
      rcases part_use_iff.mp h with ⟨o, ho, hu⟩ | ⟨s, hs, hu⟩
      · exact (howner o ho).tail (points_of_registered hu)
      · exact (hstep s hs).tail (points_of_step_uses hu)

/-- From an object that exists only such are reached, if all references are to objects that
exist. -/
theorem Closed.holds_of_reaches (hg : g.Closed) {x y : Handle} (hx : g.Holds x)
    (hxy : g.Reaches x y) : g.Holds y :=
  hxy.mem_of_closed (fun x y hpoints _ => hg x y hpoints) hx

theorem Closed.holds_of_part (hg : g.Closed) (hr : g.recipes.Has r) {x : Handle} (h : g.Part r x) :
    g.Holds x :=
  hg.holds_of_reaches (x := r.handle) hr h.reaches

/-! ### What stays as it is -/

theorem Keeps.hasOwner (h : Keeps g g') (ho : g.HasOwner o) : g'.HasOwner o := by
  cases o with
  | ingredient i => exact h.ingredients.has ho
  | supply j => exact h.supplies.has ho

/-- What was set when an object was made is as it was. -/
structure Stable (g g' : Graph) : Prop where
  keeps : Keeps g g'
  recipes : Shelf.Keeps Recipe.unscaled g.recipes g'.recipes

namespace Stable

theorem refl (g : Graph) : Stable g g := ⟨.refl g, .refl _ _⟩

theorem trans (h : Stable g g₁) (h' : Stable g₁ g₂) : Stable g g₂ :=
  ⟨h.keeps.trans h'.keeps, h.recipes.trans h'.recipes⟩

theorem of_kept (h : ∀ x, g.Holds x → g'.object? x = g.object? x) : Stable g g' where
  keeps := ⟨fun i hi => congrArg _ (h i.handle hi), fun j hj => congrArg _ (h j.handle hj),
    fun u hu => congrArg _ (h u.handle hu), fun s hs => congrArg _ (h s.handle hs)⟩
  recipes := fun r hr => congrArg _ (h r.handle hr)

theorem register (g : Graph) (o : Owner) (u : Ref .use) : Stable g (g.register o u) := by
  cases o with
  | ingredient i =>
      exact ⟨⟨Shelf.keeps_modify (m := fun i : Ingredient => i.addUses [u]) (fun _ => rfl) _ _,
        .refl _ _, .refl _ _, .refl _ _⟩, .refl _ _⟩
  | supply j =>
      exact ⟨⟨.refl _ _,
        Shelf.keeps_modify (m := fun j : Supply => j.addUses [u]) (fun _ => rfl) _ _,
        .refl _ _, .refl _ _⟩, .refl _ _⟩

theorem ingredients_eq (h : Stable g g') (hr : g.recipes.Has r) :
    (g'.recipes.get r).ingredients = (g.recipes.get r).ingredients := by
  have hlist := congrArg Recipe.ingredients (h.recipes.get hr)
  exact hlist

theorem supplies_eq (h : Stable g g') (hr : g.recipes.Has r) :
    (g'.recipes.get r).supplies = (g.recipes.get r).supplies := by
  have hlist := congrArg Recipe.supplies (h.recipes.get hr)
  exact hlist

theorem part_owner_iff (h : Stable g g') (hr : g.recipes.Has r) :
    g'.Part r o.handle ↔ g.Part r o.handle := by
  cases o with
  | ingredient i =>
      show i ∈ (g'.recipes.get r).ingredients ↔ i ∈ (g.recipes.get r).ingredients
      rw [h.ingredients_eq hr]
  | supply j =>
      show j ∈ (g'.recipes.get r).supplies ↔ j ∈ (g.recipes.get r).supplies
      rw [h.supplies_eq hr]

theorem part_step_iff (h : Stable g g') (hr : g.recipes.Has r) :
    g'.Part r s.handle ↔ g.Part r s.handle := by
  have hlist := congrArg (s ∈ Recipe.steps ·) (h.recipes.get hr)
  exact hlist.to_iff

end Stable

/-! ### What an owner gains -/

/-- What was set when an object was made is as it was, and the uses that an owner has gained are new
ones of its own. -/
structure Accrues (g g' : Graph) : Prop extends Stable g g' where
  registered : ∀ o, g.HasOwner o → ∀ u ∈ g'.registered o,
    u ∈ g.registered o ∨ ¬ g.uses.Has u ∧ g'.uses.Has u ∧ (g'.uses.get u).owner = o

namespace Accrues

instance : Std.Refl Accrues := ⟨fun g => ⟨.refl g, fun _ _ _ hu => .inl hu⟩⟩

theorem trans (h : Accrues g g₁) (h' : Accrues g₁ g₂) : Accrues g g₂ where
  toStable := h.toStable.trans h'.toStable
  registered := by
    intro o ho u hu
    rcases h'.registered o (h.keeps.hasOwner ho) u hu with hu₁ | ⟨hnot, hhas, howner⟩
    · rcases h.registered o ho u hu₁ with hu₀ | ⟨hnot, hhas, howner⟩
      · exact .inl hu₀
      · exact .inr ⟨hnot, h'.keeps.uses.has hhas, (h'.keeps.owner_eq hhas).trans howner⟩
    · exact .inr ⟨fun hhas₀ => hnot (h.keeps.uses.has hhas₀), hhas, howner⟩

instance : IsTrans Graph Accrues := ⟨fun _ _ _ => trans⟩

/-- Nothing is gained where all objects are as they were. -/
theorem of_kept (h : ∀ x, g.Holds x → g'.object? x = g.object? x) : Accrues g g' where
  toStable := .of_kept h
  registered := by
    intro o ho u hu
    have hregistered : g'.registered o = g.registered o := by
      cases o with
      | ingredient i => exact congrArg Ingredient.uses (Shelf.get_congr (h i.handle ho))
      | supply j => exact congrArg Supply.uses (Shelf.get_congr (h j.handle ho))
    exact .inl (hregistered ▸ hu)

theorem add (g : Graph) (kind : Kind) (a : kind.Object) : Accrues g (g.add kind a) :=
  of_kept fun _ hx => object?_add_of_holds kind a hx

theorem link (g : Graph) (use : Use) : Accrues g (g.link use) where
  keeps := .of_linked (.single g use)
  recipes := by
    rw [(Linked.single g use).recipes]
    exact .refl _ _
  registered := by
    intro o ho u hu
    have hlinked := Linked.single g use
    rw [hlinked.registered_eq ho] at hu
    rcases List.mem_append.mp hu with hold | hnew
    · exact .inl hold
    · right
      obtain ⟨hmem, howner⟩ := List.mem_filter.mp hnew
      obtain rfl := List.mem_singleton.mp hmem
      exact ⟨g.uses.not_has_next, hlinked.uses.has (List.mem_singleton_self _),
        by simpa using howner⟩

theorem setRecipe (g : Graph) (s : Ref .step) (r : Ref .recipe) : Accrues g (g.setRecipe s r) where
  keeps := ⟨.refl _ _, .refl _ _, .refl _ _,
    Shelf.keeps_modify (m := Step.attachedTo r) (Step.detached_attachedTo r) _ _⟩
  recipes := .refl _ _
  registered := fun o _ u hu => .inl (by cases o <;> exact hu)

theorem setUsePortions (g : Graph) (u : Ref .use) (p : Value) :
    Accrues g (g.setUsePortions u p) where
  keeps := ⟨.refl _ _, .refl _ _,
    Shelf.keeps_modify (m := Use.withPortions p) (Use.unscaled_withPortions p) _ _, .refl _ _⟩
  recipes := .refl _ _
  registered := fun o _ u hu => .inl (by cases o <;> exact hu)

theorem setIngredientPortions (g : Graph) (i : Ref .ingredient) (p : Value) :
    Accrues g (g.setIngredientPortions i p) :=
  List.foldlRecOn _ _ (Std.Refl.refl g) fun g' h u _ => h.trans (setUsePortions g' u p)

theorem setPortions (g : Graph) (r : Ref .recipe) (p : Value) : Accrues g (g.setPortions r p) where
  keeps := g.keeps_setPortions r p
  recipes := by
    rw [g.setPortions_eq]
    exact Shelf.keeps_modify (m := fun recipe : Recipe => { recipe with portions := p })
      (fun _ => rfl) _ _
  registered := by
    intro o _ u hu
    left
    rw [g.setPortions_eq] at hu
    cases o <;> exact hu

/-- A use that a recipe holds was held before, or it is a new one of an owner that the recipe
holds. -/
theorem part_use (h : Accrues g g') (hg : g.Closed) (hr : g.recipes.Has r)
    (hu : g'.Part r u.handle) : g.Part r u.handle ∨
      ¬ g.uses.Has u ∧ g.Part r (g'.uses.get u).owner.handle := by
  rcases part_use_iff.mp hu with ⟨o, ho, hu⟩ | ⟨s, hs, hu⟩
  · have ho' := (h.part_owner_iff hr).mp ho
    have hhas : g.HasOwner o := hasOwner_of_holds (hg.holds_of_part hr ho')
    rcases h.registered o hhas u hu with hold | ⟨hnot, -, howner⟩
    · exact .inl (part_use_iff.mpr (.inl ⟨o, ho', hold⟩))
    · exact .inr ⟨hnot, howner.symm ▸ ho'⟩
  · have hs' := (h.part_step_iff hr).mp hs
    have hhas : g.steps.Has s := hg.holds_of_part hr hs'
    have huses := congrArg Step.uses (h.keeps.steps.get hhas)
    exact .inl (part_use_iff.mpr (.inr ⟨s, hs', huses ▸ hu⟩))

end Accrues

/-! ### Registering by hand -/

theorem registered_register_cases (g : Graph) (o o' : Owner) (u : Ref .use) :
    (g.register o u).registered o' = g.registered o' ∨
      o' = o ∧ (g.register o u).registered o' = g.registered o' ++ [u] := by
  cases o with
  | ingredient i =>
      cases o' with
      | supply j => exact .inl rfl
      | ingredient i' =>
          rcases g.ingredients.get_modify_cases i i' (fun i => Ingredient.addUses i [u]) with
            hkept | ⟨rfl, hset⟩
          · exact .inl (congrArg Ingredient.uses hkept)
          · exact .inr ⟨rfl, congrArg Ingredient.uses hset⟩
  | supply j =>
      cases o' with
      | ingredient i => exact .inl rfl
      | supply j' =>
          rcases g.supplies.get_modify_cases j j' (fun j => Supply.addUses j [u]) with
            hkept | ⟨rfl, hset⟩
          · exact .inl (congrArg Supply.uses hkept)
          · exact .inr ⟨rfl, congrArg Supply.uses hset⟩

/-- A recipe that holds the owner gains the use; nothing else is gained. -/
theorem part_register (hr : g.recipes.Has r) {x : Handle} (hx : (g.register o u).Part r x) :
    g.Part r x ∨ x = u.handle ∧ g.Part r o.handle := by
  have hstable := Stable.register g o u
  obtain ⟨kind, a⟩ := x
  cases kind with
  | ingredient => exact .inl ((hstable.part_owner_iff (o := .ingredient a) hr).mp hx)
  | supply => exact .inl ((hstable.part_owner_iff (o := .supply a) hr).mp hx)
  | step => exact .inl ((hstable.part_step_iff hr).mp hx)
  | recipe => exact .inl hx
  | use =>
      rcases part_use_iff.mp hx with ⟨o', ho', hw⟩ | ⟨s, hs, hw⟩
      · have hold := (hstable.part_owner_iff hr).mp ho'
        rcases g.registered_register_cases o o' u with hkept | ⟨rfl, hset⟩
        · exact .inl (part_use_iff.mpr (.inl ⟨o', hold, hkept ▸ hw⟩))
        · rw [hset] at hw
          rcases List.mem_append.mp hw with hw | hw
          · exact .inl (part_use_iff.mpr (.inl ⟨o', hold, hw⟩))
          · obtain rfl := List.mem_singleton.mp hw
            exact .inr ⟨rfl, hold⟩
      · have hsteps : (g.register o u).steps = g.steps := by cases o <;> rfl
        rw [hsteps] at hw
        exact .inl (part_use_iff.mpr (.inr ⟨s, (hstable.part_step_iff hr).mp hs, hw⟩))

/-! ### Separate recipes -/

/-- Two recipes hold nothing together. -/
def Separate (g : Graph) (r r' : Ref .recipe) : Prop := ∀ x, g.Part r x → ¬ g.Part r' x

namespace Separate

theorem symm (h : g.Separate r r') : g.Separate r' r := fun x hx hx' => h x hx' hx

/-- Recipes stay separate where owners only gain new uses of their own. -/
theorem of_accrues (h : g.Separate r r') (hg : g.Closed) (hr : g.recipes.Has r)
    (hr' : g.recipes.Has r') (ha : Accrues g g') : g'.Separate r r' := by
  rintro ⟨kind, a⟩ hx hx'
  cases kind with
  | ingredient =>
      exact h _ ((ha.part_owner_iff (o := .ingredient a) hr).mp hx)
        ((ha.part_owner_iff (o := .ingredient a) hr').mp hx')
  | supply =>
      exact h _ ((ha.part_owner_iff (o := .supply a) hr).mp hx)
        ((ha.part_owner_iff (o := .supply a) hr').mp hx')
  | step => exact h _ ((ha.part_step_iff hr).mp hx) ((ha.part_step_iff hr').mp hx')
  | recipe => exact h ⟨.recipe, a⟩ hx hx'
  | use =>
      rcases ha.part_use hg hr hx with hold | ⟨hnot, howner⟩
      · rcases ha.part_use hg hr' hx' with hold' | ⟨hnot', -⟩
        · exact h _ hold hold'
        · exact hnot' (hg.holds_of_part hr hold)
      · rcases ha.part_use hg hr' hx' with hold' | ⟨-, howner'⟩
        · exact hnot (hg.holds_of_part hr' hold')
        · exact h _ howner howner'

/-- Recipes stay separate where a use is registered, unless one of them holds it and the other one
the owner. -/
theorem register (h : g.Separate r r') (hr : g.recipes.Has r) (hr' : g.recipes.Has r')
    (ho : g.Part r o.handle → ¬ g.Part r' u.handle)
    (ho' : g.Part r' o.handle → ¬ g.Part r u.handle) :
    (g.register o u).Separate r r' := by
  intro x hx hx'
  rcases part_register hr hx with hold | ⟨rfl, howner⟩
  · rcases part_register hr' hx' with hold' | ⟨rfl, howner'⟩
    · exact h x hold hold'
    · exact ho' howner' hold
  · rcases part_register hr' hx' with hold' | ⟨-, howner'⟩
    · exact ho howner hold'
    · exact h _ howner howner'

end Separate

end Graph

end Cookbook
