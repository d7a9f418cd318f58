import Cookbook.Proofs.Graph.Link
import Cookbook.Proofs.Graph.Work
/-!
# Cookbook.Proofs.Graph.Frame

What changes of a graph leave alone. Once made, an ingredient or a supply can only gain uses, a use
can only change its portions, and a step can only change its recipe. `Keeps` says so of every
object that exists: it is still there, and the same apart from that.
-/

namespace Cookbook

namespace Shelf

variable {kind : Kind} {α β : Type} {f : α → β} {s s₁ s₂ : Shelf kind α}

/-- Every object that exists is kept, as far as `f` can see. -/
def Keeps (f : α → β) (s s' : Shelf kind α) : Prop :=
  ∀ r, s.Has r → (s'.get? r).map f = (s.get? r).map f

theorem Keeps.refl (f : α → β) (s : Shelf kind α) : Keeps f s s := fun _ _ => rfl

theorem Keeps.has (h : Keeps f s s₁) {r : Ref kind} (hr : s.Has r) : s₁.Has r := by
  have hmap := congrArg Option.isSome (h r hr)
  rw [Option.isSome_map, Option.isSome_map] at hmap
  exact hmap.trans hr

theorem Keeps.trans (h : Keeps f s s₁) (h' : Keeps f s₁ s₂) : Keeps f s s₂ := fun r hr =>
  (h' r (h.has hr)).trans (h r hr)

theorem Keeps.get [Inhabited α] (h : Keeps f s s₁) {r : Ref kind} (hr : s.Has r) :
    f (s₁.get r) = f (s.get r) := by
  obtain ⟨a, ha⟩ := Option.isSome_iff_exists.mp hr
  obtain ⟨b, hb⟩ := Option.isSome_iff_exists.mp (h.has hr)
  have hkeep := h r hr
  rw [ha, hb] at hkeep
  rw [get_of_get? ha, get_of_get? hb]
  exact Option.some.inj hkeep

theorem keeps_of_added {rs : List (Ref kind)} {as : List α} (h : Added s s₁ rs as) (f : α → β) :
    Keeps f s s₁ := fun r hr => by rw [h.kept r hr]

/-- Objects that were added, read after later changes. -/
theorem Added.map_kept [Inhabited α] {rs : List (Ref kind)} {as : List α} (h : Added s s₁ rs as)
    (hk : Keeps f s₁ s₂) : rs.map (fun r => f (s₂.get r)) = as.map f := by
  calc rs.map (fun r => f (s₂.get r))
    _ = rs.map (fun r => f (s₁.get r)) := List.map_congr_left fun r hr => hk.get (h.has hr)
    _ = (rs.map s₁.get).map f := List.map_map.symm
    _ = as.map f := by rw [h.map_get]

theorem keeps_modify {m : α → α} (hm : ∀ a, f (m a) = f a) (s : Shelf kind α) (r : Ref kind) :
    Keeps f s (s.modify r m) := by
  intro r' _
  by_cases heq : r' = r
  · subst heq
    rw [get?_modify_self, Option.map_map]
    congr 1
    exact funext hm
  · rw [s.get?_modify_of_ne m heq]

theorem keeps_modifyAll {m : α → α} (hm : ∀ a, f (m a) = f a) (s : Shelf kind α)
    (rs : List (Ref kind)) : Keeps f s (s.modifyAll rs m) := by
  induction rs generalizing s with
  | nil => exact Keeps.refl f s
  | cons r rs ih => exact (keeps_modify hm s r).trans (ih (s.modify r m))

end Shelf

/-! ### Objects apart from what changes -/

/-- An ingredient apart from its uses. -/
def Ingredient.unused (i : Ingredient) : Ingredient := { i with uses := [] }

/-- A supply apart from its uses. -/
def Supply.unused (s : Supply) : Supply := { s with uses := [] }

/-- A use apart from its portions. -/
def Use.unscaled (u : Use) : Use := { u with portions := .int 1 }

/-- A step apart from its recipe. -/
def Step.detached (s : Step) : Step := { s with recipe := none }

namespace Graph

theorem get_steps_addStep (g : Graph) (s : Step) :
    (g.addStep s).1.steps.get g.steps.next = s.detached :=
  Shelf.get_of_get? (g.steps.get?_add_next s.detached)

/-- Every object that exists is kept: only uses of owners, portions of uses and recipes of steps
may change. -/
structure Keeps (g g' : Graph) : Prop where
  ingredients : Shelf.Keeps Ingredient.unused g.ingredients g'.ingredients
  supplies : Shelf.Keeps Supply.unused g.supplies g'.supplies
  uses : Shelf.Keeps Use.unscaled g.uses g'.uses
  steps : Shelf.Keeps Step.detached g.steps g'.steps

namespace Keeps

variable {g g' g₁ g₂ : Graph}

theorem refl (g : Graph) : Keeps g g :=
  ⟨.refl _ _, .refl _ _, .refl _ _, .refl _ _⟩

theorem trans (h : Keeps g g₁) (h' : Keeps g₁ g₂) : Keeps g g₂ :=
  ⟨h.ingredients.trans h'.ingredients, h.supplies.trans h'.supplies, h.uses.trans h'.uses,
    h.steps.trans h'.steps⟩

theorem of_linked {us : List (Ref .use)} {as : List Use} (h : Linked g g' us as) : Keeps g g' where
  ingredients := by
    intro i _
    rw [h.ingredients, Option.map_map]
    rfl
  supplies := by
    intro s _
    rw [h.supplies, Option.map_map]
    rfl
  uses := Shelf.keeps_of_added h.uses _
  steps := by
    rw [h.steps]
    exact .refl _ _

theorem of_addStep (g : Graph) (s : Step) : Keeps g (g.addStep s).1 :=
  ⟨.refl _ _, .refl _ _, .refl _ _, Shelf.keeps_of_added (.single _ _) _⟩

/-! What is read of a kept object stays as it is. -/

theorem owner_eq (h : Keeps g g') {u : Ref .use} (hu : g.uses.Has u) :
    (g'.uses.get u).owner = (g.uses.get u).owner := by
  have hget := congrArg Use.owner (h.uses.get hu)
  exact hget

theorem useIngredients_eq (h : Keeps g g') {s : Ref .step} (hs : g.steps.Has s) :
    (g'.steps.get s).useIngredients = (g.steps.get s).useIngredients := by
  have hget := congrArg Step.useIngredients (h.steps.get hs)
  exact hget

theorem useSupplies_eq (h : Keeps g g') {s : Ref .step} (hs : g.steps.Has s) :
    (g'.steps.get s).useSupplies = (g.steps.get s).useSupplies := by
  have hget := congrArg Step.useSupplies (h.steps.get hs)
  exact hget

theorem ingredient_id_eq (h : Keeps g g') {i : Ref .ingredient} (hi : g.ingredients.Has i) :
    (g'.ingredients.get i).id = (g.ingredients.get i).id := by
  have hget := congrArg Ingredient.id (h.ingredients.get hi)
  exact hget

theorem supply_id_eq (h : Keeps g g') {s : Ref .supply} (hs : g.supplies.Has s) :
    (g'.supplies.get s).id = (g.supplies.get s).id := by
  have hget := congrArg Supply.id (h.supplies.get hs)
  exact hget

end Keeps

end Graph

/-! ### Attaching steps -/

/-- A step that belongs to a recipe. -/
def Step.attachedTo (r : Ref .recipe) (s : Step) : Step := { s with recipe := some r }

theorem Step.detached_attachedTo (r : Ref .recipe) (s : Step) :
    (s.attachedTo r).detached = s.detached := rfl

theorem Step.attachedTo_attachedTo (r : Ref .recipe) (s : Step) :
    (s.attachedTo r).attachedTo r = s.attachedTo r := rfl

namespace Work

theorem attach_inv {g g' : Graph} {ws : List Warning} {s : Ref .step} {r : Ref .recipe} {u : Unit}
    (h : attach s r g = (⟨ws, .ok u⟩, g')) : ws = [] ∧ g' = g.setRecipe s r := by
  rcases attach_cases s r g with ⟨-, hattach⟩ | ⟨fault, hattach⟩ <;> rw [hattach] at h <;> cases h
  exact ⟨rfl, rfl⟩

/-- Steps that were attached all belong to the recipe; nothing else has changed. -/
theorem attachAll_inv {g g' : Graph} {ws : List Warning} {r : Ref .recipe} {ss : List (Ref .step)}
    {u : Unit} (h : attachAll r ss g = (⟨ws, .ok u⟩, g')) :
    ws = [] ∧ g' = { g with steps := g.steps.modifyAll ss (Step.attachedTo r) } := by
  induction ss generalizing g ws with
  | nil =>
      obtain ⟨rfl, -, rfl⟩ := pure_inv h
      exact ⟨rfl, rfl⟩
  | cons s ss ih =>
      obtain ⟨ws₁, a, g₁, ws₂, hattach, hrest, rfl⟩ := bind_inv h
      obtain ⟨rfl, rfl⟩ := attach_inv hattach
      obtain ⟨rfl, rfl⟩ := ih hrest
      exact ⟨rfl, rfl⟩

/-- When a step is made to belong to a recipe, every step belongs to this one or stays where it
was. -/
theorem recipe_setRecipe (g : Graph) (s s' : Ref .step) (r : Ref .recipe) :
    ((g.setRecipe s r).steps.get s').recipe = some r ∨
      (g.setRecipe s r).steps.get s' = g.steps.get s' := by
  by_cases heq : s' = s
  · subst heq
    cases hget : g.steps.get? s' with
    | none =>
        right
        simp [Graph.setRecipe, Shelf.get, hget]
    | some step =>
        left
        simp [Graph.setRecipe, Shelf.get, hget]
  · right
    exact Shelf.get_congr (g.steps.get?_modify_of_ne _ heq)

/-- A step of no recipe, or of this one, is attached without fault. -/
theorem attach_of_free {g : Graph} {s : Ref .step} {r : Ref .recipe}
    (h : (g.steps.get s).recipe = none ∨ (g.steps.get s).recipe = some r) :
    attach s r g = (⟨[], .ok ()⟩, g.setRecipe s r) := by
  unfold attach
  rcases h with h | h <;> simp only [h, if_true] <;> rfl

/-- A step that can be attached to a recipe still can after another one was; one that is named twice
belongs to this recipe when it is met again. -/
theorem free_setRecipe {g : Graph} {s' : Ref .step} {r : Ref .recipe} (s : Ref .step)
    (h : (g.steps.get s').recipe = none ∨ (g.steps.get s').recipe = some r) :
    ((g.setRecipe s r).steps.get s').recipe = none ∨
      ((g.setRecipe s r).steps.get s').recipe = some r := by
  rcases recipe_setRecipe g s s' r with hset | hkept
  · exact Or.inr hset
  · rw [hkept]
    exact h

/-- Steps of no recipe, or of this one, are attached without fault. -/
theorem attachAll_of_free {g : Graph} {r : Ref .recipe} {ss : List (Ref .step)}
    (h : ∀ s ∈ ss, (g.steps.get s).recipe = none ∨ (g.steps.get s).recipe = some r) :
    ∃ g', attachAll r ss g = (⟨[], .ok ()⟩, g') := by
  induction ss generalizing g with
  | nil => exact ⟨g, rfl⟩
  | cons s ss ih =>
      obtain ⟨hs, hss⟩ := List.forall_mem_cons.mp h
      obtain ⟨g', hg'⟩ := ih fun s' hs' => free_setRecipe s (hss s' hs')
      refine ⟨g', ?_⟩
      rw [attachAll, bind_of_ok (attach_of_free hs), hg']
      rfl

/-- A recipe that was made has what it was made of, and its steps belong to it. -/
theorem makeRecipe_inv {g g' : Graph} {ws : List Warning} {name : String}
    {is : List (Ref .ingredient)} {js : List (Ref .supply)} {ss : List (Ref .step)}
    {r : Ref .recipe} (h : makeRecipe name is js ss g = (⟨ws, .ok r⟩, g')) :
    ws = [] ∧
      g'.recipes.get? r = some { name, ingredients := is, supplies := js, steps := ss } ∧
      g' = { g with recipes := g'.recipes, steps := g.steps.modifyAll ss (Step.attachedTo r) } := by
  obtain ⟨ws₁, r', g₁, ws₂, hmake, h₁, rfl⟩ := bind_inv h
  obtain ⟨rfl, hadd⟩ := make_inv hmake
  obtain ⟨ws₃, a, g₂, ws₄, hattach, h₂, rfl⟩ := bind_inv h₁
  obtain ⟨rfl, rfl, rfl⟩ := pure_inv h₂
  obtain ⟨rfl, rfl⟩ := attachAll_inv hattach
  cases hadd
  exact ⟨rfl, Shelf.get?_add_next _ _, rfl⟩

/-- Making a recipe changes nothing but which recipe its steps belong to. -/
theorem keeps_makeRecipe {g g' : Graph} {ws : List Warning} {name : String}
    {is : List (Ref .ingredient)} {js : List (Ref .supply)} {ss : List (Ref .step)}
    {r : Ref .recipe} (h : makeRecipe name is js ss g = (⟨ws, .ok r⟩, g')) : g.Keeps g' := by
  obtain ⟨-, -, hg'⟩ := makeRecipe_inv h
  rw [hg']
  exact ⟨.refl _ _, .refl _ _, .refl _ _,
    Shelf.keeps_modifyAll (Step.detached_attachedTo r) _ _⟩

/-- The steps of a recipe that was made belong to it. -/
theorem recipe_of_makeRecipe {g g' : Graph} {ws : List Warning} {name : String}
    {is : List (Ref .ingredient)} {js : List (Ref .supply)} {ss : List (Ref .step)}
    {r : Ref .recipe} (h : makeRecipe name is js ss g = (⟨ws, .ok r⟩, g')) {s : Ref .step}
    (hs : s ∈ ss) (hhas : g.steps.Has s) : (g'.steps.get s).recipe = some r := by
  obtain ⟨-, -, hg'⟩ := makeRecipe_inv h
  obtain ⟨step, hstep⟩ := Option.isSome_iff_exists.mp hhas
  have hattached := Shelf.get?_modifyAll (Step.attachedTo_attachedTo r) g.steps ss s
  rw [if_pos hs, hstep] at hattached
  rw [hg', Shelf.get_of_get? hattached]
  rfl

end Work

end Cookbook
