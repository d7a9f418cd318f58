import Mathlib.Logic.Relation
import Cookbook.Graph
import Cookbook.Proofs.Graph.Shelf
/-!
# Cookbook.Proofs.Graph.Reference

Objects of all kinds alike. A `Handle` is a reference to an object of any kind, and every object
holds handles of others: so a graph is a graph in the usual sense, where one object refers to
another one (`Points`) and reaches others through it (`Reaches`).

All that is ever done to a graph is that an object is added to the shelf of a kind, or that one is
changed there. What is found after that is read off here, once for all kinds.
-/

namespace Cookbook

/-- What an object of a kind holds. -/
abbrev Kind.Object : Kind → Type
  | ingredient => Ingredient
  | supply => Supply
  | use => Use
  | step => Step
  | recipe => Recipe

/-- A reference to an object of any kind. -/
abbrev Handle : Type := (kind : Kind) × Ref kind

/-- A reference as one to an object of any kind. -/
abbrev Ref.handle {kind : Kind} (r : Ref kind) : Handle := ⟨kind, r⟩

/-- The object that is an owner. -/
def Owner.handle : Owner → Handle
  | .ingredient r => r.handle
  | .supply r => r.handle

/-- The references that an object holds. -/
def Kind.handles : (kind : Kind) → kind.Object → List Handle
  | ingredient, i => i.uses.map Ref.handle
  | supply, j => j.uses.map Ref.handle
  | use, u => [u.owner.handle]
  | step, s =>
    s.useIngredients.map Ref.handle ++ s.useSupplies.map Ref.handle ++
      s.recipe.toList.map Ref.handle
  | recipe, r =>
    r.ingredients.map Ref.handle ++ r.supplies.map Ref.handle ++ r.steps.map Ref.handle

namespace Graph

/-- The shelf of a kind. -/
def shelf (g : Graph) : (kind : Kind) → Shelf kind kind.Object
  | .ingredient => g.ingredients
  | .supply => g.supplies
  | .use => g.uses
  | .step => g.steps
  | .recipe => g.recipes

/-- The graph with another shelf of a kind. -/
def withShelf (g : Graph) : (kind : Kind) → Shelf kind kind.Object → Graph
  | .ingredient, ingredients => { g with ingredients }
  | .supply, supplies => { g with supplies }
  | .use, uses => { g with uses }
  | .step, steps => { g with steps }
  | .recipe, recipes => { g with recipes }

/-- The object that a handle is to. -/
def object? (g : Graph) (x : Handle) : Option x.1.Object := (g.shelf x.1).get? x.2

/-- The object that a handle is to exists. -/
def Holds (g : Graph) (x : Handle) : Prop := (g.shelf x.1).Has x.2

/-- One object holds a reference to another one. -/
def Points (g : Graph) (x y : Handle) : Prop := ∃ a, g.object? x = some a ∧ y ∈ x.1.handles a

/-- One object leads to another one, through any number of references. -/
def Reaches (g : Graph) : Handle → Handle → Prop := Relation.ReflTransGen g.Points

/-- Every reference is to an object that exists. -/
def Closed (g : Graph) : Prop := ∀ x y, g.Points x y → g.Holds y

variable {g : Graph} {kind : Kind}

theorem Points.holds {x y : Handle} (h : g.Points x y) : g.Holds x := by
  obtain ⟨a, ha, -⟩ := h
  exact Shelf.has_of_get? ha

/-! References that are read one kind at a time. An empty object stands in for a missing one; it
holds references only if it is a use. -/

theorem points_of_mem_handles (kind : Kind) [Inhabited kind.Object]
    (hempty : kind.handles default = []) {r : Ref kind} {y : Handle}
    (hy : y ∈ kind.handles ((g.shelf kind).get r)) :
    g.Points r.handle y := by
  cases hget : (g.shelf kind).get? r with
  | none =>
      rw [Shelf.get, hget, Option.getD_none, hempty] at hy
      exact absurd hy List.not_mem_nil
  | some a =>
      rw [Shelf.get_of_get? hget] at hy
      exact ⟨a, hget, hy⟩

theorem points_of_ingredient {i : Ref .ingredient} {u : Ref .use}
    (hu : u ∈ (g.ingredients.get i).uses) : g.Points i.handle u.handle :=
  points_of_mem_handles .ingredient rfl (List.mem_map_of_mem hu)

theorem points_of_supply {j : Ref .supply} {u : Ref .use} (hu : u ∈ (g.supplies.get j).uses) :
    g.Points j.handle u.handle :=
  points_of_mem_handles .supply rfl (List.mem_map_of_mem hu)

theorem points_of_step {s : Ref .step} {y : Handle} (hy : y ∈ Kind.handles .step (g.steps.get s)) :
    g.Points s.handle y :=
  points_of_mem_handles .step rfl hy

theorem points_of_recipe {r : Ref .recipe} {y : Handle}
    (hy : y ∈ Kind.handles .recipe (g.recipes.get r)) : g.Points r.handle y :=
  points_of_mem_handles .recipe rfl hy

theorem points_of_use {u : Ref .use} (hu : g.uses.Has u) :
    g.Points u.handle (g.uses.get u).owner.handle := by
  obtain ⟨use, huse⟩ := Option.isSome_iff_exists.mp hu
  rw [Shelf.get_of_get? huse]
  exact ⟨use, huse, List.mem_singleton_self _⟩

/-- What is reached does not leave a set that no reference leaves. -/
theorem Reaches.mem_of_closed {S : Handle → Prop} (hS : ∀ x y, g.Points x y → S x → S y)
    {x y : Handle} (h : g.Reaches x y) (hx : S x) : S y := by
  induction h with
  | refl => exact hx
  | tail _ hyz ih => exact hS _ _ hyz ih

theorem not_holds_empty (x : Handle) : ¬ Graph.empty.Holds x := by
  obtain ⟨kind, r⟩ := x
  cases kind <;> exact Bool.false_ne_true

/-! ### Shelves -/

@[simp] theorem shelf_withShelf_self (g : Graph) (s : Shelf kind kind.Object) :
    (g.withShelf kind s).shelf kind = s := by
  cases kind <;> rfl

theorem shelf_withShelf_of_ne (g : Graph) (s : Shelf kind kind.Object) {kind' : Kind}
    (h : kind' ≠ kind) : (g.withShelf kind s).shelf kind' = g.shelf kind' := by
  cases kind <;> cases kind' <;> first | rfl | exact absurd rfl h

/-- Another shelf for one kind leaves an object alone that it has where the old one had it. -/
theorem object?_withShelf (g : Graph) (s : Shelf kind kind.Object) {x : Handle}
    (h : ∀ r : Ref kind, x = r.handle → s.get? r = (g.shelf kind).get? r) :
    (g.withShelf kind s).object? x = g.object? x := by
  obtain ⟨kind', r⟩ := x
  unfold object?
  by_cases hkind : kind' = kind
  · subst hkind
    rw [shelf_withShelf_self]
    exact h r rfl
  · rw [shelf_withShelf_of_ne g s hkind]

/-! ### One more object -/

/-- The graph with one more object. -/
def add (g : Graph) (kind : Kind) (a : kind.Object) : Graph :=
  g.withShelf kind ((g.shelf kind).add a)

/-- The handle of the object that is added next. -/
def nextHandle (g : Graph) (kind : Kind) : Handle := (g.shelf kind).next.handle

theorem not_holds_nextHandle (g : Graph) (kind : Kind) : ¬ g.Holds (g.nextHandle kind) :=
  (g.shelf kind).not_has_next

theorem object?_add_nextHandle (g : Graph) (a : kind.Object) :
    (g.add kind a).object? (g.nextHandle kind) = some a := by
  show ((g.add kind a).shelf kind).get? (g.shelf kind).next = some a
  rw [add, shelf_withShelf_self]
  exact Shelf.get?_add_next _ a

theorem object?_add_of_ne (g : Graph) (a : kind.Object) {x : Handle} (h : x ≠ g.nextHandle kind) :
    (g.add kind a).object? x = g.object? x := by
  refine g.object?_withShelf _ fun r hx => (g.shelf kind).get?_add_of_ne a ?_
  rintro rfl
  exact h hx

theorem object?_add_of_holds (kind : Kind) (a : kind.Object) {x : Handle} (h : g.Holds x) :
    (g.add kind a).object? x = g.object? x :=
  g.object?_add_of_ne a fun heq => g.not_holds_nextHandle kind (heq ▸ h)

/-! ### A changed object -/

/-- The graph with a changed object. -/
def alter (g : Graph) (r : Ref kind) (f : kind.Object → kind.Object) : Graph :=
  g.withShelf kind ((g.shelf kind).modify r f)

theorem object?_alter_self (g : Graph) (r : Ref kind) (f : kind.Object → kind.Object) :
    (g.alter r f).object? r.handle = (g.object? r.handle).map f := by
  show ((g.alter r f).shelf kind).get? r = ((g.shelf kind).get? r).map f
  rw [alter, shelf_withShelf_self, Shelf.get?_modify_self]

theorem object?_alter_of_ne (g : Graph) (r : Ref kind) (f : kind.Object → kind.Object) {x : Handle}
    (h : x ≠ r.handle) : (g.alter r f).object? x = g.object? x := by
  refine g.object?_withShelf _ fun r' hx => (g.shelf kind).get?_modify_of_ne f ?_
  rintro rfl
  exact h hx

/-! ### Growth -/

/-- Every object that exists stays. -/
def Grows (g g' : Graph) : Prop := ∀ x, g.Holds x → g'.Holds x

instance : Std.Refl Grows := ⟨fun _ _ h => h⟩

instance : IsTrans Graph Grows := ⟨fun _ _ _ h h' x hx => h' x (h x hx)⟩

theorem holds_of_object?_eq {g' : Graph} {x : Handle} (h : g'.object? x = g.object? x)
    (hx : g.Holds x) : g'.Holds x := by
  show (g'.object? x).isSome = true
  rw [h]
  exact hx

theorem grows_add (g : Graph) (a : kind.Object) : g.Grows (g.add kind a) := fun _ hx =>
  holds_of_object?_eq (object?_add_of_holds kind a hx) hx

theorem grows_alter (g : Graph) (r : Ref kind) (f : kind.Object → kind.Object) :
    g.Grows (g.alter r f) := by
  intro x hx
  by_cases heq : x = r.handle
  · subst heq
    show ((g.alter r f).object? r.handle).isSome = true
    rw [object?_alter_self, Option.isSome_map]
    exact hx
  · exact holds_of_object?_eq (g.object?_alter_of_ne r f heq) hx

theorem grows_foldl {α : Type} {f : Graph → α → Graph} (hf : ∀ g a, Grows g (f g a)) (as : List α)
    (g : Graph) : g.Grows (as.foldl f g) :=
  List.foldlRecOn as f (Std.Refl.refl g) fun g' h a _ => IsTrans.trans _ _ _ h (hf g' a)

theorem grows_setUsePortions (g : Graph) (u : Ref .use) (p : Value) :
    g.Grows (g.setUsePortions u p) := g.grows_alter u _

theorem grows_setIngredientPortions (g : Graph) (i : Ref .ingredient) (p : Value) :
    g.Grows (g.setIngredientPortions i p) :=
  grows_foldl (fun g u => g.grows_setUsePortions u p) _ g

theorem grows_setPortions (g : Graph) (r : Ref .recipe) (p : Value) : g.Grows (g.setPortions r p) :=
  IsTrans.trans _ _ _ (g.grows_alter r _)
    (grows_foldl (fun g i => g.grows_setIngredientPortions i p) _ _)

theorem grows_register (g : Graph) (owner : Owner) (u : Ref .use) :
    g.Grows (g.register owner u) := by
  cases owner with
  | ingredient i => exact g.grows_alter i _
  | supply j => exact g.grows_alter j _

end Graph

end Cookbook
