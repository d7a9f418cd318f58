import Cookbook.Proofs.Graph.Portions
/-!
# Cookbook.Proofs.Graph.Copy

The same work in different graphs. References are numbers in the order of making, so the same work
in a graph that has objects already makes the same objects under greater numbers. `Graph.Copied`
says that one graph holds a copy of another one, with all references moved by an offset; every graph
holds a copy of the empty one (`copied_empty`).

Each change keeps copies, and so does all work that is made of them: `Work.Copied` says of two
pieces of work, one in the terms of each graph, that they report the same and keep copies. Work is
taken apart with `Work.Copied.bind`.
-/

namespace Cookbook

/-- How far the references to each kind of objects are moved. -/
abbrev Offset : Type := Kind → Nat

variable {o : Offset}

/-! ### Moved references -/

/-- The reference to the copy of an object. -/
def Ref.moved {kind : Kind} (r : Ref kind) (o : Offset) : Ref kind := ⟨o kind + r.index⟩

@[simp] theorem Ref.moved_inj {kind : Kind} {r r' : Ref kind} :
    r.moved o = r'.moved o ↔ r = r' := by
  cases r
  cases r'
  simp [moved]

/-- The copy of an owner. -/
def Owner.moved (owner : Owner) (o : Offset) : Owner :=
  match owner with
  | .ingredient r => .ingredient (r.moved o)
  | .supply r => .supply (r.moved o)

/-- The copy of a use. -/
def Use.moved (u : Use) (o : Offset) : Use := { u with owner := u.owner.moved o }

/-- The copy of an ingredient. -/
def Ingredient.moved (i : Ingredient) (o : Offset) : Ingredient :=
  { i with uses := i.uses.map (·.moved o) }

/-- The copy of a supply. -/
def Supply.moved (s : Supply) (o : Offset) : Supply := { s with uses := s.uses.map (·.moved o) }

/-- The copy of a step. -/
def Step.moved (s : Step) (o : Offset) : Step :=
  { s with
    useIngredients := s.useIngredients.map (·.moved o)
    useSupplies := s.useSupplies.map (·.moved o)
    recipe := s.recipe.map (·.moved o) }

/-- The copy of a recipe. -/
def Recipe.moved (r : Recipe) (o : Offset) : Recipe :=
  { r with
    ingredients := r.ingredients.map (·.moved o)
    supplies := r.supplies.map (·.moved o)
    steps := r.steps.map (·.moved o) }

/-! ### Shelves -/

namespace Shelf

variable {kind : Kind} {α : Type} {f m m' : α → α} {s s' : Shelf kind α}

/-- The second shelf holds copies of what is on the first one. -/
structure Copied (o : Offset) (f : α → α) (s s' : Shelf kind α) : Prop where
  next_eq : s'.next = s.next.moved o
  get?_eq : ∀ r, s'.get? (r.moved o) = (s.get? r).map f

namespace Copied

theorem add (h : Copied o f s s') (a : α) : Copied o f (s.add a) (s'.add (f a)) where
  next_eq := by
    have hsize : s'.objects.size = o kind + s.objects.size := congrArg Ref.index h.next_eq
    simp only [next, Shelf.add, Ref.moved, Array.size_push, hsize, Nat.add_assoc]
  get?_eq := by
    intro r
    by_cases hr : r = s.next
    · subst hr
      rw [get?_add_next, ← h.next_eq, get?_add_next]
      rfl
    · have hr' : r.moved o ≠ s'.next := by simpa [h.next_eq] using hr
      rw [get?_add_of_ne _ _ hr, get?_add_of_ne _ _ hr', h.get?_eq]

theorem modify (h : Copied o f s s') (hm : ∀ a, f (m a) = m' (f a)) (r : Ref kind) :
    Copied o f (s.modify r m) (s'.modify (r.moved o) m') where
  next_eq := by rw [next_modify, next_modify, h.next_eq]
  get?_eq := by
    intro r'
    by_cases hr : r' = r
    · subst hr
      rw [get?_modify_self, get?_modify_self, h.get?_eq, Option.map_map, Option.map_map]
      congr 1
      exact funext fun a => (hm a).symm
    · have hr' : r'.moved o ≠ r.moved o := by simpa using hr
      rw [get?_modify_of_ne _ _ hr, get?_modify_of_ne _ _ hr', h.get?_eq]

theorem modifyAll (h : Copied o f s s') (hm : ∀ a, f (m a) = m' (f a)) (rs : List (Ref kind)) :
    Copied o f (s.modifyAll rs m) (s'.modifyAll (rs.map (·.moved o)) m') := by
  induction rs generalizing s s' with
  | nil => exact h
  | cons r rs ih => exact ih (h.modify hm r)

/-- A copy is read under its moved reference. Where nothing is found both sides are empty, so an
empty object must be its own copy. -/
theorem get_eq [Inhabited α] (h : Copied o f s s') (hf : f default = default) (r : Ref kind) :
    s'.get (r.moved o) = f (s.get r) := by
  simp only [get, h.get?_eq]
  cases s.get? r with
  | none => exact hf.symm
  | some a => rfl

theorem get_of_has [Inhabited α] (h : Copied o f s s') {r : Ref kind} (hr : s.Has r) :
    s'.get (r.moved o) = f (s.get r) := by
  obtain ⟨a, ha⟩ := Option.isSome_iff_exists.mp hr
  simp only [get, h.get?_eq, ha]
  rfl

end Copied

end Shelf

/-! ### Graphs -/

namespace Graph

/-- The second graph holds a copy of the first one. -/
structure Copied (o : Offset) (g g' : Graph) : Prop where
  ingredients : Shelf.Copied o (·.moved o) g.ingredients g'.ingredients
  supplies : Shelf.Copied o (·.moved o) g.supplies g'.supplies
  uses : Shelf.Copied o (·.moved o) g.uses g'.uses
  steps : Shelf.Copied o (·.moved o) g.steps g'.steps
  recipes : Shelf.Copied o (·.moved o) g.recipes g'.recipes

/-- How many objects of each kind there are. -/
def sizes (g : Graph) : Offset
  | .ingredient => g.ingredients.objects.size
  | .supply => g.supplies.objects.size
  | .use => g.uses.objects.size
  | .step => g.steps.objects.size
  | .recipe => g.recipes.objects.size

theorem copied_nothing {kind : Kind} {α : Type} {f : α → α} (s : Shelf kind α)
    (h : o kind = s.objects.size) : Shelf.Copied o f {} s where
  next_eq := by simp [Shelf.next, Ref.moved, h]
  get?_eq := by
    intro r
    simp [Shelf.get?, Ref.moved, h]

/-- Whatever a graph holds, behind it there is room for a copy of all that is made from nothing. -/
theorem copied_empty (g : Graph) : Copied g.sizes .empty g :=
  ⟨copied_nothing _ rfl, copied_nothing _ rfl, copied_nothing _ rfl, copied_nothing _ rfl,
    copied_nothing _ rfl⟩

namespace Copied

variable {g g' : Graph}

/-! What is read of a copy. A use must exist, since the empty use has an owner. -/

theorem get_ingredient (h : Copied o g g') (i : Ref .ingredient) :
    g'.ingredients.get (i.moved o) = (g.ingredients.get i).moved o :=
  h.ingredients.get_eq rfl i

theorem get_supply (h : Copied o g g') (j : Ref .supply) :
    g'.supplies.get (j.moved o) = (g.supplies.get j).moved o :=
  h.supplies.get_eq rfl j

theorem get_use (h : Copied o g g') {u : Ref .use} (hu : g.uses.Has u) :
    g'.uses.get (u.moved o) = (g.uses.get u).moved o :=
  h.uses.get_of_has hu

theorem get_step (h : Copied o g g') (s : Ref .step) :
    g'.steps.get (s.moved o) = (g.steps.get s).moved o :=
  h.steps.get_eq rfl s

theorem get_recipe (h : Copied o g g') (r : Ref .recipe) :
    g'.recipes.get (r.moved o) = (g.recipes.get r).moved o :=
  h.recipes.get_eq rfl r

/-! Changes keep copies. -/

theorem register (h : Copied o g g') (owner : Owner) (u : Ref .use) :
    Copied o (g.register owner u) (g'.register (owner.moved o) (u.moved o)) := by
  cases owner with
  | ingredient i =>
      refine ⟨h.ingredients.modify ?_ i, h.supplies, h.uses, h.steps, h.recipes⟩
      simp [Ingredient.moved]
  | supply j =>
      refine ⟨h.ingredients, h.supplies.modify ?_ j, h.uses, h.steps, h.recipes⟩
      simp [Supply.moved]

theorem setRecipe (h : Copied o g g') (s : Ref .step) (r : Ref .recipe) :
    Copied o (g.setRecipe s r) (g'.setRecipe (s.moved o) (r.moved o)) := by
  refine ⟨h.ingredients, h.supplies, h.uses, h.steps.modify ?_ s, h.recipes⟩
  simp [Step.moved]

theorem scaledUses (h : Copied o g g') (r : Ref .recipe) :
    g'.scaledUses (r.moved o) = (g.scaledUses r).map (·.moved o) := by
  simp only [Graph.scaledUses, h.get_recipe, Recipe.moved, List.flatMap_map, h.get_ingredient,
    Ingredient.moved, List.map_flatMap]

theorem setPortions (h : Copied o g g') (r : Ref .recipe) (p : Value) :
    Copied o (g.setPortions r p) (g'.setPortions (r.moved o) p) := by
  rw [setPortions_eq, setPortions_eq, h.scaledUses]
  refine ⟨h.ingredients, h.supplies, h.uses.modifyAll ?_ _, h.steps, h.recipes.modify ?_ r⟩
  · intro u
    rfl
  · intro recipe
    rfl

end Copied

end Graph

/-! ### Work -/

namespace Work

variable {α β : Type} {f : α → α} {f' : β → β} {g g' : Graph}

/-- Two pieces of work do the same, one in a graph and the other one in a graph with a copy of it:
the warnings and the faults are the same, and so is the result, but for what `f` moves in it. -/
def Copied (o : Offset) (f : α → α) (w w' : Work α) : Prop :=
  ∀ g g', Graph.Copied o g g' →
    (w' g').1 = ⟨(w g).1.warnings, (w g).1.outcome.map f⟩ ∧ Graph.Copied o (w g).2 (w' g').2

namespace Copied

theorem pure (a : α) : Copied o f (pure a) (pure (f a)) := by
  intro g g' h
  exact ⟨rfl, h⟩

theorem bind {w w' : Work α} {k k' : α → Work β} (hw : Copied o f w w')
    (hk : ∀ a, Copied o f' (k a) (k' (f a))) : Copied o f' (w >>= k) (w' >>= k') := by
  intro g g' h
  obtain ⟨hreport, hgraph⟩ := hw g g' h
  show (Work.bind w' k' g').1 = ⟨(Work.bind w k g).1.warnings, (Work.bind w k g).1.outcome.map f'⟩ ∧
    Graph.Copied o (Work.bind w k g).2 (Work.bind w' k' g').2
  unfold Work.bind
  generalize w g = run at hreport hgraph ⊢
  generalize w' g' = run' at hreport hgraph ⊢
  obtain ⟨⟨ws, outcome⟩, g₁⟩ := run
  obtain ⟨report', g₁'⟩ := run'
  obtain rfl := hreport
  cases outcome with
  | error fault => exact ⟨rfl, hgraph⟩
  | ok a =>
      obtain ⟨hreport', hgraph'⟩ := hk a g₁ g₁' hgraph
      refine ⟨?_, hgraph'⟩
      simp [Except.map, hreport']

/-- A value that was read, moved afterwards, is the value read in the terms of the copy. -/
theorem lift {x x' : Except Fault α} (hx : x' = x.map f) :
    Copied o f (liftM x : Work α) (liftM x') := by
  intro g g' h
  refine ⟨?_, h⟩
  rw [hx]
  rfl

/-- Plain values are the same in all graphs. -/
theorem liftSame (x : Except Fault α) : Copied o id (liftM x : Work α) (liftM x) :=
  lift (by cases x <;> rfl)

theorem report (x : Report α) : Copied o id (liftM x : Work α) (liftM x) := by
  intro g g' h
  refine ⟨?_, h⟩
  obtain ⟨ws, outcome⟩ := x
  cases outcome <;> rfl

theorem make {m m' : Graph → Graph × α}
    (hm : ∀ g g', Graph.Copied o g g' → (m' g').2 = f (m g).2 ∧ Graph.Copied o (m g).1 (m' g').1) :
    Copied o f (make m) (make m') := by
  intro g g' h
  obtain ⟨hmade, hgraph⟩ := hm g g' h
  refine ⟨?_, hgraph⟩
  show Report.pure (m' g').2 = _
  rw [hmade]
  rfl

theorem change {m m' : Graph → Graph}
    (hm : ∀ g g', Graph.Copied o g g' → Graph.Copied o (m g) (m' g')) :
    Copied o id (change m) (change m') := by
  intro g g' h
  exact ⟨rfl, hm g g' h⟩

/-- Going through a list of what is moved makes moved results, if it does so at each item. -/
theorem mapM' {w w' : α → Work β} {m : α → α} (h : ∀ a, Copied o f' (w a) (w' (m a)))
    (as : List α) : Copied o (List.map f') (as.mapM' w) ((as.map m).mapM' w') := by
  induction as with
  | nil => exact .pure []
  | cons a as ih =>
      refine (h a).bind fun b => ?_
      refine ih.bind fun bs => ?_
      exact .pure (b :: bs)

end Copied

/-! ### Making objects -/

theorem copied_addIngredient (i : Ingredient) :
    Copied o (·.moved o) (make (·.addIngredient i)) (make (·.addIngredient (i.moved o))) := by
  refine .make fun g g' h => ⟨h.ingredients.next_eq, ?_⟩
  exact ⟨h.ingredients.add i, h.supplies, h.uses, h.steps, h.recipes⟩

theorem copied_addSupply (j : Supply) :
    Copied o (·.moved o) (make (·.addSupply j)) (make (·.addSupply (j.moved o))) := by
  refine .make fun g g' h => ⟨h.supplies.next_eq, ?_⟩
  exact ⟨h.ingredients, h.supplies.add j, h.uses, h.steps, h.recipes⟩

theorem copied_addUse (u : Use) :
    Copied o (·.moved o) (make (·.addUse u)) (make (·.addUse (u.moved o))) := by
  refine .make fun g g' h => ⟨h.uses.next_eq, ?_⟩
  exact ⟨h.ingredients, h.supplies, h.uses.add u, h.steps, h.recipes⟩

theorem copied_addStep (s : Step) :
    Copied o (·.moved o) (make (·.addStep s)) (make (·.addStep (s.moved o))) := by
  refine .make fun g g' h => ⟨h.steps.next_eq, ?_⟩
  exact ⟨h.ingredients, h.supplies, h.uses, h.steps.add { s with recipe := none }, h.recipes⟩

theorem copied_addRecipe (r : Recipe) :
    Copied o (·.moved o) (make (·.addRecipe r)) (make (·.addRecipe (r.moved o))) := by
  refine .make fun g g' h => ⟨h.recipes.next_eq, ?_⟩
  exact ⟨h.ingredients, h.supplies, h.uses, h.steps, h.recipes.add r⟩

/-- A step belongs to the copy of a recipe exactly if its original belongs to the recipe. -/
theorem copied_attach (s : Ref .step) (r : Ref .recipe) :
    Copied o id (attach s r) (attach (s.moved o) (r.moved o)) := by
  intro g g' h
  simp only [attach, h.get_step, Step.moved]
  cases hrecipe : (g.steps.get s).recipe with
  | none => exact ⟨rfl, h.setRecipe s r⟩
  | some r' =>
      simp only [Option.map_some, Ref.moved_inj]
      by_cases heq : r' = r
      · simp only [if_pos heq]
        exact ⟨rfl, h.setRecipe s r⟩
      · simp only [if_neg heq, h.get_recipe]
        exact ⟨rfl, h⟩

theorem copied_attachAll (r : Ref .recipe) (ss : List (Ref .step)) :
    Copied o id (attachAll r ss) (attachAll (r.moved o) (ss.map (·.moved o))) := by
  induction ss with
  | nil => exact .pure ()
  | cons s ss ih => exact (copied_attach s r).bind fun _ => ih

theorem copied_makeRecipe (name : String) (is : List (Ref .ingredient)) (js : List (Ref .supply))
    (ss : List (Ref .step)) :
    Copied o (·.moved o) (makeRecipe name is js ss)
      (makeRecipe name (is.map (·.moved o)) (js.map (·.moved o)) (ss.map (·.moved o))) := by
  refine (copied_addRecipe _).bind fun r => ?_
  refine (copied_attachAll r ss).bind fun _ => ?_
  exact .pure r

end Work

end Cookbook
