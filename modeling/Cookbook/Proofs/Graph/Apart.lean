import Cookbook.Proofs.Graph.Portions
import Cookbook.Proofs.Graph.Reference
import Cookbook.Proofs.Graph.Work
/-!
# Cookbook.Proofs.Graph.Apart

What is added to a graph stays apart from it. `Apart` says of a graph and a later one that all
objects of the first are as they were, and that all others refer to each other only: so neither side
can be reached from the other one (`not_reaches`). A change keeps this as long as it is made to
objects that were added, and puts nothing but such objects into them.

Work is given handles, and it hands on those of what it made. `Work.Within` says that work which is
given nothing but objects that were added keeps them apart, whether it succeeds or not, and that
what it hands on was added as well. Work is put together with `Work.Within.bind`.
-/

namespace Cookbook

namespace Graph

/-- The object has been added: it exists, and it did not in an earlier graph. -/
def New (b g : Graph) (x : Handle) : Prop := g.Holds x ∧ ¬ b.Holds x

/-- All objects of a graph are as they were, and those that were added refer to each other only. -/
structure Apart (b g : Graph) : Prop where
  kept : ∀ x, b.Holds x → g.object? x = b.object? x
  points : ∀ x y, g.Points x y → ¬ b.Holds x → b.New g y

variable {b g g' : Graph} {kind : Kind} {x y : Handle}

theorem New.of_grows (h : b.New g x) (hg : g.Grows g') : b.New g' x := ⟨hg x h.1, h.2⟩

/-- Every object has been added to the graph without objects. -/
theorem New.of_holds (h : g.Holds x) : Graph.empty.New g x := ⟨h, not_holds_empty x⟩

theorem closed_iff_apart_empty : g.Closed ↔ Graph.empty.Apart g := by
  constructor
  · intro h
    exact ⟨fun x hx => absurd hx (not_holds_empty x), fun x y hxy _ => .of_holds (h x y hxy)⟩
  · intro h x y hxy
    exact (h.points x y hxy (not_holds_empty x)).1

/-- Without objects there are no references. -/
theorem closed_empty : Graph.empty.Closed := fun x _ hxy => absurd hxy.holds (not_holds_empty x)

namespace Apart

theorem refl (b : Graph) : Apart b b where
  kept := fun _ _ => rfl
  points := fun _ _ h hnew => absurd h.holds hnew

theorem holds (h : b.Apart g) (hx : b.Holds x) : g.Holds x := holds_of_object?_eq (h.kept x hx) hx

/-! ### Changes -/

theorem add (h : b.Apart g) (a : kind.Object) (ha : ∀ y ∈ kind.handles a, b.New g y) :
    b.Apart (g.add kind a) where
  kept := by
    intro x hx
    rw [object?_add_of_holds kind a (h.holds hx), h.kept x hx]
  points := by
    rintro x y ⟨c, hc, hy⟩ hx
    by_cases heq : x = g.nextHandle kind
    · subst heq
      obtain rfl : a = c := Option.some.inj ((g.object?_add_nextHandle a).symm.trans hc)
      exact (ha y hy).of_grows (g.grows_add a)
    · rw [g.object?_add_of_ne a heq] at hc
      exact (h.points x y ⟨c, hc, hy⟩ hx).of_grows (g.grows_add a)

theorem new_nextHandle (h : b.Apart g) (a : kind.Object) :
    b.New (g.add kind a) (g.nextHandle kind) :=
  ⟨Shelf.has_of_get? (g.object?_add_nextHandle a),
    fun hx => g.not_holds_nextHandle kind (h.holds hx)⟩

theorem alter (h : b.Apart g) {r : Ref kind} (hr : ¬ b.Holds r.handle)
    {f : kind.Object → kind.Object}
    (hf : ∀ a, ∀ y ∈ kind.handles (f a), y ∈ kind.handles a ∨ b.New g y) :
    b.Apart (g.alter r f) where
  kept := by
    intro x hx
    rw [g.object?_alter_of_ne r f fun heq => hr (heq ▸ hx), h.kept x hx]
  points := by
    rintro x y ⟨c, hc, hy⟩ hx
    refine New.of_grows ?_ (g.grows_alter r f)
    by_cases heq : x = r.handle
    · subst heq
      rw [g.object?_alter_self] at hc
      obtain ⟨a, ha, rfl⟩ := Option.map_eq_some_iff.mp hc
      rcases hf a y hy with hold | hnew
      · exact h.points _ y ⟨a, ha, hold⟩ hr
      · exact hnew
    · rw [g.object?_alter_of_ne r f heq] at hc
      exact h.points x y ⟨c, hc, hy⟩ hx

theorem register (h : b.Apart g) {owner : Owner} {u : Ref .use} (ho : ¬ b.Holds owner.handle)
    (hu : b.New g u.handle) : b.Apart (g.register owner u) := by
  cases owner with
  | ingredient i =>
      refine h.alter (r := i) ho fun a y hy => ?_
      rw [Kind.handles, List.map_append] at hy
      rcases List.mem_append.mp hy with hold | hgained
      · exact .inl hold
      · exact .inr (List.mem_singleton.mp hgained ▸ hu)
  | supply j =>
      refine h.alter (r := j) ho fun a y hy => ?_
      rw [Kind.handles, List.map_append] at hy
      rcases List.mem_append.mp hy with hold | hgained
      · exact .inl hold
      · exact .inr (List.mem_singleton.mp hgained ▸ hu)

theorem setRecipe (h : b.Apart g) {s : Ref .step} {r : Ref .recipe} (hs : ¬ b.Holds s.handle)
    (hr : b.New g r.handle) : b.Apart (g.setRecipe s r) := by
  refine h.alter (r := s) hs fun a y hy => ?_
  simp only [Kind.handles, List.mem_append, Option.toList_some, List.map_cons, List.map_nil,
    List.mem_singleton] at hy ⊢
  rcases hy with huse | heq
  · exact .inl (.inl huse)
  · exact .inr (heq ▸ hr)

theorem setUsePortions (h : b.Apart g) {u : Ref .use} (hu : ¬ b.Holds u.handle) (p : Value) :
    b.Apart (g.setUsePortions u p) :=
  h.alter (r := u) hu fun _ _ hy => .inl hy

theorem setIngredientPortions (h : b.Apart g) {i : Ref .ingredient} (hi : ¬ b.Holds i.handle)
    (p : Value) : b.Apart (g.setIngredientPortions i p) := by
  have huses : ∀ u ∈ (g.ingredients.get i).uses, ¬ b.Holds u.handle := fun u hu =>
    (h.points _ _ (points_of_ingredient hu) hi).2
  exact List.foldlRecOn _ _ h fun g' hg' u hu => hg'.setUsePortions (huses u hu) p

theorem setPortions (h : b.Apart g) {r : Ref .recipe} (hr : ¬ b.Holds r.handle) (p : Value) :
    b.Apart (g.setPortions r p) := by
  have hingredients : ∀ i ∈ (g.recipes.get r).ingredients, ¬ b.Holds i.handle := fun i hi =>
    (h.points _ _ (points_of_recipe (List.mem_append_left _ (List.mem_append_left _
      (List.mem_map_of_mem hi)))) hr).2
  have hset : b.Apart (g.alter r fun recipe : Recipe => { recipe with portions := p }) :=
    h.alter hr fun _ _ hy => .inl hy
  exact List.foldlRecOn (g.recipes.get r).ingredients (fun g i => g.setIngredientPortions i p) hset
    fun g' hg' i hi => hg'.setIngredientPortions (hingredients i hi) p

/-! ### Reaching -/

/-- From what was added nothing is reached but what was added. -/
theorem new_of_reaches (h : b.Apart g) (hx : b.New g x) (hxy : g.Reaches x y) : b.New g y :=
  hxy.mem_of_closed (fun _ _ hpoints hnew => h.points _ _ hpoints hnew.2) hx

/-- From what there was nothing is reached but what there was. -/
theorem holds_of_reaches (h : b.Apart g) (hb : b.Closed) (hx : b.Holds x) (hxy : g.Reaches x y) :
    b.Holds y := by
  refine hxy.mem_of_closed (fun x y hpoints hold => ?_) hx
  obtain ⟨a, ha, hmem⟩ := hpoints
  exact hb _ _ ⟨a, (h.kept _ hold).symm.trans ha, hmem⟩

/-- No object is reached from both sides. -/
theorem not_reaches (h : b.Apart g) (hb : b.Closed) (hx : b.Holds x) (hy : b.New g y) {z : Handle}
    (hxz : g.Reaches x z) : ¬ g.Reaches y z := fun hyz =>
  (h.new_of_reaches hy hyz).2 (h.holds_of_reaches hb hx hxz)

end Apart

end Graph

/-! ### Work -/

namespace Work

open Cookbook.Graph (New)

variable {α β : Type} {b : Graph} {given : List Handle}

/-- Work that is given objects which were added to a graph leaves that graph apart, whether it
succeeds or not, and hands on objects that were added to it as well. -/
def Within (b : Graph) (given : List Handle) (w : Work α) (made : α → List Handle) : Prop :=
  ∀ g, b.Apart g → (∀ x ∈ given, b.New g x) →
    b.Apart (w g).2 ∧ g.Grows (w g).2 ∧
      ∀ a, (w g).1.outcome = .ok a → ∀ x ∈ made a, b.New (w g).2 x

namespace Within

theorem pure {a : α} {made : α → List Handle} (h : made a ⊆ given) :
    Within b given (pure a) made := by
  intro g hg hgiven
  refine ⟨hg, Std.Refl.refl g, ?_⟩
  intro a' ha'
  cases ha'
  exact fun x hx => hgiven x (h hx)

theorem report (report : Report α) : Within b given (liftM report) fun _ => [] := fun g hg _ =>
  ⟨hg, Std.Refl.refl g, fun _ _ => List.forall_mem_nil _⟩

theorem change {f : Graph → Graph}
    (h : ∀ g, b.Apart g → (∀ x ∈ given, b.New g x) → b.Apart (f g) ∧ g.Grows (f g)) :
    Within b given (Work.change f) fun _ => [] := fun g hg hgiven =>
  ⟨(h g hg hgiven).1, (h g hg hgiven).2, fun _ _ => List.forall_mem_nil _⟩

/-- Making an object that holds nothing but handles which were given. -/
theorem add (kind : Kind) (a : kind.Object) (h : kind.handles a ⊆ given) :
    Within b given (make fun g => (g.add kind a, (g.shelf kind).next)) fun r => [r.handle] := by
  intro g hg hgiven
  refine ⟨hg.add a fun y hy => hgiven y (h hy), g.grows_add a, ?_⟩
  intro r hr
  cases hr
  exact List.forall_mem_singleton.mpr (hg.new_nextHandle a)

theorem bind {w : Work α} {f : α → Work β} {made : α → List Handle} {made' : β → List Handle}
    (hw : Within b given w made) (hf : ∀ a, Within b (given ++ made a) (f a) made') :
    Within b given (w >>= f) made' := by
  intro g hg hgiven
  have hfirst := hw g hg hgiven
  rcases hrun : w g with ⟨⟨ws, outcome⟩, g'⟩
  rw [hrun] at hfirst
  obtain ⟨hg', hgrows, hmade⟩ := hfirst
  cases outcome with
  | error fault =>
      rw [bind_of_error hrun]
      exact ⟨hg', hgrows, fun _ h => by cases h⟩
  | ok a =>
      rw [bind_of_ok hrun]
      have hgiven' : ∀ x ∈ given ++ made a, b.New g' x := by
        intro x hx
        rcases List.mem_append.mp hx with hx | hx
        · exact (hgiven x hx).of_grows hgrows
        · exact hmade a rfl x hx
      obtain ⟨hg'', hgrows', hmade'⟩ := hf a g' hg' hgiven'
      exact ⟨hg'', IsTrans.trans _ _ _ hgrows hgrows', hmade'⟩

/-- What is read without looking at the graph hands on no objects. -/
theorem lift_bind {outcome : Except Fault α} {f : α → Work β} {made : β → List Handle}
    (hf : ∀ a, outcome = .ok a → Within b given (f a) made) :
    Within b given (liftM outcome >>= f) made := by
  intro g hg hgiven
  cases outcome with
  | error fault => exact ⟨hg, Std.Refl.refl g, fun _ h => by cases h⟩
  | ok a =>
      rw [bind_of_ok (w := (liftM (Except.ok a : Except Fault α) : Work α)) rfl]
      exact hf a rfl g hg hgiven

/-- Going through a list: what is given at first is given at each item, with what was made
before. -/
theorem mapM' {w : α → Work β} {made : β → Handle} {as : List α}
    (h : ∀ a ∈ as, ∀ given', given ⊆ given' → Within b given' (w a) fun x => [made x]) :
    Within b given (as.mapM' w) fun xs => xs.map made := by
  induction as generalizing given with
  | nil => exact .pure (List.nil_subset _)
  | cons a as ih =>
      obtain ⟨ha, has⟩ := List.forall_mem_cons.mp h
      refine (ha given (List.Subset.refl _)).bind fun x => ?_
      have hgrown : ∀ a' ∈ as, ∀ given', given ++ [made x] ⊆ given' →
          Within b given' (w a') fun x => [made x] := fun a' ha' given' hsub =>
        has a' ha' given' (List.Subset.trans (List.subset_append_left _ _) hsub)
      refine (ih hgrown).bind fun xs => ?_
      exact .pure (by simp)

/-- Work that is given objects that exist puts no reference to any other one anywhere. -/
theorem closed {w : Work α} {made : α → List Handle} (hw : Within .empty given w made) {g : Graph}
    (hg : g.Closed) (hgiven : ∀ x ∈ given, g.Holds x) : (w g).2.Closed :=
  Graph.closed_iff_apart_empty.mpr
    (hw g (Graph.closed_iff_apart_empty.mp hg) fun x hx => .of_holds (hgiven x hx)).1

end Within

theorem within_attach {s : Ref .step} {r : Ref .recipe} (hs : s.handle ∈ given)
    (hr : r.handle ∈ given) : Within b given (attach s r) fun _ => [] := by
  intro g hg hgiven
  rcases attach_cases s r g with ⟨-, hattach⟩ | ⟨fault, hattach⟩ <;> rw [hattach]
  · refine ⟨hg.setRecipe (hgiven _ hs).2 (hgiven _ hr), g.grows_alter s _, ?_⟩
    exact fun _ _ => List.forall_mem_nil _
  · exact ⟨hg, Std.Refl.refl g, fun _ _ => List.forall_mem_nil _⟩

theorem within_attachAll {r : Ref .recipe} {ss : List (Ref .step)}
    (hss : ∀ s ∈ ss, s.handle ∈ given) (hr : r.handle ∈ given) :
    Within b given (attachAll r ss) fun _ => [] := by
  induction ss with
  | nil => exact .pure (List.nil_subset _)
  | cons s ss ih =>
      obtain ⟨hs, hss⟩ := List.forall_mem_cons.mp hss
      refine (within_attach hs hr).bind fun _ => ?_
      rw [List.append_nil]
      exact ih hss

theorem within_makeRecipe (name : String) {is : List (Ref .ingredient)} {js : List (Ref .supply)}
    {ss : List (Ref .step)} (his : ∀ i ∈ is, i.handle ∈ given) (hjs : ∀ j ∈ js, j.handle ∈ given)
    (hss : ∀ s ∈ ss, s.handle ∈ given) :
    Within b given (makeRecipe name is js ss) fun r => [r.handle] := by
  have hparts : Kind.handles .recipe { name, ingredients := is, supplies := js, steps := ss } ⊆
      given := by
    intro x hx
    simp only [Kind.handles, List.mem_append, List.mem_map] at hx
    rcases hx with (⟨i, hi, rfl⟩ | ⟨j, hj, rfl⟩) | ⟨s, hs, rfl⟩
    · exact his i hi
    · exact hjs j hj
    · exact hss s hs
  refine (Within.add .recipe _ hparts).bind fun r => ?_
  have hsteps : ∀ s ∈ ss, s.handle ∈ given ++ [r.handle] :=
    fun s hs => List.mem_append_left _ (hss s hs)
  refine (within_attachAll hsteps (by simp)).bind fun _ => ?_
  exact .pure (by simp)

end Work

end Cookbook
