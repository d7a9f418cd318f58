import Cookbook.Proofs.Build.Apart
import Cookbook.Proofs.Build.Moves
import Cookbook.Proofs.Graph.Intact
import Cookbook.Proofs.Operation.Run
/-!
# Cookbook.Proofs.Operation.Isolated

A recipe that is built from a record is on its own (`build_isolated`). Whatever there was before is
not changed, and neither reaches the recipe nor is reached from it. So nothing that is done to it is
seen of any other recipe, and the other way round, whatever else is done in between: only a use that
one of them holds and that is registered by hand with an ingredient or a supply of the other one
brings them together.

Two things carry this through a run. All references are to objects that exist (`Operation.closed`),
so what is made next is referred to by nothing yet. And every operation but registering lets owners
gain none but new uses of their own (`Operation.accrues`), which keeps separate recipes separate.
-/

namespace Cookbook

open Cookbook.Graph (Accrues Closed Stable)

/-! ### One operation -/

namespace Operation

variable {g : Graph} {op : Operation}

theorem closed_makeRecipe (hg : g.Closed) (name : String) {is : List (Ref .ingredient)}
    {js : List (Ref .supply)} {ss : List (Ref .step)}
    (hop : (makeRecipe name is js ss).Valid g) : ((makeRecipe name is js ss).perform g).Closed := by
  have hwithin : Work.Within .empty (is.map Ref.handle ++ js.map Ref.handle ++ ss.map Ref.handle)
      (Work.makeRecipe name is js ss) fun r => [r.handle] :=
    Work.within_makeRecipe name
      (fun i hi => List.mem_append_left _ (List.mem_append_left _ (List.mem_map_of_mem hi)))
      (fun j hj => List.mem_append_left _ (List.mem_append_right _ (List.mem_map_of_mem hj)))
      (fun s hs => List.mem_append_right _ (List.mem_map_of_mem hs))
  refine hwithin.closed hg fun x hx => ?_
  simp only [List.mem_append, List.mem_map] at hx
  obtain (⟨i, hi, rfl⟩ | ⟨j, hj, rfl⟩) | ⟨s, hs, rfl⟩ := hx
  · exact hop.1 i hi
  · exact hop.2.1 j hj
  · exact hop.2.2 s hs

theorem closed_buildStep (hg : g.Closed) {is js : Build.Index} (v : Value)
    (hop : (buildStep is js v).Valid g) : ((buildStep is js v).perform g).Closed := by
  have hmem {o : Owner} (ho : o ∈ (is ++ js).map Prod.snd) :
      o.handle ∈ ((is ++ js).map Prod.snd).map Owner.handle := List.mem_map_of_mem ho
  have hwithin : Work.Within .empty (((is ++ js).map Prod.snd).map Owner.handle)
      (Build.step is js v) fun s => [s.handle] := by
    refine Build.within_step (fun o ho => hmem ?_) (fun o ho => hmem ?_) v
    · exact List.map_append ▸ List.mem_append_left _ ho
    · exact List.map_append ▸ List.mem_append_right _ ho
  refine hwithin.closed hg fun x hx => ?_
  obtain ⟨o, ho, rfl⟩ := List.mem_map.mp hx
  exact (hop o ho).holds

theorem perform_assign_none (g : Graph) (s : Ref .step) : (assign s none).perform g = g := by
  show (Work.assign s none g).2 = g
  unfold Work.assign
  dsimp only
  split <;> rfl

theorem closed_assign (hg : g.Closed) {s : Ref .step} {r : Option (Ref .recipe)}
    (hop : (assign s r).Valid g) : ((assign s r).perform g).Closed := by
  cases r with
  | none =>
      rw [perform_assign_none]
      exact hg
  | some r =>
      have hwithin : Work.Within .empty [s.handle, r.handle] (Work.attach s r) fun _ => [] :=
        Work.within_attach List.mem_cons_self (by simp)
      exact hwithin.closed hg (by simpa using ⟨hop.1, hop.2 r rfl⟩)

/-- An operation on objects that exist puts no reference to any other one anywhere. -/
theorem closed (hop : op.Valid g) (hg : g.Closed) : (op.perform g).Closed := by
  have happart := Graph.closed_iff_apart_empty.mp hg
  have hold (x : Handle) : ¬ Graph.empty.Holds x := Graph.not_holds_empty x
  have hadd (kind : Kind) (a : kind.Object) (ha : ∀ y ∈ kind.handles a, g.Holds y) :
      (g.add kind a).Closed :=
    Graph.closed_iff_apart_empty.mpr (happart.add a fun y hy => .of_holds (ha y hy))
  cases op with
  | addIngredient i => exact hadd .ingredient i (List.forall_mem_map.mpr hop)
  | addSupply j => exact hadd .supply j (List.forall_mem_map.mpr hop)
  | addUse u => exact hadd .use u (List.forall_mem_singleton.mpr hop.holds)
  | addStep s =>
      refine hadd .step { s with recipe := none } fun y hy => ?_
      simp only [Kind.handles, Option.toList_none, List.map_nil, List.append_nil,
        ← List.map_append] at hy
      obtain ⟨u, hu, rfl⟩ := List.mem_map.mp hy
      exact hop u hu
  | makeRecipe name is js ss => exact closed_makeRecipe hg name hop
  | buildStep is js v => exact closed_buildStep hg v hop
  | buildRecipe v p =>
      have hwithin : Work.Within .empty [] (Build.recipe v p) fun r => [r.handle] :=
        Build.within_recipe v p
      exact hwithin.closed hg (List.forall_mem_nil _)
  | register o u =>
      exact Graph.closed_iff_apart_empty.mpr (happart.register (hold _) (.of_holds hop.2))
  | setUsePortions u p => exact Graph.closed_iff_apart_empty.mpr (happart.setUsePortions (hold _) p)
  | setIngredientPortions i p =>
      exact Graph.closed_iff_apart_empty.mpr (happart.setIngredientPortions (hold _) p)
  | setPortions r p => exact Graph.closed_iff_apart_empty.mpr (happart.setPortions (hold _) p)
  | assign s r => exact closed_assign hg hop

/-- The operation does not register a use that one of two recipes holds with an ingredient or a
supply of the other one. -/
def Respects (g : Graph) (r r' : Ref .recipe) : Operation → Prop
  | register o u =>
    (g.Part r o.handle → ¬ g.Part r' u.handle) ∧ (g.Part r' o.handle → ¬ g.Part r u.handle)
  | _ => True

/-- Only registering a use by hand gives an owner other uses than new ones of its own. -/
theorem accrues (g : Graph) (hop : ∀ o u, op ≠ register o u) : Accrues g (op.perform g) := by
  cases op with
  | addIngredient i => exact .add g .ingredient i
  | addSupply j => exact .add g .supply j
  | addUse u => exact .add g .use u
  | addStep s => exact .add g .step { s with recipe := none }
  | makeRecipe name is js ss =>
      exact Work.moves_makeRecipe (fun g s r _ => .setRecipe g s r) (fun g r _ => .add g .recipe r)
        name is js ss g
  | buildStep is js v =>
      exact Build.moves_step (fun g use _ => .link g use)
        (fun g s => .add g .step { s with recipe := none }) is js v g
  | buildRecipe v p =>
      have hwithin : Work.Within g [] (Build.recipe v p) fun r => [r.handle] :=
        Build.within_recipe v p
      exact .of_kept (hwithin g (.refl g) (List.forall_mem_nil _)).1.kept
  | register o u => exact absurd rfl (hop o u)
  | setUsePortions u p => exact .setUsePortions g u p
  | setIngredientPortions i p => exact .setIngredientPortions g i p
  | setPortions r p => exact .setPortions g r p
  | assign s r =>
      cases r with
      | none =>
          rw [perform_assign_none]
          exact Std.Refl.refl g
      | some r => exact Work.moves_attach (fun g s r _ => .setRecipe g s r) s r g

theorem stable (op : Operation) (g : Graph) : Stable g (op.perform g) := by
  by_cases hop : ∃ o u, op = register o u
  · obtain ⟨o, u, rfl⟩ := hop
    exact .register g o u
  · exact (accrues g fun o u heq => hop ⟨o, u, heq⟩).toStable

/-- Recipes stay separate. -/
theorem separate {r r' : Ref .recipe} (h : g.Separate r r') (hg : g.Closed) (hr : g.recipes.Has r)
    (hr' : g.recipes.Has r') (hop : op.Respects g r r') : (op.perform g).Separate r r' := by
  by_cases hregister : ∃ o u, op = register o u
  · obtain ⟨o, u, rfl⟩ := hregister
    exact h.register hr hr' hop.1 hop.2
  · exact h.of_accrues hg hr hr' (accrues g fun o u heq => hregister ⟨o, u, heq⟩)

end Operation

/-! ### Runs -/

namespace State

variable {x y z : State} {ops ops' : List Operation} {r r' : Ref .recipe}

/-- No operation of a run registers a use that one of two recipes holds with an ingredient or a
supply of the other one. -/
def Respects (r r' : Ref .recipe) : State → List Operation → Prop
  | _, [] => True
  | x, op :: ops => op.Respects x.graph r r' ∧ Respects r r' (x.next op) ops

theorem Run.closed (h : Run x ops y) (hx : x.graph.Closed) : y.graph.Closed := by
  induction h with
  | nil x => exact hx
  | cons hop _ ih => exact ih (Operation.closed hop hx)

/-- In a state that a run reaches every reference is to an object that exists. -/
theorem Run.closed_of_empty (h : Run {} ops x) : x.graph.Closed := h.closed Graph.closed_empty

theorem Run.stable (h : Run x ops y) : Stable x.graph y.graph := by
  induction h with
  | nil x => exact .refl x.graph
  | @cons x y op ops _ _ ih => exact (op.stable x.graph).trans ih

theorem Run.separate (h : Run x ops y) (hx : x.graph.Closed) (hr : x.graph.recipes.Has r)
    (hr' : x.graph.recipes.Has r') (hrespects : Respects r r' x ops)
    (hseparate : x.graph.Separate r r') : y.graph.Separate r r' := by
  induction h with
  | nil x => exact hseparate
  | @cons x y op ops hop _ ih =>
      have hstable := op.stable x.graph
      exact ih (Operation.closed hop hx) (hstable.recipes.has hr) (hstable.recipes.has hr')
        hrespects.2 (Operation.separate hseparate hx hr hr' hrespects.1)

/-- **A recipe that is built is on its own.** In every state that a run reaches, building a recipe
from a record, whether it succeeds or not, changes no object that there was. The recipe that it
returns reaches no object that any of them reaches. And after any more operations that bring the two
not together, whatever is done to this recipe leaves any earlier one intact, with all that is seen
of it, and whatever is done to an earlier one leaves this one intact. -/
theorem build_isolated (h : Run {} ops x) (v p : Value) :
    let y := x.next (.buildRecipe v p)
    (∀ a, x.graph.Holds a → y.graph.object? a = x.graph.object? a) ∧
      ∀ r, (Build.recipe v p x.graph).1.outcome = .ok r →
        (∀ a b, x.graph.Holds a → y.graph.Reaches a b → ¬ y.graph.Reaches r.handle b) ∧
          ∀ r', x.graph.recipes.Has r' → ∀ ops' z, Run y ops' z → Respects r r' y ops' →
            (∀ c : Change, c.On z.graph r → z.graph.Intact (c.apply z.graph r) r') ∧
              ∀ c : Change, c.On z.graph r' → z.graph.Intact (c.apply z.graph r') r := by
  intro y
  have hx : x.graph.Closed :=
    h.closed (Graph.closed_iff_apart_empty.mpr (Graph.Apart.refl .empty))
  have hy : y.graph.Closed := @Operation.closed x.graph (.buildRecipe v p) trivial hx
  have hwithin : Work.Within x.graph [] (Build.recipe v p) fun r => [r.handle] :=
    Build.within_recipe v p
  obtain ⟨hapart, -, hmade⟩ := hwithin x.graph (.refl _) (List.forall_mem_nil _)
  refine ⟨hapart.kept, fun r hr => ?_⟩
  have hnew : x.graph.New y.graph r.handle := hmade r hr _ (List.mem_singleton_self _)
  refine ⟨fun a b ha hab => hapart.not_reaches hx ha hnew hab, ?_⟩
  intro r' hr' ops' z hrun hrespects
  have hold : y.graph.recipes.Has r' := hapart.holds (x := r'.handle) hr'
  have hseparate : y.graph.Separate r r' := fun a ha ha' =>
    hapart.not_reaches hx (x := r'.handle) hr' hnew ha'.reaches ha.reaches
  -- The two are still separate after the run, and that is all that a change of one has to do with.
  have hz : z.graph.Closed := hrun.closed hy
  have hseparate' : z.graph.Separate r r' := hrun.separate hy hnew.1 hold hrespects hseparate
  have hhas : z.graph.recipes.Has r := hrun.stable.recipes.has hnew.1
  have hhas' : z.graph.recipes.Has r' := hrun.stable.recipes.has hold
  exact ⟨fun c hc => Change.intact_apply hc hz hhas' hseparate',
    fun c hc => Change.intact_apply hc hz hhas hseparate'.symm⟩

/-- A use of the first salt of one recipe is registered with the first salt of another one, and the
portions of the first recipe are set. -/
def borrowedSalt : List Operation :=
  [.addUse { amount := .int 3, owner := .ingredient ⟨0⟩ }, .register (.ingredient ⟨2⟩) ⟨10⟩,
    .setPortions ⟨0⟩ (.int 2)]

/-- One record is built twice. Even after the second recipe has borrowed salt from the first one,
neither is seen to change with the portions of the other. -/
theorem build_isolated_doubleSalt :
    let build := Operation.buildRecipe Build.doubleSalt (.int 4)
    let first : Ref .recipe := ⟨0⟩
    let second : Ref .recipe := ⟨1⟩
    let x := next {} build
    let y := x.next build
    let z := borrowedSalt.foldl next y
    Run {} [build] x ∧ Run y borrowedSalt z ∧
      (Build.recipe Build.doubleSalt (.int 4) x.graph).1.outcome = .ok second ∧
      y.graph.object? first.handle = x.graph.object? first.handle ∧
      ¬ y.graph.Reaches second.handle first.handle ∧
      (z.graph.setPortions first (.int 7)).view second = z.graph.view second ∧
      (z.graph.setPortions second (.int 7)).view first = z.graph.view first := by
  intro build first second x y z
  have hrun : Run {} [build] x := .cons trivial (.nil x)
  have hrun' : Run y borrowedSalt z :=
    .cons (by decide +kernel) <| .cons (by decide +kernel) <| .cons (by decide +kernel) <| .nil z
  have hmade : (Build.recipe Build.doubleSalt (.int 4) x.graph).1.outcome = .ok second := by
    decide +kernel
  have hfirst : x.graph.recipes.Has first := by decide +kernel
  have hrespects : Respects second first y borrowedSalt :=
    ⟨trivial, ⟨fun _ => by decide +kernel, fun h => absurd h (by decide +kernel)⟩, trivial, trivial⟩
  obtain ⟨hkept, hreturned⟩ := build_isolated hrun Build.doubleSalt (.int 4)
  obtain ⟨hshares, hseparate⟩ := hreturned second hmade
  obtain ⟨hsecond, hthis⟩ := hseparate first hfirst borrowedSalt z hrun' hrespects
  refine ⟨hrun, hrun', hmade, hkept first.handle hfirst, ?_, ?_, ?_⟩
  · exact hshares first.handle first.handle hfirst .refl
  · exact (hthis (.setPortions (.int 7)) trivial).view
  · exact (hsecond (.setPortions (.int 7)) trivial).view

end State

end Cookbook
