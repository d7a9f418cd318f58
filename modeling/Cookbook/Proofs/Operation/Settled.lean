import Cookbook.Proofs.Build.Moves
import Cookbook.Proofs.Build.Rebuild
import Cookbook.Proofs.Graph.Settled
import Cookbook.Proofs.Operation.Run
/-!
# Cookbook.Proofs.Operation.Settled

No operation moves a step from one recipe to another one, in whatever order operations are run and
however many of them fail (`recipe_settled`). The run invariant is `Attached`, of every recipe that
was constructed: it exists, and its steps belong to it. An operation establishes it for the recipe
that it constructs, and keeps it for the others because every operation settles.
-/

namespace Cookbook

/-! ### Building settles -/

namespace Graph.Settles

theorem link (g : Graph) (use : Use) : Settles g (g.link use) := by
  have hadd : Settles g (g.addUse use).1 := of_eq rfl rfl
  exact IsTrans.trans _ _ _ hadd (register _ use.owner g.uses.next)

end Graph.Settles

namespace Build

open Work (Moves)

theorem settles_step (ingredients supplies : Index) (v : Value) :
    Moves Graph.Settles (step ingredients supplies v) :=
  moves_step (fun g use _ => .link g use) Graph.Settles.addStep ingredients supplies v

theorem settles_recipeForOne (v : Value) : Moves Graph.Settles (recipeForOne v) :=
  moves_recipeForOne (fun _ _ _ => .of_eq rfl rfl) (fun _ _ => .of_eq rfl rfl)
    (fun g use _ => .link g use) Graph.Settles.addStep (fun g r _ => .addRecipe g r)
    Graph.Settles.setRecipe v

theorem settles_recipe (v p : Value) : Moves Graph.Settles (recipe v p) :=
  .bind (settles_recipeForOne v) fun r => .bind (.change fun g => .setPortions g r p) fun _ =>
    .bind (.lift _) fun _ => .pure r

end Build

/-! ### One operation -/

theorem Work.settles_assign (s : Ref .step) (r : Option (Ref .recipe)) :
    Moves Graph.Settles (assign s r) := by
  cases r with
  | some r => exact settles_attach s r
  | none =>
      intro g
      unfold assign
      dsimp only
      split <;> exact Std.Refl.refl g

/-- A recipe exists, and its steps belong to it. -/
structure Graph.Attached (g : Graph) (r : Ref .recipe) : Prop where
  has : g.recipes.Has r
  recipe : ∀ s ∈ (g.recipes.get r).steps, (g.steps.get s).recipe = some r

theorem Graph.Attached.of_settles {g g' : Graph} {r : Ref .recipe} (h : g.Attached r)
    (hs : g.Settles g') : g'.Attached r where
  has := hs.steps.has h.has
  recipe := by
    intro s hmem
    rw [hs.steps.get h.has] at hmem
    exact hs.recipe s r (h.recipe s hmem)

namespace Operation

/-- Every operation settles, whether it succeeds or not. -/
theorem settles (op : Operation) (g : Graph) : g.Settles (op.perform g) := by
  cases op with
  | addIngredient i => exact .of_eq rfl rfl
  | addSupply j => exact .of_eq rfl rfl
  | addUse u => exact .of_eq rfl rfl
  | addStep s => exact .addStep g s
  | makeRecipe name is js ss => exact Work.settles_makeRecipe name is js ss g
  | buildStep is js v => exact Build.settles_step is js v g
  | buildRecipe v p => exact Build.settles_recipe v p g
  | register o u => exact .register g o u
  | setUsePortions u p => exact .of_eq rfl rfl
  | setIngredientPortions i p => exact .setIngredientPortions g i p
  | setPortions r p => exact .setPortions g r p
  | assign s r => exact Work.settles_assign s r g

/-- The recipe that an operation constructs has its steps. -/
theorem attached_of_constructed {op : Operation} {g : Graph} {r : Ref .recipe}
    (hop : op.Valid g) (h : op.constructed? g = some r) : (op.perform g).Attached r := by
  cases op with
  | makeRecipe name is js ss =>
      have hmake : Work.makeRecipe name is js ss g =
          (⟨_, .ok r⟩, (makeRecipe name is js ss).perform g) := Work.run_of_toOption h
      obtain ⟨-, hrecipe, -⟩ := Work.makeRecipe_inv hmake
      refine ⟨Shelf.has_of_get? hrecipe, ?_⟩
      rw [Shelf.get_of_get? hrecipe]
      intro s hs
      exact Work.recipe_of_makeRecipe hmake hs (hop.2.2 s hs)
  | buildRecipe v p =>
      have hmake := Work.run_of_toOption h
      have hperform : (buildRecipe v p).perform g = (Build.recipeForOne v g).2.setPortions r p :=
        congrArg Prod.snd (Build.recipe_of_recipeForOne hmake p)
      rw [hperform]
      have hbuilt := (Build.recipeForOne_built hmake).setPortions p
      exact ⟨hbuilt.has_recipe, hbuilt.attached⟩
  | _ => cases h

end Operation

/-! ### Runs -/

namespace State

variable {x y : State} {op : Operation} {ops ops' : List Operation}

/-- Every recipe that was constructed has its steps. -/
def Attached (x : State) : Prop := ∀ r ∈ x.constructed, x.graph.Attached r

theorem Attached.next (h : x.Attached) (hop : op.Valid x.graph) : (x.next op).Attached := by
  intro r hr
  rcases List.mem_append.mp hr with hold | hnew
  · exact (h r hold).of_settles (op.settles x.graph)
  · exact Operation.attached_of_constructed hop (Option.mem_toList.mp hnew)

theorem Run.attached (h : Run x ops y) (hx : x.Attached) : y.Attached := by
  induction h with
  | nil x => exact hx
  | cons hop _ ih => exact ih (hx.next hop)

theorem Run.settles (h : Run x ops y) : x.graph.Settles y.graph := by
  induction h with
  | nil x => exact Std.Refl.refl x.graph
  | @cons x y op ops _ _ ih => exact IsTrans.trans _ _ _ (op.settles x.graph) ih

/-- **A step belongs to one recipe for good.** In every state that a run reaches, a step that
belongs to a recipe still does after any more operations; the steps of every recipe that was
constructed belong to it; and no step is one of two such recipes. -/
theorem recipe_settled (h : Run {} ops x) (h' : Run x ops' y) :
    (∀ s r, (x.graph.steps.get s).recipe = some r → (y.graph.steps.get s).recipe = some r) ∧
      (∀ r ∈ x.constructed, ∀ s ∈ (x.graph.recipes.get r).steps,
        (x.graph.steps.get s).recipe = some r) ∧
      ∀ r ∈ x.constructed, ∀ r' ∈ x.constructed, ∀ s ∈ (x.graph.recipes.get r).steps,
        s ∈ (x.graph.recipes.get r').steps → r = r' := by
  have hempty : State.Attached {} := fun r hr => absurd hr List.not_mem_nil
  have hattached := h.attached hempty
  refine ⟨h'.settles.recipe, fun r hr => (hattached r hr).recipe, ?_⟩
  intro r hr r' hr' s hs hs'
  have hrecipe : some r = some r' :=
    ((hattached r hr).recipe s hs).symm.trans ((hattached r' hr').recipe s hs')
  exact Option.some.inj hrecipe

/-- Tea has the first of two steps. Soup takes the second one, and then fails on the first. -/
def teaAndSoup : List Operation :=
  [.addStep { name := "Boil", text := "" }, .addStep { name := "Serve", text := "" },
    .makeRecipe "Tea" [] [] [⟨0⟩], .makeRecipe "Soup" [] [] [⟨1⟩, ⟨0⟩]]

/-- Neither step can be moved or freed. A recipe is made and scaled beside them. -/
def afterwards : List Operation :=
  [.assign ⟨1⟩ (some ⟨0⟩), .assign ⟨0⟩ none, .buildRecipe Build.doubleSalt (.int 4),
    .setPortions ⟨2⟩ (.int 2)]

/-- Soup was not constructed, but the second step belongs to it all the same, also afterwards. -/
theorem recipe_settled_teaAndSoup :
    let x := teaAndSoup.foldl next {}
    let y := afterwards.foldl next x
    Run {} teaAndSoup x ∧ Run x afterwards y ∧ x.constructed = [⟨0⟩] ∧
      (x.graph.steps.get ⟨1⟩).recipe = some ⟨1⟩ ∧ (y.graph.steps.get ⟨1⟩).recipe = some ⟨1⟩ ∧
      ∀ s ∈ (x.graph.recipes.get ⟨0⟩).steps, (x.graph.steps.get s).recipe = some ⟨0⟩ := by
  intro x y
  have hrun : Run {} teaAndSoup x :=
    .cons (by decide) <| .cons (by decide) <| .cons (by decide) <| .cons (by decide) <| .nil x
  have hrun' : Run x afterwards y :=
    .cons (by decide +kernel) <| .cons (by decide +kernel) <| .cons (by decide +kernel) <|
      .cons (by decide +kernel) <| .nil y
  have hconstructed : x.constructed = [⟨0⟩] := rfl
  have hsecond : (x.graph.steps.get ⟨1⟩).recipe = some ⟨1⟩ := rfl
  obtain ⟨hkept, hattached, -⟩ := recipe_settled hrun hrun'
  refine ⟨hrun, hrun', hconstructed, hsecond, hkept _ _ hsecond, hattached ⟨0⟩ ?_⟩
  rw [hconstructed]
  exact List.mem_singleton_self _

end State

end Cookbook
