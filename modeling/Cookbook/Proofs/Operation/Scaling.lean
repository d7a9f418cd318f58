import Cookbook.Proofs.Operation.Isolated
/-!
# Cookbook.Proofs.Operation.Scaling

Setting the portions of a recipe that was put together by hand, where anything may be shared:
ingredients by recipes, and uses by ingredients that need not own them. What is written is the
recipe and the uses that are registered with one of its ingredients, each of which exists since
every reference is to an object that exists; `ChangesPortions` says so of all objects at once. From
the same two lists of uses it is seen when portions of two recipes can be set in either order
(`setPortions_exact`).
-/

namespace Cookbook

namespace Graph

/-- Nothing but portions has changed: a recipe reads other portions, and so does every use that is
registered with one of its ingredients. Each of these objects is otherwise what it was, and so is
every other object. -/
structure ChangesPortions (g g' : Graph) (r : Ref .recipe) (p : Value) : Prop where
  recipe : g'.recipes.get? r = some { g.recipes.get r with portions := p }
  use : ∀ u ∈ g.scaledUses r, g'.uses.get? u = some { g.uses.get u with portions := p }
  rest : ∀ a, a ≠ r.handle → (∀ u ∈ g.scaledUses r, a ≠ u.handle) → g'.object? a = g.object? a

variable {g : Graph} {r : Ref .recipe}

theorem Closed.has_scaledUses (hg : g.Closed) : ∀ u ∈ g.scaledUses r, g.uses.Has u := by
  intro u hu
  obtain ⟨i, -, hregistered⟩ := List.mem_flatMap.mp hu
  exact hg i.handle u.handle (points_of_ingredient hregistered)

theorem object?_setPortions (g : Graph) (r : Ref .recipe) (p : Value) {a : Handle}
    (hrecipe : a ≠ r.handle) (huse : ∀ u ∈ g.scaledUses r, a ≠ u.handle) :
    (g.setPortions r p).object? a = g.object? a := by
  obtain ⟨kind, x⟩ := a
  cases kind with
  | ingredient => exact congrArg (·.get? x) (g.ingredients_setPortions r p)
  | supply => exact congrArg (·.get? x) (g.supplies_setPortions r p)
  | step => exact congrArg (·.get? x) (g.steps_setPortions r p)
  | use =>
      have hget := g.get?_uses_setPortions r p x
      rwa [if_neg fun hx => huse x hx rfl] at hget
  | recipe =>
      rw [setPortions_eq]
      exact g.recipes.get?_modify_of_ne _ fun heq => hrecipe (congrArg Ref.handle heq)

theorem changesPortions_setPortions (hr : g.recipes.Has r)
    (hhas : ∀ u ∈ g.scaledUses r, g.uses.Has u) (p : Value) :
    ChangesPortions g (g.setPortions r p) r p where
  recipe := by
    obtain ⟨recipe, hrecipe⟩ := Option.isSome_iff_exists.mp hr
    rw [Shelf.get_of_get? hrecipe]
    exact get?_recipes_setPortions p hrecipe
  use := by
    intro u hu
    obtain ⟨use, huse⟩ := Option.isSome_iff_exists.mp (hhas u hu)
    rw [get?_uses_setPortions, if_pos hu, huse, Shelf.get_of_get? huse]
    rfl
  rest := fun _ => g.object?_setPortions r p

end Graph

namespace State

variable {x : State} {ops : List Operation} {r : Ref .recipe}

/-- **Setting portions changes portions only.** In every state that a run reaches, setting the
portions of a recipe changes those of the recipe and of the uses that are registered with one of its
ingredients, and nothing else. Setting the same again changes nothing. The portions of another
recipe can be set before or after exactly if they are the same, or if no use is registered with
ingredients of both. -/
theorem setPortions_exact (h : Run {} ops x) (hr : x.graph.recipes.Has r) (p : Value) :
    let y := x.next (.setPortions r p)
    x.graph.ChangesPortions y.graph r p ∧
      (y.next (.setPortions r p)).graph = y.graph ∧
      ∀ r' q, r' ≠ r →
        ((y.next (.setPortions r' q)).graph =
            ((x.next (.setPortions r' q)).next (.setPortions r p)).graph ↔
          p = q ∨ ∀ u ∈ x.graph.scaledUses r, u ∉ x.graph.scaledUses r') := by
  intro y
  have hhas : ∀ u ∈ x.graph.scaledUses r, x.graph.uses.Has u := h.closed_of_empty.has_scaledUses
  refine ⟨Graph.changesPortions_setPortions hr hhas p, x.graph.setPortions_setPortions r p p, ?_⟩
  exact fun r' q hne => Graph.setPortions_comm_iff hne.symm hhas

/-- Soup has salt twice, and a use of the pan is registered with salt too. Rice is made in the
pan. -/
def kitchen : List Operation :=
  [.addIngredient { id := "salt", name := "Salt", unit := "g" },
    .addIngredient { id := "rice", name := "Rice", unit := "g" },
    .addSupply { id := "pan", name := "Pan" },
    .addUse { amount := .int 2, owner := .ingredient ⟨0⟩ },
    .addUse { amount := .int 9, owner := .ingredient ⟨1⟩ },
    .addUse { amount := .int 1, owner := .supply ⟨0⟩ },
    .register (.ingredient ⟨0⟩) ⟨0⟩, .register (.ingredient ⟨1⟩) ⟨1⟩,
    .register (.ingredient ⟨0⟩) ⟨2⟩, .register (.supply ⟨0⟩) ⟨2⟩,
    .makeRecipe "Soup" [⟨0⟩, ⟨0⟩] [] [], .makeRecipe "Rice" [⟨1⟩] [⟨0⟩] []]

/-- The state of the kitchen. -/
def kitchenState : State := kitchen.foldl next {}

theorem run_kitchen : Run {} kitchen kitchenState :=
  .cons (by decide) <| .cons (by decide) <| .cons (by decide) <| .cons (by decide) <|
    .cons (by decide) <| .cons (by decide) <| .cons (by decide +kernel) <|
    .cons (by decide +kernel) <| .cons (by decide +kernel) <| .cons (by decide +kernel) <|
    .cons (by decide +kernel) <|
    .cons (by decide +kernel) <| .nil kitchenState

theorem has_soup : kitchenState.graph.recipes.Has ⟨0⟩ := by decide +kernel

theorem scaledUses_soup : kitchenState.graph.scaledUses ⟨0⟩ = [⟨0⟩, ⟨2⟩, ⟨0⟩, ⟨2⟩] := rfl

theorem scaledUses_rice : kitchenState.graph.scaledUses ⟨1⟩ = [⟨1⟩] := rfl

/-- The use of the pan takes the portions of soup, the use of rice those that it had, and portions
of rice can be set before or after. -/
theorem setPortions_exact_kitchen :
    let y := kitchenState.next (.setPortions ⟨0⟩ (.int 4))
    Run {} kitchen kitchenState ∧ kitchenState.graph.recipes.Has ⟨0⟩ ∧
      y.graph.uses.get? ⟨2⟩ =
        some { kitchenState.graph.uses.get ⟨2⟩ with portions := .int 4 } ∧
      y.graph.uses.get? ⟨1⟩ = kitchenState.graph.uses.get? ⟨1⟩ ∧
      (y.next (.setPortions ⟨1⟩ (.int 7))).graph =
        ((kitchenState.next (.setPortions ⟨1⟩ (.int 7))).next
          (.setPortions ⟨0⟩ (.int 4))).graph := by
  intro y
  obtain ⟨hchanges, -, hcomm⟩ := setPortions_exact run_kitchen has_soup (.int 4)
  rw [scaledUses_soup] at hcomm
  refine ⟨run_kitchen, has_soup, hchanges.use ⟨2⟩ ?_, ?_, ?_⟩
  · rw [scaledUses_soup]
    decide
  · refine hchanges.rest (Ref.handle (⟨1⟩ : Ref .use)) (by decide) ?_
    rw [scaledUses_soup]
    decide
  · refine (hcomm ⟨1⟩ (.int 7) (by decide)).mpr (.inr ?_)
    rw [scaledUses_rice]
    decide

end State

end Cookbook
