import Cookbook.Proofs.Build.Recipe
import Cookbook.Proofs.Graph.Copy
/-!
# Cookbook.Proofs.Build.Copy

Making a recipe is the same work in every graph (`copied_recipeForOne`). Each function that makes
something of a record is taken apart along its own steps; what it reads of the record is the same
everywhere, and what it makes is moved. Owners are looked up by ids, which are not moved.
-/

namespace Cookbook

namespace Build

open Cookbook.Work (Copied)

variable {o : Offset}

/-! ### What is read of a record -/

/-- Nothing that was just read from a record refers to anything. -/
theorem records_moved {α : Type} {key : String} {describe : Value → Except Fault α}
    {move : α → α} (h : ∀ w a, describe w = .ok a → move a = a) (v : Value) :
    records v key describe = (records v key describe).map (List.map move) := by
  cases hread : records v key describe with
  | error fault => rfl
  | ok as =>
      have hmoved : as.map move = as := by
        refine (List.map_congr_left fun a ha => ?_).trans (List.map_id as)
        obtain ⟨w, hw⟩ := mem_of_records hread a ha
        exact h w a hw
      simp [Except.map, hmoved]

theorem ingredient_moved {v : Value} {i : Ingredient} (h : ingredient v = .ok i) :
    i.moved o = i := by
  rw [← (ingredient_inv h).2.2]
  rfl

theorem supply_moved {v : Value} {j : Supply} (h : supply v = .ok j) : j.moved o = j := by
  rw [← (supply_inv h).2.2]
  rfl

/-! ### Owners by id -/

/-- An index in the terms of a copy. -/
def Index.moved (index : Index) (o : Offset) : Index :=
  index.map fun (id, owner) => (id, owner.moved o)

theorem Index.lookup_moved (index : Index) (id : String) :
    (index.moved o).lookup id = (index.lookup id).map (·.moved o) := by
  induction index with
  | nil => rfl
  | cons entry index ih =>
      obtain ⟨key, owner⟩ := entry
      by_cases h : id == key
      · simp [moved, List.lookup_cons, h]
      · simp only [moved, List.map_cons, List.lookup_cons, h]
        exact ih

theorem findIn_moved (index : Index) (key : Value) :
    Value.findIn (index.moved o) key =
      (Value.findIn index key).map (Option.map (·.moved o)) := by
  unfold Value.findIn
  split
  · rw [Index.lookup_moved]
    rfl
  · split <;> rfl

theorem lastWins_moved {α : Type} {kind : Kind} (as : List α) (rs : List (Ref kind))
    (move : α → α) (id : α → String) (hid : ∀ a, id (move a) = id a) (owner : Ref kind → Owner)
    (howner : ∀ r, owner (r.moved o) = (owner r).moved o) :
    Index.lastWins (((as.map move).zip (rs.map (·.moved o))).map fun (a, r) => (id a, owner r)) =
      (Index.lastWins ((as.zip rs).map fun (a, r) => (id a, owner r))).moved o := by
  simp only [Index.lastWins, Index.moved, List.zip_map, List.map_map, List.map_reverse]
  congr 2
  funext entry
  simp [hid, howner]

/-! ### Steps -/

theorem copied_linkUse (owner : Owner) (amount : Value) :
    Copied o (·.moved o) (linkUse owner amount) (linkUse (owner.moved o) amount) := by
  refine (Work.copied_addUse _).bind fun u => ?_
  refine (Copied.change fun g g' h => h.register owner u).bind fun _ => ?_
  exact .pure u

theorem copied_use (index : Index) (unknown : String → Warning) (v : Value) :
    Copied o (Option.map (·.moved o)) (use index unknown v) (use (index.moved o) unknown v) := by
  refine (Copied.liftSame _).bind fun id => ?_
  refine (Copied.lift (findIn_moved index id)).bind fun found => ?_
  cases found with
  | none =>
      refine (Copied.liftSame _).bind fun id => ?_
      refine (Copied.report _).bind fun _ => ?_
      exact .pure none
  | some owner =>
      refine (Copied.liftSame _).bind fun amount => ?_
      refine (copied_linkUse owner _).bind fun u => ?_
      exact .pure (some u)

theorem copied_uses (index : Index) (unknown : String → Warning) (vs : List Value) :
    Copied o (List.map (·.moved o)) (uses index unknown vs) (uses (index.moved o) unknown vs) := by
  induction vs with
  | nil => exact .pure []
  | cons v vs ih =>
      refine (copied_use index unknown v).bind fun u => ?_
      refine ih.bind fun us => ?_
      have happend : (u.map (·.moved o)).toList ++ us.map (·.moved o) =
          (u.toList ++ us).map (·.moved o) := by
        cases u <;> simp
      show Copied o _ _ (pure ((u.map (·.moved o)).toList ++ us.map (·.moved o)))
      rw [happend]
      exact .pure (u.toList ++ us)

theorem copied_step (ingredients supplies : Index) (v : Value) :
    Copied o (·.moved o) (step ingredients supplies v)
      (step (ingredients.moved o) (supplies.moved o) v) := by
  refine (Copied.liftSame _).bind fun name => ?_
  refine (Copied.liftSame _).bind fun entries => ?_
  refine (copied_uses ingredients _ entries).bind fun useIngredients => ?_
  refine (Copied.liftSame _).bind fun entries => ?_
  refine (copied_uses supplies _ entries).bind fun useSupplies => ?_
  refine (Copied.liftSame _).bind fun text => ?_
  exact Work.copied_addStep { name, text, useIngredients, useSupplies }

theorem copied_steps (ingredients supplies : Index) (vs : List Value) :
    Copied o (List.map (·.moved o)) (steps ingredients supplies vs)
      (steps (ingredients.moved o) (supplies.moved o) vs) := by
  have h := Copied.mapM' (m := id) (copied_step (o := o) ingredients supplies) vs
  rwa [List.map_id] at h

/-! ### Recipes -/

theorem copied_addIngredients (is : List Ingredient) :
    Copied o (List.map (·.moved o)) (addIngredients is) (addIngredients (is.map (·.moved o))) :=
  .mapM' Work.copied_addIngredient is

theorem copied_addSupplies (js : List Supply) :
    Copied o (List.map (·.moved o)) (addSupplies js) (addSupplies (js.map (·.moved o))) :=
  .mapM' Work.copied_addSupply js

/-- A record is made into a copy of the same recipe in every graph. -/
theorem copied_recipeForOne (v : Value) :
    Copied o (·.moved o) (recipeForOne v) (recipeForOne v) := by
  have hi : records v "ingredients" ingredient =
      (records v "ingredients" ingredient).map (List.map (·.moved o)) :=
    records_moved (fun _ _ => ingredient_moved) v
  have hj : records v "supplies" supply =
      (records v "supplies" supply).map (List.map (·.moved o)) :=
    records_moved (fun _ _ => supply_moved) v
  refine (Copied.lift hi).bind fun is => ?_
  refine (copied_addIngredients is).bind fun rs => ?_
  refine (Copied.lift hj).bind fun js => ?_
  refine (copied_addSupplies js).bind fun ts => ?_
  refine (Copied.liftSame _).bind fun items => ?_
  rw [lastWins_moved is rs (·.moved o) Ingredient.id (fun _ => rfl) .ingredient (fun _ => rfl),
    lastWins_moved js ts (·.moved o) Supply.id (fun _ => rfl) .supply (fun _ => rfl)]
  refine (copied_steps _ _ items).bind fun ss => ?_
  refine (Copied.liftSame _).bind fun name => ?_
  exact Work.copied_makeRecipe name rs ts ss

theorem copied_recipe (v p : Value) : Copied o (·.moved o) (recipe v p) (recipe v p) := by
  refine (copied_recipeForOne v).bind fun r => ?_
  refine (Copied.change fun g g' h => h.setPortions r p).bind fun _ => ?_
  refine (Copied.liftSame _).bind fun _ => ?_
  exact .pure r

/-- A recipe that was made in one graph is made in every other graph too, with the same warnings:
both are copies of one that was made from nothing. -/
theorem recipeForOne_anywhere {v : Value} {g g₀ : Graph} {ws : List Warning} {r : Ref .recipe}
    (h : recipeForOne v g = (⟨ws, .ok r⟩, g₀)) :
    ∃ e e₀, recipeForOne v .empty = (⟨ws, .ok e⟩, e₀) ∧ r = e.moved g.sizes ∧
      Graph.Copied g.sizes e₀ g₀ ∧
      ∀ fresh : Graph, ∃ fresh₀, recipeForOne v fresh = (⟨ws, .ok (e.moved fresh.sizes)⟩, fresh₀) ∧
        Graph.Copied fresh.sizes e₀ fresh₀ := by
  obtain ⟨hreport, hgraph⟩ := copied_recipeForOne v .empty g g.copied_empty
  rw [h] at hreport hgraph
  rcases hmade : recipeForOne v .empty with ⟨⟨ws', outcome⟩, e₀⟩
  rw [hmade] at hreport hgraph
  cases outcome with
  | error fault => cases hreport
  | ok e =>
      cases hreport
      refine ⟨e, e₀, rfl, rfl, hgraph, fun fresh => ?_⟩
      obtain ⟨hreport', hgraph'⟩ := copied_recipeForOne v .empty fresh fresh.copied_empty
      rw [hmade] at hreport' hgraph'
      refine ⟨_, ?_, hgraph'⟩
      exact Prod.ext hreport' rfl

end Build

end Cookbook
