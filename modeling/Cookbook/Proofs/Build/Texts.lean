import Cookbook.Proofs.Build.Entries
import Cookbook.Proofs.Value.Path
/-!
# Cookbook.Proofs.Build.Texts

Where the texts of a recipe come from. A `Place` is one of the records that a recipe is made from:
that of the recipe itself, of an ingredient, of a supply, of a step, or an entry for a use. Some of
its keys are texts (`Place.textKeys`), and the object that is made from it has them as they are read
there (`texts_of_recipe`).
-/

namespace Cookbook

namespace Build

/-- One of the records that a recipe is made from. -/
inductive Place
  | recipe
  | ingredient (n : Nat)
  | supply (n : Nat)
  | step (n : Nat)
  | useIngredient (n k : Nat)
  | useSupply (n k : Nat)

namespace Place

/-- The way from the record of a recipe to a place. -/
def path : Place → List (String × Nat)
  | recipe => []
  | ingredient n => [("ingredients", n)]
  | supply n => [("supplies", n)]
  | step n => [("steps", n)]
  | useIngredient n k => [("steps", n), ("useIngredients", k)]
  | useSupply n k => [("steps", n), ("useSupplies", k)]

/-- The keys that are put into words whatever they hold. -/
def textKeys : Place → List String
  | recipe => ["name"]
  | ingredient _ | supply _ => ["id", "name"]
  | step _ => ["name", "text"]
  | useIngredient _ _ | useSupply _ _ => []

end Place

end Build

open Build (Place)

/-- The texts of the object that a recipe has at a place, by the keys that they were read at. -/
def Graph.textsAt (g : Graph) (r : Ref .recipe) : Place → List (String × String)
  | .recipe => [("name", (g.recipes.get r).name)]
  | .ingredient n =>
    match (g.recipes.get r).ingredients[n]? with
    | some i => [("id", (g.ingredients.get i).id), ("name", (g.ingredients.get i).name)]
    | none => []
  | .supply n =>
    match (g.recipes.get r).supplies[n]? with
    | some j => [("id", (g.supplies.get j).id), ("name", (g.supplies.get j).name)]
    | none => []
  | .step n =>
    match (g.recipes.get r).steps[n]? with
    | some s => [("name", (g.steps.get s).name), ("text", (g.steps.get s).text)]
    | none => []
  | .useIngredient _ _ | .useSupply _ _ => []

namespace Build

open Cookbook.Graph (Keeps)

variable {v w p : Value} {vs : List Value} {g g' : Graph} {ws : List Warning} {r : Ref .recipe}
  {s : Ref .step} {n : Nat}

/-! ### Steps -/

/-- A step has the texts of a record. -/
structure Tells (g : Graph) (v : Value) (s : Ref .step) : Prop where
  has : g.steps.Has s
  name : textField v "name" = .ok (g.steps.get s).name
  text : textField v "text" = .ok (g.steps.get s).text

theorem Tells.of_keeps (h : Tells g v s) (hk : Keeps g g') : Tells g' v s where
  has := hk.steps.has h.has
  name := by
    have hget := congrArg Step.name (hk.steps.get h.has)
    exact h.name.trans (congrArg Except.ok hget.symm)
  text := by
    have hget := congrArg Step.text (hk.steps.get h.has)
    exact h.text.trans (congrArg Except.ok hget.symm)

variable {ingredients supplies : Index}

theorem tells_of_step (h : step ingredients supplies v g = (⟨ws, .ok s⟩, g')) : Tells g' v s := by
  obtain ⟨made, g₁, g₂, ws₁, ws₂, hname, htext, -, -, hadd, -⟩ := step_run h
  obtain rfl : g' = (g₂.addStep made).1 := congrArg Prod.fst hadd
  obtain rfl : s = g₂.steps.next := congrArg Prod.snd hadd
  have hget := g₂.get_steps_addStep made
  refine ⟨Shelf.has_of_get? (g₂.steps.get?_add_next made.detached), ?_, ?_⟩
  · rw [hget, hname]
    rfl
  · rw [hget, htext]
    rfl

theorem tells_of_steps {ss : List (Ref .step)}
    (h : steps ingredients supplies vs g = (⟨ws, .ok ss⟩, g')) : List.Forall₂ (Tells g') vs ss := by
  induction vs generalizing g ws ss with
  | nil =>
      obtain ⟨-, rfl, -⟩ := Work.pure_inv h
      exact .nil
  | cons v vs ih =>
      obtain ⟨ws₁, s, g₁, ws₂, ss', hstep, hsteps, rfl, rfl⟩ := Work.mapM'_cons_inv h
      exact .cons ((tells_of_step hstep).of_keeps (steps_accounted hsteps).1) (ih hsteps)

theorem tells_of_recipe (h : recipe v p g = (⟨ws, .ok r⟩, g')) :
    List.Forall₂ (Tells g') (v.listed "steps") (g'.recipes.get r).steps := by
  obtain ⟨g₀, s, hmade, -, rfl⟩ := recipe_inv h
  obtain ⟨is, js, items, rs, ts, ss, name, g₁, g₂, g₃, -, -, -, -, hitems, hss, -, hmake⟩ :=
    recipeForOne_run hmade
  have htells := tells_of_steps hss
  have hk : Keeps g₃ (g₀.setPortions r p) :=
    (Work.keeps_makeRecipe hmake).trans (g₀.keeps_setPortions r p)
  have hlisted : items = v.listed "steps" :=
    eq_listed_of_forall₂ hitems htells fun _ _ hs => isRecord_of_textField hs.name
  obtain ⟨-, hget, -⟩ := Work.makeRecipe_inv hmake
  rw [Shelf.get_of_get? (Graph.get?_recipes_setPortions p hget), ← hlisted]
  exact htells.imp fun _ _ hs => hs.of_keeps hk

/-! ### The recipe -/

/-- Two texts that were read are found by their keys. -/
theorem exists_lookup_pair {key k₁ k₂ a b : String} (hne : k₂ ≠ k₁) (h₁ : textField w k₁ = .ok a)
    (h₂ : textField w k₂ = .ok b) (hkey : key ∈ [k₁, k₂]) :
    ∃ s, textField w key = .ok s ∧ [(k₁, a), (k₂, b)].lookup key = some s := by
  rcases List.mem_cons.mp hkey with rfl | hkey
  · exact ⟨a, h₁, List.lookup_cons_self⟩
  · obtain rfl := List.mem_singleton.mp hkey
    refine ⟨b, h₂, ?_⟩
    rw [List.lookup_cons, beq_false_of_ne hne]
    exact List.lookup_cons_self

/-- The object that a recipe has at a place has the texts of the record there. -/
theorem texts_of_recipe (h : recipe v p g = (⟨ws, .ok r⟩, g')) {place : Place}
    (hw : v.at? place.path = some w) {key : String} (hkey : key ∈ place.textKeys) :
    ∃ s, textField w key = .ok s ∧ (g'.textsAt r place).lookup key = some s := by
  have hbuilt := recipe_built h
  cases place with
  | recipe =>
      obtain rfl : v = w := Option.some.inj hw
      obtain rfl := List.mem_singleton.mp hkey
      exact ⟨_, name_of_recipe h, rfl⟩
  | ingredient n =>
      obtain ⟨x, hx, hread⟩ :=
        getElem?_records isRecord_of_ingredient hbuilt.ingredients (Value.getElem?_of_at? hw)
      rw [List.getElem?_map] at hx
      obtain ⟨i, hi, rfl⟩ := Option.map_eq_some_iff.mp hx
      obtain ⟨hid, hname, -⟩ := ingredient_inv hread
      simp only [Graph.textsAt, hi]
      exact exists_lookup_pair (by decide) hid hname hkey
  | supply n =>
      obtain ⟨x, hx, hread⟩ :=
        getElem?_records isRecord_of_supply hbuilt.supplies (Value.getElem?_of_at? hw)
      rw [List.getElem?_map] at hx
      obtain ⟨j, hj, rfl⟩ := Option.map_eq_some_iff.mp hx
      obtain ⟨hid, hname, -⟩ := supply_inv hread
      simp only [Graph.textsAt, hj]
      exact exists_lookup_pair (by decide) hid hname hkey
  | step n =>
      obtain ⟨s, hs, htells⟩ :=
        exists_getElem?_of_forall₂ (tells_of_recipe h) (Value.getElem?_of_at? hw)
      simp only [Graph.textsAt, hs]
      exact exists_lookup_pair (by decide) htells.name htells.text hkey
  | useIngredient n k => cases hkey
  | useSupply n k => cases hkey

end Build

end Cookbook
