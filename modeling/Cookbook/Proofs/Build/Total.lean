import Mathlib.Algebra.BigOperators.Ring.List
import Mathlib.Algebra.Ring.Int.Defs
import Cookbook.Graph.Amount
import Cookbook.Proofs.Build.Recipe
/-!
# Cookbook.Proofs.Build.Total

The total of an ingredient, read off the plain record. Where all amounts are whole, the total is
the sum over the entries that name the ingredient, times the portions (`total_of_record`). Of
several ingredients with one id only the last one is named, so all others have the total zero.
-/

namespace Cookbook

/-! ### Whole amounts -/

namespace Value

/-- An amount that is whole: a whole number, a truth value, or none at all. -/
def isWhole : Value → Bool
  | null | bool _ | int _ => true
  | _ => false

/-- What a whole amount counts. -/
def whole : Value → Int
  | int n => n
  | bool true => 1
  | _ => 0

theorem number?_orElse_of_isWhole {v : Value} (h : v.isWhole = true) :
    (v.orElse (.int 0)).number? = some (.int v.whole) := by
  cases v with
  | null => rfl
  | bool b => cases b <;> rfl
  | int n =>
      by_cases hn : n = 0
      · subst hn
        rfl
      · rw [orElse_of_isGiven (by simpa [isGiven] using hn)]
        rfl
  | float x => cases h
  | text s => cases h
  | list items => cases h
  | record fields => cases h

/-- Products that are whole add up. -/
theorem addProducts_map {α : Type} {xs : List α} {pair : α → Value × Value} {product : α → Int}
    (h : ∀ x ∈ xs, (pair x).1.times (pair x).2 = .ok (.int (product x))) (total : Int) :
    addProducts (.int total) (xs.map pair) = .ok (.int (total + (xs.map product).sum)) := by
  induction xs generalizing total with
  | nil => simp [addProducts]
  | cons x xs ih =>
      obtain ⟨hx, hxs⟩ := List.forall_mem_cons.mp h
      rw [List.map_cons, addProducts, hx, List.map_cons, List.sum_cons, ← Int.add_assoc]
      exact ih hxs (total + product x)

/-- Whole amounts, each times one number, add up to their sum times the number. -/
theorem addProducts_of_isWhole (p total : Int) {vs : List Value} (h : ∀ v ∈ vs, v.isWhole = true) :
    addProducts (.int total) (vs.map fun v => (v.orElse (.int 0), .int p)) =
      .ok (.int (total + p * (vs.map whole).sum)) := by
  have hproduct : ∀ v ∈ vs, (v.orElse (.int 0)).times (.int p) = .ok (.int (p * v.whole)) := by
    intro v hv
    rw [Int.mul_comm, times, number?_orElse_of_isWhole (h v hv)]
    rfl
  rw [addProducts_map hproduct, List.sum_map_mul_left]

end Value

namespace Graph

/-- The total of an ingredient whose uses all have the same portions. -/
theorem total_eq {g : Graph} {i : Ref .ingredient} {p : Value}
    (h : ∀ u ∈ (g.ingredients.get i).uses, (g.uses.get u).portions = p) :
    g.total i = Value.sumOfProducts
      (((g.registered (.ingredient i)).map fun u => (g.uses.get u).unscaled).map fun use =>
        (use.amount, p)) := by
  rw [total, List.map_map]
  refine congrArg Value.sumOfProducts (List.map_congr_left fun u hu => ?_)
  rw [h u hu]
  rfl

end Graph

namespace Build

/-! ### The last owner with an id -/

/-- An id is looked up to the last owner that has it. -/
theorem Index.lookup_lastWins_iff {owners : List (String × Owner)} {id : String} {o : Owner} :
    (Index.lastWins owners).lookup id = some o ↔
      ∃ before after, owners = before ++ (id, o) :: after ∧ ∀ entry ∈ after, entry.1 ≠ id := by
  rw [Index.lastWins, List.lookup_eq_some_iff]
  constructor
  · rintro ⟨after, before, heq, hafter⟩
    refine ⟨before.reverse, after.reverse, ?_, fun entry hentry => ?_⟩
    · rw [← List.reverse_reverse owners, heq]
      simp
    · exact (bne_iff_ne.mp (hafter entry (List.mem_reverse.mp hentry))).symm
  · rintro ⟨before, after, rfl, hafter⟩
    refine ⟨after.reverse, before.reverse, by simp, fun entry hentry => ?_⟩
    exact bne_iff_ne.mpr (hafter entry (List.mem_reverse.mp hentry)).symm

/-- The last ingredient with an id is looked up, and no other one. -/
theorem lookup_ingredientSide_iff {g : Graph} {before after : List (Ref .ingredient)}
    {i : Ref .ingredient} (hnodup : (before ++ i :: after).Nodup) {id : String} :
    (ingredientSide g (before ++ i :: after)).index.lookup id = some (.ingredient i) ↔
      (g.ingredients.get i).id = id ∧ ∀ j ∈ after, (g.ingredients.get j).id ≠ id := by
  refine Index.lookup_lastWins_iff.trans ⟨?_, ?_⟩
  · rintro ⟨before', after', heq, hafter'⟩
    obtain ⟨is, rest, hsplit, -, hrest⟩ := List.map_eq_append_iff.mp heq
    obtain ⟨i', js, rfl, hi', rfl⟩ := List.map_eq_cons_iff.mp hrest
    obtain ⟨hid, howner⟩ := Prod.mk.inj hi'
    obtain rfl : i' = i := Owner.ingredient.inj howner
    -- An ingredient is listed once, so what stands behind it is determined.
    have hni : i' ∉ before ++ after := (List.nodup_cons.mp (List.nodup_middle.mp hnodup)).1
    obtain ⟨-, -, rfl⟩ := (List.append_cons_inj_of_notMem
      (fun hmem => hni (List.mem_append_left after hmem))
      (fun hmem => hni (List.mem_append_right before hmem))).mp hsplit
    exact ⟨hid, fun j hj => hafter' _ (List.mem_map_of_mem hj)⟩
  · rintro ⟨rfl, hafter⟩
    refine ⟨_, _, List.map_append.trans (congrArg _ List.map_cons), fun entry hentry => ?_⟩
    obtain ⟨j, hj, rfl⟩ := List.mem_map.mp hentry
    exact hafter j hj

theorem lookup_ingredientSide_iff_of_last {g : Graph} {before after : List (Ref .ingredient)}
    {i : Ref .ingredient} (hnodup : (before ++ i :: after).Nodup)
    (hlast : ¬∃ j ∈ after, (g.ingredients.get j).id = (g.ingredients.get i).id) (id : String) :
    (ingredientSide g (before ++ i :: after)).index.lookup id = some (.ingredient i) ↔
      id = (g.ingredients.get i).id := by
  rw [lookup_ingredientSide_iff hnodup]
  refine ⟨fun h => h.1.symm, ?_⟩
  rintro rfl
  exact ⟨rfl, fun j hj heq => hlast ⟨j, hj, heq⟩⟩

theorem lookup_ingredientSide_ne_of_later {g : Graph} {before after : List (Ref .ingredient)}
    {i : Ref .ingredient} (hnodup : (before ++ i :: after).Nodup)
    (hlater : ∃ j ∈ after, (g.ingredients.get j).id = (g.ingredients.get i).id) (id : String) :
    (ingredientSide g (before ++ i :: after)).index.lookup id ≠ some (.ingredient i) := by
  rw [Ne, lookup_ingredientSide_iff hnodup]
  rintro ⟨rfl, hafter⟩
  obtain ⟨j, hj, heq⟩ := hlater
  exact hafter j hj heq

/-! ### Entries -/

/-- The entry names an owner by this id. -/
def namesOwner (e : Value) (id : String) : Bool :=
  match e.atKey "belongsToId" with
  | .text s => s == id
  | _ => false

/-- All entries of the steps of a record that are for ingredients. -/
def ingredientEntries (v : Value) : List Value :=
  (v.listed "steps").flatMap (·.listed "useIngredients")

/-- What the entries that name an id count together. -/
def recordedAmount (v : Value) (id : String) : Int :=
  (((ingredientEntries v).filter (namesOwner · id)).map fun e => (e.atKey "amount").whole).sum

variable {index : Index} {o : Owner} {id : String}

theorem filter_useOf? (h : ∀ s, index.lookup s = some o ↔ s = id) (e : Value) :
    (useOf? index e).filter (·.owner = o) =
      if namesOwner e id then some { amount := (e.atKey "amount").orElse (.int 0), owner := o }
      else none := by
  unfold useOf? namesOwner
  generalize e.atKey "belongsToId" = key
  cases key with
  | text s =>
      by_cases heq : s = id
      · simp [heq, (h id).mpr rfl]
      · -- The id of the entry finds another owner, or none.
        cases hlookup : index.lookup s with
        | none => simp [heq, hlookup]
        | some o' =>
            have hne : o' ≠ o := by
              rintro rfl
              exact heq ((h s).mp hlookup)
            simp [heq, hlookup, hne]
  | _ => rfl

/-- Where an owner is found by one id, the entries that name the id describe its uses. -/
theorem filter_filterMap_useOf? (h : ∀ s, index.lookup s = some o ↔ s = id) (es : List Value) :
    (es.filterMap (useOf? index)).filter (·.owner = o) =
      (es.filter (namesOwner · id)).map fun e =>
        { amount := (e.atKey "amount").orElse (.int 0), owner := o } := by
  rw [List.filter_filterMap, ← List.filterMap_eq_map', List.filterMap_filter]
  exact congrArg (es.filterMap ·) (funext (filter_useOf? h))

/-- Where an owner is not found, no entry describes a use of it. -/
theorem filter_filterMap_useOf?_eq_nil (h : ∀ s, index.lookup s ≠ some o) (es : List Value) :
    (es.filterMap (useOf? index)).filter (·.owner = o) = [] := by
  refine List.filter_eq_nil_iff.mpr fun use huse => ?_
  obtain ⟨e, -, he⟩ := List.mem_filterMap.mp huse
  obtain ⟨s, o', -, hlookup, rfl⟩ := useOf?_inv he
  simp only [decide_eq_true_eq]
  rintro rfl
  exact h s hlookup

/-! ### Totals -/

variable {v : Value} {g g' : Graph} {ws : List Warning} {r : Ref .recipe}

/-- The total of an ingredient comes from the entries of the record if it is the last one with its
id; if there is a later one with this id it is zero. -/
theorem total_of_record {p : Int} {before after : List (Ref .ingredient)} {i : Ref .ingredient}
    (h : recipe v (.int p) g = (⟨ws, .ok r⟩, g'))
    (hwhole : ∀ e ∈ ingredientEntries v, (e.atKey "amount").isWhole = true)
    (hi : (g'.recipes.get r).ingredients = before ++ i :: after) :
    g'.total i = .ok (.int (
      if ∃ j ∈ after, (g'.ingredients.get j).id = (g'.ingredients.get i).id then 0
      else p * recordedAmount v (g'.ingredients.get i).id)) := by
  have hbuilt : Built v (.int p) g' r := recipe_built h
  have hnodup : (before ++ i :: after).Nodup := hi ▸ hbuilt.nodup_ingredients
  have hmem : i ∈ (g'.recipes.get r).ingredients := by simp [hi]
  have hregistered : (g'.registered (.ingredient i)).map (fun u => (g'.uses.get u).unscaled) =
      ((ingredientEntries v).filterMap
        (useOf? (ingredientSide g' (before ++ i :: after)).index)).filter
          (·.owner = .ingredient i) := by
    rw [← hi]
    exact hbuilt.shared.ingredients.map_registered (List.mem_map_of_mem hmem)
  rw [Graph.total_eq (hbuilt.use_portions i hmem), hregistered]
  by_cases hlater : ∃ j ∈ after, (g'.ingredients.get j).id = (g'.ingredients.get i).id
  · rw [if_pos hlater,
      filter_filterMap_useOf?_eq_nil (lookup_ingredientSide_ne_of_later hnodup hlater)]
    rfl
  · have hamounts : ∀ a ∈ ((ingredientEntries v).filter
        (namesOwner · (g'.ingredients.get i).id)).map (·.atKey "amount"), a.isWhole = true := by
      intro a ha
      obtain ⟨e, he, rfl⟩ := List.mem_map.mp ha
      exact hwhole e (List.mem_filter.mp he).1
    -- Now the uses are the entries that name the ingredient, in order.
    have hsum := Value.addProducts_of_isWhole p 0 hamounts
    rw [Int.zero_add, List.map_map, List.map_map] at hsum
    rw [if_neg hlater,
      filter_filterMap_useOf? (lookup_ingredientSide_iff_of_last hnodup hlater), List.map_map]
    exact hsum

/-- Of two ingredients with one id, all entries count for the second one. -/
theorem total_of_record_doubleSalt :
    let g := (recipe doubleSalt (.int 4) .empty).2
    recipe doubleSalt (.int 4) .empty = (⟨[], .ok ⟨0⟩⟩, g) ∧
      (∀ e ∈ ingredientEntries doubleSalt, (e.atKey "amount").isWhole = true) ∧
      (g.recipes.get ⟨0⟩).ingredients = [⟨0⟩, ⟨1⟩] ∧
      g.total ⟨0⟩ = .ok (.int 0) ∧ g.total ⟨1⟩ = .ok (.int (4 * (2 + 1 + 5 + 0))) := by
  have hmade := recipe_doubleSalt
  have hwhole : ∀ e ∈ ingredientEntries doubleSalt, (e.atKey "amount").isWhole = true :=
    List.all_eq_true.mp rfl
  have hi : ((recipe doubleSalt (.int 4) .empty).2.recipes.get ⟨0⟩).ingredients =
      [⟨0⟩, ⟨1⟩] := by decide +kernel
  have hid : ((recipe doubleSalt (.int 4) .empty).2.ingredients.get ⟨0⟩).id = "salt" := by
    decide +kernel
  have hid' : ((recipe doubleSalt (.int 4) .empty).2.ingredients.get ⟨1⟩).id = "salt" := by
    decide +kernel
  have hrecorded : recordedAmount doubleSalt "salt" = 2 + 1 + 5 + 0 := by decide +kernel
  generalize (recipe doubleSalt (.int 4) .empty).2 = g at hmade hi hid hid' ⊢
  have hfirst := total_of_record hmade hwhole (show _ = [] ++ ⟨0⟩ :: [⟨1⟩] from hi)
  have hsecond := total_of_record hmade hwhole (show _ = [⟨0⟩] ++ ⟨1⟩ :: [] from hi)
  rw [if_pos ⟨⟨1⟩, List.mem_singleton_self _, hid'.trans hid.symm⟩] at hfirst
  rw [if_neg (by simp), hid', hrecorded] at hsecond
  exact ⟨hmade, hwhole, hi, hfirst, hsecond⟩

end Build

end Cookbook
