import Cookbook.Proofs.Build.Readable
import Cookbook.Proofs.Build.Texts
/-!
# Cookbook.Proofs.Build.Absent

Keys that are `null`. A field that is read as a value or as a list is the same whether it is `null`
or missing, so without such a key a record is read the same (`ingredient_without`, `use_without`,
…). A change inside a record is seen in one item of one list, and where that item is read the same,
so is the whole record (`step_modifyListed`, `recipeForOne_modifyListed`). This settles every key
but the few that are put into words, `null` as well: there a recipe is made with and without the
key, but not the same one (`recipe_without_null`).
-/

namespace Cookbook.Build

variable {v w : Value} {key k : String} {n : Nat} {f : Value → Value}

/-! ### Fields -/

theorem textField_without_of_ne (v : Value) (h : k ≠ key) :
    textField (v.without key) k = textField v k := by
  rw [textField, Value.field?_without_of_ne v h, textField]

theorem textField_without_self (h : w.IsRecord) : textField (w.without key) key = .ok "" := by
  obtain ⟨fields, rfl⟩ := h
  rw [textField, Value.field?_without_self]
  rfl

theorem textField_of_null (h : w.field? key = .ok (some .null)) : textField w key = .ok "None" := by
  rw [textField, h]
  rfl

theorem textField_modifyListed_of_ne (v : Value) (h : k ≠ key) (n : Nat) (f : Value → Value) :
    textField (v.modifyListed key n f) k = textField v k := by
  rw [textField, Value.field?_modifyListed_of_ne v h, textField]

theorem listField_without (h : v.atKey key = .null) (k : String) :
    listField (v.without key) k = listField v k := by
  rw [listField, Value.fieldOrNull_without h, listField]

theorem listField_modifyListed_of_ne (v : Value) (h : k ≠ key) (n : Nat) (f : Value → Value) :
    listField (v.modifyListed key n f) k = listField v k := by
  rw [listField, Value.fieldOrNull_modifyListed_of_ne v h, listField]

/-- A changed item is seen in a list that can be read, and nowhere else. -/
theorem listField_modifyListed (v : Value) (key : String) (n : Nat) (f : Value → Value) :
    listField (v.modifyListed key n f) key = listField v key ∨
      listField v key = .ok (v.listed key) ∧
        listField (v.modifyListed key n f) key = .ok ((v.listed key).modify n f) := by
  rw [listField, Value.fieldOrNull_modifyListed_self, listField]
  cases hfield : v.fieldOrNull key with
  | error fault => exact .inl rfl
  | ok w =>
      obtain ⟨-, rfl⟩ := Value.fieldOrNull_inv hfield
      rcases (v.atKey key).items_modifyItem n f with hsame | ⟨vs, hlist, hitems, hmodified⟩
      · exact .inl hsame
      · have hlisted : v.listed key = vs := by rw [Value.listed, hlist]; rfl
        exact .inr ⟨hlisted ▸ hitems, hlisted ▸ hmodified⟩

theorem records_modifyListed {α : Type} {describe : Value → Except Fault α}
    (hw : (v.listed key)[n]? = some w) (k' : String)
    (h : k' = key → describe (f w) = describe w) :
    records (v.modifyListed key n f) k' describe = records v k' describe := by
  rw [records, records]
  by_cases hk : k' = key
  · subst hk
    rcases listField_modifyListed v k' n f with hsame | ⟨hlist, hmodified⟩
    · rw [hsame]
    · rw [hlist, hmodified]
      exact Value.modify_congr (F := List.mapM describe)
        (G := fun read rest => do return (← read) :: (← rest)) (fun _ _ => List.mapM_cons) hw
        (h rfl)
  · rw [listField_modifyListed_of_ne v hk]

/-! ### Records without a key -/

theorem ingredient_without (h : w.atKey key = .null) (hkey : key ∉ ["id", "name"]) :
    ingredient (w.without key) = ingredient w := by
  simp only [List.mem_cons, List.not_mem_nil, or_false, not_or] at hkey
  rw [ingredient, textField_without_of_ne w (Ne.symm hkey.1),
    textField_without_of_ne w (Ne.symm hkey.2), Value.fieldOrNull_without h, ingredient]

theorem supply_without (hkey : key ∉ ["id", "name"]) : supply (w.without key) = supply w := by
  simp only [List.mem_cons, List.not_mem_nil, or_false, not_or] at hkey
  rw [supply, textField_without_of_ne w (Ne.symm hkey.1),
    textField_without_of_ne w (Ne.symm hkey.2), supply]

variable {index ingredients supplies : Index} {unknown : String → Warning}

theorem use_without (h : w.atKey key = .null) :
    use index unknown (w.without key) = use index unknown w := by
  simp only [use, Value.fieldOrNull_without h]

theorem step_without (h : w.atKey key = .null) (hkey : key ∉ ["name", "text"]) :
    step ingredients supplies (w.without key) = step ingredients supplies w := by
  simp only [List.mem_cons, List.not_mem_nil, or_false, not_or] at hkey
  simp only [step, textField_without_of_ne w (Ne.symm hkey.1),
    textField_without_of_ne w (Ne.symm hkey.2), listField_without h]

theorem recipeForOne_without (h : v.atKey key = .null) (hkey : key ≠ "name") :
    recipeForOne (v.without key) = recipeForOne v := by
  simp only [recipeForOne, records, textField_without_of_ne v (Ne.symm hkey), listField_without h]

/-! ### Records with a changed item -/

theorem uses_modify {vs : List Value} (hw : vs[n]? = some w)
    (h : use index unknown (f w) = use index unknown w) :
    uses index unknown (vs.modify n f) = uses index unknown vs :=
  Value.modify_congr (G := fun made rest => do return (← made).toList ++ (← rest))
    (fun _ _ => rfl) hw h

theorem steps_modify {vs : List Value} (hw : vs[n]? = some w)
    (h : step ingredients supplies (f w) = step ingredients supplies w) :
    steps ingredients supplies (vs.modify n f) = steps ingredients supplies vs :=
  Value.modify_congr (G := fun made rest => do return (← made) :: (← rest)) (fun _ _ => rfl) hw h

/-- Work on a list that comes to the same with the changed item comes to the same with the changed
record. -/
theorem listField_then_modifyListed {α β : Type} {F : List Value → Work α} (k' : String)
    (h : k' = key → F ((v.listed key).modify n f) = F (v.listed key)) (next : α → Work β) :
    ((liftM (listField (v.modifyListed key n f) k') : Work (List Value)) >>=
        fun vs => F vs >>= next) =
      liftM (listField v k') >>= fun vs => F vs >>= next := by
  by_cases hk : k' = key
  · subst hk
    rcases listField_modifyListed v k' n f with hsame | ⟨hlist, hmodified⟩
    · rw [hsame]
    · rw [hlist, hmodified, Work.lift_ok_then, Work.lift_ok_then, h rfl]
  · rw [listField_modifyListed_of_ne v hk]

theorem step_modifyListed (hw : (v.listed key)[n]? = some w) (hkey : key ∉ ["name", "text"])
    (h : ∀ index unknown, use index unknown (f w) = use index unknown w) :
    step ingredients supplies (v.modifyListed key n f) = step ingredients supplies v := by
  simp only [List.mem_cons, List.not_mem_nil, or_false, not_or] at hkey
  simp only [step, textField_modifyListed_of_ne v (Ne.symm hkey.1),
    textField_modifyListed_of_ne v (Ne.symm hkey.2),
    listField_then_modifyListed _ fun _ => uses_modify hw (h _ _)]

theorem recipeForOne_modifyListed (hw : (v.listed key)[n]? = some w) (hkey : key ≠ "name")
    (hi : "ingredients" = key → ingredient (f w) = ingredient w)
    (hj : "supplies" = key → supply (f w) = supply w)
    (hs : "steps" = key → ∀ is js, step is js (f w) = step is js w) :
    recipeForOne (v.modifyListed key n f) = recipeForOne v := by
  simp only [recipeForOne, textField_modifyListed_of_ne v (Ne.symm hkey),
    records_modifyListed hw _ hi, records_modifyListed hw _ hj,
    listField_then_modifyListed _ fun heq => steps_modify hw (hs heq _ _)]

/-- An entry for a use has no key that is put into words. -/
theorem step_modifyEntry {entries : String} (hentries : entries ∉ ["name", "text"])
    (hw : (v.listed entries)[n]? = some w) (hnull : w.atKey key = .null) :
    step ingredients supplies (v.modifyListed entries n (·.without key)) =
      step ingredients supplies v :=
  step_modifyListed hw hentries fun _ _ => use_without hnull

/-! ### Deleting a key that is not a text -/

/-- A record is made into the same recipe without a key that is `null` and not put into words. -/
theorem recipeForOne_modifyAt {place : Place} (hw : v.at? place.path = some w)
    (hnull : w.atKey key = .null) (hkey : key ∉ place.textKeys) :
    recipeForOne (v.modifyAt place.path (·.without key)) = recipeForOne v := by
  cases place with
  | recipe =>
      obtain rfl : v = w := Option.some.inj hw
      exact recipeForOne_without hnull fun heq => hkey (heq ▸ List.mem_singleton_self _)
  | ingredient n =>
      exact recipeForOne_modifyListed (Value.getElem?_of_at? hw) (by decide)
        (fun _ => ingredient_without hnull hkey) (absurd · (by decide)) (absurd · (by decide))
  | supply n =>
      exact recipeForOne_modifyListed (Value.getElem?_of_at? hw) (by decide) (absurd · (by decide))
        (fun _ => supply_without hkey) (absurd · (by decide))
  | step n =>
      exact recipeForOne_modifyListed (Value.getElem?_of_at? hw) (by decide) (absurd · (by decide))
        (absurd · (by decide)) fun _ _ _ => step_without hnull hkey
  | useIngredient n k =>
      obtain ⟨w', hn, hk⟩ := Option.bind_eq_some_iff.mp hw
      exact recipeForOne_modifyListed hn (by decide) (absurd · (by decide)) (absurd · (by decide))
        fun _ _ _ => step_modifyEntry (by decide) (Value.getElem?_of_at? hk) hnull
  | useSupply n k =>
      obtain ⟨w', hn, hk⟩ := Option.bind_eq_some_iff.mp hw
      exact recipeForOne_modifyListed hn (by decide) (absurd · (by decide)) (absurd · (by decide))
        fun _ _ _ => step_modifyEntry (by decide) (Value.getElem?_of_at? hk) hnull

/-! ### Deleting a key that is a text -/

theorem exists_textField_without (key k : String) (h : ∃ s, textField w k = .ok s) :
    ∃ s, textField (w.without key) k = .ok s := by
  by_cases hk : k = key
  · subst hk
    obtain ⟨s, hs⟩ := h
    exact ⟨"", textField_without_self (isRecord_of_textField hs)⟩
  · rwa [textField_without_of_ne w hk]

theorem exists_ingredient_without (hnull : w.atKey key = .null) (h : ∃ i, ingredient w = .ok i) :
    ∃ i, ingredient (w.without key) = .ok i := by
  obtain ⟨hid, hname, hunit⟩ := exists_ingredient_iff.mp h
  rw [← Value.fieldOrNull_without hnull] at hunit
  exact exists_ingredient_iff.mpr
    ⟨exists_textField_without key "id" hid, exists_textField_without key "name" hname, hunit⟩

theorem exists_supply_without (h : ∃ j, supply w = .ok j) :
    ∃ j, supply (w.without key) = .ok j := by
  obtain ⟨hid, hname⟩ := exists_supply_iff.mp h
  exact exists_supply_iff.mpr
    ⟨exists_textField_without key "id" hid, exists_textField_without key "name" hname⟩

theorem readsStep_without (hnull : w.atKey key = .null) (h : ReadsStep NoFault w) :
    ReadsStep NoFault (w.without key) where
  name := .of_exists (exists_textField_without _ "name" h.name.exists_ok)
  text := .of_exists (exists_textField_without _ "text" h.text.exists_ok)
  ingredients := listField_without hnull "useIngredients" ▸ h.ingredients
  ingredient := listField_without hnull "useIngredients" ▸ h.ingredient
  supplies := listField_without hnull "useSupplies" ▸ h.supplies
  supply := listField_without hnull "useSupplies" ▸ h.supply

theorem exists_records_modifyListed {α : Type} {describe : Value → Except Fault α}
    (hw : (v.listed key)[n]? = some w) (k' : String) (h : ∃ xs, records v k' describe = .ok xs)
    (hf : k' = key → (∃ x, describe w = .ok x) → ∃ x, describe (f w) = .ok x) :
    ∃ xs, records (v.modifyListed key n f) k' describe = .ok xs := by
  rw [records]
  by_cases hk : k' = key
  · subst hk
    rcases listField_modifyListed v k' n f with hsame | ⟨hlist, hmodified⟩
    · rwa [hsame]
    · rw [hmodified]
      obtain ⟨xs, hxs⟩ := h
      obtain ⟨items, hitems, hread⟩ := exceptBind_inv hxs
      obtain rfl := Except.ok.inj (hlist.symm.trans hitems)
      have hall := exceptMapM_exists_ok_iff.mp ⟨xs, hread⟩
      refine exceptMapM_exists_ok_iff.mpr fun w' hw' => ?_
      rcases Value.mem_modify hw hw' with hw' | rfl
      · exact hall w' hw'
      · exact hf rfl (hall w (List.mem_of_getElem? hw))
  · rwa [listField_modifyListed_of_ne v hk]

/-- A record can be read with a changed item that can be. -/
theorem readsRecipe_modifyListed (hw : (v.listed key)[n]? = some w) (hkey : key ≠ "name")
    (h : ReadsRecipe NoFault v)
    (hi : "ingredients" = key → (∃ i, ingredient w = .ok i) → ∃ i, ingredient (f w) = .ok i)
    (hj : "supplies" = key → (∃ j, supply w = .ok j) → ∃ j, supply (f w) = .ok j)
    (hs : "steps" = key → ReadsStep NoFault w → ReadsStep NoFault (f w)) :
    ReadsRecipe NoFault (v.modifyListed key n f) where
  name := textField_modifyListed_of_ne v (Ne.symm hkey) n f ▸ h.name
  ingredients :=
    .of_exists (exists_records_modifyListed hw "ingredients" h.ingredients.exists_ok hi)
  supplies := .of_exists (exists_records_modifyListed hw "supplies" h.supplies.exists_ok hj)
  steps := by
    by_cases hk : "steps" = key
    · subst hk
      rcases listField_modifyListed v "steps" n f with hsame | ⟨-, hmodified⟩
      · exact hsame ▸ h.steps
      · exact .of_eq_ok hmodified
    · exact listField_modifyListed_of_ne v hk n f ▸ h.steps
  step := by
    by_cases hk : "steps" = key
    · subst hk
      rcases listField_modifyListed v "steps" n f with hsame | ⟨hlist, hmodified⟩
      · exact hsame ▸ h.step
      · intro vs hvs w' hw'
        obtain rfl := Except.ok.inj (hmodified.symm.trans hvs)
        rcases Value.mem_modify hw hw' with hw' | rfl
        · exact h.step _ hlist w' hw'
        · exact hs rfl (h.step _ hlist w (List.mem_of_getElem? hw))
    · exact listField_modifyListed_of_ne v hk n f ▸ h.step

/-- A record can still be read without a key that is `null`. -/
theorem readsRecipe_modifyAt {place : Place} (hw : v.at? place.path = some w)
    (hnull : w.atKey key = .null) (hkey : key ∈ place.textKeys) (h : ReadsRecipe NoFault v) :
    ReadsRecipe NoFault (v.modifyAt place.path (·.without key)) := by
  cases place with
  | recipe =>
      obtain rfl : v = w := Option.some.inj hw
      show ReadsRecipe NoFault (v.without key)
      constructor
      case name => exact .of_exists (exists_textField_without _ "name" h.name.exists_ok)
      case ingredients =>
        rw [records, listField_without hnull]
        exact h.ingredients
      case supplies =>
        rw [records, listField_without hnull]
        exact h.supplies
      case steps => exact listField_without hnull "steps" ▸ h.steps
      case step => exact listField_without hnull "steps" ▸ h.step
  | ingredient n =>
      exact readsRecipe_modifyListed (Value.getElem?_of_at? hw) (by decide) h
        (fun _ => exists_ingredient_without hnull) (absurd · (by decide)) (absurd · (by decide))
  | supply n =>
      exact readsRecipe_modifyListed (Value.getElem?_of_at? hw) (by decide) h (absurd · (by decide))
        (fun _ => exists_supply_without) (absurd · (by decide))
  | step n =>
      exact readsRecipe_modifyListed (Value.getElem?_of_at? hw) (by decide) h (absurd · (by decide))
        (absurd · (by decide)) fun _ => readsStep_without hnull
  | useIngredient n k => cases hkey
  | useSupply n k => cases hkey

/-- **Where a key that is `null` is taken for absent.** Deleting a key that is `null` from any
record inside the record of a recipe leaves a record that a recipe is made from. If the key is not
put into words, it is the same recipe, made with the same warnings in the same graph. If it is, the
recipe has the text `None` there before, and an empty text afterwards. -/
theorem recipe_without_null {p : Value} {g g' : Graph} {ws : List Warning} {r : Ref .recipe}
    (h : recipe v p g = (⟨ws, .ok r⟩, g')) {place : Place} (hw : v.at? place.path = some w)
    (hnull : w.field? key = .ok (some .null)) :
    let v' := v.modifyAt place.path (·.without key)
    ∃ ws' r' g'', recipe v' p g = (⟨ws', .ok r'⟩, g'') ∧
      (key ∉ place.textKeys → ws' = ws ∧ r' = r ∧ g'' = g') ∧
      (key ∈ place.textKeys → (g'.textsAt r place).lookup key = some "None" ∧
        (g''.textsAt r' place).lookup key = some "") := by
  intro v'
  have hatKey : w.atKey key = .null := Value.atKey_of_field? hnull
  by_cases hkey : key ∈ place.textKeys
  · obtain ⟨g₀, s, -, hp, -⟩ := recipe_inv h
    obtain ⟨ws', r', g'', h'⟩ := (recipe_exists_ok_iff g).mpr
      ⟨readsRecipe_modifyAt hw hatKey hkey (readsRecipe_of_recipe h), s, hp⟩
    refine ⟨ws', r', g'', h', absurd hkey, fun _ => ⟨?_, ?_⟩⟩
    · obtain ⟨t, ht, hfound⟩ := texts_of_recipe h hw hkey
      rw [hfound, Except.ok.inj (ht.symm.trans (textField_of_null hnull))]
    · have hw' : v'.at? place.path = some (w.without key) := by
        rw [Value.at?_modifyAt, hw]
        rfl
      obtain ⟨t, ht, hfound⟩ := texts_of_recipe h' hw' hkey
      have hempty : textField (w.without key) key = .ok "" :=
        textField_without_self (Value.isRecord_of_field? hnull)
      rw [hfound, Except.ok.inj (ht.symm.trans hempty)]
  · have hsame : recipe v' p g = recipe v p g := by
      rw [recipe, recipeForOne_modifyAt hw hatKey hkey, recipe]
    exact ⟨ws, r, g', hsame.trans h, fun _ => ⟨rfl, rfl, rfl⟩, fun hmem => absurd hmem hkey⟩

/-- Salt has neither a name nor a unit. -/
def nameless : Value := .record [("id", .text "salt"), ("name", .null), ("unit", .null)]

/-- The only ingredient is the nameless one. -/
def namelessSalt : Value :=
  .record [("name", .text "Brine"), ("ingredients", .list [nameless])]

/-- The same without the unit. -/
def namelessSaltWithoutUnit : Value :=
  .record [("name", .text "Brine"), ("ingredients", .list [
    .record [("id", .text "salt"), ("name", .null)]])]

/-- The same without the name. -/
def namelessSaltWithoutName : Value :=
  .record [("name", .text "Brine"), ("ingredients", .list [
    .record [("id", .text "salt"), ("unit", .null)]])]

theorem recipe_namelessSalt :
    (recipe namelessSalt (.int 4) .empty).1 = ⟨[], .ok ⟨0⟩⟩ := rfl

/-- Without the unit salt is the same, and without the name it is not. -/
theorem recipe_without_null_namelessSalt :
    let g := (recipe namelessSalt (.int 4) .empty).2
    (∃ r g', recipe namelessSaltWithoutUnit (.int 4) .empty = (⟨[], .ok r⟩, g') ∧
        r = ⟨0⟩ ∧ g' = g) ∧
      (g.textsAt ⟨0⟩ (.ingredient 0)).lookup "name" = some "None" ∧
      ∃ ws r g', recipe namelessSaltWithoutName (.int 4) .empty = (⟨ws, .ok r⟩, g') ∧
        (g'.textsAt r (.ingredient 0)).lookup "name" = some "" := by
  intro g
  have hrun : recipe namelessSalt (.int 4) .empty = (⟨[], .ok ⟨0⟩⟩, g) := by
    rw [← recipe_namelessSalt]
  have hunit : namelessSalt.modifyAt (Place.ingredient 0).path (·.without "unit") =
      namelessSaltWithoutUnit := rfl
  have hname : namelessSalt.modifyAt (Place.ingredient 0).path (·.without "name") =
      namelessSaltWithoutName := rfl
  have hsalt : namelessSalt.at? (Place.ingredient 0).path = some nameless := rfl
  have hnullUnit : nameless.field? "unit" = .ok (some .null) := rfl
  have hnullName : nameless.field? "name" = .ok (some .null) := rfl
  obtain ⟨ws, r, g', hrun', hsame, -⟩ := recipe_without_null hrun hsalt hnullUnit
  obtain ⟨ws', r', g'', hrun'', -, htexts⟩ := recipe_without_null hrun hsalt hnullName
  obtain ⟨rfl, hr, hg⟩ := hsame (by decide)
  obtain ⟨hbefore, hafter⟩ := htexts (by decide)
  rw [hunit] at hrun'
  rw [hname] at hrun''
  exact ⟨⟨r, g', hrun', hr, hg⟩, hbefore, ws', r', g'', hrun'', hafter⟩

/-- A name that is `null` is not taken for absent. -/
theorem not_absent_name :
    let v : Value := .record [("name", .null)]
    (recipe v (.int 1) .empty).1 = ⟨[], .ok ⟨0⟩⟩ ∧
      ((recipe v (.int 1) .empty).2.recipes.get ⟨0⟩).name = "None" ∧
      (recipe (v.without "name") (.int 1) .empty).1 = ⟨[], .ok ⟨0⟩⟩ ∧
      ((recipe (v.without "name") (.int 1) .empty).2.recipes.get ⟨0⟩).name = "" := by
  refine ⟨?_, ?_, ?_, ?_⟩ <;> rfl

end Cookbook.Build
