import Cookbook.Proofs.Build.Faults
import Cookbook.Proofs.Build.Total
/-!
# Cookbook.Proofs.Build.Shape

Records of the shape that recipes are written in: ids, names, units and texts are texts, amounts are
whole numbers, and lists are lists. Any field may be missing. A record of this shape is made into a
recipe without fault (`exists_recipe`), with warnings for the ids that are looked up in vain.
-/

namespace Cookbook

/-! ### Kinds of values -/

namespace Value

def isText : Value → Bool
  | text _ => true
  | _ => false

def isTextOrNull : Value → Bool
  | null | text _ => true
  | _ => false

/-- A list of which every item is of a kind. -/
def isListOf (kind : Value → Bool) : Value → Bool
  | list items => items.all kind
  | _ => false

/-- A record of which each of these fields, if it is there, is of its kind. -/
def isRecordOf (kinds : List (String × (Value → Bool))) : Value → Bool
  | record fields => kinds.all fun (key, kind) => (fields.lookup key).all kind
  | _ => false

variable {v : Value} {key : String} {kind : Value → Bool} {kinds : List (String × (Value → Bool))}

theorem isRecordOf_inv (h : v.isRecordOf kinds = true) :
    ∃ fields, v = record fields ∧
      ∀ key kind, (key, kind) ∈ kinds → ∀ w, fields.lookup key = some w → kind w = true := by
  cases v with
  | record fields =>
      refine ⟨fields, rfl, ?_⟩
      intro key kind hmem w hw
      have hkind := List.all_eq_true.mp h (key, kind) hmem
      dsimp only at hkind
      rw [hw] at hkind
      exact hkind
  | _ => cases h

theorem field?_of_isRecordOf (h : v.isRecordOf kinds = true) (hmem : (key, kind) ∈ kinds) :
    ∃ found, v.field? key = .ok found ∧ ∀ w, found = some w → kind w = true := by
  obtain ⟨fields, rfl, hfields⟩ := isRecordOf_inv h
  exact ⟨fields.lookup key, rfl, hfields key kind hmem⟩

/-- What a record holds at a key is of its kind, or `null` if the key is missing. -/
theorem atKey_of_isRecordOf (h : v.isRecordOf kinds = true) (hmem : (key, kind) ∈ kinds) :
    v.fieldOrNull key = .ok (v.atKey key) ∧ (v.atKey key = null ∨ kind (v.atKey key) = true) := by
  obtain ⟨fields, rfl, hfields⟩ := isRecordOf_inv h
  refine ⟨rfl, ?_⟩
  unfold atKey
  dsimp only
  cases hw : fields.lookup key with
  | none => exact Or.inl rfl
  | some w => exact Or.inr (hfields key kind hmem w hw)

theorem text_or_null_of_isRecordOf (h : v.isRecordOf kinds = true)
    (hmem : (key, isText) ∈ kinds ∨ (key, isTextOrNull) ∈ kinds) :
    v.fieldOrNull key = .ok (v.atKey key) ∧ (v.atKey key = null ∨ ∃ s, v.atKey key = text s) := by
  obtain ⟨kind, hmem, hkind⟩ : ∃ kind : Value → Bool, (key, kind) ∈ kinds ∧
      ∀ w, kind w = true → w = null ∨ ∃ s, w = text s := by
    rcases hmem with hmem | hmem
    · exact ⟨_, hmem, fun w hw => by cases w <;> simp_all [isText]⟩
    · exact ⟨_, hmem, fun w hw => by cases w <;> simp_all [isTextOrNull]⟩
  obtain ⟨hfield, hnull | htext⟩ := atKey_of_isRecordOf h hmem
  · exact ⟨hfield, Or.inl hnull⟩
  · exact ⟨hfield, hkind _ htext⟩

theorem listed_of_isRecordOf (h : v.isRecordOf kinds = true)
    (hmem : (key, isListOf kind) ∈ kinds) :
    (v.atKey key).items = .ok (v.listed key) ∧ ∀ w ∈ v.listed key, kind w = true := by
  obtain ⟨-, hnull | hlist⟩ := atKey_of_isRecordOf h hmem
  · simp [listed, hnull, listItems]
  · unfold listed
    cases hw : v.atKey key with
    | list items =>
        rw [hw] at hlist
        exact ⟨items_list items, List.all_eq_true.mp hlist⟩
    | _ =>
        rw [hw] at hlist
        cases hlist

end Value

namespace Build

open Value (isText isTextOrNull isListOf isRecordOf)

def isUse : Value → Bool := isRecordOf [("belongsToId", isText), ("amount", Value.isWhole)]

def isIngredient : Value → Bool :=
  isRecordOf [("id", isText), ("name", isText), ("unit", isTextOrNull)]

def isSupply : Value → Bool := isRecordOf [("id", isText), ("name", isText)]

def isStep : Value → Bool :=
  isRecordOf [("name", isText), ("text", isText), ("useIngredients", isListOf isUse),
    ("useSupplies", isListOf isUse)]

/-- A record of the shape that recipes are written in. -/
def isRecipe : Value → Bool :=
  isRecordOf [("name", isText), ("ingredients", isListOf isIngredient),
    ("supplies", isListOf isSupply), ("steps", isListOf isStep)]

/-! ### Reading -/

section Reading

variable {v : Value} {key : String} {kind : Value → Bool} {kinds : List (String × (Value → Bool))}

theorem textField_of_isRecordOf (h : v.isRecordOf kinds = true) (hmem : (key, isText) ∈ kinds) :
    ∃ s, textField v key = .ok s := by
  obtain ⟨found, hfound, hkind⟩ := Value.field?_of_isRecordOf h hmem
  unfold textField
  rw [hfound]
  cases found with
  | none => exact ⟨"", rfl⟩
  | some w =>
      cases w with
      | text s => exact ⟨s, rfl⟩
      | _ => cases hkind _ rfl

theorem listField_of_isRecordOf (h : v.isRecordOf kinds = true)
    (hmem : (key, isListOf kind) ∈ kinds) : listField v key = .ok (v.listed key) := by
  unfold listField
  rw [(Value.atKey_of_isRecordOf h hmem).1]
  exact (Value.listed_of_isRecordOf h hmem).1

theorem records_of_isRecordOf {α : Type} {describe : Value → Except Fault α}
    (h : v.isRecordOf kinds = true) (hmem : (key, isListOf kind) ∈ kinds)
    (hdescribe : ∀ w, kind w = true → ∃ a, describe w = .ok a) :
    ∃ as, records v key describe = .ok as := by
  unfold records
  rw [listField_of_isRecordOf h hmem]
  exact exceptMapM_exists_ok_iff.mpr fun w hw =>
    hdescribe w ((Value.listed_of_isRecordOf h hmem).2 w hw)

theorem ingredient_of_isIngredient (h : isIngredient v = true) : ∃ i, ingredient v = .ok i := by
  obtain ⟨hfield, hunit⟩ :=
    Value.text_or_null_of_isRecordOf h (Or.inr (.tail _ (.tail _ (.head _))))
  refine exists_ingredient_iff.mpr ⟨textField_of_isRecordOf h (.head _),
    textField_of_isRecordOf h (.tail _ (.head _)), v.atKey "unit", hfield, ?_⟩
  rcases hunit with hnull | ⟨s, hs⟩
  · rw [hnull]
    exact ⟨"", rfl⟩
  · rw [hs]
    unfold Value.orElse
    split <;> exact ⟨_, rfl⟩

theorem supply_of_isSupply (h : isSupply v = true) : ∃ j, supply v = .ok j :=
  exists_supply_iff.mpr
    ⟨textField_of_isRecordOf h (.head _), textField_of_isRecordOf h (.tail _ (.head _))⟩

/-- No fault at all. -/
abbrev NoFault : Fault → Prop := fun _ => False

theorem readsUse_of_isUse (h : isUse v = true) : ReadsUse NoFault v := by
  obtain ⟨hid, hkind⟩ := Value.text_or_null_of_isRecordOf h (Or.inl (.head _))
  obtain ⟨hamount, -⟩ := Value.atKey_of_isRecordOf h (.tail _ (.head _))
  -- An id that is missing is looked up in vain, and named in the warning.
  have hfound (index : Index) :
      ∃ found, Value.findIn index (v.atKey "belongsToId") = .ok found := by
    rcases hkind with hnull | ⟨s, hs⟩
    · exact ⟨none, by rw [hnull]; rfl⟩
    · exact ⟨_, by rw [hs]; rfl⟩
  have hwrite : ∃ s, (v.atKey "belongsToId").write = .ok s := by
    rcases hkind with hnull | ⟨s, hs⟩
    · exact ⟨_, by rw [hnull]; rfl⟩
    · exact ⟨s, by rw [hs]; rfl⟩
  constructor
  case id => exact .of_eq_ok hid
  case find =>
    intro id hid' index
    obtain rfl : v.atKey "belongsToId" = id := Except.ok.inj (hid.symm.trans hid')
    exact .of_exists (hfound index)
  case write_id =>
    intro id hid'
    obtain rfl : v.atKey "belongsToId" = id := Except.ok.inj (hid.symm.trans hid')
    exact .of_exists hwrite
  case amount => exact .of_eq_ok hamount

/-- The items of a list in a record are of the kind of the list. -/
theorem mem_listField {ws : List Value} (h : v.isRecordOf kinds = true)
    (hmem : (key, isListOf kind) ∈ kinds) (hws : listField v key = .ok ws) :
    ∀ w ∈ ws, kind w = true := by
  obtain rfl : v.listed key = ws := Except.ok.inj ((listField_of_isRecordOf h hmem).symm.trans hws)
  exact (Value.listed_of_isRecordOf h hmem).2

theorem readsStep_of_isStep (h : isStep v = true) : ReadsStep NoFault v where
  name := .of_exists (textField_of_isRecordOf h (.head _))
  text := .of_exists (textField_of_isRecordOf h (.tail _ (.head _)))
  ingredients := .of_eq_ok (listField_of_isRecordOf h (.tail _ (.tail _ (.head _))))
  ingredient _ hvs w hw :=
    readsUse_of_isUse (mem_listField h (.tail _ (.tail _ (.head _))) hvs w hw)
  supplies := .of_eq_ok (listField_of_isRecordOf h (.tail _ (.tail _ (.tail _ (.head _)))))
  supply _ hvs w hw :=
    readsUse_of_isUse (mem_listField h (.tail _ (.tail _ (.tail _ (.head _)))) hvs w hw)

theorem readsRecipe_of_isRecipe (h : isRecipe v = true) : ReadsRecipe NoFault v where
  name := .of_exists (textField_of_isRecordOf h (.head _))
  ingredients := .of_exists
    (records_of_isRecordOf h (.tail _ (.head _)) fun _ => ingredient_of_isIngredient)
  supplies := .of_exists
    (records_of_isRecordOf h (.tail _ (.tail _ (.head _))) fun _ => supply_of_isSupply)
  steps := .of_eq_ok (listField_of_isRecordOf h (.tail _ (.tail _ (.tail _ (.head _)))))
  step _ hvs w hw :=
    readsStep_of_isStep (mem_listField h (.tail _ (.tail _ (.tail _ (.head _)))) hvs w hw)

/-- A record of the right shape is made into a recipe, for portions that can be put into words. -/
theorem exists_recipe (h : isRecipe v = true) {p : Value} (hp : ∃ s, p.write = .ok s)
    (g : Graph) : ∃ ws r g', recipe v p g = (⟨ws, .ok r⟩, g') := by
  obtain ⟨r, hr⟩ :=
    (recipe_faultsIn (readsRecipe_of_isRecipe h) (.of_exists hp) g).exists_ok
  rcases hrun : recipe v p g with ⟨⟨ws, outcome⟩, g'⟩
  rw [hrun] at hr
  exact ⟨ws, r, g', by rw [← hr]⟩

end Reading

end Build

end Cookbook
