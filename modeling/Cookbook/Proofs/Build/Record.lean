import Cookbook.Build
import Cookbook.Proofs.Outcome
/-!
# Cookbook.Proofs.Build.Record

What a record lists. Reading a recipe goes through fields that may be missing, hold something else
or fail to read; `atKey` and `listed` say without failing what a record holds. Where reading
succeeds both agree (`fieldOrNull_inv`, `listField_eq_listed`), so what is proved of a recipe can be
said of the plain record alone.
-/

namespace Cookbook

namespace Value

/-- The value is a record. -/
def IsRecord (v : Value) : Prop := ∃ fields, v = record fields

/-- What a record holds at a key: `null` where nothing is, and in a value that is no record. -/
def atKey (v : Value) (key : String) : Value :=
  match v with
  | record fields => (fields.lookup key).getD null
  | _ => null

/-- The items of a list; any other value has none. -/
def listItems : Value → List Value
  | list items => items
  | _ => []

/-- The values that a record lists at a key. -/
def listed (v : Value) (key : String) : List Value := (v.atKey key).listItems

theorem fieldOrNull_inv {v w : Value} {key : String} (h : v.fieldOrNull key = .ok w) :
    v.IsRecord ∧ w = v.atKey key := by
  cases v with
  | record fields =>
      cases h
      exact ⟨⟨fields, rfl⟩, rfl⟩
  | _ => cases h

theorem isRecord_of_field? {v : Value} {w : Option Value} {key : String}
    (h : v.field? key = .ok w) : v.IsRecord := by
  cases v with
  | record fields => exact ⟨fields, rfl⟩
  | _ => cases h

/-- Where all items are records, a list was read; the characters of a text and the keys of a record
are none. -/
theorem eq_of_items {w : Value} {vs : List Value} (h : w.items = .ok vs)
    (hrecords : ∀ v ∈ vs, v.IsRecord) : vs = w.listItems := by
  -- A text is no record, so a list of texts can only be read if it is empty.
  have htext : ∀ {α : Type} (xs : List α) (f : α → String), vs = xs.map (fun x => text (f x)) →
      vs = [] := by
    intro α xs f heq
    cases xs with
    | nil => exact heq
    | cons x xs =>
        obtain ⟨fields, hfields⟩ := hrecords (text (f x)) (by rw [heq]; exact List.mem_cons_self)
        cases hfields
  unfold items at h
  by_cases hgiven : w.isGiven = true
  · rw [if_neg (by simp [hgiven])] at h
    cases w with
    | list items =>
        cases h
        rfl
    | text s =>
        cases h
        exact htext s.toList String.singleton rfl
    | record fields =>
        cases h
        exact htext fields Prod.fst rfl
    | _ => cases h
  · rw [if_pos (by simp [hgiven])] at h
    cases h
    cases w with
    | list items =>
        cases items with
        | nil => rfl
        | cons item items => exact absurd rfl hgiven
    | _ => rfl

end Value

namespace Build

theorem isRecord_of_textField {v : Value} {key s : String} (h : textField v key = .ok s) :
    v.IsRecord := by
  obtain ⟨w, hfield, -⟩ := exceptBind_inv h
  exact Value.isRecord_of_field? hfield

/-- What a record holds is put into words as it is. -/
theorem textField_of_ne_null {v : Value} {key : String} (h : v.atKey key ≠ .null) :
    textField v key = (v.atKey key).write := by
  cases v with
  | record fields =>
      unfold Value.atKey at h
      unfold textField Value.atKey Value.field?
      dsimp only at h ⊢
      cases hfield : fields.lookup key with
      | some w => rfl
      | none =>
          rw [hfield] at h
          exact absurd rfl h
  | _ => exact absurd rfl h

theorem textField_of_isGiven {v : Value} {key : String} (h : (v.atKey key).isGiven = true) :
    textField v key = (v.atKey key).write := by
  refine textField_of_ne_null fun hnull => ?_
  rw [hnull] at h
  cases h

theorem listField_eq_listed {v : Value} {key : String} {vs : List Value}
    (h : listField v key = .ok vs) (hrecords : ∀ w ∈ vs, w.IsRecord) : vs = v.listed key := by
  obtain ⟨w, hfield, hitems⟩ := exceptBind_inv h
  obtain ⟨-, rfl⟩ := Value.fieldOrNull_inv hfield
  exact Value.eq_of_items hitems hrecords

/-- Where what was read of each item tells that it is a record, the items are what the record
lists. -/
theorem eq_listed_of_forall₂ {α : Type} {R : Value → α → Prop} {v : Value} {key : String}
    {vs : List Value} {xs : List α} (h : listField v key = .ok vs) (hall : List.Forall₂ R vs xs)
    (hrecord : ∀ w x, R w x → w.IsRecord) : vs = v.listed key := by
  refine listField_eq_listed h fun w hw => ?_
  obtain ⟨x, -, hx⟩ := exists_of_forall₂ hall w hw
  exact hrecord w x hx

section

variable {α : Type} {v w : Value} {key : String} {describe : Value → Except Fault α} {xs : List α}

/-- Each result comes from the record that is listed at its place. -/
theorem getElem?_records (hrecord : ∀ w x, describe w = .ok x → w.IsRecord)
    (h : records v key describe = .ok xs) {n : Nat} (hw : (v.listed key)[n]? = some w) :
    ∃ x, xs[n]? = some x ∧ describe w = .ok x := by
  obtain ⟨items, hitems, hread⟩ := exceptBind_inv h
  have hall := exceptMapM_eq_ok_iff.mp hread
  rw [← eq_listed_of_forall₂ hitems hall hrecord] at hw
  exact exists_getElem?_of_forall₂ hall hw

/-- Each record in a list that was read is one of those read. -/
theorem mem_records (hrecord : ∀ w x, describe w = .ok x → w.IsRecord)
    (h : records v key describe = .ok xs) (hw : w ∈ v.listed key) :
    ∃ x ∈ xs, describe w = .ok x := by
  obtain ⟨n, hn⟩ := List.mem_iff_getElem?.mp hw
  obtain ⟨x, hx, hread⟩ := getElem?_records hrecord h hn
  exact ⟨x, List.mem_of_getElem? hx, hread⟩

end

end Build

end Cookbook
