import Cookbook.Proofs.Outcome
import Cookbook.Proofs.Text.Integer
import Cookbook.Value.Written
/-!
# Cookbook.Proofs.Value.Written

Putting values into words goes wrong for one reason only: a whole number in them has too many
digits. `Writable` says that there is none; a list or a record is writable if all that it holds is.
-/

namespace Cookbook.Value

theorem faultsIn_writeInt (n : Int) : FaultsIn (· = .tooManyDigits) (writeInt n) := by
  unfold writeInt
  split
  · exact .ok _
  · exact .error rfl

mutual

theorem faultsIn_quoted : ∀ v : Value, FaultsIn (· = .tooManyDigits) v.quoted
  | null => .ok _
  | bool _ => .ok _
  | int n => faultsIn_writeInt n
  | float _ => .ok _
  | text _ => .ok _
  | list items => (faultsIn_quotedItems items).map
  | record fields => (faultsIn_quotedFields fields).map

theorem faultsIn_quotedItems :
    ∀ items : List Value, FaultsIn (· = .tooManyDigits) (quotedItems items)
  | [] => .ok _
  | v :: items =>
      (faultsIn_quoted v).bind fun _ _ => (faultsIn_quotedItems items).bind fun _ _ => .ok _

theorem faultsIn_quotedFields :
    ∀ fields : List (String × Value), FaultsIn (· = .tooManyDigits) (quotedFields fields)
  | [] => .ok _
  | (_, v) :: fields =>
      (faultsIn_quoted v).bind fun _ _ => (faultsIn_quotedFields fields).bind fun _ _ => .ok _

end

theorem faultsIn_write (v : Value) : FaultsIn (· = .tooManyDigits) v.write := by
  cases v with
  | text s => exact .ok s
  | _ => exact faultsIn_quoted _

/-! ### Values that can be put into words -/

/-- Whether a value can be put into words, also inside a list or a record. -/
def Writable (v : Value) : Prop := ∃ s, v.quoted = .ok s

theorem Writable.write {v : Value} (h : v.Writable) : ∃ s, v.write = .ok s := by
  cases v with
  | text s => exact ⟨s, rfl⟩
  | _ => exact h

theorem exists_writeInt_iff {n : Int} : (∃ s, writeInt n = .ok s) ↔ Text.Integer.Writable n := by
  rw [← Text.Integer.write?_isSome_iff]
  unfold writeInt
  cases Text.Integer.write? n <;> simp

theorem writable_null : null.Writable := ⟨_, rfl⟩

theorem writable_bool (b : Bool) : (bool b).Writable := ⟨_, rfl⟩

theorem writable_int {n : Int} (h : Text.Integer.Writable n) : (int n).Writable :=
  exists_writeInt_iff.mpr h

theorem writable_float (x : Float) : (float x).Writable := ⟨_, rfl⟩

theorem writable_text (s : String) : (text s).Writable := ⟨_, rfl⟩

theorem quotedItems_eq_mapM (items : List Value) : quotedItems items = items.mapM quoted := by
  induction items with
  | nil => rfl
  | cons v items ih =>
      rw [quotedItems, ih, List.mapM_cons]

theorem quotedFields_eq_mapM (fields : List (String × Value)) :
    quotedFields fields = fields.mapM fun field => do
      let part ← field.2.quoted
      return Text.quoted field.1 ++ ": " ++ part := by
  induction fields with
  | nil => rfl
  | cons field fields ih =>
      rw [quotedFields, ih, List.mapM_cons]
      cases field.2.quoted <;> rfl

theorem writable_list_iff {items : List Value} :
    (list items).Writable ↔ ∀ v ∈ items, v.Writable := by
  unfold Writable
  rw [quoted, exceptMap_exists_ok_iff, quotedItems_eq_mapM, exceptMapM_exists_ok_iff]

theorem writable_record_iff {fields : List (String × Value)} :
    (record fields).Writable ↔ ∀ field ∈ fields, field.2.Writable := by
  unfold Writable
  rw [quoted, exceptMap_exists_ok_iff, quotedFields_eq_mapM, exceptMapM_exists_ok_iff]
  exact forall₂_congr fun field _ => exceptMap_exists_ok_iff

end Cookbook.Value
