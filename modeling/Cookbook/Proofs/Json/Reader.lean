import Mathlib.Data.List.TakeWhile
import Cookbook.Json.Reader
import Cookbook.Proofs.Value.Written
/-!
# Cookbook.Proofs.Json.Reader

What is read from a JSON text can be put into words. The reader of numbers refuses a whole number of
too many digits, and every other reader only puts together what was read before.
-/

namespace Cookbook.Json

/-! ### Tokens -/

theorem digitOf_lt {c : Char} (h : c.isDigit = true) : c.toNat - 48 < 10 := by
  have hrange := Char.isDigit_iff_toNat.mp h
  have hnine : '9'.toNat = 57 := rfl
  omega

theorem readDigits_lt (cs : List Char) : ∀ d ∈ (readDigits cs).1, d < 10 := by
  intro d hd
  obtain ⟨c, hc, rfl⟩ := List.mem_map.mp hd
  exact digitOf_lt (List.mem_takeWhile_imp hc)

theorem readWhole?_lt {cs rest : List Char} {ds : List Nat} (h : readWhole? cs = some (ds, rest)) :
    ∀ d ∈ ds, d < 10 := by
  unfold readWhole? at h
  split at h
  · cases h
    simp
  · dsimp only at h
    split at h
    · cases h
    · cases h
      exact readDigits_lt cs

/-- A number that was read has a text: digits of which there are too many are refused. -/
theorem readNumber_writable {cs rest : List Char} {v : Value}
    (h : readNumber cs = .ok (v, rest)) : v.Writable := by
  unfold readNumber at h
  dsimp only at h
  split at h
  · cases h
  · rename_i whole rest' hwhole
    split at h
    · split at h
      · rename_i hlength
        cases h
        have hn := Text.Integer.writable_ofDigits (readWhole?_lt hwhole) hlength
        refine Value.writable_int ?_
        split
        · exact hn.neg
        · exact hn
      · cases h
    · cases h
      exact Value.writable_float _

theorem readWord?_writable {cs rest : List Char} {v : Value} (h : readWord? cs = some (v, rest)) :
    v.Writable := by
  obtain ⟨⟨word, w⟩, hword, h⟩ := List.exists_of_findSome?_eq_some h
  obtain ⟨rest', -, he⟩ := Option.map_eq_some_iff.mp h
  cases he
  have hwords : ∀ entry ∈ words, entry.2.Writable := by
    simp [words, Value.writable_null, Value.writable_bool, Value.writable_float]
  exact hwords _ hword

/-! ### Values -/

theorem setField_writable {key : String} {v : Value} {fields : List (String × Value)}
    (hv : v.Writable) (h : ∀ field ∈ fields, field.2.Writable) :
    ∀ field ∈ setField key v fields, field.2.Writable := by
  induction fields with
  | nil => simpa [setField] using hv
  | cons field fields ih =>
      obtain ⟨hfield, hfields⟩ := List.forall_mem_cons.mp h
      unfold setField
      split
      · exact List.forall_mem_cons.mpr ⟨hv, hfields⟩
      · exact List.forall_mem_cons.mpr ⟨hfield, ih hfields⟩

theorem gather_writable {fields : List (String × Value)}
    (h : ∀ field ∈ fields, field.2.Writable) : ∀ field ∈ gather fields, field.2.Writable := by
  induction fields with
  | nil => simp [gather]
  | cons field fields ih =>
      obtain ⟨hfield, hfields⟩ := List.forall_mem_cons.mp h
      exact setField_writable hfield (ih hfields)

mutual

theorem readValue_writable : ∀ {fuel : Nat} {cs rest : List Char} {v : Value},
    readValue fuel cs = .ok (v, rest) → v.Writable
  | 0, _, _, _, h => by cases h
  | fuel + 1, cs, rest, v, h => by
      unfold readValue at h
      split at h
      · obtain ⟨s, -, hs⟩ := exceptBind_inv h
        cases hs
        exact Value.writable_text _
      · split at h
        · cases h
          exact Value.writable_list_iff.mpr (by simp)
        · exact readItems_writable (by simp) h
      · split at h
        · cases h
          exact Value.writable_record_iff.mpr (by simp)
        · exact readFields_writable (by simp) h
      · split at h
        · rename_i hword
          cases h
          exact readWord?_writable hword
        · exact readNumber_writable h

theorem readItems_writable : ∀ {fuel : Nat} {read : List Value} {cs rest : List Char} {v : Value},
    (∀ w ∈ read, w.Writable) → readItems fuel read cs = .ok (v, rest) → v.Writable
  | 0, _, _, _, _, _, h => by cases h
  | fuel + 1, read, cs, rest, v, hread, h => by
      unfold readItems at h
      obtain ⟨⟨w, rest'⟩, hw, h⟩ := exceptBind_inv h
      have hall : ∀ u ∈ w :: read, u.Writable :=
        List.forall_mem_cons.mpr ⟨readValue_writable hw, hread⟩
      dsimp only at h
      split at h
      · cases h
        exact Value.writable_list_iff.mpr fun u hu => hall u (List.mem_reverse.mp hu)
      · exact readItems_writable hall h
      · cases h

theorem readFields_writable :
    ∀ {fuel : Nat} {read : List (String × Value)} {cs rest : List Char} {v : Value},
      (∀ field ∈ read, field.2.Writable) → readFields fuel read cs = .ok (v, rest) → v.Writable
  | 0, _, _, _, _, _, h => by cases h
  | fuel + 1, read, cs, rest, v, hread, h => by
      unfold readFields at h
      split at h
      · obtain ⟨⟨key, rest₁⟩, -, h⟩ := exceptBind_inv h
        dsimp only at h
        split at h
        · obtain ⟨⟨w, rest₂⟩, hw, h⟩ := exceptBind_inv h
          have hall : ∀ field ∈ (key, w) :: read, field.2.Writable :=
            List.forall_mem_cons.mpr ⟨readValue_writable hw, hread⟩
          dsimp only at h
          split at h
          · cases h
            exact Value.writable_record_iff.mpr (gather_writable hall)
          · exact readFields_writable hall h
          · cases h
        · cases h
      · cases h

end

/-- A value that was read from a text can be put into words. -/
theorem read_writable {s : String} {v : Value} (h : read s = .ok v) : v.Writable := by
  have hread : readText s.toList = .ok v := by
    unfold read at h
    cases hread : readText s.toList with
    | error stop =>
        rw [hread] at h
        cases h
    | ok w =>
        rw [hread] at h
        cases h
        rfl
  unfold readText at hread
  split at hread
  · cases hread
  · obtain ⟨⟨w, rest⟩, hw, hread⟩ := exceptBind_inv hread
    dsimp only at hread
    split at hread
    · cases hread
      exact readValue_writable hw
    · cases hread

end Cookbook.Json
