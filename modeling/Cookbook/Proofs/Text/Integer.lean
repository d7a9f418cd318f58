import Mathlib.Data.Nat.Digits.Defs
import Cookbook.Proofs.Text.Trim
import Cookbook.Text.Integer
/-!
# Cookbook.Proofs.Text.Integer

The bound on whole numbers as text. A number has a text exactly if its magnitude is below a power of
ten (`write?_isSome_iff`), and no reader of digits gives a number beyond that: as many digits as a
text may hold denote a number that has a text again. What was written is read as the same number
(`read?_of_write?`).
-/

namespace Cookbook.Text.Integer

/-- Whether a number has a text. -/
def Writable (n : Int) : Prop := n.natAbs < 10 ^ digitLimit

theorem length_repr_le_iff (n : Nat) {k : Nat} (hk : 0 < k) :
    (Nat.repr n).length ≤ k ↔ n < 10 ^ k := by
  unfold Nat.repr
  rw [String.length_ofList, Nat.length_toDigits_le_iff (by omega) hk]

theorem write?_isSome_iff (n : Int) : (write? n).isSome ↔ Writable n := by
  unfold write? Writable
  rw [← length_repr_le_iff n.natAbs (by decide)]
  by_cases h : (Nat.repr n.natAbs).length ≤ digitLimit <;> simp [h]

theorem write?_natCast {n : Nat} (h : Writable n) : write? n = some (Nat.repr n) := by
  have hlength : (Nat.repr n).length ≤ digitLimit := (length_repr_le_iff n (by decide)).mpr h
  unfold write?
  rw [Int.natAbs_natCast]
  dsimp only
  rw [if_pos hlength, if_neg (by omega)]

/-! ### Reading -/

theorem foldl_digits_lt {ds : List Nat} (h : ∀ d ∈ ds, d < 10) (n : Nat) :
    ds.foldl (fun n d => 10 * n + d) n < (n + 1) * 10 ^ ds.length := by
  induction ds generalizing n with
  | nil => simp
  | cons d ds ih =>
      obtain ⟨hd, hds⟩ := List.forall_mem_cons.mp h
      calc ds.foldl (fun n d => 10 * n + d) (10 * n + d)
          < (10 * n + d + 1) * 10 ^ ds.length := ih hds _
        _ ≤ ((n + 1) * 10) * 10 ^ ds.length := Nat.mul_le_mul_right _ (by omega)
        _ = (n + 1) * 10 ^ (ds.length + 1) := by rw [Nat.pow_succ', Nat.mul_assoc]

/-- A run of digits denotes a number below the power of ten of its length. -/
theorem ofDigits_lt {ds : List Nat} (h : ∀ d ∈ ds, d < 10) : ofDigits ds < 10 ^ ds.length := by
  have hlt := foldl_digits_lt h 0
  rw [Nat.zero_add, Nat.one_mul] at hlt
  exact hlt

theorem writable_ofDigits {ds : List Nat} (h : ∀ d ∈ ds, d < 10)
    (hlength : ds.length ≤ digitLimit) : Writable (ofDigits ds) :=
  Nat.lt_of_lt_of_le (ofDigits_lt h) (Nat.pow_le_pow_right (by omega) hlength)

theorem Writable.neg {n : Int} (h : Writable n) : Writable (-n) := by
  unfold Writable
  rw [Int.natAbs_neg]
  exact h

theorem digitValue?_lt {c : Char} {d : Nat} (h : digitValue? c = some d) : d < 10 := by
  obtain ⟨start, hfind, rfl⟩ := Option.map_eq_some_iff.mp h
  have hrange := List.find?_some hfind
  simp only [Bool.and_eq_true, decide_eq_true_eq] at hrange
  omega

theorem digits?_lt {cs : List Char} {closed : Bool} {ds : List Nat}
    (h : digits? closed cs = some ds) : ∀ d ∈ ds, d < 10 := by
  induction cs generalizing closed ds with
  | nil =>
      unfold digits? at h
      split at h
      · cases h
        simp
      · cases h
  | cons c cs ih =>
      unfold digits? at h
      split at h
      · rename_i d hd
        obtain ⟨ds', hds', rfl⟩ := Option.map_eq_some_iff.mp h
        exact List.forall_mem_cons.mpr ⟨digitValue?_lt hd, ih hds'⟩
      · split at h
        · exact ih h
        · cases h

theorem writable_magnitude? {cs : List Char} {n : Nat} (h : magnitude? cs = some n) :
    Writable n := by
  obtain ⟨ds, hds, h⟩ := Option.bind_eq_some_iff.mp h
  split at h
  · rename_i hlength
    cases h
    exact writable_ofDigits (digits?_lt hds) hlength
  · cases h

/-- A number that was read from a text has a text. -/
theorem writable_read? {s : String} {n : Int} (h : read? s = some n) : Writable n := by
  unfold read? at h
  split at h
  · obtain ⟨m, hm, rfl⟩ := Option.map_eq_some_iff.mp h
    exact writable_magnitude? hm
  · obtain ⟨m, hm, rfl⟩ := Option.map_eq_some_iff.mp h
    exact (writable_magnitude? hm).neg
  · obtain ⟨m, hm, rfl⟩ := Option.map_eq_some_iff.mp h
    exact writable_magnitude? hm

/-! ### Reading what was written -/

theorem digitValue?_of_isDigit {c : Char} (h : c.isDigit = true) :
    digitValue? c = some (c.toNat - 48) := by
  have hrange : 48 ≤ c.toNat ∧ c.toNat ≤ 57 := Char.isDigit_iff_toNat.mp h
  unfold digitValue? digitZeros
  rw [List.find?_cons_of_pos]
  · rfl
  · simp only [Bool.and_eq_true, decide_eq_true_eq]
    omega

/-- A run of the ten plain digits is read digit by digit. -/
theorem digits?_of_isDigit {cs : List Char} (h : ∀ c ∈ cs, c.isDigit = true) {closed : Bool}
    (hclosed : cs = [] → closed = true) : digits? closed cs = some (cs.map (·.toNat - 48)) := by
  induction cs generalizing closed with
  | nil =>
      rw [hclosed rfl]
      rfl
  | cons c cs ih =>
      obtain ⟨hc, hcs⟩ := List.forall_mem_cons.mp h
      unfold digits?
      rw [digitValue?_of_isDigit hc]
      dsimp only
      rw [ih hcs fun _ => rfl]
      rfl

theorem isDigit_toDigits {n : Nat} {c : Char} (h : c ∈ Nat.toDigits 10 n) : c.isDigit = true :=
  Nat.isDigit_of_mem_toDigits (by decide) (by decide) h

theorem magnitude?_toDigits {n : Nat} (h : Writable n) :
    magnitude? (Nat.toDigits 10 n) = some n := by
  have hdigits :
      digits? false (Nat.toDigits 10 n) = some ((Nat.toDigits 10 n).map (·.toNat - 48)) :=
    digits?_of_isDigit (fun _ => isDigit_toDigits) fun hnil => absurd hnil Nat.toDigits_ne_nil
  have hlength : (Nat.toDigits 10 n).length ≤ digitLimit :=
    (Nat.length_toDigits_le_iff (by decide) (by decide)).mpr h
  have hvalue : ofDigits ((Nat.toDigits 10 n).map (·.toNat - 48)) = n := by
    unfold ofDigits
    rw [List.foldl_map]
    exact Nat.ofDigitChars_ten_toDigits
  unfold magnitude?
  rw [hdigits, Option.bind_some, List.length_map, if_pos hlength, hvalue]

/-- The characters of a number as text. -/
theorem toList_of_write? {n : Int} {s : String} (h : write? n = some s) :
    s.toList = if n < 0 then '-' :: Nat.toDigits 10 n.natAbs else Nat.toDigits 10 n.natAbs := by
  unfold write? at h
  dsimp only at h
  split at h
  · cases h
    split <;> simp [Nat.repr]
  · cases h

theorem not_isBlank_of_write? {n : Int} {s : String} (h : write? n = some s) :
    ∀ c ∈ s.toList, isBlank c = false := by
  have hdigit : ∀ c ∈ Nat.toDigits 10 n.natAbs, isBlank c = false := by
    intro c hc
    have hrange : 48 ≤ c.toNat ∧ c.toNat ≤ 57 := Char.isDigit_iff_toNat.mp (isDigit_toDigits hc)
    simp only [isBlank, Bool.or_eq_false_iff, Bool.and_eq_false_iff, decide_eq_false_iff_not,
      beq_eq_false_iff_ne]
    omega
  rw [toList_of_write? h]
  split
  · exact List.forall_mem_cons.mpr ⟨by decide, hdigit⟩
  · exact hdigit

theorem strip_of_write? {n : Int} {s : String} (h : write? n = some s) : strip s = s := by
  unfold strip
  rw [trimBy_eq_self (not_isBlank_of_write? h), String.ofList_toList]

/-- A number is read from its text. -/
theorem read?_of_write? {n : Int} {s : String} (h : write? n = some s) : read? s = some n := by
  have hmagnitude : magnitude? (Nat.toDigits 10 n.natAbs) = some n.natAbs :=
    magnitude?_toDigits ((write?_isSome_iff n).mp (h ▸ rfl))
  have hpadding : ∀ c ∈ s.toList, isPadding c = false := by
    intro c hc
    rw [isPadding, not_isBlank_of_write? h c hc, Bool.false_and]
  unfold read?
  rw [trimBy_eq_self hpadding, toList_of_write? h]
  by_cases hneg : n < 0
  · rw [if_pos hneg]
    show (magnitude? (Nat.toDigits 10 n.natAbs)).map (fun m => -Int.ofNat m) = some n
    rw [hmagnitude, Option.map_some, Int.ofNat_eq_natCast]
    congr 1
    omega
  · rw [if_neg hneg]
    split
    · rename_i hsign
      have hplus : Char.isDigit '+' = true := isDigit_toDigits (hsign ▸ List.mem_cons_self)
      cases hplus
    · rename_i hsign
      have hminus : Char.isDigit '-' = true := isDigit_toDigits (hsign ▸ List.mem_cons_self)
      cases hminus
    · rw [hmagnitude, Option.map_some, Int.ofNat_eq_natCast]
      congr 1
      omega

end Cookbook.Text.Integer
