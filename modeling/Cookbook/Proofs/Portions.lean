import Cookbook.Portions
import Cookbook.Proofs.Text.Numeral
import Cookbook.Settings
/-!
# Cookbook.Proofs.Portions

What portions a value asks for. A value asks for a number if its text, but for the white space
around it, is a numeral of that number, and the number is positive (`Asks`). Then these are the
portions, and for every other value they are the default (`orDefault_exact`).
-/

namespace Cookbook.Portions

open Text (isBlank)
open Text.Integer (Numeral)

/-- A value asks for a positive number: it is neither `null` nor a truth value, and in words it is a
numeral of the number with white space around it. -/
inductive Asks : Value → Int → Prop
  | intro {v : Value} {s : String} {before core after : List Char} {n : Int} (hnull : v ≠ .null)
      (hbool : ∀ b, v ≠ .bool b) (hwrite : v.write = .ok s)
      (hs : s.toList = before ++ core ++ after) (hbefore : ∀ c ∈ before, isBlank c = true)
      (hafter : ∀ c ∈ after, isBlank c = true) (hcore : Numeral core n) (hpos : 1 ≤ n) : Asks v n

variable {v : Value} {n : Int}

/-- What a value asks for is read off its text. -/
theorem requested?_inv (h : requested? v = some n) :
    v ≠ .null ∧ (∀ b, v ≠ .bool b) ∧
      ∃ s, v.write = .ok s ∧ Text.Integer.read? (Text.strip s) = some n ∧ 1 ≤ n := by
  unfold requested? at h
  split at h
  · cases h
  · cases h
  · rename_i hnull hbool
    split at h
    · cases h
    · rename_i s hwrite
      obtain ⟨hread, hpos⟩ := Option.filter_eq_some_iff.mp h
      exact ⟨hnull, hbool, s, hwrite, hread, Int.add_one_le_iff.mpr (of_decide_eq_true hpos)⟩

theorem requested?_of_read {s : String} (hnull : v ≠ .null) (hbool : ∀ b, v ≠ .bool b)
    (hwrite : v.write = .ok s) (hread : Text.Integer.read? (Text.strip s) = some n) (hpos : 1 ≤ n) :
    requested? v = some n := by
  have hfilter : (Text.Integer.read? (Text.strip s)).filter (0 < ·) = some n := by
    rw [hread, Option.filter_some,
      if_pos (decide_eq_true (Int.lt_of_lt_of_le Int.zero_lt_one hpos))]
  cases v with
  | null => exact absurd rfl hnull
  | bool b => exact absurd rfl (hbool b)
  | _ => simp only [requested?, hwrite, hfilter]

theorem isBlank_of_isPadding {c : Char} (h : Text.Integer.isPadding c = true) :
    isBlank c = true := by
  unfold Text.Integer.isPadding at h
  rw [Bool.and_eq_true] at h
  exact h.1

/-- The portions that a value asks for are read exactly if it asks for any. The text is trimmed
twice, and what is trimmed off the second time is white space too. -/
theorem requested?_eq_some_iff : requested? v = some n ↔ Asks v n := by
  constructor
  · intro h
    obtain ⟨hnull, hbool, s, hwrite, hread, hpos⟩ := requested?_inv h
    have hcore := Text.Integer.read?_eq_some_iff.mp hread
    rw [Text.strip, String.toList_ofList] at hcore
    obtain ⟨before, after, hs, hbefore, hafter⟩ := Text.exists_eq_append_trimBy isBlank s.toList
    obtain ⟨before', after', hstrip, hbefore', hafter'⟩ :=
      Text.exists_eq_append_trimBy Text.Integer.isPadding (Text.trimBy isBlank s.toList)
    generalize Text.trimBy Text.Integer.isPadding (Text.trimBy isBlank s.toList) = core
      at hcore hstrip
    have heq : s.toList = (before ++ before') ++ core ++ (after' ++ after) := by
      rw [hs, hstrip]
      simp only [List.append_assoc]
    refine .intro hnull hbool hwrite heq (fun c hc => ?_) (fun c hc => ?_) hcore hpos
    · exact (List.mem_append.mp hc).elim (hbefore c) fun hc => isBlank_of_isPadding (hbefore' c hc)
    · exact (List.mem_append.mp hc).elim (fun hc => isBlank_of_isPadding (hafter' c hc)) (hafter c)
  · rintro ⟨hnull, hbool, hwrite, hs, hbefore, hafter, hcore, hpos⟩
    refine requested?_of_read hnull hbool hwrite ?_ hpos
    have hpadding : ∀ c ∈ _, Text.Integer.isPadding c = false := fun c hc => by
      rw [Text.Integer.isPadding, hcore.not_isBlank c hc, Bool.false_and]
    rw [Text.Integer.read?_eq_some_iff, Text.strip, String.toList_ofList, hs,
      Text.trimBy_append hbefore hafter hcore.not_isBlank,
      Text.trimBy_eq_self hpadding]
    exact hcore

/-- A number in words, with white space around it, asks for itself. -/
theorem asks_repr {n : Nat} (hpos : 1 ≤ n) (hlimit : (Nat.repr n).length ≤ Text.Integer.digitLimit)
    {before after : String} (hbefore : ∀ c ∈ before.toList, isBlank c = true)
    (hafter : ∀ c ∈ after.toList, isBlank c = true) :
    Asks (.text (before ++ Nat.repr n ++ after)) n := by
  have hwritable : Text.Integer.Writable n :=
    (Text.Integer.length_repr_le_iff n (by decide)).mp hlimit
  have hwrite := Text.Integer.write?_natCast hwritable
  have hcore : Numeral (Nat.repr n).toList n := by
    have hread := Text.Integer.read?_eq_some_iff.mp (Text.Integer.read?_of_write? hwrite)
    rwa [Text.trimBy_eq_self] at hread
    intro c hc
    rw [Text.Integer.isPadding, Text.Integer.not_isBlank_of_write? hwrite c hc, Bool.false_and]
  refine .intro (by simp) (by simp) rfl ?_ hbefore hafter hcore (by omega)
  simp only [String.toList_append]

theorem Asks.one_le (h : Asks v n) : 1 ≤ n := by
  obtain ⟨-, -, -, -, -, -, -, hpos⟩ := h
  exact hpos

/-- A default of one portion is what exactly those values get that do not ask for more. -/
theorem orDefault_eq_one_iff : orDefault v 1 = 1 ↔ ∀ n, 2 ≤ n → ¬ Asks v n := by
  unfold orDefault
  constructor
  · intro h n hn hasks
    rw [requested?_eq_some_iff.mpr hasks, Option.getD_some] at h
    omega
  · intro h
    cases hrequested : requested? v with
    | none => rfl
    | some n =>
        have hasks := requested?_eq_some_iff.mp hrequested
        have hpos := hasks.one_le
        have hless : ¬ 2 ≤ n := fun hn => h n hn hasks
        rw [Option.getD_some]
        omega

/-- Every default from an environment is positive. -/
theorem defaultPortions_pos (e : Environment) : 1 ≤ (Settings.ofEnvironment e).defaultPortions :=
  Settings.positiveOr_pos Int.one_pos _

/-- **Portions are read exactly.** A value that asks for a number gets it, and every other value
gets the default. So a positive number in words gets itself, whatever white space is around it, and
with the default of an environment no value gets fewer portions than one. -/
theorem orDefault_exact (v : Value) (default : Int) :
    (∀ n, Asks v n → orDefault v default = n) ∧
      ((∀ n, ¬ Asks v n) → orDefault v default = default) ∧
      (∀ n : Nat, 1 ≤ n → (Nat.repr n).length ≤ Text.Integer.digitLimit →
        ∀ before after : String, (∀ c ∈ before.toList, isBlank c = true) →
          (∀ c ∈ after.toList, isBlank c = true) →
            orDefault (.text (before ++ Nat.repr n ++ after)) default = n) ∧
      ∀ e : Environment, 1 ≤ orDefault v (Settings.ofEnvironment e).defaultPortions := by
  have hasks : ∀ v n d, Asks v n → orDefault v d = n := by
    intro v n d h
    rw [orDefault, requested?_eq_some_iff.mpr h, Option.getD_some]
  refine ⟨fun n h => hasks v n default h, fun h => ?_, ?_, fun e => ?_⟩
  · have hnone : requested? v = none :=
      Option.eq_none_iff_forall_ne_some.mpr fun n hn => h n (requested?_eq_some_iff.mp hn)
    rw [orDefault, hnone, Option.getD_none]
  · intro n hpos hlimit before after hbefore hafter
    exact hasks _ _ _ (asks_repr hpos hlimit hbefore hafter)
  · unfold orDefault
    cases hrequested : requested? v with
    | none => exact defaultPortions_pos e
    | some n =>
        obtain ⟨_, _, _, _, _, _, _, hpos⟩ := requested?_eq_some_iff.mp hrequested
        exact hpos

end Cookbook.Portions
