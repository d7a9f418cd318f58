import Cookbook.Proofs.Portions
/-!
# Cookbook.Proofs.Settings.Portions

The portions that an environment decides on, against those that a request asks for in the same
words. The environment's text is read as a number right away, a request's only after the white space
around it was taken away. A number may have white space around it too, all of it but the information
separators, so the two differ only for a text with one of these
(`defaultPortions_eq_orDefault_iff`).
-/

namespace Cookbook.Settings

open Portions
open Text (isBlank)
open Text.Integer (isPadding read? read?_eq_some_iff)

/-- The information separators: white space that a number may not have around it. -/
def isSeparator (c : Char) : Bool := 0x1C ≤ c.toNat && c.toNat ≤ 0x1F

variable {c : Char} {s : String} {n : Int}

theorem isBlank_of_isSeparator (h : isSeparator c = true) : isBlank c = true := by
  simp only [isSeparator, Bool.and_eq_true, decide_eq_true_eq] at h
  simp only [isBlank, Bool.or_eq_true, Bool.and_eq_true, decide_eq_true_eq, beq_iff_eq]
  omega

theorem isPadding_iff : isPadding c = true ↔ isBlank c = true ∧ isSeparator c = false := by
  rw [isPadding, Bool.and_eq_true, Bool.not_eq_true']
  rfl

/-- A text that is read as a number has no separator, neither in the number nor around it. -/
theorem not_isSeparator_of_read? (h : read? s = some n) :
    ∀ c ∈ s.toList, isSeparator c = false := by
  have hcore := (read?_eq_some_iff.mp h).not_isBlank
  obtain ⟨before, after, hs, hbefore, hafter⟩ := Text.exists_eq_append_trimBy isPadding s.toList
  intro c hc
  rw [hs] at hc
  rcases List.mem_append.mp hc with hc | hc
  · rcases List.mem_append.mp hc with hc | hc
    · exact (isPadding_iff.mp (hbefore c hc)).2
    · have hblank := hcore c hc
      by_contra hseparator
      rw [isBlank_of_isSeparator (Bool.eq_true_of_not_eq_false hseparator)] at hblank
      cases hblank
  · exact (isPadding_iff.mp (hafter c hc)).2

/-- A text that is read as a positive number asks for it. -/
theorem asks_of_read? (h : read? s = some n) (hpos : 1 ≤ n) : Asks (.text s) n := by
  obtain ⟨before, after, hs, hbefore, hafter⟩ := Text.exists_eq_append_trimBy isPadding s.toList
  exact .intro (by simp) (by simp) rfl hs (fun c hc => isBlank_of_isPadding (hbefore c hc))
    (fun c hc => isBlank_of_isPadding (hafter c hc)) (read?_eq_some_iff.mp h) hpos

/-- A text without separators that asks for a number is read as this number. -/
theorem read?_of_asks (h : Asks (.text s) n) (hnone : ∀ c ∈ s.toList, isSeparator c = false) :
    read? s = some n := by
  cases h with
  | @intro _ before core after _ _ _ hwrite hs hbefore hafter hcore _ =>
      cases hwrite
      have hpadding : ∀ c ∈ core, isPadding c = false := fun c hc => by
        rw [isPadding, hcore.not_isBlank c hc, Bool.false_and]
      have hbefore' : ∀ c ∈ before, isPadding c = true := fun c hc =>
        isPadding_iff.mpr ⟨hbefore c hc, hnone c (by simp [hs, hc])⟩
      have hafter' : ∀ c ∈ after, isPadding c = true := fun c hc =>
        isPadding_iff.mpr ⟨hafter c hc, hnone c (by simp [hs, hc])⟩
      rw [read?_eq_some_iff, hs, Text.trimBy_append hbefore' hafter' hpadding]
      exact hcore

theorem positiveOr_of_read? {default : Int} (h : read? s = some n) (hpos : 1 ≤ n) :
    positiveOr default s = n := by
  have hlt : 0 < n := by omega
  simp only [positiveOr, h, hlt, if_true]

/-- A text with a separator is no number. -/
theorem positiveOr_of_separator {default : Int} (h : ∃ c ∈ s.toList, isSeparator c = true) :
    positiveOr default s = default := by
  obtain ⟨c, hc, hseparator⟩ := h
  unfold positiveOr
  split
  · rename_i n hread
    rw [not_isSeparator_of_read? hread c hc] at hseparator
    cases hseparator
  · rfl

/-- Without separators the text means the same to both readers. -/
theorem positiveOr_eq_orDefault (default : Int) (h : ∀ c ∈ s.toList, isSeparator c = false) :
    positiveOr default s = orDefault (.text s) default := by
  unfold orDefault
  cases hrequested : requested? (.text s) with
  | some n =>
      have hasks := requested?_eq_some_iff.mp hrequested
      exact positiveOr_of_read? (read?_of_asks hasks h) hasks.one_le
  | none =>
      unfold positiveOr
      split
      · rename_i n hread
        split
        · rename_i hpos
          have hasks := requested?_eq_some_iff.mpr (asks_of_read? hread hpos)
          rw [hrequested] at hasks
          cases hasks
        · rfl
      · rfl

/-- **When an environment and a request mean the same portions by the same text.** They do unless
the text asks for more than one and has an information separator among the white space at its ends.
A text with a separator is no number to the environment, which then decides on one portion. -/
theorem defaultPortions_eq_orDefault_iff {e : Environment}
    (h : e.lookup "RIZZIPES_DEFAULT_PORTIONS" = some s) :
    ((ofEnvironment e).defaultPortions = orDefault (.text s) 1 ↔
      ∀ n, 2 ≤ n → Asks (.text s) n → ∀ c ∈ s.toList, isSeparator c = false) ∧
      ((∃ c ∈ s.toList, isSeparator c = true) → (ofEnvironment e).defaultPortions = 1) := by
  have hportions : (ofEnvironment e).defaultPortions = positiveOr 1 s := by
    simp only [ofEnvironment, Environment.get, h, Option.getD_some]
  rw [hportions]
  refine ⟨?_, positiveOr_of_separator⟩
  by_cases hseparator : ∃ c ∈ s.toList, isSeparator c = true
  · rw [positiveOr_of_separator hseparator, eq_comm, orDefault_eq_one_iff]
    obtain ⟨c, hc, hseparator⟩ := hseparator
    refine forall₂_congr fun n hn => ⟨fun hnot hasks => absurd hasks hnot, fun hclean hasks => ?_⟩
    rw [hclean hasks c hc] at hseparator
    cases hseparator
  · have hclean : ∀ c ∈ s.toList, isSeparator c = false := by simpa using hseparator
    exact iff_of_true (positiveOr_eq_orDefault 1 hclean) fun _ _ _ => hclean

/-- A separator before a number in the environment is not trimmed off, and the number is lost. -/
theorem defaultPortions_eq_orDefault_iff_separated :
    Asks (.text "\x1c4") 4 ∧
      (ofEnvironment [("RIZZIPES_DEFAULT_PORTIONS", "\x1c4")]).defaultPortions = 1 ∧
      (ofEnvironment [("RIZZIPES_DEFAULT_PORTIONS", "\x1c4")]).defaultPortions ≠
        orDefault (.text "\x1c4") 1 := by
  have hlookup : ([("RIZZIPES_DEFAULT_PORTIONS", "\x1c4")] : Environment).lookup
      "RIZZIPES_DEFAULT_PORTIONS" = some "\x1c4" := rfl
  obtain ⟨hsame, hone⟩ := defaultPortions_eq_orDefault_iff hlookup
  have hasks : Asks (.text "\x1c4") 4 := requested?_eq_some_iff.mp (by decide)
  have hseparator : '\x1c' ∈ "\x1c4".toList ∧ isSeparator '\x1c' = true := by decide
  refine ⟨hasks, hone ⟨_, hseparator⟩, fun h => ?_⟩
  have hclean := hsame.mp h 4 (by decide) hasks _ hseparator.1
  rw [hseparator.2] at hclean
  cases hclean

/-- An environment and a request need not mean the same portions by the same text. -/
theorem not_same_portions_separated :
    ¬ ∀ (e : Environment) (s : String), e.lookup "RIZZIPES_DEFAULT_PORTIONS" = some s →
      (ofEnvironment e).defaultPortions = orDefault (.text s) 1 := by
  intro h
  have hsame := h [("RIZZIPES_DEFAULT_PORTIONS", "\x1c4")] "\x1c4" rfl
  have hone : (ofEnvironment [("RIZZIPES_DEFAULT_PORTIONS", "\x1c4")]).defaultPortions = 1 := by
    decide
  have hfour : orDefault (.text "\x1c4") 1 = 4 := by decide
  rw [hone, hfour] at hsame
  cases hsame

end Cookbook.Settings
