import Mathlib.Data.List.TakeWhile
import Cookbook.Text.Blank
/-!
# Cookbook.Proofs.Text.Trim

What trimming takes off a text, and what it leaves. It takes off characters of a class at either end
(`exists_eq_append_trimBy`). What it leaves neither begins nor ends with one (`head?_trimBy`,
`getLast?_trimBy`), and such a text is left as it is (`trimBy_of_ends`).
-/

namespace Cookbook.Text

variable {p : Char → Bool} {c : Char} {cs core before after : List Char}

/-- What is trimmed off at either end is of the class. -/
theorem exists_eq_append_trimBy (p : Char → Bool) (cs : List Char) :
    ∃ before after, cs = before ++ trimBy p cs ++ after ∧
      (∀ c ∈ before, p c = true) ∧ ∀ c ∈ after, p c = true := by
  have hbefore := cs.takeWhile_append_dropWhile (p := p)
  have hafter := (cs.dropWhile p).reverse.takeWhile_append_dropWhile (p := p)
  refine ⟨cs.takeWhile p, ((cs.dropWhile p).reverse.takeWhile p).reverse, ?_, ?_, ?_⟩
  · rw [trimBy, List.append_assoc, ← List.reverse_append, hafter, List.reverse_reverse, hbefore]
  · exact fun c hc => List.mem_takeWhile_imp hc
  · exact fun c hc => List.mem_takeWhile_imp (List.mem_reverse.mp hc)

/-! ### The ends -/

theorem head?_dropWhile (h : (cs.dropWhile p).head? = some c) : p c = false := by
  have hhead := List.head?_dropWhile_not p cs
  rw [h] at hhead
  exact hhead

theorem dropWhile_of_head? (h : ∀ c, cs.head? = some c → p c = false) : cs.dropWhile p = cs := by
  cases cs with
  | nil => rfl
  | cons c cs => rw [List.dropWhile_cons_of_neg (by simp [h c rfl])]

/-- What trimming leaves does not begin with a character of the class. -/
theorem head?_trimBy (h : (trimBy p cs).head? = some c) : p c = false := by
  have hprefix : trimBy p cs <+: cs.dropWhile p := by
    have hsuffix := List.dropWhile_suffix p (l := (cs.dropWhile p).reverse)
    rwa [← List.reverse_prefix, List.reverse_reverse] at hsuffix
  obtain ⟨rest, hrest⟩ := hprefix
  have hhead : (cs.dropWhile p).head? = some c := by
    rw [← hrest, List.head?_append, h, Option.some_or]
  exact head?_dropWhile hhead

/-- What trimming leaves does not end with a character of the class. -/
theorem getLast?_trimBy (h : (trimBy p cs).getLast? = some c) : p c = false := by
  rw [trimBy, List.getLast?_reverse] at h
  exact head?_dropWhile h

/-- A text without characters of the class at its ends is left as it is. -/
theorem trimBy_of_ends (hhead : ∀ c, cs.head? = some c → p c = false)
    (hlast : ∀ c, cs.getLast? = some c → p c = false) : trimBy p cs = cs := by
  rw [← List.head?_reverse] at hlast
  rw [trimBy, dropWhile_of_head? hhead, dropWhile_of_head? hlast, List.reverse_reverse]

/-- A text without characters of the class is left as it is. -/
theorem trimBy_eq_self (h : ∀ c ∈ cs, p c = false) : trimBy p cs = cs :=
  trimBy_of_ends (fun c hc => h c (List.mem_of_head? hc)) fun c hc => h c (List.mem_of_getLast? hc)

/-- What stands between characters of the class is left by trimming, if it has none. -/
theorem trimBy_append (hbefore : ∀ c ∈ before, p c = true) (hafter : ∀ c ∈ after, p c = true)
    (hcore : ∀ c ∈ core, p c = false) : trimBy p (before ++ core ++ after) = core := by
  have hreverse : ∀ c ∈ after.reverse, p c = true := fun c hc => hafter c (List.mem_reverse.mp hc)
  unfold trimBy
  rw [List.append_assoc, List.dropWhile_append_of_pos hbefore]
  cases core with
  | nil =>
      rw [List.nil_append, List.dropWhile_eq_nil_iff.mpr hafter]
      rfl
  | cons c core =>
      have hfirst : ¬ p c = true := by simp [hcore c List.mem_cons_self]
      rw [List.cons_append, List.dropWhile_cons_of_neg hfirst, ← List.cons_append,
        List.reverse_append, List.dropWhile_append_of_pos hreverse, dropWhile_of_head?,
        List.reverse_reverse]
      exact fun c hc => hcore c (List.mem_reverse.mp (List.mem_of_head? hc))

end Cookbook.Text
