import Mathlib.Data.List.TakeWhile
import Cookbook.Json.Reader
import Cookbook.Text.Newline
/-!
# Cookbook.Proofs.Json.Digits

Which texts hold no number that is too long. The reader stops at such a number only where as many
digits stand in a row. What every reader leaves of a text is an end of it (`Passes`), so a number
that is read later is in the text too; and line ends are no digits. So a text without a run of too
many digits is JSON or not, and is never refused for a number
(`read_withLineFeeds_ne_tooManyDigits`).
-/

namespace Cookbook.Json

variable {α β : Type} {cs ds : List Char}

/-! ### Runs of digits -/

/-- No run of digits in a text is longer than a number may be. -/
def ShortRuns (cs : List Char) : Prop :=
  ∀ run, run <:+: cs → (∀ c ∈ run, c.isDigit = true) → run.length ≤ Text.Integer.digitLimit

theorem ShortRuns.of_suffix (h : ShortRuns cs) (hds : ds <:+ cs) : ShortRuns ds :=
  fun run hrun => h run (hrun.trans hds.isInfix)

/-- A run is at the front of some end of the text, so it is enough to look at the fronts. -/
theorem shortRuns_cons_iff {c : Char} :
    ShortRuns (c :: cs) ↔
      ((c :: cs).takeWhile Char.isDigit).length ≤ Text.Integer.digitLimit ∧ ShortRuns cs := by
  constructor
  · intro h
    refine ⟨h _ (List.takeWhile_prefix _).isInfix fun d hd => List.mem_takeWhile_imp hd, ?_⟩
    exact h.of_suffix (List.suffix_cons c cs)
  · rintro ⟨hfront, h⟩ run hrun hdigits
    rcases List.infix_cons_iff.mp hrun with ⟨after, hafter⟩ | hinfix
    · refine le_trans ?_ hfront
      rw [← hafter, List.takeWhile_append_of_pos hdigits, List.length_append]
      exact Nat.le_add_right _ _
    · exact h run hinfix hdigits

theorem takeWhile_unifyNewlines (cs : List Char) :
    (Text.unifyNewlines cs).takeWhile Char.isDigit = cs.takeWhile Char.isDigit := by
  fun_induction Text.unifyNewlines cs with
  | case1 => rfl
  | case2 cs ih => rfl
  | case3 cs hcs ih => rfl
  | case4 c cs hpair hreturn ih => rw [List.takeWhile_cons, List.takeWhile_cons, ih]

/-- Line ends are no digits, so no run grows where they change. -/
theorem ShortRuns.unifyNewlines (h : ShortRuns cs) : ShortRuns (Text.unifyNewlines cs) := by
  fun_induction Text.unifyNewlines cs with
  | case1 => exact h
  | case2 cs ih =>
      exact shortRuns_cons_iff.mpr ⟨Nat.zero_le _, ih (h.of_suffix ⟨['\r', '\n'], rfl⟩)⟩
  | case3 cs hcs ih =>
      exact shortRuns_cons_iff.mpr ⟨Nat.zero_le _, ih (h.of_suffix (List.suffix_cons _ _))⟩
  | case4 c cs hpair hreturn ih =>
      obtain ⟨hfront, hrest⟩ := shortRuns_cons_iff.mp h
      refine shortRuns_cons_iff.mpr ⟨?_, ih hrest⟩
      rwa [List.takeWhile_cons, takeWhile_unifyNewlines, ← List.takeWhile_cons]

/-! ### What a reader leaves -/

/-- A reader of a text does not stop at a number that is too long, and what it leaves is an end of
the text. -/
inductive Passes (cs : List Char) : Except Stop (α × List Char) → Prop
  | read {a : α} {rest : List Char} (h : rest <:+ cs) : Passes cs (.ok (a, rest))
  | malformed (complaint : Complaint) (place : List Char) :
      Passes cs (.error (.malformed complaint place))

namespace Passes

variable {r : Except Stop (α × List Char)}

theorem ne_tooManyDigits (h : Passes cs r) : r ≠ .error .tooManyDigits := by
  cases h <;> exact nofun

theorem mono (h : Passes ds r) (hds : ds <:+ cs) : Passes cs r := by
  cases h with
  | read h => exact .read (h.trans hds)
  | malformed complaint place => exact .malformed complaint place

theorem bind {f : α × List Char → Except Stop (β × List Char)} (h : Passes cs r)
    (hf : ∀ a rest, rest <:+ cs → Passes cs (f (a, rest))) : Passes cs (r >>= f) := by
  cases h with
  | read h => exact hf _ _ h
  | malformed complaint place => exact .malformed complaint place

end Passes

theorem skipSpace_suffix (cs : List Char) : skipSpace cs <:+ cs := List.dropWhile_suffix _

theorem suffix_of_skipSpace {c : Char} {rest : List Char} (h : skipSpace cs = c :: rest) :
    rest <:+ cs :=
  (List.suffix_cons c rest).trans (h ▸ skipSpace_suffix cs)

/-! ### Tokens -/

theorem readPieces_passes (opening : List Char) (read : List Piece) (cs : List Char) :
    Passes cs (readPieces opening read cs) := by
  fun_induction readPieces opening read cs with
  | case1 => exact .malformed _ _
  | case2 => exact .read (List.suffix_cons _ _)
  | case4 read c _ _ e _ d₁ d₂ d₃ d₄ rest n _ _ ih =>
      exact ih.mono ⟨[c, e, d₁, d₂, d₃, d₄], rfl⟩
  | case7 read c _ _ e digits _ x _ ih => exact ih.mono ⟨[c, e], rfl⟩
  | case10 read c cs _ _ _ ih => exact ih.mono (List.suffix_cons _ _)
  | _ => exact .malformed _ _

theorem readString_passes (cs : List Char) : Passes cs (readString cs) :=
  (readPieces_passes _ _ _).bind fun _ _ hrest => .read hrest

theorem readDigits_suffix (cs : List Char) : (readDigits cs).2 <:+ cs := List.dropWhile_suffix _

theorem readFraction_suffix (cs : List Char) : (readFraction cs).2 <:+ cs := by
  unfold readFraction
  split
  · dsimp only
    split
    · exact List.suffix_refl _
    · exact (readDigits_suffix _).trans (List.suffix_cons _ _)
  · exact List.suffix_refl _

theorem readExponent_suffix (cs : List Char) : (readExponent cs).2 <:+ cs := by
  unfold readExponent
  split
  · rename_i e rest
    split
    · split
      rename_i negative unsigned hsigned
      have hsuffix : unsigned <:+ rest := by
        split at hsigned <;> cases hsigned
        · exact List.suffix_cons _ _
        · exact List.suffix_cons _ _
        · exact List.suffix_refl _
      dsimp only
      split
      · exact List.suffix_refl _
      · exact (readDigits_suffix _).trans (hsuffix.trans (List.suffix_cons _ _))
    · exact List.suffix_refl _
  · exact List.suffix_refl _

/-- The digits of a number stand in a row. -/
theorem readWhole?_inv {rest : List Char} {whole : List Nat} (h : ShortRuns cs)
    (hread : readWhole? cs = some (whole, rest)) :
    whole.length ≤ Text.Integer.digitLimit ∧ rest <:+ cs := by
  unfold readWhole? at hread
  split at hread
  · cases hread
    exact ⟨by decide, List.suffix_cons _ _⟩
  · dsimp only at hread
    split at hread
    · cases hread
    · cases hread
      refine ⟨?_, readDigits_suffix cs⟩
      rw [readDigits, List.length_map]
      exact h _ (List.takeWhile_prefix _).isInfix fun d hd => List.mem_takeWhile_imp hd

theorem readNumber_passes (h : ShortRuns cs) : Passes cs (readNumber cs) := by
  unfold readNumber
  split
  rename_i negative unsigned hsigned
  have hsuffix : unsigned <:+ cs := by
    split at hsigned <;> cases hsigned
    · exact List.suffix_cons _ _
    · exact List.suffix_refl _
  dsimp only
  split
  · exact .malformed _ _
  · rename_i whole rest hwhole
    obtain ⟨hlength, hrest⟩ := readWhole?_inv (h.of_suffix hsuffix) hwhole
    have hend :=
      (readExponent_suffix _).trans ((readFraction_suffix rest).trans (hrest.trans hsuffix))
    -- The number is not too long, so only that it is whole or not makes a difference.
    split <;> exact .read hend

theorem readWord?_suffix {v : Value} {rest : List Char} (h : readWord? cs = some (v, rest)) :
    rest <:+ cs := by
  obtain ⟨⟨word, w⟩, -, h⟩ := List.exists_of_findSome?_eq_some h
  obtain ⟨rest', hafter, he⟩ := Option.map_eq_some_iff.mp h
  cases he
  exact ⟨word.toList, (Text.after?_eq_some_iff.mp hafter).symm⟩

/-! ### Values -/

mutual

theorem readValue_passes : ∀ (fuel : Nat) {cs : List Char},
    ShortRuns cs → Passes cs (readValue fuel cs)
  | 0, _, _ => .malformed _ _
  | fuel + 1, cs, h => by
      unfold readValue
      split
      · exact ((readString_passes _).mono (List.suffix_cons _ _)).bind fun _ _ hrest => .read hrest
      · split
        · rename_i hclosed
          exact .read ((suffix_of_skipSpace hclosed).trans (List.suffix_cons _ _))
        · rename_i rest _ _
          have hrest := (skipSpace_suffix rest).trans (List.suffix_cons '[' rest)
          exact (readItems_passes fuel _ (h.of_suffix hrest)).mono hrest
      · split
        · rename_i hclosed
          exact .read ((suffix_of_skipSpace hclosed).trans (List.suffix_cons _ _))
        · rename_i rest _ _
          have hrest := (skipSpace_suffix rest).trans (List.suffix_cons '\x7b' rest)
          exact (readFields_passes fuel _ (h.of_suffix hrest)).mono hrest
      · split
        · rename_i hword
          exact .read (readWord?_suffix hword)
        · exact readNumber_passes h

theorem readItems_passes : ∀ (fuel : Nat) (read : List Value) {cs : List Char}, ShortRuns cs →
    Passes cs (readItems fuel read cs)
  | 0, _, _, _ => .malformed _ _
  | fuel + 1, read, cs, h => by
      unfold readItems
      refine (readValue_passes fuel h).bind fun v rest hrest => ?_
      dsimp only
      split
      · rename_i hclosed
        exact .read ((suffix_of_skipSpace hclosed).trans hrest)
      · rename_i hcomma
        have hmore := (skipSpace_suffix _).trans ((suffix_of_skipSpace hcomma).trans hrest)
        exact (readItems_passes fuel _ (h.of_suffix hmore)).mono hmore
      · exact .malformed _ _

theorem readFields_passes : ∀ (fuel : Nat) (read : List (String × Value)) {cs : List Char},
    ShortRuns cs → Passes cs (readFields fuel read cs)
  | 0, _, _, _ => .malformed _ _
  | fuel + 1, read, cs, h => by
      unfold readFields
      split
      · refine ((readString_passes _).mono (List.suffix_cons _ _)).bind fun key rest hrest => ?_
        dsimp only
        split
        · rename_i hcolon
          have hvalue := (skipSpace_suffix _).trans ((suffix_of_skipSpace hcolon).trans hrest)
          have hpass := (readValue_passes fuel (h.of_suffix hvalue)).mono hvalue
          refine hpass.bind fun v rest hrest => ?_
          dsimp only
          split
          · rename_i hclosed
            exact .read ((suffix_of_skipSpace hclosed).trans hrest)
          · rename_i hcomma
            have hmore := (skipSpace_suffix _).trans ((suffix_of_skipSpace hcomma).trans hrest)
            exact (readFields_passes fuel _ (h.of_suffix hmore)).mono hmore
          · exact .malformed _ _
        · exact .malformed _ _
      · exact .malformed _ _

end

theorem readText_ne_tooManyDigits (h : ShortRuns cs) : readText cs ≠ .error .tooManyDigits := by
  intro hread
  unfold readText at hread
  split at hread
  · cases hread
  · have hspace := skipSpace_suffix cs
    have hvalue := (readValue_passes (2 * cs.length + 2) (h.of_suffix hspace)).ne_tooManyDigits
    generalize readValue (2 * cs.length + 2) (skipSpace cs) = found at hvalue hread
    cases found with
    | error stop => exact hvalue (congrArg Except.error (Except.error.inj hread))
    | ok found =>
        -- Nothing is read any more, so all that can be wrong is that there is more text.
        dsimp only [bind, Except.bind] at hread
        split at hread <;> cases hread

/-- A file without a run of too many digits is not refused for a number. -/
theorem read_withLineFeeds_ne_tooManyDigits {s : String} (h : ShortRuns s.toList) :
    read (Text.withLineFeeds s) ≠ .error .tooManyDigits := by
  have htext := readText_ne_tooManyDigits h.unifyNewlines
  unfold read Text.withLineFeeds
  rw [String.toList_ofList]
  generalize readText (Text.unifyNewlines s.toList) = found at htext
  cases found with
  | ok v => exact nofun
  | error stop =>
      cases stop with
      | malformed complaint place => exact nofun
      | tooManyDigits => exact absurd rfl htext

end Cookbook.Json
