import Cookbook.Proofs.Text.Integer
/-!
# Cookbook.Proofs.Text.Numeral

The grammar of whole numbers as text. A numeral is an optional sign and a run of decimal digits of
any script, with single underscores between digits and nowhere else. A text is read as a number
exactly if, without its padding, it is a numeral of that number (`read?_eq_some_iff`).

The reader of digits goes on from a digit in one way and from an underscore in another, so what it
reads is said of both states at once (`digits?_eq_some_iff`).
-/

namespace Cookbook.Text.Integer

variable {c : Char} {cs : List Char} {ds : List Nat} {n : Int}

/-! ### The grammar -/

/-- Decimal digits of any script, with single underscores between them. -/
inductive Run : List Char → List Nat → Prop
  | last {c : Char} {d : Nat} (hd : digitValue? c = some d) : Run [c] [d]
  | digit {c : Char} {d : Nat} {cs : List Char} {ds : List Nat} (hd : digitValue? c = some d)
      (h : Run cs ds) : Run (c :: cs) (d :: ds)
  | underscore {c : Char} {d : Nat} {cs : List Char} {ds : List Nat} (hd : digitValue? c = some d)
      (h : Run cs ds) : Run (c :: '_' :: cs) (d :: ds)

/-- An optional sign and a run of digits within the limit, with the number that they denote. -/
inductive Numeral : List Char → Int → Prop
  | unsigned {cs : List Char} {ds : List Nat} (h : Run cs ds) (hlimit : ds.length ≤ digitLimit) :
      Numeral cs (ofDigits ds)
  | plus {cs : List Char} {ds : List Nat} (h : Run cs ds) (hlimit : ds.length ≤ digitLimit) :
      Numeral ('+' :: cs) (ofDigits ds)
  | minus {cs : List Char} {ds : List Nat} (h : Run cs ds) (hlimit : ds.length ≤ digitLimit) :
      Numeral ('-' :: cs) (-(ofDigits ds : Int))

/-- No digit of any script is white space. -/
theorem not_isBlank_of_digitValue? {d : Nat} (h : digitValue? c = some d) : isBlank c = false := by
  have htable : ∀ start ∈ digitZeros, ∀ k < 10, isBlank (Char.ofNat (start + k)) = false := by
    decide +kernel
  obtain ⟨start, hfind, rfl⟩ := Option.map_eq_some_iff.mp h
  have hrange := List.find?_some hfind
  simp only [Bool.and_eq_true, decide_eq_true_eq] at hrange
  have hblank := htable start (List.mem_of_find?_eq_some hfind) (c.toNat - start) (by omega)
  rwa [Nat.add_sub_cancel' hrange.1, Char.ofNat_toNat] at hblank

theorem Run.not_isBlank (h : Run cs ds) : ∀ c ∈ cs, isBlank c = false := by
  induction h with
  | last hd => exact List.forall_mem_cons.mpr ⟨not_isBlank_of_digitValue? hd, by simp⟩
  | digit hd _ ih => exact List.forall_mem_cons.mpr ⟨not_isBlank_of_digitValue? hd, ih⟩
  | underscore hd _ ih =>
      exact List.forall_mem_cons.mpr ⟨not_isBlank_of_digitValue? hd,
        List.forall_mem_cons.mpr ⟨by decide, ih⟩⟩

theorem Numeral.not_isBlank (h : Numeral cs n) : ∀ c ∈ cs, isBlank c = false := by
  cases h with
  | unsigned h _ => exact h.not_isBlank
  | plus h _ => exact List.forall_mem_cons.mpr ⟨by decide, h.not_isBlank⟩
  | minus h _ => exact List.forall_mem_cons.mpr ⟨by decide, h.not_isBlank⟩

theorem Run.head (h : Run cs ds) : ∃ c d rest, cs = c :: rest ∧ digitValue? c = some d := by
  cases h with
  | last hd => exact ⟨_, _, _, rfl, hd⟩
  | digit hd _ => exact ⟨_, _, _, rfl, hd⟩
  | underscore hd _ => exact ⟨_, _, _, rfl, hd⟩

/-! ### The reader -/

/-- After the first digit a run ends, or goes on with another run, or with an underscore and a
run. -/
theorem run_cons_iff {d : Nat} (hd : digitValue? c = some d) :
    Run (c :: cs) ds ↔ ∃ more, ds = d :: more ∧
      (cs = [] ∧ more = [] ∨ Run cs more ∨ ∃ rest, cs = '_' :: rest ∧ Run rest more) := by
  constructor
  · intro h
    cases h with
    | last hd' =>
        obtain rfl := Option.some.inj (hd.symm.trans hd')
        exact ⟨[], rfl, Or.inl ⟨rfl, rfl⟩⟩
    | digit hd' h =>
        obtain rfl := Option.some.inj (hd.symm.trans hd')
        exact ⟨_, rfl, Or.inr (Or.inl h)⟩
    | underscore hd' h =>
        obtain rfl := Option.some.inj (hd.symm.trans hd')
        exact ⟨_, rfl, Or.inr (Or.inr ⟨_, rfl, h⟩)⟩
  · rintro ⟨more, rfl, ⟨rfl, rfl⟩ | h | ⟨rest, rfl, h⟩⟩
    · exact .last hd
    · exact .digit hd h
    · exact .underscore hd h

theorem not_run_cons (hd : digitValue? c = none) : ¬ Run (c :: cs) ds := by
  intro h
  obtain ⟨c', d, rest, hcs, hd'⟩ := h.head
  obtain ⟨rfl, -⟩ := List.cons.inj hcs
  rw [hd] at hd'
  cases hd'

/-- What is read before any digit is a run; after a digit nothing may follow, or a run, or an
underscore and a run. -/
theorem digits?_eq_some_iff (cs : List Char) (ds : List Nat) :
    (digits? false cs = some ds ↔ Run cs ds) ∧
      (digits? true cs = some ds ↔
        cs = [] ∧ ds = [] ∨ Run cs ds ∨ ∃ rest, cs = '_' :: rest ∧ Run rest ds) := by
  induction cs generalizing ds with
  | nil =>
      have hnone : ¬ Run [] ds := by
        intro h
        obtain ⟨c, d, rest, hcs, -⟩ := h.head
        cases hcs
      exact ⟨by simp [digits?, hnone], by simp [digits?, hnone, eq_comm]⟩
  | cons c cs ih =>
      cases hd : digitValue? c with
      | some d =>
          have hne : c ≠ '_' := by
            rintro rfl
            rw [show digitValue? '_' = none by decide] at hd
            cases hd
          have hread : ∀ closed, digits? closed (c :: cs) = some ds ↔ Run (c :: cs) ds := by
            intro closed
            rw [run_cons_iff hd, digits?, hd]
            simp only [Option.map_eq_some_iff, (ih _).2]
            exact ⟨fun ⟨more, h, heq⟩ => ⟨more, heq.symm, h⟩,
              fun ⟨more, heq, h⟩ => ⟨more, h, heq.symm⟩⟩
          refine ⟨hread false, (hread true).trans ⟨fun h => Or.inr (Or.inl h), ?_⟩⟩
          rintro (⟨hnil, -⟩ | h | ⟨rest, heq, -⟩)
          · cases hnil
          · exact h
          · exact absurd (List.cons.inj heq).1 hne
      | none =>
          have hnone : ¬ Run (c :: cs) ds := not_run_cons hd
          refine ⟨?_, ?_⟩
          · simp [digits?, hd, hnone]
          · by_cases hunderscore : c = '_'
            · subst hunderscore
              simp [digits?, hd, hnone, (ih ds).1]
            · simp [digits?, hd, hnone, hunderscore]

theorem magnitude?_eq_some_iff {m : Nat} :
    magnitude? cs = some m ↔ ∃ ds, Run cs ds ∧ ds.length ≤ digitLimit ∧ m = ofDigits ds := by
  unfold magnitude?
  rw [Option.bind_eq_some_iff]
  refine exists_congr fun ds => ?_
  rw [(digits?_eq_some_iff cs ds).1]
  refine and_congr_right fun _ => ?_
  by_cases hlimit : ds.length ≤ digitLimit <;> simp [hlimit, eq_comm]

/-- A text is read as a number exactly if, without its padding, it is a numeral of the number. -/
theorem read?_eq_some_iff {s : String} :
    read? s = some n ↔ Numeral (trimBy isPadding s.toList) n := by
  unfold read?
  generalize trimBy isPadding s.toList = cs
  constructor
  · intro h
    split at h
    · obtain ⟨m, hm, rfl⟩ := Option.map_eq_some_iff.mp h
      obtain ⟨ds, hrun, hlimit, rfl⟩ := magnitude?_eq_some_iff.mp hm
      exact .plus hrun hlimit
    · obtain ⟨m, hm, rfl⟩ := Option.map_eq_some_iff.mp h
      obtain ⟨ds, hrun, hlimit, rfl⟩ := magnitude?_eq_some_iff.mp hm
      exact .minus hrun hlimit
    · obtain ⟨m, hm, rfl⟩ := Option.map_eq_some_iff.mp h
      obtain ⟨ds, hrun, hlimit, rfl⟩ := magnitude?_eq_some_iff.mp hm
      exact .unsigned hrun hlimit
  · intro h
    cases h with
    | plus hrun hlimit =>
        exact Option.map_eq_some_iff.mpr ⟨_, magnitude?_eq_some_iff.mpr ⟨_, hrun, hlimit, rfl⟩, rfl⟩
    | minus hrun hlimit =>
        exact Option.map_eq_some_iff.mpr ⟨_, magnitude?_eq_some_iff.mpr ⟨_, hrun, hlimit, rfl⟩, rfl⟩
    | unsigned hrun hlimit =>
        have hm := magnitude?_eq_some_iff.mpr ⟨_, hrun, hlimit, rfl⟩
        -- A digit comes first, so the text is not read as one with a sign.
        split
        · exact absurd hrun (not_run_cons (by decide))
        · exact absurd hrun (not_run_cons (by decide))
        · exact Option.map_eq_some_iff.mpr ⟨_, hm, rfl⟩

end Cookbook.Text.Integer
