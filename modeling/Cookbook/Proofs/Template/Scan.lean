import Cookbook.Proofs.Template.Grammar
/-!
# Cookbook.Proofs.Template.Scan

Splitting a text finds every template in it. A scan from the left takes the first template that it
meets and goes on after it, so on the face of it it could pass over a template that overlaps one
taken before. Written forms do not overlap (`eq_or_after`), so nothing is passed over.

`Splits` says what a split is without the scan: the literals hold no template, and each template
stands between two of them. Every property of the parts and of the spans is an induction on it.
-/

namespace Cookbook

namespace Template

/-! ### Templates in a text -/

/-- A template written in a text, with what comes before it and after it. -/
structure Occurs (cs pre : List Char) (t : Template) (post : List Char) : Prop where
  wellFormed : t.WellFormed
  eq : cs = pre ++ (t.write.toList ++ post)

/-- A text that holds no template. -/
def Free (cs : List Char) : Prop := ∀ pre t post, ¬ Occurs cs pre t post

/-- Two templates in a text are at the same place and the same, or one comes before the other. -/
theorem Occurs.separate {cs pre pre' post post' : List Char} {t t' : Template}
    (h : Occurs cs pre t post) (h' : Occurs cs pre' t' post') :
    (pre = pre' ∧ t = t' ∧ post = post') ∨
      (∃ n, pre' = pre ++ (t.write.toList ++ n) ∧ Occurs post n t' post') ∨
      (∃ n, pre = pre' ++ (t'.write.toList ++ n) ∧ Occurs post' n t post) := by
  -- Take the one that does not begin later as the first one; the other is the same, or after it.
  rcases List.append_eq_append_iff.mp (h.eq.symm.trans h'.eq) with ⟨m, hpre, heq⟩ | ⟨m, hpre, heq⟩
  · rcases eq_or_after h.wellFormed h'.wellFormed heq with ⟨rfl, rfl, rfl⟩ | ⟨n, rfl, hpost⟩
    · exact Or.inl ⟨by rw [hpre, List.append_nil], rfl, rfl⟩
    · exact Or.inr (Or.inl ⟨n, hpre, h'.wellFormed, hpost⟩)
  · rcases eq_or_after h'.wellFormed h.wellFormed heq with ⟨rfl, rfl, rfl⟩ | ⟨n, rfl, hpost⟩
    · exact Or.inl ⟨by rw [hpre, List.append_nil], rfl, rfl⟩
    · exact Or.inr (Or.inr ⟨n, hpre, h.wellFormed, hpost⟩)

theorem free_nil : Free [] := by
  intro pre t post h
  have hlength := congrArg List.length h.eq
  simp only [List.length_nil, List.length_append, length_toList_write] at hlength
  have := length_write_pos t
  omega

/-- A character in front of a text without templates begins none if the reader takes none there,
whatever follows the text. -/
theorem Free.cons {c : Char} {cs : List Char} (h : Free cs) (post : List Char)
    (hread : read? (c :: (cs ++ post)) = none) : Free (c :: cs) := by
  intro pre t post' hoccurs
  cases pre with
  | nil =>
      have heq : c :: (cs ++ post) = t.write.toList ++ (post' ++ post) := by
        rw [← List.cons_append, hoccurs.eq]
        simp
      rw [heq, read?_append hoccurs.wellFormed] at hread
      cases hread
  | cons d pre =>
      have heq := hoccurs.eq
      rw [List.cons_append, List.cons.injEq] at heq
      exact h pre t post' ⟨hoccurs.wellFormed, heq.2⟩

/-! ### The first template -/

/-- What is cut out of a text is its first template. -/
theorem occurs_of_cut? {cs before rest : List Char} {t : Template}
    (h : cut? cs = some (before, t, rest)) : Occurs cs before t rest ∧ Free before := by
  induction cs generalizing before with
  | nil => cases h
  | cons c cs ih =>
      unfold cut? at h
      split at h
      · rename_i t' rest' hread
        cases h
        obtain ⟨hwf, heq⟩ := eq_of_read? hread
        exact ⟨⟨hwf, heq⟩, free_nil⟩
      · rename_i hread
        obtain ⟨⟨before', t', rest'⟩, hcut, he⟩ := Option.map_eq_some_iff.mp h
        cases he
        obtain ⟨hoccurs, hfree⟩ := ih hcut
        rw [hoccurs.eq] at hread
        refine ⟨⟨hoccurs.wellFormed, ?_⟩, hfree.cons _ hread⟩
        rw [hoccurs.eq, List.cons_append]

/-- A text out of which nothing is cut holds no template. -/
theorem free_of_cut? {cs : List Char} (h : cut? cs = none) : Free cs := by
  induction cs with
  | nil => exact free_nil
  | cons c cs ih =>
      unfold cut? at h
      split at h
      · cases h
      · rename_i hread
        have hfree : Free cs := ih (Option.map_eq_none_iff.mp h)
        exact hfree.cons [] (by rw [List.append_nil]; exact hread)

/-! ### Parts -/

/-- A text in parts: no literal holds a template, and a template stands between each two. -/
inductive Splits : List Char → Parts → Prop
  | last {cs : List Char} (hfree : Free cs) : Splits cs ⟨[], cs⟩
  | cut {cs before rest : List Char} {t : Template} {following : Parts}
      (hoccurs : Occurs cs before t rest) (hfree : Free before) (hrest : Splits rest following) :
      Splits cs ⟨(before, t) :: following.parts, following.last⟩

theorem splits_split (cs : List Char) : Splits cs (split cs) := by
  rw [split]
  split
  · rename_i hcut
    exact Splits.last (free_of_cut? hcut)
  · rename_i before t rest hcut
    obtain ⟨hoccurs, hfree⟩ := occurs_of_cut? hcut
    exact Splits.cut hoccurs hfree (splits_split rest)
termination_by cs.length
decreasing_by exact length_cut? (by assumption)

/-- The templates of parts. -/
def Parts.templates (p : Parts) : List Template := p.parts.map Prod.snd

/-- The literals of parts, in order. -/
def Parts.literals (p : Parts) : List (List Char) := p.parts.map Prod.fst ++ [p.last]

theorem Splits.wellFormed {cs : List Char} {p : Parts} (h : Splits cs p) :
    ∀ t ∈ p.templates, t.WellFormed := by
  induction h with
  | last => simp [Parts.templates]
  | cut hoccurs _ _ ih =>
      intro t ht
      rcases List.mem_cons.mp ht with rfl | ht
      · exact hoccurs.wellFormed
      · exact ih t ht

theorem Splits.free {cs : List Char} {p : Parts} (h : Splits cs p) :
    ∀ l ∈ p.literals, Free l := by
  induction h with
  | last hfree => simpa [Parts.literals] using hfree
  | cut _ hfree _ ih =>
      intro l hl
      rcases List.mem_cons.mp hl with rfl | hl
      · exact hfree
      · exact ih l hl

/-! ### Spans -/

theorem start_le_of_mem_spansFrom {start : Nat} {parts : List (List Char × Template)} {a : Span}
    (h : a ∈ spansFrom start parts) : start ≤ a.start ∧ a.start < a.stop := by
  induction parts generalizing start with
  | nil => cases h
  | cons part parts ih =>
      obtain ⟨before, t⟩ := part
      have hpos := length_write_pos t
      simp only [spansFrom, List.mem_cons] at h
      rcases h with rfl | h
      · dsimp only
        omega
      · have := ih h
        omega

/-- Spans are in order and do not overlap. -/
theorem pairwise_spansFrom (start : Nat) (parts : List (List Char × Template)) :
    (spansFrom start parts).Pairwise fun a b => a.stop ≤ b.start := by
  induction parts generalizing start with
  | nil => exact List.Pairwise.nil
  | cons part parts ih =>
      obtain ⟨before, t⟩ := part
      rw [spansFrom]
      exact List.pairwise_cons.mpr ⟨fun b hb => (start_le_of_mem_spansFrom hb).1, ih _⟩

theorem template_spansFrom (start : Nat) (parts : List (List Char × Template)) :
    (spansFrom start parts).map (·.template) = parts.map Prod.snd := by
  induction parts generalizing start with
  | nil => rfl
  | cons part parts ih =>
      obtain ⟨before, t⟩ := part
      simp only [spansFrom, List.map_cons, ih]

/-- The spans of a split text are the places of all templates in it. -/
theorem Splits.mem_spansFrom_iff {cs : List Char} {p : Parts} (h : Splits cs p) {start i j : Nat}
    {t : Template} :
    ⟨i, j, t⟩ ∈ spansFrom start p.parts ↔
      ∃ pre post, Occurs cs pre t post ∧ i = start + pre.length ∧ j = i + t.write.length := by
  induction h generalizing start with
  | last hfree =>
      constructor
      · intro hmem
        cases hmem
      · rintro ⟨pre, post, hoccurs, -⟩
        exact absurd hoccurs (hfree pre t post)
  | @cut cs before rest t' following hoccurs hfree hrest ih =>
      rw [spansFrom, List.mem_cons, ih]
      constructor
      · rintro (heq | ⟨pre, post, hin, hi, hj⟩)
        · cases heq
          exact ⟨before, rest, hoccurs, rfl, rfl⟩
        · -- A place in the rest is a place in the whole text, as much further on.
          refine ⟨before ++ (t'.write.toList ++ pre), post, ⟨hin.wellFormed, ?_⟩, ?_, hj⟩
          · rw [hoccurs.eq, hin.eq]
            simp
          · simp only [List.length_append, length_toList_write]
            omega
      · rintro ⟨pre, post, hin, hi, hj⟩
        rcases hoccurs.separate hin with ⟨rfl, rfl, rfl⟩ | ⟨n, rfl, hafter⟩ | ⟨n, hbefore, -⟩
        · exact Or.inl (by rw [hi, hj, hi])
        · refine Or.inr ⟨n, post, hafter, ?_, hj⟩
          simp only [List.length_append, length_toList_write] at hi
          omega
        · -- It would stand in the literal before the first template.
          exact absurd ⟨hin.wellFormed, hbefore⟩ (hfree pre t n)

/-- A slice of a text is a template exactly if the template stands there. -/
theorem parse_slice_eq_ok_iff {s : String} {i j : Nat} {t : Template} (hj : j ≤ s.length) :
    parse (Text.slice s i j) = .ok t ↔
      ∃ pre post, Occurs s.toList pre t post ∧ i = pre.length ∧ j = i + t.write.length := by
  have hpos := length_write_pos t
  rw [parse_eq_ok_iff, Text.slice, ← String.toList_inj, String.toList_ofList]
  rw [List.extract_eq_take_drop]
  constructor
  · rintro ⟨hwf, heq⟩
    have hlength := congrArg List.length heq
    rw [List.length_take, List.length_drop, length_toList_write, String.length_toList] at hlength
    have hdrop : s.toList.drop j = (s.toList.drop i).drop (j - i) := by
      rw [List.drop_drop]
      congr 1
      omega
    refine ⟨s.toList.take i, s.toList.drop j, ⟨hwf, ?_⟩, ?_, by omega⟩
    · rw [← heq, hdrop, List.take_append_drop, List.take_append_drop]
    · rw [List.length_take, String.length_toList]
      omega
  · rintro ⟨pre, post, hoccurs, rfl, rfl⟩
    refine ⟨hoccurs.wellFormed, ?_⟩
    rw [hoccurs.eq, List.drop_left, Nat.add_sub_cancel_left, ← length_toList_write,
      List.take_left]

/-- **The spans of a text are all templates in it.** A slice of a text is a template exactly if
there is a span for it, which names that template; the spans are listed in order; and no two
slices that are templates overlap, so that a scan from the left misses none. -/
theorem spans_exact (s : String) :
    (∀ i j t, ⟨i, j, t⟩ ∈ spans s ↔ j ≤ s.length ∧ parse (Text.slice s i j) = .ok t) ∧
      (∀ a ∈ spans s, a.start < a.stop) ∧
      ((spans s).Pairwise fun a b => a.stop ≤ b.start) ∧
      ∀ i j t i' j' t', j ≤ s.length → parse (Text.slice s i j) = .ok t →
        j' ≤ s.length → parse (Text.slice s i' j') = .ok t' →
        (i = i' ∧ j = j') ∨ j ≤ i' ∨ j' ≤ i := by
  have hsplits := splits_split s.toList
  refine ⟨fun i j t => ?_, fun a ha => (start_le_of_mem_spansFrom ha).2,
    pairwise_spansFrom 0 _, fun i j t i' j' t' hj hparse hj' hparse' => ?_⟩
  · rw [spans, hsplits.mem_spansFrom_iff]
    simp only [Nat.zero_add]
    constructor
    · rintro ⟨pre, post, hoccurs, rfl, rfl⟩
      have hj : pre.length + t.write.length ≤ s.length := by
        have hlength := congrArg List.length hoccurs.eq
        simp only [List.length_append, String.length_toList] at hlength
        omega
      exact ⟨hj, (parse_slice_eq_ok_iff hj).mpr ⟨pre, post, hoccurs, rfl, rfl⟩⟩
    · rintro ⟨hj, hparse⟩
      exact (parse_slice_eq_ok_iff hj).mp hparse
  · obtain ⟨pre, post, hoccurs, hi, hstop⟩ := (parse_slice_eq_ok_iff hj).mp hparse
    obtain ⟨pre', post', hoccurs', hi', hstop'⟩ := (parse_slice_eq_ok_iff hj').mp hparse'
    rcases hoccurs.separate hoccurs' with ⟨rfl, rfl, -⟩ | ⟨n, rfl, -⟩ | ⟨n, rfl, -⟩
    · exact Or.inl ⟨by omega, by omega⟩
    · simp only [List.length_append, length_toList_write] at hi'
      exact Or.inr (Or.inl (by omega))
    · simp only [List.length_append, length_toList_write] at hi
      exact Or.inr (Or.inr (by omega))

/-- A third brace in front of a template, and another template right behind it. -/
theorem spans_exact_adjacent :
    let s := "\x7b\x7b\x7bingredients:a\x7d\x7d\x7b\x7bsupplies:b\x7d\x7d"
    (18 ≤ s.length ∧ parse (Text.slice s 1 18) = .ok ⟨.ingredient, "a"⟩) ∧
      (32 ≤ s.length ∧ parse (Text.slice s 18 32) = .ok ⟨.supply, "b"⟩) ∧
      ⟨1, 18, ⟨.ingredient, "a"⟩⟩ ∈ spans s ∧ ⟨18, 32, ⟨.supply, "b"⟩⟩ ∈ spans s ∧
      ((1 = 18 ∧ 18 = 32) ∨ 18 ≤ 18 ∨ 32 ≤ 1) := by
  intro s
  have hfirst : 18 ≤ s.length ∧ parse (Text.slice s 1 18) = .ok ⟨.ingredient, "a"⟩ :=
    ⟨by decide, parse_eq_ok_iff_read?.mpr (by decide)⟩
  have hsecond : 32 ≤ s.length ∧ parse (Text.slice s 18 32) = .ok ⟨.supply, "b"⟩ :=
    ⟨by decide, parse_eq_ok_iff_read?.mpr (by decide)⟩
  obtain ⟨hmem, -, -, hseparate⟩ := spans_exact s
  exact ⟨hfirst, hsecond, (hmem _ _ _).mpr hfirst, (hmem _ _ _).mpr hsecond,
    hseparate _ _ _ _ _ _ hfirst.1 hfirst.2 hsecond.1 hsecond.2⟩

end Template

end Cookbook
