import Cookbook.Template
/-!
# Cookbook.Proofs.Template.Grammar

The reader of templates against what is written. The reader takes a template from the front of a
text exactly when the text begins with the written form of a well-formed template
(`read?_eq_some_iff`). Parsing a whole text gives what the reader finds in it
(`parse_eq_ok_iff_read?`), so a whole text is a template exactly when it is the written form of one
(`parse_eq_ok_iff`). `Token` is the grammar without the writer, each word spelled out; parsing
accepts it and nothing else, and is the inverse of writing (`parse_exact`).

Written forms do not overlap. The two opening braces are the only opening braces in a written form,
so no other template can begin inside of it (`read?_eq_none_of_inside`); everything that is said
about scanning rests on `eq_or_after`.
-/

namespace Cookbook

namespace TemplateKind

/-- No word with its colon begins with another one, so the kind that is read is the one that is
written. -/
theorem read?_append (k : TemplateKind) (rest : List Char) :
    read? ((k.word ++ ":").toList ++ rest) = some (k, rest) := by
  cases k <;> simp [read?, all, word, Text.after?]

end TemplateKind

namespace Template

instance (t : Template) : Decidable t.WellFormed :=
  decidable_of_iff ((!t.id.toList.isEmpty && t.id.toList.all isIdChar) = true) <| by
    simp only [Bool.and_eq_true, Bool.not_eq_true', List.isEmpty_eq_false_iff, List.all_eq_true]
    exact ⟨fun h => ⟨h.1, h.2⟩, fun h => ⟨h.id_ne, h.id_chars⟩⟩

/-! ### The written form -/

/-- No opening brace stands in a written form after the first two characters. -/
theorem brace_not_mem_drop_write {t : Template} (h : t.WellFormed) :
    '\x7b' ∉ t.write.toList.drop 2 := by
  have hid : '\x7b' ∉ t.id.toList := fun hmem =>
    absurd (h.id_chars _ hmem) (by decide)
  have hword : '\x7b' ∉ (t.kind.word ++ ":").toList := by
    cases t.kind <;> simp [TemplateKind.word]
  rw [toList_write]
  simp only [List.drop_succ_cons, List.drop_zero, List.mem_append, not_or]
  exact ⟨⟨hword, hid⟩, by decide⟩

/-! ### Reading -/

theorem readInside?_append {t : Template} (h : t.WellFormed) (rest : List Char) :
    readInside? ((t.kind.word ++ ":").toList ++ t.id.toList ++ '\x7d' :: '\x7d' :: rest) =
      some (t, rest) := by
  -- The id ends at the first closing brace, since a brace is no character of an id.
  have hbrace : isIdChar '\x7d' = false := by decide
  have htake : (t.id.toList ++ '\x7d' :: '\x7d' :: rest).takeWhile isIdChar = t.id.toList := by
    rw [List.takeWhile_append_of_pos h.id_chars, List.takeWhile_cons_of_neg (by simp [hbrace]),
      List.append_nil]
  have hdrop : (t.id.toList ++ '\x7d' :: '\x7d' :: rest).dropWhile isIdChar =
      '\x7d' :: '\x7d' :: rest := by
    rw [List.dropWhile_append_of_pos h.id_chars, List.dropWhile_cons_of_neg (by simp [hbrace])]
  obtain ⟨c, id, hid⟩ := List.exists_cons_of_ne_nil h.id_ne
  unfold readInside?
  rw [List.append_assoc, TemplateKind.read?_append]
  dsimp only
  rw [htake, hdrop, hid]
  show some ((⟨t.kind, String.ofList (c :: id)⟩ : Template), rest) = some (t, rest)
  rw [← hid, String.ofList_toList]

theorem read?_append {t : Template} (h : t.WellFormed) (rest : List Char) :
    read? (t.write.toList ++ rest) = some (t, rest) := by
  have hwrite : t.write.toList ++ rest = '\x7b' :: '\x7b' ::
      ((t.kind.word ++ ":").toList ++ t.id.toList ++ '\x7d' :: '\x7d' :: rest) := by
    rw [toList_write]
    simp
  rw [hwrite]
  exact readInside?_append h rest

/-- The reader takes a template exactly from those texts that begin with its written form. -/
theorem read?_eq_some_iff {cs rest : List Char} {t : Template} :
    read? cs = some (t, rest) ↔ t.WellFormed ∧ cs = t.write.toList ++ rest :=
  ⟨eq_of_read?, fun ⟨h, hcs⟩ => hcs ▸ read?_append h rest⟩

/-! ### Parsing -/

/-- The reader finds in a whole text what is taken out of it after the check. -/
theorem parse_eq_ok_iff_read? {s : String} {t : Template} :
    parse s = .ok t ↔ read? s.toList = some (t, []) := by
  unfold parse
  split
  · rename_i h
    obtain ⟨t', ht'⟩ := isTemplate_iff.mp h
    simp [extract?_of_read? ht', ht']
  · rename_i h
    constructor
    · intro hparse
      cases hparse
    · intro hread
      exact absurd (isTemplate_iff.mpr ⟨t, hread⟩) h

/-- A whole text is a template exactly when it is the written form of it. -/
theorem parse_eq_ok_iff {s : String} {t : Template} :
    parse s = .ok t ↔ t.WellFormed ∧ s = t.write := by
  rw [parse_eq_ok_iff_read?, read?_eq_some_iff, List.append_nil, String.toList_inj]

/-! ### The grammar -/

/-- The words that stand for the kinds. -/
inductive Spells : String → TemplateKind → Prop
  | ingredients : Spells "ingredients" .ingredient
  | supplies : Spells "supplies" .supply
  | useIngredients : Spells "useIngredients" .useIngredient
  | useSupplies : Spells "useSupplies" .useSupply

/-- A text of at least one character, over the letters from `a` to `z` and the hyphen. -/
structure IsTokenId (x : String) : Prop where
  ne : x ≠ ""
  chars : ∀ c ∈ x.toList, ('a' ≤ c ∧ c ≤ 'z') ∨ c = '-'

/-- The texts that are templates: two opening braces, a word, a colon, an id, two closing braces. -/
inductive Token : String → Template → Prop
  | intro {word x : String} {kind : TemplateKind} (hkind : Spells word kind) (hx : IsTokenId x) :
      Token ("\x7b\x7b" ++ word ++ ":" ++ x ++ "\x7d\x7d") ⟨kind, x⟩

theorem spells_word (k : TemplateKind) : Spells k.word k := by
  cases k <;> constructor

theorem eq_word_of_spells {word : String} {kind : TemplateKind} (h : Spells word kind) :
    word = kind.word := by
  cases h <;> rfl

theorem isIdChar_iff {c : Char} : isIdChar c = true ↔ ('a' ≤ c ∧ c ≤ 'z') ∨ c = '-' := by
  simp [isIdChar]

theorem wellFormed_iff {t : Template} : t.WellFormed ↔ IsTokenId t.id := by
  constructor
  · intro h
    refine ⟨fun hempty => h.id_ne ?_, fun c hc => isIdChar_iff.mp (h.id_chars c hc)⟩
    rw [hempty]
    rfl
  · intro h
    refine ⟨fun hnil => h.ne ?_, fun c hc => isIdChar_iff.mpr (h.chars c hc)⟩
    exact String.toList_inj.mp hnil

/-- The grammar describes what is written of well-formed templates. -/
theorem token_iff {s : String} {t : Template} : Token s t ↔ t.WellFormed ∧ s = t.write := by
  constructor
  · rintro ⟨hkind, hx⟩
    rw [eq_word_of_spells hkind]
    exact ⟨wellFormed_iff.mpr hx, rfl⟩
  · rintro ⟨hwf, rfl⟩
    exact .intro (spells_word t.kind) (wellFormed_iff.mp hwf)

theorem parse_eq_ok_iff_token {s : String} {t : Template} : parse s = .ok t ↔ Token s t := by
  rw [parse_eq_ok_iff, token_iff]

/-- A text that is no template is reported as such, and there is no other fault. -/
theorem parse_cases (s : String) : (∃ t, parse s = .ok t) ∨ parse s = .error (.notATemplate s) := by
  unfold parse
  split
  · exact Or.inl ⟨_, rfl⟩
  · exact Or.inr rfl

theorem parse_eq_error_iff {s : String} :
    parse s = .error (.notATemplate s) ↔ ∀ t, ¬ Token s t := by
  constructor
  · intro h t ht
    rw [parse_eq_ok_iff_token.mpr ht] at h
    cases h
  · intro h
    rcases parse_cases s with ⟨t, ht⟩ | herror
    · exact absurd (parse_eq_ok_iff_token.mp ht) (h t)
    · exact herror

/-- **Parsing is exact and the inverse of writing.** It accepts the texts of the grammar, with their
kind and their id, and reports every other one. Writing what was parsed gives the text again, and
parsing what was written gives the template again. -/
theorem parse_exact :
    (∀ s t, parse s = .ok t ↔ Token s t) ∧
      (∀ s, parse s = .error (.notATemplate s) ↔ ∀ t, ¬ Token s t) ∧
      (∀ s t, parse s = .ok t → t.write = s) ∧
      ∀ kind x, IsTokenId x → parse (write ⟨kind, x⟩) = .ok ⟨kind, x⟩ := by
  refine ⟨fun s t => parse_eq_ok_iff_token, fun s => parse_eq_error_iff, ?_, ?_⟩
  · intro s t h
    exact (parse_eq_ok_iff.mp h).2.symm
  · intro kind x hx
    exact parse_eq_ok_iff.mpr ⟨wellFormed_iff.mpr hx, rfl⟩

/-- An id of hyphens only, and one with a colon, which the grammar does not have. -/
theorem parse_exact_hyphens :
    parse "\x7b\x7buseSupplies:--\x7d\x7d" = .ok ⟨.useSupply, "--"⟩ ∧
      write ⟨.useSupply, "--"⟩ = "\x7b\x7buseSupplies:--\x7d\x7d" ∧
      IsTokenId "--" ∧ parse (write ⟨.useSupply, "--"⟩) = .ok ⟨.useSupply, "--"⟩ ∧
      ∀ t, ¬ Token "\x7b\x7bsupplies:a:b\x7d\x7d" t := by
  obtain ⟨-, herror, hwrite, hparse⟩ := parse_exact
  have hread : parse "\x7b\x7buseSupplies:--\x7d\x7d" = .ok ⟨.useSupply, "--"⟩ :=
    parse_eq_ok_iff_read?.mpr rfl
  have hid : IsTokenId "--" := wellFormed_iff.mp (parse_eq_ok_iff.mp hread).1
  have hcolon : parse "\x7b\x7bsupplies:a:b\x7d\x7d" =
      .error (.notATemplate "\x7b\x7bsupplies:a:b\x7d\x7d") := dif_neg (by decide)
  exact ⟨hread, hwrite _ _ hread, hid, hparse _ _ hid, (herror _).mp hcolon⟩

/-! ### Written forms do not overlap -/

/-- Inside of a written form no template begins, whatever comes after it. -/
theorem read?_eq_none_of_inside {t : Template} (h : t.WellFormed) {p q : List Char}
    (hpq : t.write.toList = p ++ q) (hp : p ≠ []) (hq : q ≠ []) (rest : List Char) :
    read? (q ++ rest) = none := by
  cases hr : read? (q ++ rest) with
  | none => rfl
  | some found =>
      exfalso
      obtain ⟨t', rest'⟩ := found
      obtain ⟨-, hq'⟩ := eq_of_read? hr
      rw [toList_write] at hq'
      obtain ⟨c, p, rfl⟩ := List.exists_cons_of_ne_nil hp
      obtain ⟨d, q, rfl⟩ := List.exists_cons_of_ne_nil hq
      simp only [List.cons_append, List.cons.injEq] at hq'
      obtain ⟨hd, hq'⟩ := hq'
      have hbrace := brace_not_mem_drop_write h
      rw [hpq] at hbrace
      cases p with
      | cons c' p => exact hbrace (by simp [hd])
      | nil =>
          -- The template would begin at the second opening brace, and a third one follow it.
          cases q with
          | cons e q =>
              simp only [List.cons_append, List.cons.injEq] at hq'
              exact hbrace (by simp [hq'.1])
          | nil =>
              rw [toList_write] at hpq
              have hlength := congrArg List.length hpq
              simp at hlength

/-- A template in a text that begins with another one is that one, or comes after it. -/
theorem eq_or_after {t t' : Template} (h : t.WellFormed) (h' : t'.WellFormed)
    {post m post' : List Char}
    (heq : t.write.toList ++ post = m ++ (t'.write.toList ++ post')) :
    (m = [] ∧ t = t' ∧ post = post') ∨
      ∃ n, m = t.write.toList ++ n ∧ post = n ++ (t'.write.toList ++ post') := by
  rcases List.append_eq_append_iff.mp heq with ⟨n, hm, hpost⟩ | ⟨q, hwrite, hq⟩
  · exact Or.inr ⟨n, hm, hpost⟩
  · by_cases hm : m = []
    · -- Both stand at the front, where the reader finds one template only.
      subst hm
      have hread := read?_append h post
      rw [heq, List.nil_append, read?_append h' post'] at hread
      cases hread
      exact Or.inl ⟨rfl, rfl, rfl⟩
    · by_cases hq0 : q = []
      · subst hq0
        refine Or.inr ⟨[], ?_, ?_⟩
        · rw [List.append_nil, hwrite, List.append_nil]
        · rw [List.nil_append]
          exact hq.symm
      · -- The second one would begin inside of the first one.
        have hnone := read?_eq_none_of_inside h hwrite hm hq0 post
        rw [← hq, read?_append h'] at hnone
        cases hnone

end Template

end Cookbook
