import Cookbook.Proofs.Template.Scan
/-!
# Cookbook.Proofs.Template.Weave

A text woven of its literals and its templates. With all templates in their places the literals are
the text (`Splits.weave_write`); with some of them left out they are the text without the spans of
those (`Splits.outside_eq`).

What stands outside of spans is said position by position, without regard to what the spans hold, so
the induction on the parts has to keep account of where in the text a part starts.
-/

namespace Cookbook

/-- Pieces in order, with something between each two neighbours. -/
def weave {α : Type} : List (List α) → List (List α) → List α
  | piece :: pieces, between :: gaps => piece ++ (between ++ weave pieces gaps)
  | pieces, _ => pieces.flatten

theorem weave_flatMap {α β : Type} (f : α → List β) (pieces gaps : List (List α)) :
    (weave pieces gaps).flatMap f =
      weave (pieces.map (·.flatMap f)) (gaps.map (·.flatMap f)) := by
  induction pieces generalizing gaps with
  | nil => cases gaps <;> rfl
  | cons piece pieces ih =>
      cases gaps with
      | nil => simp [weave, List.flatMap_def, List.flatten_flatten, Function.comp_def]
      | cons between gaps => simp [weave, ih]

namespace Template

/-- The literals and the written templates of a split text are the text. -/
theorem Splits.weave_write {cs : List Char} {p : Parts} (h : Splits cs p) :
    weave p.literals (p.templates.map fun t => t.write.toList) = cs := by
  induction h with
  | @last cs _ => exact List.append_nil cs
  | cut hoccurs _ _ ih =>
      rw [hoccurs.eq, ← ih]
      rfl

/-! ### Text outside of spans -/

/-- A position is inside of a span. -/
def Span.covers (a : Span) (i : Nat) : Bool := a.start ≤ i && i < a.stop

/-- The characters that stand outside of spans, in a text whose first character is at `start`. -/
def outside (spans : List Span) (start : Nat) (cs : List Char) : List Char :=
  ((cs.zipIdx start).filter fun (_, i) => !spans.any (·.covers i)).map Prod.fst

/-- A text without what stands inside of spans. -/
def without (s : String) (spans : List Span) : String := String.ofList (outside spans 0 s.toList)

theorem outside_append (spans : List Span) (start : Nat) (cs ds : List Char) :
    outside spans start (cs ++ ds) =
      outside spans start cs ++ outside spans (start + cs.length) ds := by
  simp only [outside, List.zipIdx_append, List.filter_append, List.map_append]

/-- A text before all spans is left as it is. -/
theorem outside_of_before {spans : List Span} {start : Nat} {cs : List Char}
    (h : ∀ a ∈ spans, start + cs.length ≤ a.start) : outside spans start cs = cs := by
  have hkept : (cs.zipIdx start).filter (fun (_, i) => !spans.any (·.covers i)) =
      cs.zipIdx start := by
    rw [List.filter_eq_self]
    rintro ⟨c, i⟩ hmem
    have hi := (List.mem_zipIdx hmem).2.1
    simp only [Bool.not_eq_true', List.any_eq_false, Span.covers, Bool.and_eq_true,
      decide_eq_true_eq]
    intro a ha
    have := h a ha
    omega
  rw [outside, hkept, List.zipIdx_map_fst]

/-- Nothing is left of a text inside of a span. -/
theorem outside_of_inside {spans : List Span} {start : Nat} {cs : List Char} {a : Span}
    (ha : a ∈ spans) (hstart : a.start ≤ start) (hstop : start + cs.length ≤ a.stop) :
    outside spans start cs = [] := by
  have hnone : (cs.zipIdx start).filter (fun (_, i) => !spans.any (·.covers i)) = [] := by
    rw [List.filter_eq_nil_iff]
    rintro ⟨c, i⟩ hmem
    obtain ⟨hle, hlt, -⟩ := List.mem_zipIdx hmem
    have hcovers : spans.any (·.covers i) = true := by
      refine List.any_eq_true.mpr ⟨a, ha, ?_⟩
      simp only [Span.covers, Bool.and_eq_true, decide_eq_true_eq]
      omega
    simp [hcovers]
  rw [outside, hnone, List.map_nil]

/-- A span that ends before a text takes nothing of it. -/
theorem outside_cons_of_stop_le {a : Span} {start : Nat} (h : a.stop ≤ start) (spans : List Span)
    (cs : List Char) : outside (a :: spans) start cs = outside spans start cs := by
  unfold outside
  congr 1
  refine List.filter_congr ?_
  rintro ⟨c, i⟩ hmem
  have hle := (List.mem_zipIdx hmem).1
  have hcovers : a.covers i = false := by
    simp only [Span.covers, Bool.and_eq_false_iff, decide_eq_false_iff_not]
    omega
  simp [hcovers]

/-- Nothing is taken of a text up to the first span. -/
theorem outside_append_of_before {spans : List Span} {start stop : Nat} {cs ds : List Char}
    (hstop : start + cs.length = stop) (h : ∀ a ∈ spans, stop ≤ a.start) :
    outside spans start (cs ++ ds) = cs ++ outside spans stop ds := by
  have hkept : outside spans start cs = cs := outside_of_before fun a ha => hstop ▸ h a ha
  rw [outside_append, hkept, hstop]

/-- A span takes what it covers and leaves what is before it and after it. -/
theorem outside_append_of_span {a : Span} {spans : List Span} {start : Nat}
    {before within after : List Char} (hstart : start + before.length = a.start)
    (hstop : a.start + within.length = a.stop) (h : ∀ b ∈ spans, a.stop ≤ b.start) :
    outside (a :: spans) start (before ++ (within ++ after)) =
      before ++ outside spans a.stop after := by
  have hbefore : ∀ b ∈ a :: spans, a.start ≤ b.start := by
    intro b hb
    rcases List.mem_cons.mp hb with rfl | hb
    · exact Nat.le_refl _
    · have := h b hb
      omega
  have hwithin : outside (a :: spans) a.start within = [] :=
    outside_of_inside List.mem_cons_self (Nat.le_refl _) (Nat.le_of_eq hstop)
  rw [outside_append_of_before hstart hbefore, outside_append, hwithin, hstop,
    outside_cons_of_stop_le (Nat.le_refl _), List.nil_append]

/-- The text without the templates that are not kept is woven of the literals and the templates
that are. -/
theorem Splits.outside_eq {cs : List Char} {p : Parts} (h : Splits cs p) (keep : Template → Bool)
    (start : Nat) :
    outside ((spansFrom start p.parts).filter fun a => !keep a.template) start cs =
      weave p.literals (p.templates.map fun t => if keep t then t.write.toList else []) := by
  induction h generalizing start with
  | @last cs _ =>
      have hkept : outside [] start cs = cs := outside_of_before (by simp)
      exact hkept.trans (List.append_nil cs).symm
  | @cut cs before rest t following hoccurs _ _ ih =>
      let a : Span := ⟨start + before.length, start + before.length + t.write.length, t⟩
      let later := (spansFrom a.stop following.parts).filter fun a => !keep a.template
      -- The induction hypothesis is about the text after this template, and all spans that it
      -- speaks of are there.
      have hlater : ∀ b ∈ later, a.stop ≤ b.start := fun b hb =>
        (start_le_of_mem_spansFrom (List.mem_filter.mp hb).1).1
      have hwrite : a.start + t.write.toList.length = a.stop := by rw [length_toList_write]
      show outside (List.filter _ (a :: spansFrom a.stop following.parts)) start cs =
        before ++ ((if keep t then t.write.toList else []) ++ weave following.literals
          (following.templates.map fun t => if keep t then t.write.toList else []))
      rw [hoccurs.eq, ← ih a.stop]
      cases hkeep : keep t with
      | true =>
          -- A template that is kept is no more than text before the next span.
          have hboth : start + (before ++ t.write.toList).length = a.stop := by
            rw [List.length_append, ← Nat.add_assoc]
            exact hwrite
          rw [List.filter_cons_of_neg (by simp [a, hkeep]), ← List.append_assoc,
            outside_append_of_before hboth hlater, List.append_assoc]
          rfl
      | false =>
          rw [List.filter_cons_of_pos (by simp [a, hkeep])]
          exact outside_append_of_span rfl hwrite hlater

example : without "a\x7b\x7bsupplies:b\x7d\x7dc" [⟨1, 15, ⟨.supply, "b"⟩⟩] = "ac" := by
  decide +kernel

end Template

end Cookbook
