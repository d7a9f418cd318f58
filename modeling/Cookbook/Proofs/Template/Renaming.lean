import Mathlib.Data.List.Basic
import Cookbook.Proofs.Template.Weave
/-!
# Cookbook.Proofs.Template.Renaming

Other ids in a text. Every template in a text gets another id, and the literals stay as they are.
The scan of the new text finds the same literals with the renamed templates between them
(`split_renamed`): a text has only one split (`Splits.unique`), and what was put together from
literals without templates and well-formed templates is split into just these.
-/

namespace Cookbook

/-- Another id for every id. Two ids stay two, and the ids that templates can have stay such ids. -/
structure Renaming where
  newId : String → String
  injective : Function.Injective newId
  isTokenId : ∀ x, Template.IsTokenId x → Template.IsTokenId (newId x)

namespace Template

/-- A template with another id. -/
def renamed (t : Template) (s : Renaming) : Template := { t with id := s.newId t.id }

/-- A text with another id in each of its templates. -/
def renameIds (s : Renaming) (text : String) : String :=
  let p := split text.toList
  String.ofList (weave p.literals (p.templates.map fun t => (t.renamed s).write.toList))

/-- Parts with another id in each template. -/
def Parts.renamed (p : Parts) (s : Renaming) : Parts :=
  ⟨p.parts.map fun (before, t) => (before, t.renamed s), p.last⟩

variable {cs : List Char} {p q : Parts} {t : Template} {s : Renaming}

theorem WellFormed.renamed (h : t.WellFormed) (s : Renaming) : (t.renamed s).WellFormed :=
  wellFormed_iff.mpr (s.isTokenId _ (wellFormed_iff.mp h))

/-- A text has one split: a template that stands in one of them stands in no literal of the
other. -/
theorem Splits.unique (hp : Splits cs p) (hq : Splits cs q) : p = q := by
  induction hp generalizing q with
  | last hfree =>
      cases hq with
      | last => rfl
      | cut hoccurs => exact absurd hoccurs (hfree _ _ _)
  | cut hoccurs hfree _ ih =>
      cases hq with
      | last hfree' => exact absurd hoccurs (hfree' _ _ _)
      | cut hoccurs' hfree' hrest' =>
          -- Templates do not overlap, so if these two are not the same, one is in a literal of the
          -- other.
          rcases hoccurs.separate hoccurs' with ⟨rfl, rfl, rfl⟩ | ⟨n, rfl, -⟩ | ⟨n, rfl, -⟩
          · rw [ih hrest']
          · exact absurd ⟨hoccurs.wellFormed, rfl⟩ (hfree' _ _ _)
          · exact absurd ⟨hoccurs'.wellFormed, rfl⟩ (hfree _ _ _)

/-- With other ids in the templates the literals are still free of templates, and so the text is
still split where it was. -/
theorem Splits.renamed (h : Splits cs p) (s : Renaming) :
    Splits (weave p.literals (p.templates.map fun t => (t.renamed s).write.toList))
      (p.renamed s) := by
  induction h with
  | @last cs hfree =>
      have hwoven : weave [cs] [] = cs := List.append_nil cs
      exact hwoven.symm ▸ .last hfree
  | cut hoccurs hfree _ ih => exact .cut ⟨hoccurs.wellFormed.renamed s, rfl⟩ hfree ih

theorem split_renamed (s : Renaming) (text : String) :
    split (renameIds s text).toList = (split text.toList).renamed s := by
  rw [renameIds, String.toList_ofList]
  exact (splits_split _).unique ((splits_split text.toList).renamed s)

/-- There is nothing to rename in an empty text. -/
theorem renameIds_empty (s : Renaming) : renameIds s "" = "" := by
  have hsplit : split "".toList = ⟨[], []⟩ := (splits_split _).unique (.last free_nil)
  rw [renameIds, hsplit]
  rfl

/-- Ids written backwards. -/
def reversed : Renaming where
  newId x := String.ofList x.toList.reverse
  injective := by
    intro x y h
    exact String.toList_inj.mp (List.reverse_injective (String.ofList_inj.mp h))
  isTokenId := by
    intro x hx
    refine ⟨fun hempty => hx.ne ?_, fun c hc => hx.chars c ?_⟩
    · simpa using hempty
    · simpa using hc

example : renameIds reversed "\x7b\x7bsupplies:pan\x7d\x7d and \x7b\x7bsupplies:Pan\x7d\x7d" =
    "\x7b\x7bsupplies:nap\x7d\x7d and \x7b\x7bsupplies:Pan\x7d\x7d" := by decide +kernel

end Template

end Cookbook
