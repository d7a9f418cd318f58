import Cookbook.Fault
import Cookbook.Text.Fields
import Cookbook.Text.Part
/-!
# Cookbook.Template

Templates in the text of a step. A template stands between double braces and names what it refers
to: a kind, a colon, and an id of small letters and hyphens.

One reader serves both uses: a text *is* a template when the reader takes all of it, and a text is
*split* by trying the reader at each place from the left. The places found this way are spans of
the text, and what lies between them is literal.

A whole text is *parsed* in two parts that know nothing of each other. It is checked with the
reader, and then taken apart where a template has its braces and its colon. Both go by the same
grammar: what was checked is taken apart into what the reader finds in it (`extract?_of_read?`).
-/

namespace Cookbook

/-- What a template refers to: a whole ingredient or supply of the recipe, or its use in the
step. -/
inductive TemplateKind
  | ingredient
  | supply
  | useIngredient
  | useSupply
deriving DecidableEq, Repr

namespace TemplateKind

/-- A kind as a template spells it. -/
def word : TemplateKind → String
  | ingredient => "ingredients"
  | supply => "supplies"
  | useIngredient => "useIngredients"
  | useSupply => "useSupplies"

/-- Every kind. -/
def all : List TemplateKind := [useIngredient, ingredient, useSupply, supply]

/-- The kind whose word, with a colon, stands at the front of a text, and the rest. -/
def read? (cs : List Char) : Option (TemplateKind × List Char) :=
  all.findSome? fun k => (Text.after? (k.word ++ ":").toList cs).map fun rest => (k, rest)

/-- A kind that was read stands at the front as its word, with a colon. -/
theorem eq_of_read? {cs rest : List Char} {k : TemplateKind} (h : read? cs = some (k, rest)) :
    cs = (k.word ++ ":").toList ++ rest := by
  obtain ⟨k', -, hk⟩ := List.exists_of_findSome?_eq_some h
  obtain ⟨rest', hafter, he⟩ := Option.map_eq_some_iff.1 hk
  cases he
  exact Text.after?_eq_some_iff.1 hafter

/-- The kind that a word stands for. -/
def ofWord? (word : String) : Option TemplateKind := all.find? (·.word == word)

theorem ofWord?_word (k : TemplateKind) : ofWord? k.word = some k := by cases k <;> decide

end TemplateKind

/-- A reference that the text of a step makes. -/
structure Template where
  kind : TemplateKind
  id : String
deriving DecidableEq, Repr

namespace Template

/-- The characters of an id: small letters and the hyphen. -/
def isIdChar (c : Char) : Bool := ('a' ≤ c && c ≤ 'z') || c == '-'

/-- A template that a text can hold: its id is not empty, and consists of small letters and
hyphens. -/
structure WellFormed (t : Template) : Prop where
  id_ne : t.id.toList ≠ []
  id_chars : ∀ c ∈ t.id.toList, isIdChar c = true

/-- A template as text. -/
def write (t : Template) : String := "\x7b\x7b" ++ t.kind.word ++ ":" ++ t.id ++ "\x7d\x7d"

theorem toList_write (t : Template) :
    t.write.toList = '\x7b' :: '\x7b' ::
      ((t.kind.word ++ ":").toList ++ t.id.toList ++ ['\x7d', '\x7d']) := by
  simp [write]

theorem length_toList_write (t : Template) : t.write.toList.length = t.write.length :=
  String.length_toList

theorem length_write_pos (t : Template) : 0 < t.write.length := by
  rw [← length_toList_write, toList_write]
  exact Nat.succ_pos _

/-! ### Reading -/

/-- What follows the opening braces: a kind and an id, both braces, and the rest. -/
def readInside? (cs : List Char) : Option (Template × List Char) :=
  match TemplateKind.read? cs with
  | none => none
  | some (kind, cs) =>
    match cs.takeWhile isIdChar, cs.dropWhile isIdChar with
    | c :: id, '\x7d' :: '\x7d' :: rest => some (⟨kind, String.ofList (c :: id)⟩, rest)
    | _, _ => none

/-- The template at the front of a text, and the rest. -/
def read? (cs : List Char) : Option (Template × List Char) :=
  match cs with
  | '\x7b' :: '\x7b' :: cs => readInside? cs
  | _ => none

/-- A template that was read is well formed and stands written at the front. -/
theorem eq_of_readInside? {cs rest : List Char} {t : Template}
    (h : readInside? cs = some (t, rest)) :
    t.WellFormed ∧
      cs = (t.kind.word ++ ":").toList ++ t.id.toList ++ '\x7d' :: '\x7d' :: rest := by
  unfold readInside? at h
  split at h
  · cases h
  · rename_i kind body hk
    split at h
    · rename_i c id rest' htake hdrop
      cases h
      have hbody : body = (c :: id) ++ '\x7d' :: '\x7d' :: rest := by
        rw [← htake, ← hdrop, List.takeWhile_append_dropWhile]
      have hchars : ∀ d ∈ c :: id, isIdChar d = true := by
        rw [← htake]
        exact fun d hd => List.all_eq_true.1 List.all_takeWhile d hd
      refine ⟨⟨by simp, by simpa using hchars⟩, ?_⟩
      rw [TemplateKind.eq_of_read? hk, hbody, String.toList_ofList, List.append_assoc]
    · cases h

theorem eq_of_read? {cs rest : List Char} {t : Template} (h : read? cs = some (t, rest)) :
    t.WellFormed ∧ cs = t.write.toList ++ rest := by
  unfold read? at h
  split at h
  · obtain ⟨hwf, hcs⟩ := eq_of_readInside? h
    refine ⟨hwf, ?_⟩
    rw [hcs, toList_write]
    simp
  · cases h

theorem length_read? {cs rest : List Char} {t : Template} (h : read? cs = some (t, rest)) :
    rest.length < cs.length := by
  have hpos := length_write_pos t
  rw [(eq_of_read? h).2, List.length_append, length_toList_write]
  omega

/-! ### Parsing a whole text -/

/-- Whether a whole text is a template: the reader takes all of it. -/
def isTemplate (s : String) : Bool := (read? s.toList).any fun (_, rest) => rest.isEmpty

theorem isTemplate_iff {s : String} :
    isTemplate s = true ↔ ∃ t, read? s.toList = some (t, []) := by
  cases h : read? s.toList with
  | none => simp [isTemplate, h]
  | some found =>
    obtain ⟨t, rest⟩ := found
    simp [isTemplate, h]

/-- The kind and the id of a template, from either side of the first colon, when two characters are
left out at both ends of the text. -/
def extract? (s : String) : Option Template :=
  match Text.cutAt ':' (Text.slice s 2 (s.length - 2)).toList with
  | (word, some id) => (TemplateKind.ofWord? (String.ofList word)).map (⟨·, String.ofList id⟩)
  | (_, none) => none

/-- A template is taken apart into what it was made of, whatever its id. -/
theorem extract?_write (t : Template) : extract? t.write = some t := by
  have hwrite : t.write.toList =
      '\x7b' :: '\x7b' :: ((t.kind.word.toList ++ ':' :: t.id.toList) ++ ['\x7d', '\x7d']) := by
    rw [toList_write]
    simp
  have hinside : (Text.slice t.write 2 (t.write.length - 2)).toList =
      t.kind.word.toList ++ ':' :: t.id.toList := by
    rw [Text.slice, String.toList_ofList, ← length_toList_write, hwrite, List.extract_eq_take_drop]
    refine List.take_left' ?_
    simp only [List.length_cons, List.length_append, List.length_nil]
    omega
  -- The first colon is the one behind the kind, since no word holds one.
  have hcolon : ':' ∉ t.kind.word.toList := by
    cases t.kind <;> decide
  unfold extract?
  rw [hinside, Text.cutAt_append hcolon]
  simp only [String.ofList_toList, TemplateKind.ofWord?_word, Option.map_some]

/-- A text that the reader takes as a whole is taken apart into what the reader finds. -/
theorem extract?_of_read? {s : String} {t : Template} (h : read? s.toList = some (t, [])) :
    extract? s = some t := by
  obtain ⟨-, hs⟩ := eq_of_read? h
  rw [List.append_nil, String.toList_inj] at hs
  rw [hs, extract?_write]

theorem isSome_extract? {s : String} (h : isTemplate s = true) : (extract? s).isSome = true := by
  obtain ⟨t, ht⟩ := isTemplate_iff.1 h
  rw [extract?_of_read? ht]
  rfl

/-- The template that a whole text is. -/
def parse (s : String) : Except Fault Template :=
  if h : isTemplate s then .ok ((extract? s).get (isSome_extract? h))
  else .error (.notATemplate s)

/-! ### Splitting a text -/

/-- The first template in a text, with what comes before and after it. -/
def cut? : List Char → Option (List Char × Template × List Char)
  | [] => none
  | c :: cs =>
    match read? (c :: cs) with
    | some (t, rest) => some ([], t, rest)
    | none => (cut? cs).map fun (before, t, rest) => (c :: before, t, rest)

/-- What follows the first template is shorter than the text. -/
theorem length_cut? {cs before rest : List Char} {t : Template}
    (h : cut? cs = some (before, t, rest)) : rest.length < cs.length := by
  induction cs generalizing before with
  | nil => cases h
  | cons c cs ih =>
    unfold cut? at h
    split at h
    · rename_i t' rest' hr
      cases h
      exact length_read? hr
    · obtain ⟨⟨before', t', rest'⟩, hc, he⟩ := Option.map_eq_some_iff.1 h
      cases he
      exact Nat.lt_succ_of_lt (ih hc)

/-- A text in parts: each template with the literal before it, and the literal after the last. -/
structure Parts where
  parts : List (List Char × Template)
  last : List Char

/-- A text in parts. -/
def split (cs : List Char) : Parts :=
  match _h : cut? cs with
  | none => ⟨[], cs⟩
  | some (before, t, rest) =>
    let following := split rest
    ⟨(before, t) :: following.parts, following.last⟩
termination_by cs.length
decreasing_by exact length_cut? _h

/-- A template in a text, from `start` up to but not including `stop`. -/
structure Span where
  start : Nat
  stop : Nat
  template : Template
deriving DecidableEq, Repr

/-- The spans of parts that start at `start`. -/
def spansFrom (start : Nat) : List (List Char × Template) → List Span
  | [] => []
  | (before, t) :: parts =>
    let first := start + before.length
    let stop := first + t.write.length
    ⟨first, stop, t⟩ :: spansFrom stop parts

/-- Every template in a text, from left to right. -/
def spans (s : String) : List Span := spansFrom 0 (split s.toList).parts

end Template

end Cookbook
