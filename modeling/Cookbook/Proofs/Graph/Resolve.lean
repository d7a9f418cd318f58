import Cookbook.Graph.Segment
import Cookbook.Proofs.Template.Weave
/-!
# Cookbook.Proofs.Graph.Resolve

The resolved text of a step against its raw text. `Resolution` is the account of it: the literals
and the templates, woven, are the raw text; the literals and what the templates refer to, woven,
are the segments. Nothing of the text is lost this way, and nothing stands in the segments that the
text does not ask for.

A template refers to the first element with its id in the list that its kind names. `candidates`
gives the four lists one form, so that `resolve?_eq_lookup` covers the four kinds at once.
-/

namespace Cookbook

/-- The text of a literal. -/
def Segment.literal? : Segment → Option String
  | .literal s => some s
  | _ => none

namespace Graph

/-! ### What a template refers to -/

/-- What templates of a kind can refer to, in order, each with its id: the ingredients and the
supplies of the recipe, and the uses of ingredients and of supplies in the step. -/
def candidates (g : Graph) (r : Ref .recipe) (s : Ref .step) :
    TemplateKind → List (String × Segment)
  | .ingredient =>
    (g.recipes.get r).ingredients.map fun i => ((g.ingredients.get i).id, .ingredient i)
  | .supply => (g.recipes.get r).supplies.map fun i => ((g.supplies.get i).id, .supply i)
  | .useIngredient => (g.steps.get s).useIngredients.map fun u => (g.useId u, .use u)
  | .useSupply => (g.steps.get s).useSupplies.map fun u => (g.useId u, .use u)

theorem lookup_map_eq {α β : Type} (id : α → String) (f : α → β) (xs : List α) (key : String) :
    (xs.map fun a => (id a, f a)).lookup key = (xs.find? fun a => id a == key).map f := by
  induction xs with
  | nil => rfl
  | cons a xs ih =>
      by_cases h : id a = key
      · simp [h]
      · have h' : (key == id a) = false := by simpa using Ne.symm h
        simp [h, h', List.lookup_cons, ih]

theorem resolve?_eq_lookup (g : Graph) (r : Ref .recipe) (s : Ref .step) (t : Template) :
    g.resolve? r s t = (g.candidates r s t.kind).lookup t.id := by
  unfold resolve? candidates
  cases t.kind <;> exact (lookup_map_eq _ _ _ _).symm

/-- A template and an element of the list that its kind names, which has its id. -/
inductive Refers (g : Graph) (r : Ref .recipe) (s : Ref .step) : Template → Segment → Prop
  | ingredient {i : Ref .ingredient} (hi : i ∈ (g.recipes.get r).ingredients) :
      Refers g r s ⟨.ingredient, (g.ingredients.get i).id⟩ (.ingredient i)
  | supply {j : Ref .supply} (hj : j ∈ (g.recipes.get r).supplies) :
      Refers g r s ⟨.supply, (g.supplies.get j).id⟩ (.supply j)
  | useIngredient {u : Ref .use} (hu : u ∈ (g.steps.get s).useIngredients) :
      Refers g r s ⟨.useIngredient, g.useId u⟩ (.use u)
  | useSupply {u : Ref .use} (hu : u ∈ (g.steps.get s).useSupplies) :
      Refers g r s ⟨.useSupply, g.useId u⟩ (.use u)

theorem refers_of_resolve? {g : Graph} {r : Ref .recipe} {s : Ref .step} {t : Template}
    {segment : Segment} (h : g.resolve? r s t = some segment) : g.Refers r s t segment := by
  obtain ⟨kind, id⟩ := t
  unfold resolve? at h
  cases kind with
  | ingredient =>
      obtain ⟨i, hi, rfl⟩ := Option.map_eq_some_iff.mp h
      obtain rfl : (g.ingredients.get i).id = id := by simpa using List.find?_some hi
      exact .ingredient (List.mem_of_find?_eq_some hi)
  | supply =>
      obtain ⟨j, hj, rfl⟩ := Option.map_eq_some_iff.mp h
      obtain rfl : (g.supplies.get j).id = id := by simpa using List.find?_some hj
      exact .supply (List.mem_of_find?_eq_some hj)
  | useIngredient =>
      obtain ⟨u, hu, rfl⟩ := Option.map_eq_some_iff.mp h
      obtain rfl : g.useId u = id := by simpa using List.find?_some hu
      exact .useIngredient (List.mem_of_find?_eq_some hu)
  | useSupply =>
      obtain ⟨u, hu, rfl⟩ := Option.map_eq_some_iff.mp h
      obtain rfl : g.useId u = id := by simpa using List.find?_some hu
      exact .useSupply (List.mem_of_find?_eq_some hu)

theorem literal?_of_resolve? {g : Graph} {r : Ref .recipe} {s : Ref .step} {t : Template}
    {segment : Segment} (h : g.resolve? r s t = some segment) : segment.literal? = none := by
  cases refers_of_resolve? h <;> rfl

/-! ### The segments of parts -/

/-- Segments in parts are the literals, with what the templates refer to between them. -/
theorem segments_eq_weave (g : Graph) (r : Ref .recipe) (s : Ref .step) (p : Template.Parts) :
    p.parts.flatMap (g.partSegments r s) ++ [.literal (String.ofList p.last)] =
      weave ((p.literals.map String.ofList).map fun l => [.literal l])
        (p.templates.map fun t => ((g.candidates r s t.kind).lookup t.id).toList) := by
  obtain ⟨parts, last⟩ := p
  induction parts with
  | nil => rfl
  | cons part parts ih =>
      obtain ⟨before, t⟩ := part
      rw [List.flatMap_cons, List.append_assoc, ih, partSegments, resolve?_eq_lookup]
      rfl

theorem filterMap_literal?_segments (g : Graph) (r : Ref .recipe) (s : Ref .step)
    (p : Template.Parts) :
    (p.parts.flatMap (g.partSegments r s) ++ [Segment.literal (String.ofList p.last)]).filterMap
      Segment.literal? = p.literals.map String.ofList := by
  obtain ⟨parts, last⟩ := p
  induction parts with
  | nil => rfl
  | cons part parts ih =>
      obtain ⟨before, t⟩ := part
      have hgap : (g.resolve? r s t).toList.filterMap Segment.literal? = [] := by
        cases hr : g.resolve? r s t with
        | none => rfl
        | some segment => simp [literal?_of_resolve? hr]
      rw [List.flatMap_cons, List.append_assoc, List.filterMap_append, ih, partSegments,
        List.filterMap_cons, hgap]
      rfl

/-! ### The resolved text -/

/-- The templates in the text of a step, in order. -/
def templates (g : Graph) (s : Ref .step) : List Template :=
  (Template.spans (g.steps.get s).text).map (·.template)

/-- The resolved text of a step of a recipe is made of these literals and nothing else. -/
structure Resolution (g : Graph) (r : Ref .recipe) (s : Ref .step) (literals : List String)
    (segments : List Segment) : Prop where
  /-- There is one literal more than there are templates. -/
  length_literals : literals.length = (g.templates s).length + 1
  /-- No other segment is a literal. -/
  literals_eq : segments.filterMap Segment.literal? = literals
  /-- With the templates between them, the literals are the text. -/
  text_eq : (g.steps.get s).text.toList =
    weave (literals.map String.toList) ((g.templates s).map fun t => t.write.toList)
  /-- Every template in the text reads as itself. -/
  parse_eq : ∀ t ∈ g.templates s, Template.parse t.write = .ok t
  /-- No part of a literal is a template. -/
  not_template : ∀ l ∈ literals, ∀ part : String, part.toList <:+: l.toList →
    ∀ t, Template.parse part ≠ .ok t
  /-- With what the templates refer to between them, if anything, the literals are the segments. -/
  segments_eq : segments = weave (literals.map fun l => [.literal l])
    ((g.templates s).map fun t => ((g.candidates r s t.kind).lookup t.id).toList)

theorem templates_eq (g : Graph) (s : Ref .step) :
    g.templates s = (Template.split (g.steps.get s).text.toList).templates :=
  Template.template_spansFrom 0 _

theorem segments_of_none {g : Graph} {s : Ref .step} (h : (g.steps.get s).recipe = none) :
    g.segments s = .error (.stepWithoutRecipe (g.steps.get s).name) := by
  unfold segments
  dsimp only
  rw [h]

theorem segments_of_some {g : Graph} {s : Ref .step} {r : Ref .recipe}
    (h : (g.steps.get s).recipe = some r) :
    ∃ literals segments, g.segments s = .ok segments ∧ g.Resolution r s literals segments := by
  have hsplits := Template.splits_split (g.steps.get s).text.toList
  have htemplates := g.templates_eq s
  unfold segments
  dsimp only
  rw [h]
  dsimp only
  generalize Template.split (g.steps.get s).text.toList = p at hsplits htemplates
  refine ⟨p.literals.map String.ofList, _, rfl, ?_⟩
  constructor
  case length_literals =>
    rw [htemplates]
    simp [Template.Parts.literals, Template.Parts.templates]
  case literals_eq => exact g.filterMap_literal?_segments r s p
  case text_eq =>
    rw [htemplates, List.map_map, String.toList_comp_ofList, List.map_id]
    exact hsplits.weave_write.symm
  case parse_eq =>
    intro t ht
    rw [htemplates] at ht
    exact Template.parse_eq_ok_iff.mpr ⟨hsplits.wellFormed t ht, rfl⟩
  case not_template =>
    rintro l hl part ⟨pre, post, hinfix⟩ t hparse
    obtain ⟨cs, hcs, rfl⟩ := List.mem_map.mp hl
    obtain ⟨hwf, rfl⟩ := Template.parse_eq_ok_iff.mp hparse
    rw [String.toList_ofList, List.append_assoc] at hinfix
    exact hsplits.free cs hcs pre t post ⟨hwf, hinfix.symm⟩
  case segments_eq =>
    rw [htemplates]
    exact g.segments_eq_weave r s p

/-- **Resolving loses nothing and invents nothing.** It fails for a step without a recipe, and only
then; for a step of a recipe the segments are the literals of its text, with what each template
refers to in its place. -/
theorem segments_resolution (g : Graph) (s : Ref .step) :
    (∀ fault, g.segments s = .error fault ↔
      (g.steps.get s).recipe = none ∧ fault = .stepWithoutRecipe (g.steps.get s).name) ∧
      ∀ r, (g.steps.get s).recipe = some r →
        ∃ literals segments, g.segments s = .ok segments ∧ g.Resolution r s literals segments := by
  refine ⟨fun fault => ⟨fun h => ?_, fun ⟨hrecipe, hfault⟩ => ?_⟩, fun r => segments_of_some⟩
  · cases hrecipe : (g.steps.get s).recipe with
    | none =>
        rw [segments_of_none hrecipe, Except.error.injEq] at h
        exact ⟨rfl, h.symm⟩
    | some r =>
        obtain ⟨literals, segments, hok, -⟩ := segments_of_some hrecipe
        rw [hok] at h
        cases h
  · rw [hfault]
    exact segments_of_none hrecipe

/-- A step of a recipe with two ingredients of one id and no supply: the first template has two
candidates, the second one has none. -/
theorem segments_resolution_salt :
    let g : Graph :=
      { ingredients := ⟨#[{ id := "salt", name := "Salt", unit := "g" },
          { id := "salt", name := "Sea salt", unit := "g" }]⟩
        steps := ⟨#[{ name := "Season", recipe := some ⟨0⟩
                      text :=
                        "Add \x7b\x7bingredients:salt\x7d\x7d\x7b\x7bsupplies:pan\x7d\x7d." }]⟩
        recipes := ⟨#[{ name := "Soup", ingredients := [⟨0⟩, ⟨1⟩], steps := [⟨0⟩] }]⟩ }
    (g.steps.get ⟨0⟩).recipe = some ⟨0⟩ ∧
      ∃ literals segments, g.segments ⟨0⟩ = .ok segments ∧
        g.Resolution ⟨0⟩ ⟨0⟩ literals segments := by
  intro g
  have hrecipe : (g.steps.get ⟨0⟩).recipe = some ⟨0⟩ := rfl
  exact ⟨hrecipe, (segments_resolution g ⟨0⟩).2 ⟨0⟩ hrecipe⟩

end Graph

end Cookbook
