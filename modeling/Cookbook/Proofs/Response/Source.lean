import Cookbook.Proofs.Graph.Resolve
import Cookbook.Proofs.Response.Document
/-!
# Cookbook.Proofs.Response.Source

From the segments of a response back to the text of a step. A segment that refers to something has
the type and the id of it, and these are what a template is written with. So the segments, written
again, are the text that they were resolved from, without the templates that refer to nothing.

For this a segment must have the kind and the id of the very template that it stands for. The id is
what it was looked up by. The kind of a use is read off its owner, so it comes back right only since
no step has a use of equipment among those of ingredients, or the other way round (`OwnsUses`).
-/

namespace Cookbook

/-! ### Segments written again -/

/-- The kind of template that gives segments of a type; text comes from no template. -/
def SegmentType.kind? : SegmentType → Option TemplateKind
  | text => none
  | ingredient => some .ingredient
  | supply => some .supply
  | useIngredient => some .useIngredient
  | useSupply => some .useSupply

/-- A segment of a response written again: text as it is, and everything else as a template. -/
def SegmentResponse.source (y : SegmentResponse) : String :=
  match y.type.kind?, y.refId with
  | some kind, some id => Template.write ⟨kind, id⟩
  | _, _ => y.text

/-- The segments of a step written again, one after the other. -/
def StepResponse.source (y : StepResponse) : String :=
  String.join (y.segments.map SegmentResponse.source)

namespace Graph

/-- The templates in the text of a step that refer to nothing. -/
def unresolved (g : Graph) (r : Ref .recipe) (s : Ref .step) : List Template.Span :=
  (Template.spans (g.steps.get s).text).filter fun a => !(g.resolve? r s a.template).isSome

/-- A step lists uses of ingredients and uses of equipment apart. -/
structure OwnsUses (g : Graph) (s : Ref .step) : Prop where
  ingredient : ∀ u ∈ (g.steps.get s).useIngredients, ∃ i, (g.uses.get u).owner = .ingredient i
  supply : ∀ u ∈ (g.steps.get s).useSupplies, ∃ j, (g.uses.get u).owner = .supply j

/-- A segment written again. -/
def source (g : Graph) : Segment → String
  | .literal s => s
  | .ingredient i => Template.write ⟨.ingredient, (g.ingredients.get i).id⟩
  | .supply j => Template.write ⟨.supply, (g.supplies.get j).id⟩
  | .use u =>
    match (g.uses.get u).owner with
    | .ingredient _ => Template.write ⟨.useIngredient, g.useId u⟩
    | .supply _ => Template.write ⟨.useSupply, g.useId u⟩

variable {g : Graph} {r : Ref .recipe} {s : Ref .step}

/-- What a template refers to is written as that template. -/
theorem source_of_resolve? (h : g.OwnsUses s) {t : Template} {x : Segment}
    (hx : g.resolve? r s t = some x) : g.source x = t.write := by
  cases refers_of_resolve? hx with
  | ingredient => rfl
  | supply => rfl
  | useIngredient hu =>
      obtain ⟨i, howner⟩ := h.ingredient _ hu
      rw [source, howner]
  | useSupply hu =>
      obtain ⟨j, howner⟩ := h.supply _ hu
      rw [source, howner]

/-- What stands for a template among the segments is written as the template, or not at all. -/
theorem source_of_gap (h : g.OwnsUses s) (t : Template) :
    (g.resolve? r s t).toList.flatMap (fun x => (g.source x).toList) =
      if (g.resolve? r s t).isSome then t.write.toList else [] := by
  cases hx : g.resolve? r s t with
  | none => rfl
  | some x => simp [source_of_resolve? h hx]

/-- The segments of a text, written again, are the text without the templates that refer to
nothing. -/
theorem source_of_segments (h : g.OwnsUses s) (hrecipe : (g.steps.get s).recipe = some r)
    {xs : List Segment} (hxs : g.segments s = .ok xs) :
    String.join (xs.map g.source) = Template.without (g.steps.get s).text (g.unresolved r s) := by
  have hsplits := Template.splits_split (g.steps.get s).text.toList
  have hwithout := hsplits.outside_eq (fun t => (g.resolve? r s t).isSome) 0
  unfold segments at hxs
  dsimp only at hxs
  rw [hrecipe, Except.ok.injEq, segments_eq_weave] at hxs
  rw [Template.without, unresolved, Template.spans, hwithout, ← hxs, ← String.toList_inj,
    String.toList_ofList, String.toList_join, List.flatMap_map, weave_flatMap]
  congr 1
  -- The literals are themselves; what stands between them goes template by template.
  · simp [Function.comp_def, source]
  · rw [List.map_map]
    refine List.map_congr_left fun t _ => ?_
    rw [Function.comp_apply, ← resolve?_eq_lookup]
    exact source_of_gap h t

/-- If every template in a text refers to something, nothing is left out. -/
theorem without_unresolved (h : ∀ t ∈ g.templates s, (g.resolve? r s t).isSome) :
    Template.without (g.steps.get s).text (g.unresolved r s) = (g.steps.get s).text := by
  have hnone : g.unresolved r s = [] := by
    refine List.filter_eq_nil_iff.mpr fun a ha => ?_
    simp [h a.template (List.mem_map_of_mem ha)]
  rw [hnone, Template.without, Template.outside_of_before (by simp), String.ofList_toList]

end Graph

namespace Response

variable {g : Graph} {r : Ref .recipe} {s : Ref .step}

theorem source_of_tells {x : Segment} {y : SegmentResponse} (h : Tells g x y) :
    y.source = g.source x := by
  rw [SegmentResponse.source, h.type, h.refId]
  cases x with
  | literal l =>
      have htext : l = y.text := Except.ok.inj h.text
      exact htext.symm
  | ingredient i => rfl
  | supply j => rfl
  | use u =>
      simp only [segmentType, segmentId?, Graph.source]
      cases (g.uses.get u).owner <;> rfl

theorem map_source_of_tells {xs : List Segment} {ys : List SegmentResponse}
    (h : List.Forall₂ (Tells g) xs ys) : ys.map SegmentResponse.source = xs.map g.source := by
  induction h with
  | nil => rfl
  | cons hxy _ ih => rw [List.map_cons, List.map_cons, source_of_tells hxy, ih]

/-- The segments of a step in a response, written again, give its text, but for the templates that
refer to nothing. -/
structure Encodes (g : Graph) (r : Ref .recipe) (s : Ref .step) (y : StepResponse) : Prop where
  source_eq : y.source = Template.without (g.steps.get s).text (g.unresolved r s)
  source_eq_of_resolved : (∀ t ∈ g.templates s, (g.resolve? r s t).isSome) →
    y.source = (g.steps.get s).text

theorem encodes_of_tells (h : g.OwnsUses s) (hrecipe : (g.steps.get s).recipe = some r)
    {y : StepResponse} (hy : TellsStep g s y) : Encodes g r s y := by
  obtain ⟨-, xs, hxs, htells⟩ := hy
  have hsource : y.source = String.join (xs.map g.source) := by
    rw [StepResponse.source, map_source_of_tells htells]
  have hwithout := hsource.trans (Graph.source_of_segments h hrecipe hxs)
  exact ⟨hwithout, fun hresolved => hwithout.trans (Graph.without_unresolved hresolved)⟩

end Response

namespace Build

variable {v p : Value} {g g' : Graph} {ws : List Warning} {r : Ref .recipe}

theorem Built.ownsUses (h : Built v p g r) {s : Ref .step} (hs : s ∈ (g.recipes.get r).steps) :
    g.OwnsUses s := by
  have hshared := h.shared.usesShared h.nodup_ingredients h.nodup_supplies
  constructor
  case ingredient =>
    intro u hu
    obtain ⟨-, i, -, howner⟩ := (hshared.ingredient_owner s hs).2 u hu
    exact ⟨i, howner⟩
  case supply =>
    intro u hu
    obtain ⟨-, j, -, howner⟩ := (hshared.supply_owner s hs).2 u hu
    exact ⟨j, howner⟩

/-- **Segments encode the text they come from.** In a response for a recipe that was made from a
record, the segments of each step can be written again as its text; only the templates that refer to
nothing are missing. -/
theorem encodes_of_response {id : String} {a : Response} (h : recipe v p g = (⟨ws, .ok r⟩, g'))
    (ha : Response.ofRecipe g' id r = .ok a) :
    List.Forall₂ (Response.Encodes g' r) (g'.recipes.get r).steps a.steps := by
  have hbuilt : Built v p g' r := recipe_built h
  have htells := (Response.describes_of_ofRecipe ha).steps
  refine ((List.forall₂_and_left _ _).mpr ⟨fun s hs => hs, htells⟩).imp ?_
  rintro s y ⟨hs, hy⟩
  exact Response.encodes_of_tells (hbuilt.ownsUses hs) (hbuilt.attached s hs) hy

theorem encodes_of_response_brine :
    let g := (recipe brine (.int 4) .empty).2
    recipe brine (.int 4) .empty = (⟨[], .ok ⟨0⟩⟩, g) ∧
      ∃ a, Response.ofRecipe g "brine" ⟨0⟩ = .ok a ∧
        List.Forall₂ (Response.Encodes g ⟨0⟩) (g.recipes.get ⟨0⟩).steps a.steps := by
  intro g
  obtain ⟨a, ha⟩ := response_brine
  exact ⟨recipe_brine, a, ha, encodes_of_response recipe_brine ha⟩

end Build

end Cookbook
