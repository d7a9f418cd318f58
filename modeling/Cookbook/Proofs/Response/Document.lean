import Cookbook.Markdown
import Cookbook.Proofs.Build.Recipe
import Cookbook.Response
/-!
# Cookbook.Proofs.Response.Document

A recipe as a document and as data. Both are made from the graph, each by a traversal of its own.
They say the same: from the data alone the complete document can be written (`Response.document`),
without another look at the graph.

The data of a recipe are first related to the graph piece by piece (`Response.Describes`); each
piece of the document is then read from the piece of the data that stands for it.
-/

namespace Cookbook

/-! ### The document of a response -/

/-- A segment in a document: text as it is, and everything else underlined. -/
def SegmentResponse.marked (y : SegmentResponse) : String :=
  if y.type = .text then y.text else "<u>" ++ y.text ++ "</u>"

namespace StepResponse

/-- The text of a step in a document, without the white space around it. -/
def text (s : StepResponse) : String :=
  Text.strip (String.join (s.segments.map SegmentResponse.marked))

/-- A numbered step in a document; a blank text is left out. -/
def block (number : Nat) (s : StepResponse) : String :=
  "### " ++ Nat.repr number ++ ": " ++ s.name ++ "\n\n" ++
    (if s.text = "" then "" else s.text ++ "\n\n")

end StepResponse

namespace Response

/-- The portions, if anything is portioned. -/
def portionsLine (a : Response) : String :=
  if a.ingredients.isEmpty && a.steps.isEmpty then ""
  else "**Portions**: " ++ toString a.portions ++ "\n\n"

/-- The supplies by name. -/
def supplySection (a : Response) : String :=
  if a.supplies.isEmpty then ""
  else "## Supplies\n\n" ++ String.join (a.supplies.map fun j => "- " ++ j.name ++ "\n") ++ "\n"

/-- The ingredients with their totals. -/
def ingredientSection (a : Response) : String :=
  if a.ingredients.isEmpty then ""
  else
    "## Ingredients\n\n" ++ String.join (a.ingredients.map fun i => "- " ++ i.display ++ "\n") ++
      "\n"

/-- The steps, numbered from one. -/
def stepSection (a : Response) : String :=
  if a.steps.isEmpty then ""
  else "## Steps\n\n" ++ String.join ((a.steps.zipIdx 1).map fun (s, number) => s.block number)

/-- The complete document of a recipe that is given as data. -/
def document (a : Response) : String :=
  "# " ++ a.name ++ "\n\n" ++ a.portionsLine ++ a.supplySection ++ a.ingredientSection ++
    a.stepSection

/-! ### The graph in a response -/

/-- A segment of a response tells of a segment of a text. -/
structure Tells (g : Graph) (x : Segment) (y : SegmentResponse) : Prop where
  text : g.segmentText x = .ok y.text
  type : y.type = segmentType g x
  refId : y.refId = segmentId? g x

/-- The segments of a step in a response are those of its text: one for each, in order. -/
def TellsStep (g : Graph) (s : Ref .step) (y : StepResponse) : Prop :=
  y.name = (g.steps.get s).name ∧
    ∃ xs, g.segments s = .ok xs ∧ List.Forall₂ (Tells g) xs y.segments

/-- A response has one entry for each supply, each ingredient and each step of a recipe, in
order. -/
structure Describes (g : Graph) (r : Ref .recipe) (a : Response) : Prop where
  name : a.name = (g.recipes.get r).name
  portions : (g.recipes.get r).portions = .int a.portions
  supplies : a.supplies = (g.recipes.get r).supplies.map (supply g)
  ingredients : List.Forall₂ (fun i x => ingredient g i = .ok x) (g.recipes.get r).ingredients
    a.ingredients
  steps : List.Forall₂ (TellsStep g) (g.recipes.get r).steps a.steps

variable {g : Graph} {r : Ref .recipe} {a : Response}

theorem tells_of_segment {x : Segment} {y : SegmentResponse} (h : segment g x = .ok y) :
    Tells g x y := by
  obtain ⟨text, htext, h₁⟩ := exceptBind_inv h
  cases h₁
  exact ⟨htext, rfl, rfl⟩

theorem tellsStep_of_step {s : Ref .step} {y : StepResponse} (h : step g s = .ok y) :
    TellsStep g s y := by
  obtain ⟨xs, hxs, h₁⟩ := exceptBind_inv h
  obtain ⟨ys, hys, h₂⟩ := exceptBind_inv h₁
  cases h₂
  exact ⟨rfl, xs, hxs, (exceptMapM_eq_ok_iff.mp hys).imp fun _ _ => tells_of_segment⟩

theorem eq_of_wholePortions {p : Value} {n : Int} (h : wholePortions p = .ok n) : p = .int n := by
  cases p <;> cases h
  rfl

theorem describes_of_ofRecipe {id : String} (h : ofRecipe g id r = .ok a) : Describes g r a := by
  obtain ⟨ingredients, hingredients, h₁⟩ := exceptBind_inv h
  obtain ⟨steps, hsteps, h₂⟩ := exceptBind_inv h₁
  obtain ⟨portions, hportions, h₃⟩ := exceptBind_inv h₂
  cases h₃
  constructor
  case name => rfl
  case portions => exact eq_of_wholePortions hportions
  case supplies => rfl
  case ingredients => exact exceptMapM_eq_ok_iff.mp hingredients
  case steps => exact (exceptMapM_eq_ok_iff.mp hsteps).imp fun _ _ => tellsStep_of_step

/-! ### The text of a step -/

theorem markedText_of_tells {x : Segment} {y : SegmentResponse} (h : Tells g x y) :
    g.markedText .underline x = .ok y.marked := by
  -- A use is of the type of its owner, so it takes one more case than its text does.
  have hreference (htype : y.type ≠ .text) :
      (g.segmentText x).map Marks.underline.around = .ok y.marked := by
    rw [h.text, SegmentResponse.marked, if_neg htype]
    rfl
  cases x with
  | literal s =>
      have htype : y.type = .text := h.type
      rw [SegmentResponse.marked, if_pos htype]
      exact h.text
  | ingredient i => exact hreference (by simp [h.type, segmentType])
  | supply j => exact hreference (by simp [h.type, segmentType])
  | use u =>
      refine hreference ?_
      rw [h.type, segmentType]
      cases (g.uses.get u).owner <;> simp

theorem stepText_of_tells {s : Ref .step} {y : StepResponse} (h : TellsStep g s y) :
    g.stepText .underline s = .ok (String.join (y.segments.map SegmentResponse.marked)) := by
  obtain ⟨-, xs, hxs, htells⟩ := h
  have hmarked : xs.mapM (g.markedText .underline) = .ok (y.segments.map SegmentResponse.marked) :=
    exceptMapM_eq_ok_iff.mpr
      (List.forall₂_map_right_iff.mpr (htells.imp fun _ _ => markedText_of_tells))
  unfold Graph.stepText
  rw [hxs]
  show (xs.mapM (g.markedText .underline) >>= _) = _
  rw [hmarked]
  rfl

theorem stepBlock_of_tells {s : Ref .step} {y : StepResponse} (h : TellsStep g s y)
    (number : Nat) : Markdown.stepBlock g number s = .ok (y.block number) := by
  have htitle : Markdown.heading "###" (Nat.repr number ++ ": " ++ y.name) =
      "### " ++ Nat.repr number ++ ": " ++ y.name ++ "\n\n" := by
    simp [Markdown.heading, String.append_assoc]
  simp only [Markdown.stepBlock, stepText_of_tells h, ← h.1, htitle, beq_iff_eq]
  rfl

theorem stepBlocks_of_tells {ss : List (Ref .step)} {ys : List StepResponse}
    (h : List.Forall₂ (TellsStep g) ss ys) (number : Nat) :
    Markdown.stepBlocks g number ss =
      .ok (String.join ((ys.zipIdx number).map fun (y, number) => y.block number)) := by
  induction h generalizing number with
  | nil => rfl
  | cons hy _ ih =>
      rw [Markdown.stepBlocks, stepBlock_of_tells hy, ih, List.zipIdx_cons, List.map_cons,
        String.join_cons]
      rfl

/-! ### The sections -/

theorem title_complete (sec : Section) : Profile.complete.title sec = sec.defaultTitle := by
  cases sec <;> rfl

/-- The complete document shows every section of which there is something. -/
theorem shownSection_complete {recipe : Recipe} {sec : Section} {nothing : Bool} {text : String}
    (hsection : Markdown.hasSection recipe sec = !nothing)
    (htext : Markdown.sectionText g recipe sec.defaultTitle sec = .ok text) :
    Markdown.shownSection g .complete recipe sec = .ok (if nothing then "" else text) := by
  have hshown : Profile.complete.shown.shows sec = true := by cases sec <;> decide
  rw [Markdown.shownSection, hshown, title_complete, hsection, htext]
  cases nothing <;> rfl

/-- A whole number that can be written is written as its digits. -/
theorem eq_of_writeInt {n : Int} {s : String} (h : Value.writeInt n = .ok s) : s = toString n := by
  unfold Value.writeInt at h
  split at h
  · rename_i digits hdigits
    cases h
    unfold Text.Integer.write? at hdigits
    dsimp only at hdigits
    split at hdigits
    · cases hdigits
      cases n with
      | ofNat m => rfl
      | negSucc m =>
          rw [if_pos (Int.negSucc_lt_zero m)]
          rfl
    · cases hdigits
  · cases h

theorem isEmpty_of_forall₂ {α β : Type} {R : α → β → Prop} {xs : List α} {ys : List β}
    (h : List.Forall₂ R xs ys) : xs.isEmpty = ys.isEmpty := by
  cases h <;> rfl

theorem display_of_ingredient {i : Ref .ingredient} {x : IngredientResponse}
    (h : ingredient g i = .ok x) : g.display i = .ok x.display := by
  obtain ⟨amount, -, h₁⟩ := exceptBind_inv h
  obtain ⟨display, hdisplay, h₂⟩ := exceptBind_inv h₁
  obtain ⟨total, -, h₃⟩ := exceptBind_inv h₂
  cases h₃
  exact hdisplay

namespace Describes

theorem portionsLine_eq (h : Describes g r a) {s : String}
    (hwrite : (g.recipes.get r).portions.write = .ok s) :
    Markdown.shownSection g .complete (g.recipes.get r) .portions = .ok a.portionsLine := by
  refine shownSection_complete ?_ ?_
  · rw [Markdown.hasSection, isEmpty_of_forall₂ h.ingredients, isEmpty_of_forall₂ h.steps,
      Bool.not_and]
  · have hdigits : s = toString a.portions := by
      rw [h.portions] at hwrite
      exact eq_of_writeInt hwrite
    rw [Markdown.sectionText, hwrite, hdigits]
    rfl

theorem supplySection_eq (h : Describes g r a) :
    Markdown.shownSection g .complete (g.recipes.get r) .supplies = .ok a.supplySection := by
  refine shownSection_complete ?_ ?_
  · rw [Markdown.hasSection, h.supplies, List.isEmpty_map]
  · have hheading : Markdown.heading "##" Section.supplies.defaultTitle = "## Supplies\n\n" := rfl
    rw [Markdown.sectionText, hheading, h.supplies, Markdown.bullets, List.map_map, List.map_map]
    exact congrArg Except.ok (String.append_assoc ..).symm

theorem ingredientSection_eq (h : Describes g r a) :
    Markdown.shownSection g .complete (g.recipes.get r) .ingredients = .ok a.ingredientSection := by
  refine shownSection_complete ?_ ?_
  · rw [Markdown.hasSection, isEmpty_of_forall₂ h.ingredients]
  · have hdisplay : (g.recipes.get r).ingredients.mapM g.display =
        .ok (a.ingredients.map (·.display)) :=
      exceptMapM_eq_ok_iff.mpr
        (List.forall₂_map_right_iff.mpr (h.ingredients.imp fun _ _ => display_of_ingredient))
    have hheading : Markdown.heading "##" Section.ingredients.defaultTitle =
        "## Ingredients\n\n" := rfl
    rw [Markdown.sectionText, hdisplay, hheading]
    show Except.ok (_ ++ Markdown.bullets _) = _
    rw [Markdown.bullets, List.map_map]
    exact congrArg Except.ok (String.append_assoc ..).symm

theorem stepSection_eq (h : Describes g r a) :
    Markdown.shownSection g .complete (g.recipes.get r) .steps = .ok a.stepSection := by
  refine shownSection_complete ?_ ?_
  · rw [Markdown.hasSection, isEmpty_of_forall₂ h.steps]
  · rw [Markdown.sectionText, stepBlocks_of_tells h.steps]
    rfl

theorem render_eq (h : Describes g r a) {s : String}
    (hwrite : (g.recipes.get r).portions.write = .ok s) :
    Markdown.render g .complete r = .ok a.document := by
  have hsections : [Section.portions, .supplies, .ingredients, .steps].mapM
      (Markdown.shownSection g .complete (g.recipes.get r)) =
      .ok [a.portionsLine, a.supplySection, a.ingredientSection, a.stepSection] :=
    exceptMapM_eq_ok_iff.mpr (.cons (h.portionsLine_eq hwrite) (.cons h.supplySection_eq
      (.cons h.ingredientSection_eq (.cons h.stepSection_eq .nil))))
  simp only [Markdown.render, hsections, ← h.name]
  show Except.ok _ = _
  simp [Markdown.heading, document, String.append_assoc]

end Describes

end Response

namespace Build

/-- **A response tells all that the complete document shows.** The document of a recipe that was
made for a whole number of portions can be written from its response alone. For this the response
has the segments of every step: each one that the text has, in order, and no others. -/
theorem document_of_response {v : Value} {n : Int} {g g' : Graph} {ws : List Warning}
    {r : Ref .recipe} {id : String} {a : Response}
    (h : recipe v (.int n) g = (⟨ws, .ok r⟩, g')) (ha : Response.ofRecipe g' id r = .ok a) :
    Markdown.render g' .complete r = .ok a.document ∧
      List.Forall₂ (Response.TellsStep g') (g'.recipes.get r).steps a.steps := by
  have hdescribes : Response.Describes g' r a := Response.describes_of_ofRecipe ha
  have hbuilt : Built v (.int n) g' r := recipe_built h
  obtain ⟨g₀, s, -, hwrite, -⟩ := recipe_inv h
  refine ⟨?_, hdescribes.steps⟩
  rw [← hbuilt.portions_eq] at hwrite
  exact hdescribes.render_eq hwrite

/-- A record with a step whose text names a use, a supply, and a supply that there is not. -/
def brine : Value :=
  .record [
    ("name", .text "Brine"),
    ("ingredients", .list [.record [("id", .text "salt"), ("name", .text "Salt"),
      ("unit", .text "g")]]),
    ("supplies", .list [.record [("id", .text "pan"), ("name", .text "Pan")]]),
    ("steps", .list [.record [
      ("name", .text "Boil"),
      ("useIngredients", .list [.record [("belongsToId", .text "salt"), ("amount", .int 3)]]),
      ("text", .text ("Boil \x7b\x7buseIngredients:salt\x7d\x7d in " ++
        "\x7b\x7bsupplies:pan\x7d\x7d\x7b\x7bsupplies:lid\x7d\x7d."))]])]

theorem recipe_brine :
    recipe brine (.int 4) .empty = (⟨[], .ok ⟨0⟩⟩, (recipe brine (.int 4) .empty).2) := by
  have hreport : (recipe brine (.int 4) .empty).1 = ⟨[], .ok ⟨0⟩⟩ := rfl
  rw [← hreport]

theorem response_brine :
    ∃ a, Response.ofRecipe (recipe brine (.int 4) .empty).2 "brine" ⟨0⟩ = .ok a :=
  exceptIsOk_iff.mp (by decide +kernel)

theorem document_of_response_brine :
    let g := (recipe brine (.int 4) .empty).2
    recipe brine (.int 4) .empty = (⟨[], .ok ⟨0⟩⟩, g) ∧
      ∃ a, Response.ofRecipe g "brine" ⟨0⟩ = .ok a ∧
        Markdown.render g .complete ⟨0⟩ = .ok a.document ∧
          List.Forall₂ (Response.TellsStep g) (g.recipes.get ⟨0⟩).steps a.steps := by
  intro g
  obtain ⟨a, ha⟩ := response_brine
  exact ⟨recipe_brine, a, ha, document_of_response recipe_brine ha⟩

example :
    Markdown.render (recipe brine (.int 4) .empty).2 .complete ⟨0⟩ =
      .ok ("# Brine\n\n**Portions**: 4\n\n## Supplies\n\n- Pan\n\n" ++
        "## Ingredients\n\n- 12 g Salt\n\n" ++
        "## Steps\n\n### 1: Boil\n\nBoil <u>12 g Salt</u> in <u>Pan</u>.\n\n") := by
  decide +kernel

end Build

end Cookbook
