import Mathlib.Data.List.Find
import Cookbook.Markdown
import Cookbook.Proofs.Graph.Copy
import Cookbook.Proofs.Graph.Resolve
import Cookbook.Proofs.Outcome
import Cookbook.Response
/-!
# Cookbook.Proofs.Graph.View

What is seen of a recipe. A `RecipeView` is all that other programs and readers get of it: the
document under every profile, the response under every id, the totals, and the uses; what cannot be
shown is a fault in its place. None of it names a reference, so a copy of a recipe is seen as the
recipe itself (`Mirror.view_moved`). The lemmas before it follow the functions that show something,
from a single use to the whole document.

`Mirror` says what of a recipe must be the same in its copy, and of which objects: those that the
recipe holds, and only the ids, names and units of those that they refer to in turn. It holds where
the whole graph is copied (`Copied.mirror`), apart from uses that do not exist; the uses of a recipe
do if it was built, and `HasUses` says so.
-/

namespace Cookbook

/-- What is seen of a use. -/
structure UseView where
  amount : Value
  portions : Value
  scaled : Except Fault Value
  text : Except Fault String

/-- What is seen of a recipe. -/
structure RecipeView where
  markdown : Profile → Except Fault String
  response : String → Except Fault Response
  totals : List (Except Fault Number)
  ingredientUses : List UseView
  supplyUses : List UseView

namespace Graph

/-- What is seen of a use. -/
def viewUse (g : Graph) (u : Ref .use) : UseView where
  amount := (g.uses.get u).amount
  portions := (g.uses.get u).portions
  scaled := g.scaled u
  text := g.useText u

/-- What is seen of a recipe. -/
def view (g : Graph) (r : Ref .recipe) : RecipeView where
  markdown := fun profile => Markdown.render g profile r
  response := fun id => Response.ofRecipe g id r
  totals := (g.recipes.get r).ingredients.map g.total
  ingredientUses := (g.ingredientUses r).map g.viewUse
  supplyUses := (g.supplyUses r).map g.viewUse

/-- All uses in a step exist. -/
structure StepHasUses (g : Graph) (s : Ref .step) : Prop where
  ingredient : ∀ u ∈ (g.steps.get s).useIngredients, g.uses.Has u
  supply : ∀ u ∈ (g.steps.get s).useSupplies, g.uses.Has u

/-- All uses that are met from a recipe exist. -/
structure HasUses (g : Graph) (r : Ref .recipe) : Prop where
  ingredient : ∀ u ∈ g.ingredientUses r, g.uses.Has u
  supply : ∀ u ∈ g.supplyUses r, g.uses.Has u

namespace HasUses

variable {g : Graph} {r : Ref .recipe}

theorem of_ingredient (h : g.HasUses r) {i : Ref .ingredient}
    (hi : i ∈ (g.recipes.get r).ingredients) : ∀ u ∈ (g.ingredients.get i).uses, g.uses.Has u := by
  intro u hu
  exact h.ingredient u (List.mem_append_left _ (List.mem_flatMap.mpr ⟨i, hi, hu⟩))

theorem of_supply (h : g.HasUses r) {j : Ref .supply} (hj : j ∈ (g.recipes.get r).supplies) :
    ∀ u ∈ (g.supplies.get j).uses, g.uses.Has u := by
  intro u hu
  exact h.supply u (List.mem_append_left _ (List.mem_flatMap.mpr ⟨j, hj, hu⟩))

theorem of_step (h : g.HasUses r) {s : Ref .step} (hs : s ∈ (g.recipes.get r).steps) :
    g.StepHasUses s where
  ingredient := fun u hu =>
    h.ingredient u (List.mem_append_right _ (List.mem_flatMap.mpr ⟨s, hs, hu⟩))
  supply := fun u hu =>
    h.supply u (List.mem_append_right _ (List.mem_flatMap.mpr ⟨s, hs, hu⟩))

end HasUses

end Graph

/-- The copy of a segment. -/
def Segment.moved (x : Segment) (o : Offset) : Segment :=
  match x with
  | .literal s => .literal s
  | .ingredient r => .ingredient (r.moved o)
  | .supply r => .supply (r.moved o)
  | .use r => .use (r.moved o)

namespace Graph

variable {o : Offset} {g g' : Graph}

/-! ### Mirrors -/

/-- A use has a copy, and what is shown of its owner is there too. -/
structure UseMirror (o : Offset) (g g' : Graph) (u : Ref .use) : Prop where
  use : g'.uses.get (u.moved o) = (g.uses.get u).moved o
  id : g'.ownerId ((g.uses.get u).owner.moved o) = g.ownerId (g.uses.get u).owner
  name : g'.ownerName ((g.uses.get u).owner.moved o) = g.ownerName (g.uses.get u).owner
  unit : g'.ownerUnit ((g.uses.get u).owner.moved o) = g.ownerUnit (g.uses.get u).owner

/-- An ingredient has a copy with all its uses. -/
structure IngredientMirror (o : Offset) (g g' : Graph) (i : Ref .ingredient) : Prop where
  ingredient : g'.ingredients.get (i.moved o) = (g.ingredients.get i).moved o
  use : ∀ u ∈ (g.ingredients.get i).uses, UseMirror o g g' u

/-- A supply has a copy with all its uses. -/
structure SupplyMirror (o : Offset) (g g' : Graph) (j : Ref .supply) : Prop where
  supply : g'.supplies.get (j.moved o) = (g.supplies.get j).moved o
  use : ∀ u ∈ (g.supplies.get j).uses, UseMirror o g g' u

/-- What the templates in the steps of a recipe find in it has a copy, apart from its uses. -/
structure HomeMirror (o : Offset) (g g' : Graph) (r : Ref .recipe) : Prop where
  ingredients : (g'.recipes.get (r.moved o)).ingredients =
    (g.recipes.get r).ingredients.map (·.moved o)
  supplies : (g'.recipes.get (r.moved o)).supplies = (g.recipes.get r).supplies.map (·.moved o)
  ingredient : ∀ i ∈ (g.recipes.get r).ingredients,
    (g'.ingredients.get (i.moved o)).unused = (g.ingredients.get i).unused
  supply : ∀ j ∈ (g.recipes.get r).supplies,
    (g'.supplies.get (j.moved o)).unused = (g.supplies.get j).unused

/-- A step has a copy with all its uses, and so has what its templates find. -/
structure StepMirror (o : Offset) (g g' : Graph) (s : Ref .step) : Prop where
  step : g'.steps.get (s.moved o) = (g.steps.get s).moved o
  ingredientUse : ∀ u ∈ (g.steps.get s).useIngredients, UseMirror o g g' u
  supplyUse : ∀ u ∈ (g.steps.get s).useSupplies, UseMirror o g g' u
  home : ∀ r ∈ (g.steps.get s).recipe, HomeMirror o g g' r

/-- A recipe has a copy with all that it holds. -/
structure Mirror (o : Offset) (g g' : Graph) (r : Ref .recipe) : Prop where
  recipe : g'.recipes.get (r.moved o) = (g.recipes.get r).moved o
  ingredient : ∀ i ∈ (g.recipes.get r).ingredients, IngredientMirror o g g' i
  supply : ∀ j ∈ (g.recipes.get r).supplies, SupplyMirror o g g' j
  step : ∀ s ∈ (g.recipes.get r).steps, StepMirror o g g' s

namespace Copied

theorem useMirror (h : Copied o g g') {u : Ref .use} (hu : g.uses.Has u) : UseMirror o g g' u := by
  refine ⟨h.get_use hu, ?_, ?_, ?_⟩ <;> generalize (g.uses.get u).owner = owner <;>
    cases owner <;> simp [Owner.moved, ownerId, ownerName, ownerUnit, h.get_ingredient,
      h.get_supply, Ingredient.moved, Supply.moved]

theorem homeMirror (h : Copied o g g') (r : Ref .recipe) : HomeMirror o g g' r where
  ingredients := congrArg Recipe.ingredients (h.get_recipe r)
  supplies := congrArg Recipe.supplies (h.get_recipe r)
  ingredient := fun i _ => by
    rw [h.get_ingredient]
    rfl
  supply := fun j _ => by
    rw [h.get_supply]
    rfl

/-- Where a whole graph is copied, a recipe is. -/
theorem mirror (h : Copied o g g') {r : Ref .recipe} (hr : g.HasUses r) : Mirror o g g' r where
  recipe := h.get_recipe r
  ingredient := fun i hi => ⟨h.get_ingredient i, fun u hu => h.useMirror (hr.of_ingredient hi u hu)⟩
  supply := fun j hj => ⟨h.get_supply j, fun u hu => h.useMirror (hr.of_supply hj u hu)⟩
  step := fun s hs => ⟨h.get_step s, fun u hu => h.useMirror ((hr.of_step hs).ingredient u hu),
    fun u hu => h.useMirror ((hr.of_step hs).supply u hu), fun r' _ => h.homeMirror r'⟩

end Copied

/-! ### Uses and totals -/

namespace UseMirror

variable {u : Ref .use}

theorem useId_moved (h : UseMirror o g g' u) : g'.useId (u.moved o) = g.useId u := by
  simp only [useId, h.use, Use.moved, h.id]

theorem scaled_moved (h : UseMirror o g g' u) : g'.scaled (u.moved o) = g.scaled u := by
  simp only [scaled, h.use, Use.moved]

theorem useText_moved (h : UseMirror o g g' u) : g'.useText (u.moved o) = g.useText u := by
  simp only [useText, h.scaled_moved, h.use, Use.moved, h.unit, h.name]

theorem viewUse_moved (h : UseMirror o g g' u) : g'.viewUse (u.moved o) = g.viewUse u := by
  simp only [viewUse, h.scaled_moved, h.useText_moved, h.use, Use.moved]

end UseMirror

namespace IngredientMirror

variable {i : Ref .ingredient}

theorem total_moved (h : IngredientMirror o g g' i) : g'.total (i.moved o) = g.total i := by
  simp only [total, h.ingredient, Ingredient.moved, List.map_map]
  refine congrArg Value.sumOfProducts (List.map_congr_left fun u hu => ?_)
  simp only [Function.comp_apply, (h.use u hu).use, Use.moved]

theorem display_moved (h : IngredientMirror o g g' i) : g'.display (i.moved o) = g.display i := by
  simp only [display, h.total_moved, h.ingredient, Ingredient.moved]

end IngredientMirror

/-! ### Resolved texts -/

namespace HomeMirror

variable {r : Ref .recipe}

theorem ingredient_id (h : HomeMirror o g g' r) {i : Ref .ingredient}
    (hi : i ∈ (g.recipes.get r).ingredients) :
    (g'.ingredients.get (i.moved o)).id = (g.ingredients.get i).id := by
  have hid := congrArg Ingredient.id (h.ingredient i hi)
  exact hid

theorem ingredient_name (h : HomeMirror o g g' r) {i : Ref .ingredient}
    (hi : i ∈ (g.recipes.get r).ingredients) :
    (g'.ingredients.get (i.moved o)).name = (g.ingredients.get i).name := by
  have hname := congrArg Ingredient.name (h.ingredient i hi)
  exact hname

theorem supply_id (h : HomeMirror o g g' r) {j : Ref .supply}
    (hj : j ∈ (g.recipes.get r).supplies) :
    (g'.supplies.get (j.moved o)).id = (g.supplies.get j).id := by
  have hid := congrArg Supply.id (h.supply j hj)
  exact hid

theorem supply_name (h : HomeMirror o g g' r) {j : Ref .supply}
    (hj : j ∈ (g.recipes.get r).supplies) :
    (g'.supplies.get (j.moved o)).name = (g.supplies.get j).name := by
  have hname := congrArg Supply.name (h.supply j hj)
  exact hname

theorem findIngredient?_moved (h : HomeMirror o g g' r) (id : String) :
    g'.findIngredient? (r.moved o) id = (g.findIngredient? r id).map (·.moved o) := by
  simp only [findIngredient?, h.ingredients, List.find?_map]
  congr 1
  refine List.find?_congr fun i hi => ?_
  simp only [Function.comp_apply, h.ingredient_id hi]

theorem findSupply?_moved (h : HomeMirror o g g' r) (id : String) :
    g'.findSupply? (r.moved o) id = (g.findSupply? r id).map (·.moved o) := by
  simp only [findSupply?, h.supplies, List.find?_map]
  congr 1
  refine List.find?_congr fun j hj => ?_
  simp only [Function.comp_apply, h.supply_id hj]

end HomeMirror

/-- A use is found by the id of its owner in any list of uses that have copies. -/
theorem find?_useId_moved {us : List (Ref .use)} (hus : ∀ u ∈ us, UseMirror o g g' u)
    (id : String) :
    (us.map (·.moved o)).find? (fun u => g'.useId u == id) =
      (us.find? fun u => g.useId u == id).map (·.moved o) := by
  rw [List.find?_map]
  congr 1
  refine List.find?_congr fun u hu => ?_
  simp only [Function.comp_apply, (hus u hu).useId_moved]

namespace StepMirror

variable {r : Ref .recipe} {s : Ref .step}

theorem resolve?_moved (h : StepMirror o g g' s) (hr : r ∈ (g.steps.get s).recipe) (t : Template) :
    g'.resolve? (r.moved o) (s.moved o) t = (g.resolve? r s t).map (·.moved o) := by
  unfold resolve?
  cases t.kind with
  | ingredient =>
      simp only [(h.home r hr).findIngredient?_moved, Option.map_map]
      rfl
  | supply =>
      simp only [(h.home r hr).findSupply?_moved, Option.map_map]
      rfl
  | useIngredient =>
      simp only [findUseIngredient?, h.step, Step.moved, find?_useId_moved h.ingredientUse,
        Option.map_map]
      rfl
  | useSupply =>
      simp only [findUseSupply?, h.step, Step.moved, find?_useId_moved h.supplyUse, Option.map_map]
      rfl

theorem partSegments_moved (h : StepMirror o g g' s) (hr : r ∈ (g.steps.get s).recipe)
    (part : List Char × Template) :
    g'.partSegments (r.moved o) (s.moved o) part = (g.partSegments r s part).map (·.moved o) := by
  obtain ⟨before, t⟩ := part
  simp only [partSegments, h.resolve?_moved hr]
  cases g.resolve? r s t <;> rfl

theorem segments_moved (h : StepMirror o g g' s) :
    g'.segments (s.moved o) = (g.segments s).map (List.map (·.moved o)) := by
  simp only [segments, h.step, Step.moved]
  cases hr : (g.steps.get s).recipe with
  | none => rfl
  | some r =>
      have hparts : g'.partSegments (r.moved o) (s.moved o) = fun part =>
          (g.partSegments r s part).map (·.moved o) := by
        funext part
        exact h.partSegments_moved hr part
      simp only [Option.map_some, hparts, Except.map, List.map_append, List.map_flatMap]
      rfl

end StepMirror

/-- What is shown of a segment is the same in its copy. -/
def SegmentMirror (o : Offset) (g g' : Graph) : Segment → Prop
  | .literal _ => True
  | .ingredient i => (g'.ingredients.get (i.moved o)).id = (g.ingredients.get i).id ∧
      (g'.ingredients.get (i.moved o)).name = (g.ingredients.get i).name
  | .supply j => (g'.supplies.get (j.moved o)).id = (g.supplies.get j).id ∧
      (g'.supplies.get (j.moved o)).name = (g.supplies.get j).name
  | .use u => UseMirror o g g' u

/-- What a template refers to is found in the step, or in the recipe of the step. -/
theorem StepMirror.segment_of_resolve? {r : Ref .recipe} {s : Ref .step} {t : Template}
    {x : Segment} (h : StepMirror o g g' s) (hr : r ∈ (g.steps.get s).recipe)
    (hx : g.resolve? r s t = some x) :
    SegmentMirror o g g' x := by
  cases refers_of_resolve? hx with
  | ingredient hi => exact ⟨(h.home r hr).ingredient_id hi, (h.home r hr).ingredient_name hi⟩
  | supply hj => exact ⟨(h.home r hr).supply_id hj, (h.home r hr).supply_name hj⟩
  | useIngredient hu => exact h.ingredientUse _ hu
  | useSupply hu => exact h.supplyUse _ hu

theorem StepMirror.segment {s : Ref .step} {xs : List Segment} (h : StepMirror o g g' s)
    (hxs : g.segments s = .ok xs) : ∀ x ∈ xs, SegmentMirror o g g' x := by
  unfold segments at hxs
  dsimp only at hxs
  split at hxs
  · cases hxs
  · rename_i r hr
    cases hxs
    intro x hx
    rcases List.mem_append.mp hx with hx | hx
    · obtain ⟨⟨before, t⟩, -, hx⟩ := List.mem_flatMap.mp hx
      rcases List.mem_cons.mp hx with rfl | hx
      · trivial
      · exact h.segment_of_resolve? hr (Option.mem_toList.mp hx)
    · rw [List.mem_singleton.mp hx]
      trivial

theorem segmentText_moved {x : Segment} (hx : SegmentMirror o g g' x) :
    g'.segmentText (x.moved o) = g.segmentText x := by
  cases x with
  | literal s => rfl
  | ingredient i => exact congrArg Except.ok hx.2
  | supply j => exact congrArg Except.ok hx.2
  | use u => exact hx.useText_moved

theorem markedText_moved (marks : Marks) {x : Segment} (hx : SegmentMirror o g g' x) :
    g'.markedText marks (x.moved o) = g.markedText marks x := by
  have htext := segmentText_moved hx
  cases x with
  | literal s => rfl
  | ingredient i => exact congrArg (Except.map marks.around) htext
  | supply j => exact congrArg (Except.map marks.around) htext
  | use u => exact congrArg (Except.map marks.around) htext

/-- A segment as data is the same in its copy. -/
theorem segmentResponse_moved {x : Segment} (hx : SegmentMirror o g g' x) :
    Response.segment g' (x.moved o) = Response.segment g x := by
  have htype : Response.segmentType g' (x.moved o) = Response.segmentType g x := by
    cases x with
    | use u =>
        simp only [Segment.moved, Response.segmentType, hx.use, Use.moved]
        cases (g.uses.get u).owner <;> rfl
    | _ => rfl
  have hid : Response.segmentId? g' (x.moved o) = Response.segmentId? g x := by
    cases x with
    | literal s => rfl
    | ingredient i => exact congrArg some hx.1
    | supply j => exact congrArg some hx.1
    | use u => exact congrArg some hx.useId_moved
  simp only [Response.segment, segmentText_moved hx, htype, hid]

namespace StepMirror

variable {s : Ref .step}

/-- Whatever is done with each segment of a text, it comes out the same for the copy if it does so
for each segment. -/
theorem mapM_segments_moved {α : Type} (h : StepMirror o g g' s) {f f' : Segment → Except Fault α}
    (hf : ∀ x, SegmentMirror o g g' x → f' (x.moved o) = f x) :
    (g'.segments (s.moved o) >>= fun xs => xs.mapM f') = g.segments s >>= fun xs => xs.mapM f := by
  rw [h.segments_moved]
  cases hsegments : g.segments s with
  | error fault => rfl
  | ok xs =>
      show (xs.map (·.moved o)).mapM f' = xs.mapM f
      exact exceptMapM_map_congr fun x hx => hf x (h.segment hsegments x hx)

theorem stepText_moved (h : StepMirror o g g' s) (marks : Marks) :
    g'.stepText marks (s.moved o) = g.stepText marks s := by
  have hmarked := h.mapM_segments_moved fun x hx => markedText_moved marks hx
  show (g'.segments (s.moved o) >>= fun xs => xs.mapM (g'.markedText marks) >>= fun texts =>
    pure (String.join texts)) = _
  rw [← bind_assoc, hmarked, bind_assoc]
  rfl

theorem stepResponse_moved (h : StepMirror o g g' s) :
    Response.step g' (s.moved o) = Response.step g s := by
  have hsegments := h.mapM_segments_moved fun x hx => segmentResponse_moved hx
  show (g'.segments (s.moved o) >>= fun xs => xs.mapM (Response.segment g') >>= fun segments =>
    pure (⟨(g'.steps.get (s.moved o)).name, segments⟩ : StepResponse)) = _
  rw [← bind_assoc, hsegments, bind_assoc, h.step]
  rfl

theorem stepBlock_moved (h : StepMirror o g g' s) (number : Nat) :
    Markdown.stepBlock g' number (s.moved o) = Markdown.stepBlock g number s := by
  simp only [Markdown.stepBlock, h.stepText_moved, h.step, Step.moved]

end StepMirror

/-! ### The whole recipe -/

theorem stepBlocks_moved {ss : List (Ref .step)} (hss : ∀ s ∈ ss, StepMirror o g g' s)
    (number : Nat) :
    Markdown.stepBlocks g' number (ss.map (·.moved o)) = Markdown.stepBlocks g number ss := by
  induction ss generalizing number with
  | nil => rfl
  | cons s ss ih =>
      obtain ⟨hs, hss⟩ := List.forall_mem_cons.mp hss
      simp only [List.map_cons, Markdown.stepBlocks, hs.stepBlock_moved, ih hss]

theorem hasSection_moved (recipe : Recipe) (sec : Section) :
    Markdown.hasSection (recipe.moved o) sec = Markdown.hasSection recipe sec := by
  cases sec <;> simp [Markdown.hasSection, Recipe.moved]

namespace IngredientMirror

theorem response_moved {i : Ref .ingredient} (h : IngredientMirror o g g' i) :
    Response.ingredient g' (i.moved o) = Response.ingredient g i := by
  simp only [Response.ingredient, h.total_moved, h.display_moved, h.ingredient, Ingredient.moved]

end IngredientMirror

namespace SupplyMirror

theorem response_moved {j : Ref .supply} (h : SupplyMirror o g g' j) :
    Response.supply g' (j.moved o) = Response.supply g j := by
  simp only [Response.supply, h.supply, Supply.moved]

end SupplyMirror

namespace Mirror

variable {r : Ref .recipe}

theorem response_moved (h : Mirror o g g' r) (id : String) :
    Response.ofRecipe g' id (r.moved o) = Response.ofRecipe g id r := by
  have hingredients : ((g.recipes.get r).ingredients.map (·.moved o)).mapM
      (Response.ingredient g') = (g.recipes.get r).ingredients.mapM (Response.ingredient g) :=
    exceptMapM_map_congr fun i hi => (h.ingredient i hi).response_moved
  have hsteps : ((g.recipes.get r).steps.map (·.moved o)).mapM (Response.step g') =
      (g.recipes.get r).steps.mapM (Response.step g) :=
    exceptMapM_map_congr fun s hs => (h.step s hs).stepResponse_moved
  have hsupplies : ((g.recipes.get r).supplies.map (·.moved o)).map (Response.supply g') =
      (g.recipes.get r).supplies.map (Response.supply g) := by
    rw [List.map_map]
    exact List.map_congr_left fun j hj => (h.supply j hj).response_moved
  simp only [Response.ofRecipe, h.recipe, Recipe.moved, hingredients, hsteps, hsupplies]

theorem sectionText_moved (h : Mirror o g g' r) (title : String) (sec : Section) :
    Markdown.sectionText g' ((g.recipes.get r).moved o) title sec =
      Markdown.sectionText g (g.recipes.get r) title sec := by
  cases sec with
  | portions => rfl
  | supplies =>
      simp only [Markdown.sectionText, Recipe.moved, List.map_map]
      congr 3
      refine List.map_congr_left fun j hj => ?_
      simp only [Function.comp_apply, (h.supply j hj).supply, Supply.moved]
  | ingredients =>
      have hdisplay : ((g.recipes.get r).ingredients.map (·.moved o)).mapM g'.display =
          (g.recipes.get r).ingredients.mapM g.display :=
        exceptMapM_map_congr fun i hi => (h.ingredient i hi).display_moved
      simp only [Markdown.sectionText, Recipe.moved, hdisplay]
  | steps =>
      have hblocks := stepBlocks_moved h.step 1
      simp only [Markdown.sectionText, Recipe.moved, hblocks]

theorem render_moved (h : Mirror o g g' r) (profile : Profile) :
    Markdown.render g' profile (r.moved o) = Markdown.render g profile r := by
  have hshown : Markdown.shownSection g' profile ((g.recipes.get r).moved o) =
      Markdown.shownSection g profile (g.recipes.get r) := by
    funext sec
    simp only [Markdown.shownSection, hasSection_moved, h.sectionText_moved]
  simp only [Markdown.render, h.recipe, hshown]
  rfl

/-- The uses of a copy are the copies of the uses. -/
theorem ingredientUses_moved (h : Mirror o g g' r) :
    g'.ingredientUses (r.moved o) = (g.ingredientUses r).map (·.moved o) := by
  simp only [ingredientUses, h.recipe, Recipe.moved, List.flatMap_map, List.map_append,
    List.map_flatMap]
  congr 1
  · exact List.flatMap_congr fun i hi => congrArg Ingredient.uses (h.ingredient i hi).ingredient
  · exact List.flatMap_congr fun s hs => congrArg Step.useIngredients (h.step s hs).step

theorem supplyUses_moved (h : Mirror o g g' r) :
    g'.supplyUses (r.moved o) = (g.supplyUses r).map (·.moved o) := by
  simp only [supplyUses, h.recipe, Recipe.moved, List.flatMap_map, List.map_append,
    List.map_flatMap]
  congr 1
  · exact List.flatMap_congr fun j hj => congrArg Supply.uses (h.supply j hj).supply
  · exact List.flatMap_congr fun s hs => congrArg Step.useSupplies (h.step s hs).step

theorem ingredientUse (h : Mirror o g g' r) : ∀ u ∈ g.ingredientUses r, UseMirror o g g' u := by
  intro u hu
  rcases List.mem_append.mp hu with hu | hu
  · obtain ⟨i, hi, hu⟩ := List.mem_flatMap.mp hu
    exact (h.ingredient i hi).use u hu
  · obtain ⟨s, hs, hu⟩ := List.mem_flatMap.mp hu
    exact (h.step s hs).ingredientUse u hu

theorem supplyUse (h : Mirror o g g' r) : ∀ u ∈ g.supplyUses r, UseMirror o g g' u := by
  intro u hu
  rcases List.mem_append.mp hu with hu | hu
  · obtain ⟨j, hj, hu⟩ := List.mem_flatMap.mp hu
    exact (h.supply j hj).use u hu
  · obtain ⟨s, hs, hu⟩ := List.mem_flatMap.mp hu
    exact (h.step s hs).supplyUse u hu

/-- A copy of a recipe is seen as the recipe itself. -/
theorem view_moved (h : Mirror o g g' r) : g'.view (r.moved o) = g.view r := by
  have huses : ∀ us : List (Ref .use), (∀ u ∈ us, UseMirror o g g' u) →
      (us.map (·.moved o)).map g'.viewUse = us.map g.viewUse := by
    intro us hus
    rw [List.map_map]
    exact List.map_congr_left fun u hu => (hus u hu).viewUse_moved
  have htotals : ((g.recipes.get r).ingredients.map (·.moved o)).map g'.total =
      (g.recipes.get r).ingredients.map g.total := by
    rw [List.map_map]
    exact List.map_congr_left fun i hi => (h.ingredient i hi).total_moved
  simp only [view, h.render_moved, h.response_moved, h.ingredientUses_moved, h.supplyUses_moved,
    huses _ h.ingredientUse, huses _ h.supplyUse, h.recipe, Recipe.moved, htotals]

end Mirror

/-- A recipe is seen alike in every copy of the whole graph. -/
theorem Copied.view_moved (h : Copied o g g') {r : Ref .recipe} (hr : g.HasUses r) :
    g'.view (r.moved o) = g.view r :=
  (h.mirror hr).view_moved

end Graph

end Cookbook
