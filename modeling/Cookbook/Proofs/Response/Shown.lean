import Cookbook.Page
import Cookbook.Proofs.Build.Whole
import Cookbook.Response
/-!
# Cookbook.Proofs.Response.Shown

When a recipe can be shown. A document and a response put the same numbers into words: the totals of
the ingredients, and the scaled amounts of the uses that the texts of the steps refer to (`Shown`).
If these are whole, the document can be made exactly if each of them has a text, in either profile
(`render_exists_ok_iff`); the response needs in addition that every total has a floating point
number (`ofRecipe_exists_ok_iff`).
-/

namespace Cookbook

namespace Graph

variable {g : Graph} {r : Ref .recipe} {s : Ref .step} {n : Int}

/-- Everything that a recipe puts into words has a text. -/
structure Tellable (g : Graph) (r : Ref .recipe) : Prop where
  display : ∀ i ∈ (g.recipes.get r).ingredients, ∃ t, g.display i = .ok t
  useText : ∀ s ∈ (g.recipes.get r).steps, ∀ xs, g.segments s = .ok xs →
    ∀ u, .use u ∈ xs → ∃ t, g.useText u = .ok t

/-- The numbers that a recipe puts into words. -/
inductive Shown (g : Graph) (r : Ref .recipe) : Int → Prop
  | total {i : Ref .ingredient} {n : Int} (hi : i ∈ (g.recipes.get r).ingredients)
      (h : g.total i = .ok (.int n)) : Shown g r n
  | use {s : Ref .step} {xs : List Segment} {u : Ref .use} {n : Int}
      (hs : s ∈ (g.recipes.get r).steps) (hxs : g.segments s = .ok xs) (hu : .use u ∈ xs)
      (h : g.scaled u = .ok (.int n)) : Shown g r n

/-! ### Texts -/

/-- A whole number is put into words exactly if it has a text. -/
theorem exists_writeInt_then_iff {α : Type} {f : String → α} :
    (∃ t, (Value.writeInt n >>= fun amount => return f amount) = .ok t) ↔
      Text.Integer.Writable n :=
  (exceptBind_total_iff fun amount => ⟨f amount, rfl⟩).trans Value.exists_writeInt_iff

theorem useText_exists_ok_iff {u : Ref .use} (h : g.scaled u = .ok (.int n)) :
    (∃ t, g.useText u = .ok t) ↔ Text.Integer.Writable n := by
  unfold useText
  dsimp only
  rw [h]
  exact exists_writeInt_then_iff

theorem display_exists_ok_iff {i : Ref .ingredient} (h : g.total i = .ok (.int n)) :
    (∃ t, g.display i = .ok t) ↔ Text.Integer.Writable n := by
  unfold display
  dsimp only
  rw [h]
  exact exists_writeInt_then_iff

/-- Only the text of a use can fail. -/
theorem segmentText_exists_ok_iff {x : Segment} :
    (∃ t, g.segmentText x = .ok t) ↔ ∀ u, x = .use u → ∃ t, g.useText u = .ok t := by
  cases x with
  | use u => simp [segmentText]
  | _ => simp [segmentText]

theorem markedText_exists_ok_iff (g : Graph) (marks : Marks) (x : Segment) :
    (∃ t, g.markedText marks x = .ok t) ↔ ∃ t, g.segmentText x = .ok t := by
  cases x with
  | use u => exact exceptMap_exists_ok_iff
  | _ => simp [markedText, segmentText, Except.map]

/-- The segments of a text have texts if the uses among them do. -/
theorem forall_segmentText_iff {xs : List Segment} :
    (∀ x ∈ xs, ∃ t, g.segmentText x = .ok t) ↔ ∀ u, .use u ∈ xs → ∃ t, g.useText u = .ok t := by
  simp only [segmentText_exists_ok_iff]
  constructor
  · intro h u hu
    exact h _ hu u rfl
  · rintro h x hx u rfl
    exact h u hx

theorem stepText_exists_ok_iff {marks : Marks} {xs : List Segment} (h : g.segments s = .ok xs) :
    (∃ t, g.stepText marks s = .ok t) ↔ ∀ u, .use u ∈ xs → ∃ t, g.useText u = .ok t := by
  rw [← forall_segmentText_iff]
  unfold stepText
  rw [h]
  show (∃ t, (xs.mapM (g.markedText marks) >>= fun texts => _) = .ok t) ↔ _
  simp only [← markedText_exists_ok_iff g marks, ← exceptMapM_exists_ok_iff]
  exact exceptBind_total_iff fun _ => ⟨_, rfl⟩

/-- A recipe of whole numbers can be put into words exactly if none of them has too many digits. -/
theorem tellable_iff
    (htotal : ∀ i ∈ (g.recipes.get r).ingredients, ∃ n, g.total i = .ok (.int n))
    (hscaled : ∀ s ∈ (g.recipes.get r).steps, ∀ u ∈ (g.steps.get s).uses,
      ∃ n, g.scaled u = .ok (.int n)) :
    g.Tellable r ↔ ∀ n, g.Shown r n → Text.Integer.Writable n := by
  constructor
  · intro h n hshown
    cases hshown with
    | total hi htotal => exact (display_exists_ok_iff htotal).mp (h.display _ hi)
    | use hs hxs hu hscaled => exact (useText_exists_ok_iff hscaled).mp (h.useText _ hs _ hxs _ hu)
  · intro h
    constructor
    case display =>
      intro i hi
      obtain ⟨n, hn⟩ := htotal i hi
      exact (display_exists_ok_iff hn).mpr (h n (.total hi hn))
    case useText =>
      intro s hs xs hxs u hu
      obtain ⟨n, hn⟩ := hscaled s hs u (mem_uses_of_segments hxs hu)
      exact (useText_exists_ok_iff hn).mpr (h n (.use hs hxs hu hn))

end Graph

/-! ### Documents -/

namespace Markdown

variable {g : Graph} {r : Ref .recipe}

theorem stepBlock_exists_ok_iff {s : Ref .step} (number : Nat) :
    (∃ t, stepBlock g number s = .ok t) ↔ ∃ t, g.stepText .underline s = .ok t :=
  exceptBind_total_iff fun _ => ⟨_, rfl⟩

theorem stepBlocks_exists_ok_iff {ss : List (Ref .step)} (number : Nat) :
    (∃ t, stepBlocks g number ss = .ok t) ↔ ∀ s ∈ ss, ∃ t, g.stepText .underline s = .ok t := by
  induction ss generalizing number with
  | nil => exact iff_of_true ⟨"", rfl⟩ (by simp)
  | cons s ss ih =>
      rw [stepBlocks, List.forall_mem_cons, ← ih (number + 1), ← stepBlock_exists_ok_iff number]
      exact exceptBind_exists_ok_iff fun _ => exceptBind_total_iff fun _ => ⟨_, rfl⟩

/-- What a section needs to have a text. -/
def SectionTellable (g : Graph) (recipe : Recipe) : Section → Prop
  | .portions => ∃ t, recipe.portions.write = .ok t
  | .supplies => True
  | .ingredients => ∀ i ∈ recipe.ingredients, ∃ t, g.display i = .ok t
  | .steps => ∀ s ∈ recipe.steps, ∃ t, g.stepText .underline s = .ok t

theorem sectionText_exists_ok_iff {recipe : Recipe} {title : String} {s : Section} :
    (∃ t, sectionText g recipe title s = .ok t) ↔ SectionTellable g recipe s := by
  cases s with
  | portions => exact exceptBind_total_iff fun _ => ⟨_, rfl⟩
  | supplies => exact iff_of_true ⟨_, rfl⟩ trivial
  | ingredients =>
      unfold SectionTellable
      rw [← exceptMapM_exists_ok_iff]
      exact exceptBind_total_iff fun _ => ⟨_, rfl⟩
  | steps =>
      unfold SectionTellable
      rw [← stepBlocks_exists_ok_iff 1]
      exact exceptBind_total_iff fun _ => ⟨_, rfl⟩

theorem shownSection_exists_ok_iff {profile : Profile} {recipe : Recipe} {s : Section} :
    (∃ t, shownSection g profile recipe s = .ok t) ↔
      ((profile.shown.shows s && hasSection recipe s) = true → SectionTellable g recipe s) := by
  unfold shownSection
  split
  · rename_i hshown
    rw [sectionText_exists_ok_iff]
    exact (imp_iff_right hshown).symm
  · rename_i hhidden
    exact iff_of_true ⟨"", rfl⟩ fun hshown => absurd hshown hhidden

theorem render_exists_ok_iff_sections {profile : Profile} :
    (∃ t, render g profile r = .ok t) ↔
      ∀ s ∈ [Section.portions, .supplies, .ingredients, .steps],
        ∃ t, shownSection g profile (g.recipes.get r) s = .ok t := by
  rw [← exceptMapM_exists_ok_iff]
  exact exceptBind_total_iff fun _ => ⟨_, rfl⟩

/-- Every profile that there is shows the ingredients and the steps. -/
theorem ofMode_shows (mode : Value) :
    (Profile.ofMode mode).shown.shows .ingredients = true ∧
      (Profile.ofMode mode).shown.shows .steps = true := by
  unfold Profile.ofMode
  split
  · split <;> decide
  · decide

/-- The document of a recipe can be made exactly if everything in it has a text. -/
theorem render_exists_ok_iff (mode : Value)
    (hportions : ∃ t, (g.recipes.get r).portions.write = .ok t)
    (hsegments : ∀ s ∈ (g.recipes.get r).steps, ∃ xs, g.segments s = .ok xs) :
    (∃ t, render g (.ofMode mode) r = .ok t) ↔ g.Tellable r := by
  obtain ⟨hshowsI, hshowsS⟩ := ofMode_shows mode
  rw [render_exists_ok_iff_sections]
  simp only [shownSection_exists_ok_iff]
  constructor
  · intro h
    constructor
    case display =>
      intro i hi
      have hhas : hasSection (g.recipes.get r) .ingredients = true := by
        simp [hasSection, List.ne_nil_of_mem hi]
      exact h .ingredients (by simp) (by rw [hshowsI, hhas]; rfl) i hi
    case useText =>
      intro s hs xs hxs
      have hhas : hasSection (g.recipes.get r) .steps = true := by
        simp [hasSection, List.ne_nil_of_mem hs]
      exact (Graph.stepText_exists_ok_iff hxs).mp
        (h .steps (by simp) (by rw [hshowsS, hhas]; rfl) s hs)
  · intro h s _ _
    cases s with
    | portions => exact hportions
    | supplies => exact trivial
    | ingredients => exact h.display
    | steps =>
        intro s hs
        obtain ⟨xs, hxs⟩ := hsegments s hs
        exact (Graph.stepText_exists_ok_iff hxs).mpr (h.useText s hs xs hxs)

end Markdown

/-! ### Responses -/

theorem Number.toFloat_exists_ok_iff {n : Int} :
    (∃ x, (Number.int n).toFloat = .ok x) ↔ (Decimal.ofInt? n).isSome = true := by
  unfold toFloat
  dsimp only
  cases Decimal.ofInt? n <;> simp

namespace Response

variable {g : Graph} {r : Ref .recipe}

theorem step_exists_ok_iff {s : Ref .step} {xs : List Segment} (h : g.segments s = .ok xs) :
    (∃ a, step g s = .ok a) ↔ ∀ u, .use u ∈ xs → ∃ t, g.useText u = .ok t := by
  rw [← Graph.forall_segmentText_iff]
  unfold step
  rw [h]
  show (∃ a, (xs.mapM (segment g) >>= fun segments => _) = .ok a) ↔ _
  have hsegment (x : Segment) : (∃ t, g.segmentText x = .ok t) ↔ ∃ a, segment g x = .ok a :=
    (exceptBind_total_iff fun _ => ⟨_, rfl⟩).symm
  simp only [hsegment, ← exceptMapM_exists_ok_iff]
  exact exceptBind_total_iff fun _ => ⟨_, rfl⟩

theorem ingredient_exists_ok_iff {i : Ref .ingredient} {n : Number} (h : g.total i = .ok n) :
    (∃ a, ingredient g i = .ok a) ↔ (∃ t, g.display i = .ok t) ∧ ∃ x, n.toFloat = .ok x := by
  have hfloat : (∃ x, totalFloat n = .ok x) ↔ ∃ x, n.toFloat = .ok x := by
    unfold totalFloat
    cases n.toFloat <;> simp [Except.mapError]
  unfold ingredient
  rw [h, ← hfloat]
  exact exceptBind_exists_ok_iff fun _ => exceptBind_total_iff fun _ => ⟨_, rfl⟩

/-- The response of a recipe can be made exactly if everything in it has a text and every total has
a floating point number. -/
theorem ofRecipe_exists_ok_iff (id : String) {p : Int}
    (hportions : (g.recipes.get r).portions = .int p)
    (hsegments : ∀ s ∈ (g.recipes.get r).steps, ∃ xs, g.segments s = .ok xs)
    (htotal : ∀ i ∈ (g.recipes.get r).ingredients, ∃ n, g.total i = .ok n) :
    (∃ a, ofRecipe g id r = .ok a) ↔
      g.Tellable r ∧ ∀ i ∈ (g.recipes.get r).ingredients, ∀ n, g.total i = .ok n →
        ∃ x, n.toFloat = .ok x := by
  have hwhole : ∃ n, wholePortions (g.recipes.get r).portions = .ok n := by
    rw [hportions]
    exact ⟨p, rfl⟩
  have hparts : (∃ a, ofRecipe g id r = .ok a) ↔
      (∀ i ∈ (g.recipes.get r).ingredients, ∃ a, ingredient g i = .ok a) ∧
        ∀ s ∈ (g.recipes.get r).steps, ∃ a, step g s = .ok a := by
    rw [← exceptMapM_exists_ok_iff, ← exceptMapM_exists_ok_iff]
    refine exceptBind_exists_ok_iff fun _ => ?_
    refine exceptBind_total_iff fun _ => ?_
    obtain ⟨n, hn⟩ := hwhole
    exact ⟨_, by rw [hn]; rfl⟩
  rw [hparts]
  constructor
  · rintro ⟨hi, hs⟩
    refine ⟨⟨?_, ?_⟩, ?_⟩
    · intro i hmem
      obtain ⟨n, hn⟩ := htotal i hmem
      exact ((ingredient_exists_ok_iff hn).mp (hi i hmem)).1
    · intro s hmem xs hxs
      exact (step_exists_ok_iff hxs).mp (hs s hmem)
    · intro i hmem n hn
      exact ((ingredient_exists_ok_iff hn).mp (hi i hmem)).2
  · rintro ⟨htell, hfloat⟩
    refine ⟨?_, ?_⟩
    · intro i hmem
      obtain ⟨n, hn⟩ := htotal i hmem
      exact (ingredient_exists_ok_iff hn).mpr ⟨htell.display i hmem, hfloat i hmem n hn⟩
    · intro s hmem
      obtain ⟨xs, hxs⟩ := hsegments s hmem
      exact (step_exists_ok_iff hxs).mpr (htell.useText s hmem xs hxs)

end Response

end Cookbook
