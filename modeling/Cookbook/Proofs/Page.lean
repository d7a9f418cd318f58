import Cookbook.Page
import Cookbook.Proofs.Build.Faults
import Cookbook.Proofs.Report
/-!
# Cookbook.Proofs.Page

When a page is the recipe and when the empty recipe stands in. Only the source can say that there is
no such recipe: making a recipe from a record never does (`load_recipeNotFound_iff`). So the empty
recipe stands in exactly when the source says so, and then its document is the same for every
profile, every id and every number of portions (`emptyDocument`).
-/

namespace Cookbook

/-! ### The empty recipe -/

namespace Markdown

/-- Whether a recipe has nothing to show below its name. -/
def IsBare (recipe : Recipe) : Prop :=
  recipe.ingredients = [] ∧ recipe.supplies = [] ∧ recipe.steps = []

/-- A recipe that has nothing to show has no sections, whatever the profile shows. -/
theorem hasSection_of_isBare {recipe : Recipe} (h : IsBare recipe) (s : Section) :
    hasSection recipe s = false := by
  obtain ⟨hi, hj, hs⟩ := h
  cases s <;> simp [hasSection, hi, hj, hs]

theorem render_of_isBare {g : Graph} {r : Ref .recipe} (h : IsBare (g.recipes.get r))
    (profile : Profile) : render g profile r = .ok (heading "#" (g.recipes.get r).name) := by
  have hshown : ∀ s, shownSection g profile (g.recipes.get r) s = .ok "" := by
    intro s
    unfold shownSection
    rw [hasSection_of_isBare h, Bool.and_false]
    rfl
  unfold render
  simp only [List.mapM_cons, List.mapM_nil, hshown]
  show Except.ok (_ ++ _) = _
  rw [show String.join ["", "", "", ""] = "" by decide, String.append_empty]

/-- The document of the empty recipe. -/
def emptyDocument : String := heading "#" Work.notFoundName

example : emptyDocument = "# Recipe not found\n\n" := by decide

end Markdown

namespace Page

variable {source : Source} {settings : Settings} {id portions mode : Value} {g : Graph}

/-- The graph with the empty recipe. -/
def withEmpty (g : Graph) : Graph :=
  (g.addRecipe { name := Work.notFoundName, ingredients := [], supplies := [], steps := [] }).1

theorem render_withEmpty (g : Graph) (profile : Profile) :
    Markdown.render (withEmpty g) profile g.recipes.next = .ok Markdown.emptyDocument := by
  have hget : (withEmpty g).recipes.get g.recipes.next =
      { name := Work.notFoundName, ingredients := [], supplies := [], steps := [] } :=
    Shelf.get_of_get? (Shelf.get?_add_next _ _)
  rw [Markdown.render_of_isBare (by rw [hget]; exact ⟨rfl, rfl, rfl⟩), hget]
  rfl

/-! ### Loading -/

/-- The source reports and the recipe is made, from the graph as it is. -/
theorem outcome_load (source : Source) (id portions : Value) (g : Graph) :
    (load source id portions g).1.outcome =
      (source id).outcome >>= fun v => (Build.recipe v portions g).1.outcome := by
  unfold load
  rw [Work.outcome_bind]
  rfl

/-- Loading makes the recipe from the record that the source has. -/
theorem load_of_recipe {v : Value} {ws : List Warning} {r : Ref .recipe} {g' : Graph}
    (hsource : (source id).outcome = .ok v) (h : Build.recipe v portions g = (⟨ws, .ok r⟩, g')) :
    load source id portions g = (⟨(source id).warnings ++ ws, .ok r⟩, g') := by
  have hreport : (liftM (source id) : Work Value) g = (⟨(source id).warnings, .ok v⟩, g) := by
    rw [Work.liftReport_apply, ← hsource]
  unfold load
  rw [Work.bind_of_ok hreport, h]

/-- A recipe that was loaded was made from the record that the source has. -/
theorem load_inv {ws : List Warning} {r : Ref .recipe} {g' : Graph}
    (h : load source id portions g = (⟨ws, .ok r⟩, g')) :
    ∃ v ws', (source id).outcome = .ok v ∧ Build.recipe v portions g = (⟨ws', .ok r⟩, g') := by
  obtain ⟨ws₁, v, g₁, ws₂, hsource, hrecipe, -⟩ := Work.bind_inv h
  obtain ⟨hreport, rfl⟩ := Work.report_inv hsource
  exact ⟨v, ws₂, by rw [hreport], hrecipe⟩

/-- Making a recipe never ends with there being no such recipe. -/
theorem recipe_ne_recipeNotFound (v portions : Value) (g : Graph) (name reason : String) :
    (Build.recipe v portions g).1.outcome ≠ .error (.recipeNotFound name reason) := by
  intro h
  cases Build.recipe_faultsIn (Build.readsRecipe_ofReading v) (Build.write_ofReading portions) g _ h

/-- A recipe is not found exactly where the source says so. -/
theorem load_recipeNotFound_iff {name reason : String} :
    (load source id portions g).1.outcome = .error (.recipeNotFound name reason) ↔
      (source id).outcome = .error (.recipeNotFound name reason) := by
  rw [outcome_load]
  cases (source id).outcome with
  | error fault => constructor <;> intro h <;> cases h <;> rfl
  | ok v =>
      constructor
      · intro h
        exact absurd h (recipe_ne_recipeNotFound v portions g name reason)
      · intro h
        cases h

/-! ### Pages -/

/-- Whether a source has no recipe with an id. -/
def Lacks (source : Source) (id : Value) : Prop :=
  ∃ name reason, (source id).outcome = .error (.recipeNotFound name reason)

/-- The profile of a page. -/
def profileFor (settings : Settings) (mode : Value) : Profile :=
  Profile.ofMode (mode.orElse (.text settings.defaultMode))

/-- A page shows what `loadOrEmpty` made. -/
theorem outcome_render {ws : List Warning} {r : Ref .recipe} {found : Bool} {g' : Graph}
    (h : loadOrEmpty source id portions g = (⟨ws, .ok (r, found)⟩, g')) :
    (render source settings id portions mode g).1.outcome =
      (Markdown.render g' (profileFor settings mode) r).map
        fun markdown => ⟨r, found, markdown⟩ := by
  unfold render profileFor
  simp only [Work.outcome_bind, h]
  rfl

/-- The page of a recipe that could be made. -/
theorem outcome_render_of_load {ws : List Warning} {r : Ref .recipe} {g' : Graph}
    (h : load source id portions g = (⟨ws, .ok r⟩, g')) :
    (render source settings id portions mode g).1.outcome =
      (Markdown.render g' (profileFor settings mode) r).map
        fun markdown => ⟨r, true, markdown⟩ := by
  have hload : loadOrEmpty source id portions g =
      ((fun r => (r, true)) <$> ⟨ws, .ok r⟩, g') := by
    unfold loadOrEmpty
    rw [h]
  exact outcome_render hload

/-- A page shows a recipe that was loaded exactly if its document can be made. -/
theorem found_iff_of_load {ws : List Warning} {r : Ref .recipe} {g' : Graph}
    (h : load source id portions g = (⟨ws, .ok r⟩, g')) :
    (∃ page, (render source settings id portions mode g).1.outcome = .ok page ∧
        page.found = true) ↔
      ∃ t, Markdown.render g' (profileFor settings mode) r = .ok t := by
  rw [outcome_render_of_load h]
  cases Markdown.render g' (profileFor settings mode) r <;> simp [Except.map]

/-- The page of a recipe that the source does not have. -/
theorem outcome_render_of_recipeNotFound {name reason : String}
    (h : (source id).outcome = .error (.recipeNotFound name reason)) :
    (render source settings id portions mode g).1.outcome =
      .ok ⟨g.recipes.next, false, Markdown.emptyDocument⟩ := by
  have hload : load source id portions g =
      (⟨(source id).warnings, .error (.recipeNotFound name reason)⟩, g) := by
    refine Work.bind_of_error ?_
    rw [Work.liftReport_apply, ← h]
  have hempty : loadOrEmpty source id portions g =
      (⟨(source id).warnings ++ [.emptyRecipeUsed (Fault.recipeNotFound name reason).message],
        .ok (g.recipes.next, false)⟩, withEmpty g) := by
    unfold loadOrEmpty
    rw [hload]
    rfl
  rw [outcome_render hempty, render_withEmpty]
  rfl

/-- Any other fault is passed on. -/
theorem outcome_render_of_fault {fault : Fault}
    (h : (load source id portions g).1.outcome = .error fault)
    (hfault : ∀ name reason, fault ≠ .recipeNotFound name reason) :
    (render source settings id portions mode g).1.outcome = .error fault := by
  rcases hload : load source id portions g with ⟨⟨ws, outcome⟩, g'⟩
  rw [hload] at h
  cases h
  have hkept : loadOrEmpty source id portions g = (⟨ws, .error fault⟩, g') := by
    unfold loadOrEmpty
    rw [hload]
    cases fault with
    | recipeNotFound name reason => exact absurd rfl (hfault name reason)
    | _ => rfl
  unfold render
  simp only [Work.outcome_bind, hkept]
  rfl

/-- What a page says of its source: either the recipe was made and is shown, or the source has no
such recipe and the page is that of the empty one. -/
theorem render_inv {page : Page}
    (h : (render source settings id portions mode g).1.outcome = .ok page) :
    (page.found = true ∧ ¬ Lacks source id) ∨
      (page.found = false ∧ page.markdown = Markdown.emptyDocument ∧ Lacks source id) := by
  by_cases hlacks : Lacks source id
  · obtain ⟨name, reason, hsource⟩ := hlacks
    rw [outcome_render_of_recipeNotFound hsource] at h
    cases h
    exact Or.inr ⟨rfl, rfl, name, reason, hsource⟩
  · rcases hload : load source id portions g with ⟨⟨ws, outcome⟩, g'⟩
    cases outcome with
    | ok r =>
        rw [outcome_render_of_load hload] at h
        obtain ⟨markdown, -, hpage⟩ := exceptBind_inv h
        cases hpage
        exact Or.inl ⟨rfl, hlacks⟩
    | error fault =>
        have hfault : ∀ name reason, fault ≠ .recipeNotFound name reason := by
          rintro name reason rfl
          exact hlacks ⟨name, reason, load_recipeNotFound_iff.mp (congrArg (·.1.outcome) hload)⟩
        rw [outcome_render_of_fault (congrArg (·.1.outcome) hload) hfault] at h
        cases h

end Page

end Cookbook
