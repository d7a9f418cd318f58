import Cookbook.Proofs.Page
import Cookbook.Proofs.Web.Address
import Cookbook.Web
/-!
# Cookbook.Proofs.Web.Recipe

The two answers about one recipe: as data and as a document. Both are 404 for the same reason, that
the catalog has no such recipe; the number of portions and the mode never change that.
-/

namespace Cookbook.Web

variable {settings : Settings} {files : Files} {source : Source} {id : String} {r : Request}

/-- A request that asks for what is at a path. -/
structure Request.Gets (r : Request) (path : List Char) : Prop where
  method : r.method = "GET"
  path : decodePath r.path = path

theorem respond_of_gets {path : List Char} {route : Route} (h : r.Gets path)
    (hroute : Route.ofPath? path = some route) :
    respond settings files r = atRoute settings files r route := by
  unfold respond
  simp only [h.path, hroute, h.method, beq_self_eq_true, if_true]

/-- The source that the routes of recipes read. -/
def sourceOf (settings : Settings) (files : Files) : Source :=
  Source.ofCatalog (Catalog.ofDataDir settings.dataDir) files

theorem respond_recipe (hid : id ≠ "") (hslash : '/' ∉ id.toList)
    (h : r.Gets (Route.recipePath id)) :
    respond settings files r = recipe settings (sourceOf settings files) id r :=
  respond_of_gets h (Route.ofPath?_recipePath hid hslash)

theorem respond_document (hid : id ≠ "") (hslash : '/' ∉ id.toList)
    (h : r.Gets (Route.documentPath id)) :
    respond settings files r = document settings (sourceOf settings files) id r :=
  respond_of_gets h (Route.ofPath?_documentPath hid hslash)

/-! ### As a document -/

/-- The status of a page. -/
def pageStatus (page : Page) : Nat := if page.found then 200 else 404

theorem outcome_document (hmode : ∀ m ∈ r.field? "mode", m ∈ modes) :
    (document settings source id r).outcome =
      (Page.render source settings (.text id) (portions settings r)
        (Value.ofText? (r.field? "mode")) .empty).1.outcome.map fun page =>
          ⟨pageStatus page, .document page.markdown⟩ := by
  have hknown : ((r.field? "mode").any fun m => !modes.contains m) = false := by
    cases hfield : r.field? "mode" with
    | none => rfl
    | some m =>
        have hm : m ∈ modes := hmode m (by rw [hfield]; rfl)
        simp [hm]
  unfold document
  simp only [hknown, Bool.false_eq_true, if_false, Report.outcome_bind]
  rfl

/-! ### As data -/

theorem outcome_recipe_of_recipeNotFound {name reason : String}
    (h : (source (.text id)).outcome = .error (.recipeNotFound name reason)) :
    (recipe settings source id r).outcome =
      .ok (.missing (Fault.recipeNotFound name reason).message) := by
  have houtcome : (Page.load source (.text id) (portions settings r) .empty).1.outcome =
      .error (.recipeNotFound name reason) := Page.load_recipeNotFound_iff.mpr h
  unfold recipe
  dsimp only
  rw [houtcome]

/-- Where the source has the recipe, an answer shows it. -/
theorem recipe_inv {a : Answer} (h : (recipe settings source id r).outcome = .ok a)
    (hlacks : ¬ Page.Lacks source (.text id)) : a.status = 200 := by
  unfold recipe at h
  dsimp only at h
  split at h
  · rename_i name reason houtcome
    exact absurd ⟨name, reason, Page.load_recipeNotFound_iff.mp houtcome⟩ hlacks
  · cases h
  · obtain ⟨response, -, hdata⟩ := exceptBind_inv h
    cases hdata
    rfl

/-- A recipe is answered with 404 as data exactly where the catalog has no such recipe. -/
theorem answer_recipe_status (hid : id ≠ "") (hslash : '/' ∉ id.toList)
    (h : r.Gets (Route.recipePath id)) :
    (answer settings files r).status = 404 ↔ Page.Lacks (sourceOf settings files) (.text id) := by
  unfold answer
  rw [respond_recipe hid hslash h]
  constructor
  · intro hstatus
    by_contra hlacks
    split at hstatus
    · rename_i a ha
      rw [recipe_inv ha hlacks] at hstatus
      cases hstatus
    · cases hstatus
  · rintro ⟨name, reason, hsource⟩
    rw [outcome_recipe_of_recipeNotFound hsource]
    rfl

end Cookbook.Web
