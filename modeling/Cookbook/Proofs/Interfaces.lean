import Cookbook.Proofs.CommandLine
import Cookbook.Proofs.Web.Recipe
/-!
# Cookbook.Proofs.Interfaces

The command line and the web interface show the same recipe. Each of them comes to the same page in
its own way, through arguments and options or through a path and a query; from there on the one
prints the document and ends with an exit code, and the other sends it with a status.
-/

namespace Cookbook.Interfaces

open CommandLine (renderArgs)

variable {environment : Environment} {files : Files} {id portions : String} {mode : Option String}

/-- The page that both interfaces show. -/
def page (environment : Environment) (files : Files) (id portions : String)
    (mode : Option String) : Except Fault Page :=
  let settings := Settings.ofEnvironment environment
  (Page.render (Web.sourceOf settings files) settings (.text id)
    (.int (Portions.orDefault (.text portions) settings.defaultPortions))
    (Value.ofText? mode) .empty).1.outcome

theorem outcome_run (hdash : id.toList.head? ≠ some '-') (hmode : ∀ m ∈ mode, m ∈ Web.modes) :
    (CommandLine.run environment files (renderArgs id portions mode)).outcome =
      (page environment files id portions mode).map (CommandLine.print files) := by
  unfold CommandLine.run
  rw [CommandLine.invocation_renderArgs hdash hmode]
  show (CommandLine.serve _ _ _ _).outcome = _
  unfold CommandLine.serve
  dsimp only [Option.filter]
  rw [Report.outcome_bind]
  rfl

theorem outcome_respond {r : Web.Request} (hid : id ≠ "") (hslash : '/' ∉ id.toList)
    (hmode : ∀ m ∈ mode, m ∈ Web.modes) (hget : r.Gets (Web.Route.documentPath id))
    (hportions : r.field? "portions" = some portions) (hfield : r.field? "mode" = mode) :
    (Web.respond (Settings.ofEnvironment environment) files r).outcome =
      (page environment files id portions mode).map fun page =>
        ⟨Web.pageStatus page, .document page.markdown⟩ := by
  rw [Web.respond_document hid hslash hget, Web.outcome_document (hfield ▸ hmode), hfield]
  unfold Web.portions
  rw [hportions]
  rfl

/-- **The command line and the web interface agree.** For one environment, one catalog, and the same
id, portions and mode: if both give a result, the command prints the document that the web interface
sends; it ends with 0 if the status is 200 and with 1 if it is 404. A recipe has no document for the
web interface exactly if it has no data, and then the document says so, whatever was asked for. -/
theorem run_agrees_respond {r r' : Web.Request} {finish : CommandLine.Finish} {answer : Web.Answer}
    (hid : id ≠ "") (hslash : '/' ∉ id.toList) (hdash : id.toList.head? ≠ some '-')
    (hmode : ∀ m ∈ mode, m ∈ Web.modes) (hget : r.Gets (Web.Route.documentPath id))
    (hportions : r.field? "portions" = some portions) (hfield : r.field? "mode" = mode)
    (hget' : r'.Gets (Web.Route.recipePath id))
    (hrun : (CommandLine.run environment files (renderArgs id portions mode)).outcome = .ok finish)
    (hrespond : (Web.respond (Settings.ofEnvironment environment) files r).outcome = .ok answer) :
    answer.body = .document finish.output ∧
      (finish.exit = 0 ↔ answer.status = 200) ∧ (finish.exit = 1 ↔ answer.status = 404) ∧
      ((Web.answer (Settings.ofEnvironment environment) files r').status = 404 ↔
        answer.status = 404) ∧
      (answer.status = 404 → finish.output = "# Recipe not found\n\n") := by
  rw [outcome_run hdash hmode] at hrun
  rw [outcome_respond hid hslash hmode hget hportions hfield] at hrespond
  rw [Web.answer_recipe_status hid hslash hget']
  obtain ⟨page, hpage, hprint⟩ := exceptBind_inv hrun
  rw [hpage] at hrespond
  cases hprint
  cases hrespond
  rcases Page.render_inv hpage with ⟨hfound, hhas⟩ | ⟨hfound, hdocument, hlacks⟩
  · simp [CommandLine.print, CommandLine.exitCode, Web.pageStatus, hfound, hhas]
  · have hempty : Markdown.emptyDocument = "# Recipe not found\n\n" := by decide
    simp [CommandLine.print, CommandLine.exitCode, Web.pageStatus, hfound, hlacks, hdocument,
      hempty]

/-- A catalog with one recipe. -/
def teaFiles : Files where
  top := .directory [("data", .directory [("recipes", .directory
    [("tea.json", .file (Text.Utf8.write "\x7b\"name\": \"Tea\"\x7d"))])])]

/-- A request for a recipe as a document, with an escape in its path. -/
def teaRequest : Web.Request where
  path := "/api/v1/recipes/%74ea/markdown"
  query := [("portions", "2"), ("mode", "simple")]

theorem page_tea :
    page [] teaFiles "tea" "2" (some "simple") = .ok ⟨⟨0⟩, true, "# Tea\n\n"⟩ := by
  decide +kernel

/-- The recipe of the catalog, for two and in the simple mode. -/
theorem run_agrees_respond_tea :
    ∃ finish answer,
      (CommandLine.run [] teaFiles (renderArgs "tea" "2" (some "simple"))).outcome = .ok finish ∧
        (Web.respond (Settings.ofEnvironment []) teaFiles teaRequest).outcome = .ok answer ∧
          finish.output = "# Tea\n\n" ∧ answer.body = .document finish.output ∧
            (finish.exit = 0 ↔ answer.status = 200) := by
  have hmode : ∀ m ∈ some "simple", m ∈ Web.modes := by decide
  have hget : teaRequest.Gets (Web.Route.documentPath "tea") := ⟨rfl, by decide +kernel⟩
  have hget' : Web.Request.Gets ⟨"/api/v1/recipes/tea", [], "GET"⟩ (Web.Route.recipePath "tea") :=
    ⟨rfl, by decide +kernel⟩
  have hrun : (CommandLine.run [] teaFiles (renderArgs "tea" "2" (some "simple"))).outcome =
      .ok (CommandLine.print teaFiles ⟨⟨0⟩, true, "# Tea\n\n"⟩) := by
    rw [outcome_run (by decide) hmode, page_tea]
    rfl
  have hrespond : (Web.respond (Settings.ofEnvironment []) teaFiles teaRequest).outcome =
      .ok ⟨200, .document "# Tea\n\n"⟩ := by
    rw [outcome_respond (by decide) (by decide) hmode hget rfl rfl, page_tea]
    rfl
  obtain ⟨hbody, hstatus, -⟩ := run_agrees_respond (by decide) (by decide) (by decide) hmode hget
    rfl rfl hget' hrun hrespond
  exact ⟨_, _, hrun, hrespond, rfl, hbody, hstatus⟩

end Cookbook.Interfaces
