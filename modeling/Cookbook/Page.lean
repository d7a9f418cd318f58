import Cookbook.Build
import Cookbook.Catalog
import Cookbook.Markdown
import Cookbook.Settings
/-!
# Cookbook.Page

A recipe from its source to a document. A source gives the record for an id. When the source has no
such recipe the page shows the empty recipe and says so; every other fault is passed on.
-/

namespace Cookbook

/-- Where the records of recipes come from. -/
abbrev Source : Type := Value → Report Value

namespace Source

/-- Records held in memory, by id. -/
def ofRecords (records : List (String × Value)) : Source := fun id => do
  match ← Value.findIn records id with
  | some v => return v
  | none => Report.fail (.recipeNotFound (← id.write) "no existe")

/-- Records in the files of a catalog. -/
def ofCatalog (c : Catalog) (files : Files) : Source := c.get files

end Source

/-- A recipe as shown on its page; `found` is false if the empty recipe stands in. -/
structure Page where
  recipe : Ref .recipe
  found : Bool
  markdown : String
deriving DecidableEq, Repr

namespace Page

/-- Make the recipe with an id, scaled to portions. -/
def load (source : Source) (id portions : Value) : Work (Ref .recipe) := do
  let v ← source id
  Build.recipe v portions

/-- Make the recipe with an id, or the empty one if the source has no such recipe. -/
def loadOrEmpty (source : Source) (id portions : Value) : Work (Ref .recipe × Bool) := fun g =>
  match load source id portions g with
  | (⟨warnings, .error (.recipeNotFound id reason)⟩, g) =>
    let w := Warning.emptyRecipeUsed (Fault.recipeNotFound id reason).message
    let (report, g) := Work.makeNotFound g
    (⟨warnings ++ w :: report.warnings, report.outcome.map fun r => (r, false)⟩, g)
  | (report, g) => ((·, true) <$> report, g)

/-- The page of a recipe in a mode; the settings give the mode if none is asked for. -/
def render (source : Source) (settings : Settings) (id portions mode : Value) : Work Page := do
  let profile := Profile.ofMode (mode.orElse (.text settings.defaultMode))
  let (recipe, found) ← loadOrEmpty source id portions
  let g ← Work.read fun g => g
  let markdown ← Markdown.render g profile recipe
  return { recipe, found, markdown }

end Page

end Cookbook
