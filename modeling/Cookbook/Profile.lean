import Cookbook.Text.Blank
import Cookbook.Text.Part
import Cookbook.Value
/-!
# Cookbook.Profile

Which sections of a recipe a document shows, and under which titles. There are two profiles: the
simple one leaves out the portions and the equipment, the complete one shows everything.
-/

namespace Cookbook

/-- The sections of a document. -/
inductive Section
  | portions
  | supplies
  | ingredients
  | steps
deriving DecidableEq, Repr

namespace Section

/-- The key of a section in a profile. -/
def key : Section → String
  | portions => "portions"
  | supplies => "supplies"
  | ingredients => "ingredients"
  | steps => "steps"

/-- The title of a section where a profile gives none. -/
def defaultTitle : Section → String
  | portions => "Portions"
  | supplies => "Supplies"
  | ingredients => "Ingredients"
  | steps => "Steps"

end Section

/-- The keys of the sections to show: in a list, or anywhere inside a text. -/
inductive Shown
  | keys (ks : List String)
  | text (s : String)
deriving DecidableEq, Repr

/-- Whether a section is among those to show. -/
def Shown.shows (shown : Shown) (s : Section) : Bool :=
  match shown with
  | keys ks => ks.contains s.key
  | text t => Text.occursIn s.key.toList t.toList

/-- How a document presents a recipe. -/
structure Profile where
  id : String
  mode : String
  label : String
  shown : Shown
  titles : List (String × Option String)
deriving DecidableEq, Repr

namespace Profile

/-- The profile of ingredients and steps. -/
def simple : Profile where
  id := "simple_v1"
  mode := "simple"
  label := "Simple (solo ingredientes y pasos)"
  shown := .keys ["ingredients", "steps"]
  titles := [("ingredients", some "Ingredients"), ("steps", some "Steps")]

/-- The profile of everything. -/
def complete : Profile where
  id := "completo_v1"
  mode := "completo"
  label := "Completo"
  shown := .keys ["portions", "supplies", "ingredients", "steps"]
  titles := [("portions", some "Portions"), ("supplies", some "Supplies"),
    ("ingredients", some "Ingredients"), ("steps", some "Steps")]

/-- The profile for a mode: the complete one for every mode but the simple one. -/
def ofMode : Value → Profile
  | .text mode => if mode == simple.mode then simple else complete
  | _ => complete

/-- The title of a section: what the profile gives, if that is not blank. -/
def title (p : Profile) (s : Section) : String :=
  let given := Text.strip (((p.titles.lookup s.key).join).getD "")
  if given == "" then s.defaultTitle else given

end Profile

end Cookbook
