import Cookbook.Graph.Segment
import Cookbook.Profile
/-!
# Cookbook.Markdown

A recipe as a document: its name, and the sections that a profile shows, always in the order
portions, supplies, ingredients, steps. A section of which the recipe has nothing is left out.
-/

namespace Cookbook.Markdown

/-- A heading with an empty line after it. -/
def heading (level : String) (text : String) : String := level ++ " " ++ text ++ "\n\n"

/-- A list with an empty line after it. -/
def bullets (items : List String) : String :=
  String.join (items.map fun item => "- " ++ item ++ "\n") ++ "\n"

/-- The text of a numbered step: its name, and its text unless that is blank. -/
def stepBlock (g : Graph) (number : Nat) (s : Ref .step) : Except Fault String := do
  let text := Text.strip (← g.stepText .underline s)
  let title := heading "###" (Nat.repr number ++ ": " ++ (g.steps.get s).name)
  return title ++ (if text == "" then "" else text ++ "\n\n")

/-- The texts of steps numbered from `number` on. -/
def stepBlocks (g : Graph) (number : Nat) : List (Ref .step) → Except Fault String
  | [] => return ""
  | s :: steps => do
    let block ← stepBlock g number s
    let blocks ← stepBlocks g (number + 1) steps
    return block ++ blocks

/-- Whether a recipe has something for a section. -/
def hasSection (recipe : Recipe) : Section → Bool
  | .portions => !recipe.ingredients.isEmpty || !recipe.steps.isEmpty
  | .supplies => !recipe.supplies.isEmpty
  | .ingredients => !recipe.ingredients.isEmpty
  | .steps => !recipe.steps.isEmpty

/-- The text of a section under a title. -/
def sectionText (g : Graph) (recipe : Recipe) (title : String) : Section → Except Fault String
  | .portions => do
    return "**" ++ title ++ "**: " ++ (← recipe.portions.write) ++ "\n\n"
  | .supplies =>
    return heading "##" title ++ bullets (recipe.supplies.map fun s => (g.supplies.get s).name)
  | .ingredients => do
    return heading "##" title ++ bullets (← recipe.ingredients.mapM g.display)
  | .steps => do
    return heading "##" title ++ (← stepBlocks g 1 recipe.steps)

/-- The text of a section, if the profile shows it and the recipe has something for it. -/
def shownSection (g : Graph) (profile : Profile) (recipe : Recipe) (s : Section) :
    Except Fault String :=
  if profile.shown.shows s && hasSection recipe s then
    sectionText g recipe (profile.title s) s
  else return ""

/-- A recipe as a document. -/
def render (g : Graph) (profile : Profile) (r : Ref .recipe) : Except Fault String := do
  let recipe := g.recipes.get r
  let sections ← [Section.portions, .supplies, .ingredients, .steps].mapM
    (shownSection g profile recipe)
  return heading "#" recipe.name ++ String.join sections

end Cookbook.Markdown
