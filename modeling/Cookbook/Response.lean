import Cookbook.Graph.Segment
/-!
# Cookbook.Response

A recipe as data for other programs: the totals are floating point numbers, and the text of each
step is given in segments that name what they refer to.
-/

namespace Cookbook

/-- What a segment of a response is. -/
inductive SegmentType
  | text
  | ingredient
  | supply
  | useIngredient
  | useSupply
deriving DecidableEq, Repr

/-- A type in words. -/
def SegmentType.word : SegmentType → String
  | text => "text"
  | ingredient => "ingredient"
  | supply => "supply"
  | useIngredient => "use_ingredient"
  | useSupply => "use_supply"

/-- A part of the text of a step. -/
structure SegmentResponse where
  type : SegmentType
  text : String
  refId : Option String
deriving DecidableEq, Repr

/-- A step with its text in segments. -/
structure StepResponse where
  name : String
  segments : List SegmentResponse
deriving DecidableEq, Repr

/-- A piece of equipment. -/
structure SupplyResponse where
  id : String
  name : String
deriving DecidableEq, Repr

/-- An ingredient with its total. -/
structure IngredientResponse where
  id : String
  name : String
  unit : String
  total : Float
  display : String

/-- A recipe as data. -/
structure Response where
  id : String
  name : String
  portions : Int
  supplies : List SupplyResponse
  ingredients : List IngredientResponse
  steps : List StepResponse

namespace Response

/-- What a segment is; a use is of the type of its owner. -/
def segmentType (g : Graph) : Segment → SegmentType
  | .literal _ => .text
  | .ingredient _ => .ingredient
  | .supply _ => .supply
  | .use u =>
    match (g.uses.get u).owner with
    | .ingredient _ => .useIngredient
    | .supply _ => .useSupply

/-- The id of what a segment refers to. -/
def segmentId? (g : Graph) : Segment → Option String
  | .literal _ => none
  | .ingredient i => some (g.ingredients.get i).id
  | .supply s => some (g.supplies.get s).id
  | .use u => some (g.useId u)

/-- A segment as data. -/
def segment (g : Graph) (s : Segment) : Except Fault SegmentResponse := do
  let text ← g.segmentText s
  return { type := segmentType g s, text, refId := segmentId? g s }

/-- A step as data. -/
def step (g : Graph) (s : Ref .step) : Except Fault StepResponse := do
  let segments ← (← g.segments s).mapM (segment g)
  return { name := (g.steps.get s).name, segments }

/-- A supply as data. -/
def supply (g : Graph) (s : Ref .supply) : SupplyResponse :=
  { id := (g.supplies.get s).id, name := (g.supplies.get s).name }

/-- A total as a floating point number. -/
def totalFloat (n : Number) : Except Fault Float := n.toFloat.mapError fun _ => .misfit

/-- An ingredient as data. -/
def ingredient (g : Graph) (i : Ref .ingredient) : Except Fault IngredientResponse := do
  let amount ← g.total i
  let display ← g.display i
  let total ← totalFloat amount
  let ingredient := g.ingredients.get i
  return { id := ingredient.id, name := ingredient.name, unit := ingredient.unit, total, display }

/-- The portions of a recipe as a whole number. -/
def wholePortions : Value → Except Fault Int
  | .int n => return n
  | _ => .error .misfit

/-- A recipe as data, under the id that was asked for. -/
def ofRecipe (g : Graph) (id : String) (r : Ref .recipe) : Except Fault Response := do
  let recipe := g.recipes.get r
  let ingredients ← recipe.ingredients.mapM (ingredient g)
  let steps ← recipe.steps.mapM (step g)
  let portions ← wholePortions recipe.portions
  return {
    id, portions, ingredients, steps
    name := recipe.name
    supplies := recipe.supplies.map (supply g) }

end Response

end Cookbook
