import Cookbook.Graph.Work
import Cookbook.Value.Record
import Cookbook.Value.Written
/-!
# Cookbook.Build

Recipe records as graphs. A record lists ingredients, supplies and steps; each step lists its uses,
which name their owner by id. A use is linked both to the step and to its owner. A use whose id
names nothing is left out with a warning. Of several owners with one id the last one is linked.

Names, ids and texts may be any value and are taken as text; whatever else a record holds is
ignored.
-/

namespace Cookbook.Build

/-- A field as text; a missing one is empty. -/
def textField (v : Value) (key : String) : Except Fault String := do
  match ← v.field? key with
  | some w => w.write
  | none => return ""

/-- The items of a list in a field. -/
def listField (v : Value) (key : String) : Except Fault (List Value) := do
  (← v.fieldOrNull key).items

/-- The items of a list in a field, each read as a record. -/
def records {α : Type} (v : Value) (key : String) (describe : Value → Except Fault α) :
    Except Fault (List α) := do
  (← listField v key).mapM describe

/-- The ingredient that a record describes. -/
def ingredient (v : Value) : Except Fault Ingredient := do
  let id ← textField v "id"
  let name ← textField v "name"
  let unit ← ((← v.fieldOrNull "unit").orElse (.text "")).write
  return { id, name, unit }

/-- The supply that a record describes. -/
def supply (v : Value) : Except Fault Supply := do
  let id ← textField v "id"
  let name ← textField v "name"
  return { id, name }

/-- Owners by id; of two with one id the first in the list counts. -/
abbrev Index := List (String × Owner)

namespace Index

/-- Owners by id where the last one in the order of making counts. -/
def lastWins (owners : List (String × Owner)) : Index := owners.reverse

end Index

/-! ### Steps -/

/-- Link one use: make it, register it with its owner and give it to the step. -/
def linkUse (owner : Owner) (amount : Value) : Work (Ref .use) := do
  let u ← Work.make (·.addUse { amount, owner })
  Work.change (·.register owner u)
  return u

/-- One use of a step, unless its id names nothing. -/
def use (index : Index) (unknown : String → Warning) (v : Value) :
    Work (Option (Ref .use)) := do
  let id ← v.fieldOrNull "belongsToId"
  match ← Value.findIn index id with
  | none =>
    let id ← id.write
    Report.warn (unknown id)
    return none
  | some owner =>
    let amount ← v.fieldOrNull "amount"
    let u ← linkUse owner (amount.orElse (.int 0))
    return some u

/-- The uses of a step, in order. -/
def uses (index : Index) (unknown : String → Warning) : List Value → Work (List (Ref .use))
  | [] => return []
  | v :: vs => do
    let u ← use index unknown v
    let us ← uses index unknown vs
    return u.toList ++ us

/-- The step that a record describes. -/
def step (ingredients supplies : Index) (v : Value) : Work (Ref .step) := do
  let name ← textField v "name"
  let entries ← listField v "useIngredients"
  let useIngredients ← uses ingredients (.unknownIngredient name) entries
  let entries ← listField v "useSupplies"
  let useSupplies ← uses supplies (.unknownSupply name) entries
  let text ← textField v "text"
  Work.make (·.addStep { name, text, useIngredients, useSupplies })

/-! ### Recipes -/

/-- Make ingredients, in order. -/
def addIngredients (is : List Ingredient) : Work (List (Ref .ingredient)) :=
  is.mapM' fun i => Work.make (·.addIngredient i)

/-- Make supplies, in order. -/
def addSupplies (js : List Supply) : Work (List (Ref .supply)) :=
  js.mapM' fun j => Work.make (·.addSupply j)

/-- Make the steps that records describe, in order. -/
def steps (ingredients supplies : Index) (vs : List Value) : Work (List (Ref .step)) :=
  vs.mapM' (step ingredients supplies)

/-- The recipe that a record describes, for one portion. -/
def recipeForOne (v : Value) : Work (Ref .recipe) := do
  let ingredients ← records v "ingredients" ingredient
  let ingredientRefs ← addIngredients ingredients
  let supplies ← records v "supplies" supply
  let supplyRefs ← addSupplies supplies
  let ingredientIndex := Index.lastWins <|
    (ingredients.zip ingredientRefs).map fun (i, r) => (i.id, .ingredient r)
  let supplyIndex := Index.lastWins <|
    (supplies.zip supplyRefs).map fun (s, r) => (s.id, .supply r)
  let stepRefs ← steps ingredientIndex supplyIndex (← listField v "steps")
  let name ← textField v "name"
  Work.makeRecipe name ingredientRefs supplyRefs stepRefs

/-- The recipe that a record describes, scaled to portions. The portions are put into words when the
recipe is done, so it is not handed out for a whole number of too many digits. -/
def recipe (v : Value) (portions : Value) : Work (Ref .recipe) := do
  let r ← recipeForOne v
  Work.change (·.setPortions r portions)
  let _ ← portions.write
  return r

end Cookbook.Build
