import Cookbook.Graph.Amount
import Cookbook.Template
/-!
# Cookbook.Graph.Segment

The text of a step with its templates resolved. A text with `n` templates gives `n + 1` literals;
between two of them stands what the template refers to, or nothing if there is no such object.
Resolving reads the graph as it is, so the result follows every change of portions.
-/

namespace Cookbook

/-- A part of a resolved text. -/
inductive Segment
  | literal (s : String)
  | ingredient (r : Ref .ingredient)
  | supply (r : Ref .supply)
  | use (r : Ref .use)
deriving DecidableEq, Repr

/-- What stands around a reference in a text. -/
structure Marks where
  before : String
  after : String

namespace Marks

/-- Nothing around references. -/
def plain : Marks := ⟨"", ""⟩

/-- References underlined. -/
def underline : Marks := ⟨"<u>", "</u>"⟩

/-- A text between marks. -/
def around (m : Marks) (s : String) : String := m.before ++ s ++ m.after

end Marks

namespace Graph

/-- What a template in a step of a recipe refers to. -/
def resolve? (g : Graph) (r : Ref .recipe) (s : Ref .step) (t : Template) : Option Segment :=
  match t.kind with
  | .ingredient => (g.findIngredient? r t.id).map .ingredient
  | .supply => (g.findSupply? r t.id).map .supply
  | .useIngredient => (g.findUseIngredient? s t.id).map .use
  | .useSupply => (g.findUseSupply? s t.id).map .use

/-- The segments of one part of a text: the literal, and the reference if there is one. -/
def partSegments (g : Graph) (r : Ref .recipe) (s : Ref .step) :
    List Char × Template → List Segment
  | (before, t) => .literal (String.ofList before) :: (g.resolve? r s t).toList

/-- The resolved text of a step. -/
def segments (g : Graph) (s : Ref .step) : Except Fault (List Segment) :=
  let step := g.steps.get s
  match step.recipe with
  | none => .error (.stepWithoutRecipe step.name)
  | some r =>
    let text := Template.split step.text.toList
    .ok (text.parts.flatMap (g.partSegments r s) ++ [.literal (String.ofList text.last)])

/-- A segment as text. -/
def segmentText (g : Graph) : Segment → Except Fault String
  | .literal s => .ok s
  | .ingredient r => .ok (g.ingredients.get r).name
  | .supply r => .ok (g.supplies.get r).name
  | .use r => g.useText r

/-- A segment as text, a reference between marks. -/
def markedText (g : Graph) (marks : Marks) : Segment → Except Fault String
  | .literal s => .ok s
  | segment => (g.segmentText segment).map marks.around

/-- The text of a step, every reference between marks. -/
def stepText (g : Graph) (marks : Marks) (s : Ref .step) : Except Fault String := do
  let segments ← g.segments s
  let texts ← segments.mapM (g.markedText marks)
  return String.join texts

end Graph

end Cookbook
