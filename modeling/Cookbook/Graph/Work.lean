import Cookbook.Graph
import Cookbook.Report
/-!
# Cookbook.Graph.Work

Changes of a graph that may fail. A piece of work reads and changes the graph and reports a result
or a fault. What was changed before a fault stays changed.

A step belongs to one recipe for good: attaching it to another one fails. A recipe attaches its
steps one after the other when it is made.
-/

namespace Cookbook

/-- A change of a graph with a report. -/
def Work (α : Type) : Type := Graph → Report α × Graph

namespace Work

variable {α β : Type}

/-- Do nothing. -/
protected def pure (a : α) : Work α := fun g => (pure a, g)

/-- One piece of work after the other; after a fault the graph is left as it is. -/
protected def bind (w : Work α) (f : α → Work β) : Work β := fun g =>
  let (report, g) := w g
  match report.outcome with
  | .error fault => (⟨report.warnings, .error fault⟩, g)
  | .ok a =>
    let (more, g) := f a g
    (⟨report.warnings ++ more.warnings, more.outcome⟩, g)

instance : Monad Work where
  pure := Work.pure
  bind := Work.bind

instance : MonadLift Report Work where
  monadLift report := fun g => (report, g)

instance : MonadLift (Except Fault) Work where
  monadLift outcome := fun g => (Report.ofExcept outcome, g)

/-- Read the graph. -/
def read (f : Graph → α) : Work α := fun g => (pure (f g), g)

/-- Change the graph. -/
def change (f : Graph → Graph) : Work Unit := fun g => (pure (), f g)

/-- Make an object. -/
def make (f : Graph → Graph × α) : Work α := fun g =>
  let (g, a) := f g
  (pure a, g)

/-- Attach a step to a recipe, unless it belongs to another one. -/
def attach (s : Ref .step) (r : Ref .recipe) : Work Unit := fun g =>
  let step := g.steps.get s
  match step.recipe with
  | none => (pure (), g.setRecipe s r)
  | some r' =>
    if r' = r then (pure (), g.setRecipe s r)
    else (Report.fail (.stepOfOtherRecipe step.name (g.recipes.get r').name), g)

/-- Attach steps to a recipe, one after the other. -/
def attachAll (r : Ref .recipe) : List (Ref .step) → Work Unit
  | [] => pure ()
  | s :: steps => do
    attach s r
    attachAll r steps

/-- Make a recipe of ingredients, supplies and steps. -/
def makeRecipe (name : String) (ingredients : List (Ref .ingredient))
    (supplies : List (Ref .supply)) (steps : List (Ref .step)) : Work (Ref .recipe) := do
  let r ← make (·.addRecipe { name, ingredients, supplies, steps })
  attachAll r steps
  return r

/-- The name of the recipe that stands in for one that was not found. -/
def notFoundName : String := "Recipe not found"

/-- Make the empty recipe that stands in for one that was not found. -/
def makeNotFound : Work (Ref .recipe) := makeRecipe notFoundName [] [] []

end Work

end Cookbook
