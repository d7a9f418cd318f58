import Mathlib.Data.List.Find
import Cookbook.Markdown
import Cookbook.Proofs.Graph.Portions
import Cookbook.Proofs.Graph.Reference
import Cookbook.Proofs.Outcome
import Cookbook.Proofs.Template.Renaming
/-!
# Cookbook.Proofs.Graph.Renaming

The same graph with other ids. Ids stand in ingredients and supplies, and in the templates in the
texts of steps; `Graph.renamed` changes them in all of these places, and no reference. Every change
of a graph can be made before the ids are changed or after it, and so can all work that is made of
such changes: `Work.Renames` says of two pieces of work that one does with the new ids what the
other one does with the old ones. Warnings are left out, since they name the ids.

What is read of a graph in which every reference is to an object is the same with new ids: an id is
only ever compared with another one, and both change (`resolve?_renamed`, `render_renamed`).
-/

namespace Cookbook

variable {s : Renaming}

@[simp] theorem Renaming.newId_beq (s : Renaming) (x y : String) :
    (s.newId x == s.newId y) = (x == y) := by
  rw [Bool.eq_iff_iff, beq_iff_eq, beq_iff_eq]
  exact s.injective.eq_iff

/-! ### Objects with other ids -/

/-- An ingredient with another id. -/
def Ingredient.renamed (i : Ingredient) (s : Renaming) : Ingredient := { i with id := s.newId i.id }

/-- A supply with another id. -/
def Supply.renamed (j : Supply) (s : Renaming) : Supply := { j with id := s.newId j.id }

/-- A step with other ids in its text. -/
def Step.renamed (x : Step) (s : Renaming) : Step := { x with text := Template.renameIds s x.text }

namespace Shelf

variable {kind : Kind} {α β : Type} {f m : α → α}

/-- The shelf with every object changed. -/
def map (s : Shelf kind α) (f : α → α) : Shelf kind α := ⟨s.objects.map f⟩

theorem get?_map (s : Shelf kind α) (f : α → α) (r : Ref kind) :
    (s.map f).get? r = (s.get? r).map f := by
  simp [get?, map]

@[simp] theorem next_map (s : Shelf kind α) (f : α → α) : (s.map f).next = s.next := by
  simp [next, map]

theorem map_add (s : Shelf kind α) (f : α → α) (a : α) : (s.add a).map f = (s.map f).add (f a) := by
  simp [add, map]

/-- A change that leaves alone what `f` changes can be made before or after. -/
theorem map_modify (s : Shelf kind α) (hm : ∀ a, f (m a) = m (f a)) (r : Ref kind) :
    (s.modify r m).map f = (s.map f).modify r m := by
  refine ext_get? fun r' => ?_
  by_cases hr : r' = r
  · subst hr
    simp only [get?_map, get?_modify_self, Option.map_map]
    exact congrArg (Option.map · _) (funext hm)
  · simp only [get?_map, get?_modify_of_ne _ _ hr]

variable [Inhabited α]

theorem get_map_of_has {s : Shelf kind α} {r : Ref kind} (h : s.Has r) (f : α → α) :
    (s.map f).get r = f (s.get r) := by
  obtain ⟨a, ha⟩ := Option.isSome_iff_exists.mp h
  rw [get, get?_map, get, ha]
  rfl

theorem get_map_of_default (hf : f default = default) (s : Shelf kind α) (r : Ref kind) :
    (s.map f).get r = f (s.get r) := by
  rw [get, get?_map, get]
  cases s.get? r with
  | none => exact hf.symm
  | some a => rfl

/-- What a change keeps of every object is read as before. -/
theorem proj_get_map (field : α → β) {f : α → α} (h : ∀ a, field (f a) = field a)
    (s : Shelf kind α) (r : Ref kind) : field ((s.map f).get r) = field (s.get r) := by
  rw [get, get?_map, get]
  cases s.get? r with
  | none => rfl
  | some a => exact h a

end Shelf

namespace Graph

/-- The graph with other ids. -/
def renamed (g : Graph) (s : Renaming) : Graph :=
  { g with
    ingredients := g.ingredients.map (·.renamed s)
    supplies := g.supplies.map (·.renamed s)
    steps := g.steps.map (·.renamed s) }

@[simp] theorem renamed_empty (s : Renaming) : Graph.empty.renamed s = .empty := by
  simp [renamed, empty, Shelf.map]

variable {g : Graph}

/-! ### Changes -/

theorem register_renamed (g : Graph) (owner : Owner) (u : Ref .use) (s : Renaming) :
    (g.register owner u).renamed s = (g.renamed s).register owner u := by
  cases owner with
  | ingredient i =>
      simp only [register, renamed]
      rw [Shelf.map_modify]
      exact fun _ => rfl
  | supply j =>
      simp only [register, renamed]
      rw [Shelf.map_modify]
      exact fun _ => rfl

theorem setRecipe_renamed (g : Graph) (x : Ref .step) (r : Ref .recipe) (s : Renaming) :
    (g.setRecipe x r).renamed s = (g.renamed s).setRecipe x r := by
  simp only [setRecipe, renamed]
  rw [Shelf.map_modify]
  exact fun _ => rfl

/-! What is read besides ids and texts. -/

theorem ingredient_renamed {β : Type} (field : Ingredient → β)
    (h : ∀ i : Ingredient, field (i.renamed s) = field i) (g : Graph) (i : Ref .ingredient) :
    field ((g.renamed s).ingredients.get i) = field (g.ingredients.get i) :=
  Shelf.proj_get_map field h g.ingredients i

theorem supply_renamed {β : Type} (field : Supply → β)
    (h : ∀ j : Supply, field (j.renamed s) = field j) (g : Graph) (j : Ref .supply) :
    field ((g.renamed s).supplies.get j) = field (g.supplies.get j) :=
  Shelf.proj_get_map field h g.supplies j

theorem step_renamed {β : Type} (field : Step → β)
    (h : ∀ x : Step, field (x.renamed s) = field x) (g : Graph) (x : Ref .step) :
    field ((g.renamed s).steps.get x) = field (g.steps.get x) :=
  Shelf.proj_get_map field h g.steps x

theorem scaledUses_renamed (g : Graph) (s : Renaming) (r : Ref .recipe) :
    (g.renamed s).scaledUses r = g.scaledUses r :=
  List.flatMap_congr fun i _ => ingredient_renamed Ingredient.uses (fun _ => rfl) g i

theorem setPortions_renamed (g : Graph) (r : Ref .recipe) (p : Value) (s : Renaming) :
    (g.setPortions r p).renamed s = (g.renamed s).setPortions r p := by
  rw [setPortions_eq, setPortions_eq, scaledUses_renamed]
  rfl

end Graph

/-! ### Work -/

namespace Work

variable {α β : Type} {f : α → α} {f' : β → β}

/-- The second piece of work does with new ids what the first one does with the old ones: the fault
is the same, and so is the result, but for what `f` changes in it. -/
def Renames (s : Renaming) (f : α → α) (w w' : Work α) : Prop :=
  ∀ g : Graph, (w' (g.renamed s)).1.outcome = (w g).1.outcome.map f ∧
    (w' (g.renamed s)).2 = (w g).2.renamed s

namespace Renames

theorem pure (a : α) : Renames s f (pure a) (pure (f a)) := fun _ => ⟨rfl, rfl⟩

theorem bind {w w' : Work α} {k k' : α → Work β} (hw : Renames s f w w')
    (hk : ∀ a, Renames s f' (k a) (k' (f a))) : Renames s f' (w >>= k) (w' >>= k') := by
  intro g
  obtain ⟨houtcome, hgraph⟩ := hw g
  show (Work.bind w' k' (g.renamed s)).1.outcome = (Work.bind w k g).1.outcome.map f' ∧
    (Work.bind w' k' (g.renamed s)).2 = (Work.bind w k g).2.renamed s
  unfold Work.bind
  generalize w g = run at houtcome hgraph ⊢
  generalize w' (g.renamed s) = run' at houtcome hgraph ⊢
  obtain ⟨⟨ws, outcome⟩, g₁⟩ := run
  obtain ⟨⟨ws', outcome'⟩, g₁'⟩ := run'
  obtain rfl : outcome' = outcome.map f := houtcome
  obtain rfl : g₁' = g₁.renamed s := hgraph
  cases outcome with
  | error fault => exact ⟨rfl, rfl⟩
  | ok a => exact hk a g₁

theorem lift {x x' : Except Fault α} (hx : x' = x.map f) :
    Renames s f (liftM x : Work α) (liftM x') := fun _ => ⟨hx, rfl⟩

/-- What comes after a reading may rely on what was read. -/
theorem lift_bind {x x' : Except Fault α} {k k' : α → Work β} (hx : x' = x.map f)
    (hk : ∀ a, x = .ok a → Renames s f' (k a) (k' (f a))) :
    Renames s f' (liftM x >>= k) (liftM x' >>= k') := by
  subst hx
  cases x with
  | error fault => exact fun _ => ⟨rfl, rfl⟩
  | ok a => exact fun g => ⟨(hk a rfl g).1, (hk a rfl g).2⟩

theorem liftSame (x : Except Fault α) : Renames s id (liftM x : Work α) (liftM x) :=
  lift (by cases x <;> rfl)

/-- A warning that names an id is another warning. -/
theorem warn (w w' : Warning) :
    Renames s id (liftM (Report.warn w) : Work Unit) (liftM (Report.warn w')) := fun _ => ⟨rfl, rfl⟩

theorem make {m m' : Graph → Graph × α}
    (hm : ∀ g : Graph, m' (g.renamed s) = ((m g).1.renamed s, f (m g).2)) :
    Renames s f (make m) (make m') := by
  intro g
  have hmade : Work.make m' (g.renamed s) = (Report.pure (f (m g).2), (m g).1.renamed s) := by
    rw [Work.make, hm]
    rfl
  rw [hmade]
  exact ⟨rfl, rfl⟩

theorem change {m : Graph → Graph} (hm : ∀ g : Graph, m (g.renamed s) = (m g).renamed s) :
    Renames s id (change m) (change m) := fun g => ⟨rfl, hm g⟩

/-- Going through a list of what is renamed gives the same results, if it does so at each item. -/
theorem mapM' {w w' : α → Work β} {m : α → α} {as : List α}
    (h : ∀ a ∈ as, Renames s id (w a) (w' (m a))) :
    Renames s id (as.mapM' w) ((as.map m).mapM' w') := by
  induction as with
  | nil => exact .pure []
  | cons a as ih =>
      obtain ⟨ha, has⟩ := List.forall_mem_cons.mp h
      refine ha.bind fun b => ?_
      refine (ih has).bind fun bs => ?_
      exact .pure (b :: bs)

end Renames

/-! ### Making objects -/

theorem renames_addIngredient (i : Ingredient) :
    Renames s id (make (·.addIngredient i)) (make (·.addIngredient (i.renamed s))) := by
  refine .make fun g => ?_
  simp only [Graph.addIngredient, Graph.renamed, Shelf.map_add, Shelf.next_map, id]

theorem renames_addSupply (j : Supply) :
    Renames s id (make (·.addSupply j)) (make (·.addSupply (j.renamed s))) := by
  refine .make fun g => ?_
  simp only [Graph.addSupply, Graph.renamed, Shelf.map_add, Shelf.next_map, id]

theorem renames_addUse (u : Use) : Renames s id (make (·.addUse u)) (make (·.addUse u)) :=
  .make fun _ => rfl

theorem renames_addStep (x : Step) :
    Renames s id (make (·.addStep x)) (make (·.addStep (x.renamed s))) := by
  refine .make fun g => ?_
  simp only [Graph.addStep, Graph.renamed, Shelf.map_add, Shelf.next_map, id]
  rfl

theorem renames_addRecipe (r : Recipe) :
    Renames s id (make (·.addRecipe r)) (make (·.addRecipe r)) :=
  .make fun _ => rfl

/-- Which recipe a step belongs to has nothing to do with ids. -/
theorem renames_attach (x : Ref .step) (r : Ref .recipe) :
    Renames s id (attach x r) (attach x r) := by
  intro g
  have hrecipe := Graph.step_renamed (s := s) Step.recipe (fun _ => rfl) g x
  have hname := Graph.step_renamed (s := s) Step.name (fun _ => rfl) g x
  simp only [attach, hrecipe, hname]
  cases (g.steps.get x).recipe with
  | none => exact ⟨rfl, (g.setRecipe_renamed x r s).symm⟩
  | some r' =>
      dsimp only
      split
      · exact ⟨rfl, (g.setRecipe_renamed x r s).symm⟩
      · exact ⟨rfl, rfl⟩

theorem renames_attachAll (r : Ref .recipe) (xs : List (Ref .step)) :
    Renames s id (attachAll r xs) (attachAll r xs) := by
  induction xs with
  | nil => exact .pure ()
  | cons x xs ih => exact (renames_attach x r).bind fun _ => ih

theorem renames_makeRecipe (name : String) (is : List (Ref .ingredient)) (js : List (Ref .supply))
    (xs : List (Ref .step)) :
    Renames s id (makeRecipe name is js xs) (makeRecipe name is js xs) := by
  refine (renames_addRecipe _).bind fun r => ?_
  refine (renames_attachAll r xs).bind fun _ => ?_
  exact .pure r

end Work

namespace Graph

variable {g : Graph}

/-! ### Names, units and amounts -/

theorem ownerName_renamed (g : Graph) (s : Renaming) : (g.renamed s).ownerName = g.ownerName := by
  funext owner
  cases owner with
  | ingredient i => exact ingredient_renamed Ingredient.name (fun _ => rfl) g i
  | supply j => exact supply_renamed Supply.name (fun _ => rfl) g j

theorem ownerUnit_renamed (g : Graph) (s : Renaming) : (g.renamed s).ownerUnit = g.ownerUnit := by
  funext owner
  cases owner with
  | ingredient i => exact ingredient_renamed Ingredient.unit (fun _ => rfl) g i
  | supply j => rfl

theorem useText_renamed (g : Graph) (s : Renaming) : (g.renamed s).useText = g.useText := by
  funext u
  simp only [useText, ownerUnit_renamed, ownerName_renamed]
  rfl

theorem display_renamed (g : Graph) (s : Renaming) : (g.renamed s).display = g.display := by
  funext i
  have huses := ingredient_renamed (s := s) Ingredient.uses (fun _ => rfl) g i
  have hunit := ingredient_renamed (s := s) Ingredient.unit (fun _ => rfl) g i
  have hname := ingredient_renamed (s := s) Ingredient.name (fun _ => rfl) g i
  simp only [display, total, huses, hunit, hname]
  rfl

/-- A segment holds a reference and no id. -/
theorem markedText_renamed (g : Graph) (s : Renaming) (marks : Marks) :
    (g.renamed s).markedText marks = g.markedText marks := by
  funext segment
  cases segment with
  | literal text => rfl
  | ingredient i =>
      exact congrArg (fun name => Except.ok (marks.around name))
        (ingredient_renamed (s := s) Ingredient.name (fun _ => rfl) g i)
  | supply j =>
      exact congrArg (fun name => Except.ok (marks.around name))
        (supply_renamed (s := s) Supply.name (fun _ => rfl) g j)
  | use u => exact congrArg (fun f => Except.map marks.around (f u)) (g.useText_renamed s)

/-! ### Ids -/

theorem ownerId_renamed {owner : Owner} (h : g.Holds owner.handle) (s : Renaming) :
    (g.renamed s).ownerId owner = s.newId (g.ownerId owner) := by
  cases owner with
  | ingredient i =>
      have hi : g.ingredients.Has i := h
      exact congrArg Ingredient.id (Shelf.get_map_of_has hi (·.renamed s))
  | supply j =>
      have hj : g.supplies.Has j := h
      exact congrArg Supply.id (Shelf.get_map_of_has hj (·.renamed s))

theorem useId_renamed (h : g.Closed) {u : Ref .use} (hu : g.uses.Has u) (s : Renaming) :
    (g.renamed s).useId u = s.newId (g.useId u) :=
  ownerId_renamed (h _ _ (points_of_use hu)) s

/-- What is found by an id is found by the new one if it has that. -/
theorem find?_renamed {α : Type} {as : List α} {idOf newIdOf : α → String}
    (h : ∀ a ∈ as, newIdOf a = s.newId (idOf a)) (id : String) :
    as.find? (fun a => newIdOf a == s.newId id) = as.find? fun a => idOf a == id :=
  List.find?_congr fun a ha => by rw [h a ha, s.newId_beq]

/-- A template with its new id refers to what it referred to with the old one. All objects that are
looked through exist, so each of them has its new id. -/
theorem resolve?_renamed (h : g.Closed) (s : Renaming) (r : Ref .recipe) (x : Ref .step)
    (t : Template) : (g.renamed s).resolve? r x (t.renamed s) = g.resolve? r x t := by
  have hrecipe : ∀ owner : Owner, owner.handle ∈ Kind.handles .recipe (g.recipes.get r) →
      (g.renamed s).ownerId owner = s.newId (g.ownerId owner) :=
    fun owner howner => ownerId_renamed (h _ _ (points_of_recipe howner)) s
  have hstep : ∀ u : Ref .use, u.handle ∈ Kind.handles .step (g.steps.get x) →
      (g.renamed s).useId u = s.newId (g.useId u) :=
    fun u hu => useId_renamed h (h _ _ (points_of_step hu)) s
  have huses := step_renamed (s := s) Step.useIngredients (fun _ => rfl) g x
  have huses' := step_renamed (s := s) Step.useSupplies (fun _ => rfl) g x
  obtain ⟨kind, id⟩ := t
  unfold resolve?
  cases kind with
  | ingredient =>
      have hids : ∀ i ∈ (g.recipes.get r).ingredients,
          ((g.renamed s).ingredients.get i).id = s.newId (g.ingredients.get i).id :=
        fun i hi => hrecipe (.ingredient i) (by simp [Kind.handles, Owner.handle, hi])
      exact congrArg (Option.map _) (find?_renamed hids id)
  | supply =>
      have hids : ∀ j ∈ (g.recipes.get r).supplies,
          ((g.renamed s).supplies.get j).id = s.newId (g.supplies.get j).id :=
        fun j hj => hrecipe (.supply j) (by simp [Kind.handles, Owner.handle, hj])
      exact congrArg (Option.map _) (find?_renamed hids id)
  | useIngredient =>
      dsimp only [Template.renamed, findUseIngredient?]
      rw [huses, find?_renamed fun u hu => hstep u ?_]
      simp [Kind.handles, hu]
  | useSupply =>
      dsimp only [Template.renamed, findUseSupply?]
      rw [huses', find?_renamed fun u hu => hstep u ?_]
      simp [Kind.handles, hu]

/-! ### Documents -/

theorem segments_renamed (h : g.Closed) (s : Renaming) (x : Ref .step) :
    (g.renamed s).segments x = g.segments x := by
  -- A step that does not exist has an empty text, before and after.
  have hdefault : (default : Step).renamed s = default :=
    congrArg (fun text => { (default : Step) with text }) (Template.renameIds_empty s)
  have hget : (g.renamed s).steps.get x = (g.steps.get x).renamed s :=
    Shelf.get_map_of_default hdefault g.steps x
  unfold segments
  simp only [hget, Step.renamed, Template.split_renamed]
  cases (g.steps.get x).recipe with
  | none => rfl
  | some r =>
      have hparts : ∀ part : List Char × Template, (g.renamed s).partSegments r x
          (part.1, part.2.renamed s) = g.partSegments r x part := by
        intro part
        simp only [partSegments, resolve?_renamed h]
      simp only [Template.Parts.renamed, List.flatMap_map, hparts]

theorem stepBlock_renamed (h : g.Closed) (s : Renaming) (number : Nat) (x : Ref .step) :
    Markdown.stepBlock (g.renamed s) number x = Markdown.stepBlock g number x := by
  have hname := step_renamed (s := s) Step.name (fun _ => rfl) g x
  simp only [Markdown.stepBlock, stepText, segments_renamed h, markedText_renamed, hname]

theorem stepBlocks_renamed (h : g.Closed) (s : Renaming) (number : Nat) (xs : List (Ref .step)) :
    Markdown.stepBlocks (g.renamed s) number xs = Markdown.stepBlocks g number xs := by
  induction xs generalizing number with
  | nil => rfl
  | cons x xs ih => simp only [Markdown.stepBlocks, stepBlock_renamed h, ih]

theorem sectionText_renamed (h : g.Closed) (s : Renaming) (recipe : Recipe) (title : String)
    (sec : Section) :
    Markdown.sectionText (g.renamed s) recipe title sec =
      Markdown.sectionText g recipe title sec := by
  cases sec with
  | portions => rfl
  | supplies =>
      have hnames : recipe.supplies.map (fun j => ((g.renamed s).supplies.get j).name) =
          recipe.supplies.map fun j => (g.supplies.get j).name :=
        List.map_congr_left fun j _ => supply_renamed Supply.name (fun _ => rfl) g j
      simp only [Markdown.sectionText, hnames]
  | ingredients => simp only [Markdown.sectionText, display_renamed]
  | steps => simp only [Markdown.sectionText, stepBlocks_renamed h]

/-- No id is shown in a document. -/
theorem render_renamed (h : g.Closed) (s : Renaming) (profile : Profile) (r : Ref .recipe) :
    Markdown.render (g.renamed s) profile r = Markdown.render g profile r := by
  have hshown : Markdown.shownSection (g.renamed s) profile = Markdown.shownSection g profile := by
    funext recipe sec
    simp only [Markdown.shownSection, sectionText_renamed h]
  simp only [Markdown.render, hshown]
  rfl

end Graph

end Cookbook
