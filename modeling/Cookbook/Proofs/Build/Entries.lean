import Cookbook.Proofs.Build.Lookup
/-!
# Cookbook.Proofs.Build.Entries

What becomes of the entries of a record. An entry of a step has one of two fates: it is linked, so
that the step has a use for it, or it is reported, in a warning that names the step and the id.
`Fated` says which of them an entry has, by a function that finds owners. While the uses of a step
are made this is the index (`uses_fated`); in the recipe it is the last ingredient, or the last
supply, with an id.

`Accounted` puts the fates of one step together, whatever is said of each of them, and `InOrder`
those of all steps: the uses of the steps and the warnings of the run are what the fates say, in
their order, so none is lost and none is there twice (`entries_accounted`).
-/

namespace Cookbook

namespace Graph

/-- The last ingredient of a recipe with an id. -/
def lastIngredient? (g : Graph) (r : Ref .recipe) (id : String) : Option Owner :=
  (g.ingredientsWith r id).getLast?.map .ingredient

/-- The last supply of a recipe with an id. -/
def lastSupply? (g : Graph) (r : Ref .recipe) (id : String) : Option Owner :=
  (g.suppliesWith r id).getLast?.map .supply

end Graph

namespace Build

open Cookbook.Graph (Keeps)

/-- What becomes of an entry of a step. -/
inductive Fate
  | linked (u : Ref .use)
  | reported (w : Warning)

namespace Fate

/-- The use of an entry that is linked. -/
def use? : Fate → Option (Ref .use)
  | linked u => some u
  | reported _ => none

/-- The warning of an entry that is reported. -/
def warning? : Fate → Option Warning
  | linked _ => none
  | reported w => some w

/-- Each fate is a use or a warning. -/
theorem length_use?_add_length_warning? (fates : List Fate) :
    (fates.filterMap use?).length + (fates.filterMap warning?).length = fates.length := by
  induction fates with
  | nil => rfl
  | cons fate fates ih =>
      cases fate with
      | linked u =>
          simp only [List.filterMap_cons, use?, warning?, List.length_cons]
          omega
      | reported w =>
          simp only [List.filterMap_cons, use?, warning?, List.length_cons]
          omega

end Fate

/-- The fate of an entry of a step with a name. It is linked if its id is a text by which an owner
is found: there is a use of this owner with the amount of the entry. Otherwise it is reported, with
its id in words. -/
inductive Fated (g : Graph) (find : String → Option Owner) (unknown : String → String → Warning)
    (name : String) (e : Value) : Fate → Prop
  | linked {id : String} {u : Ref .use} (hid : e.atKey "belongsToId" = .text id)
      (hhas : g.uses.Has u) (howner : find id = some (g.uses.get u).owner)
      (hamount : (g.uses.get u).amount = (e.atKey "amount").orElse (.int 0)) :
      Fated g find unknown name e (.linked u)
  | reported {id : String} (hnone : ∀ s, e.atKey "belongsToId" = .text s → find s = none)
      (hid : (e.atKey "belongsToId").write = .ok id) :
      Fated g find unknown name e (.reported (unknown name id))

/-- A step, its record, and the warnings that were given for it. It has the uses of its entries that
are linked, in order, and those that are reported have the warnings, first those for ingredients.
What is said of the fates of its entries may depend on the name of the step. -/
structure Accounted (g : Graph) (P P' : String → Value → Fate → Prop) (v : Value) (s : Ref .step)
    (ws : List Warning) : Prop where
  has_step : g.steps.Has s
  name : textField v "name" = .ok (g.steps.get s).name
  entries : ∃ fates fates' : List Fate,
    List.Forall₂ (P (g.steps.get s).name) (v.listed "useIngredients") fates ∧
    List.Forall₂ (P' (g.steps.get s).name) (v.listed "useSupplies") fates' ∧
    (g.steps.get s).useIngredients = fates.filterMap Fate.use? ∧
    (g.steps.get s).useSupplies = fates'.filterMap Fate.use? ∧
    ws = fates.filterMap Fate.warning? ++ fates'.filterMap Fate.warning?

/-- Records, the steps that were made from them, and all warnings, in order. -/
inductive InOrder (P : Value → Ref .step → List Warning → Prop) :
    List Value → List (Ref .step) → List Warning → Prop
  | nil : InOrder P [] [] []
  | cons {v : Value} {s : Ref .step} {ws ws' : List Warning} {vs : List Value}
      {ss : List (Ref .step)} (h : P v s ws) (hs : InOrder P vs ss ws') :
      InOrder P (v :: vs) (s :: ss) (ws ++ ws')

variable {index : Index} {find find' : String → Option Owner} {unknown : String → String → Warning}
  {name : String} {P P' : String → Value → Fate → Prop} {g g' : Graph} {v p : Value}
  {vs : List Value} {ws : List Warning}

theorem InOrder.imp {P Q : Value → Ref .step → List Warning → Prop} {ss : List (Ref .step)}
    (h : InOrder P vs ss ws) (hPQ : ∀ s ∈ ss, ∀ v ws, P v s ws → Q v s ws) :
    InOrder Q vs ss ws := by
  induction h with
  | nil => exact .nil
  | cons h _ ih =>
      obtain ⟨hstep, hrest⟩ := List.forall_mem_cons.mp hPQ
      exact .cons (hstep _ _ h) (ih hrest)

/-! ### The fates of entries -/

theorem Fated.of_keeps {e : Value} {fate : Fate} (h : Fated g find unknown name e fate)
    (hk : Keeps g g') : Fated g' find unknown name e fate := by
  cases h with
  | linked hid hhas howner hamount =>
      have hget := congrArg Use.amount (hk.uses.get hhas)
      exact .linked hid (hk.uses.has hhas) (howner.trans (congrArg some (hk.owner_eq hhas).symm))
        (Eq.trans hget hamount)
  | reported hnone hid => exact .reported hnone hid

theorem Accounted.of_keeps {s : Ref .step}
    (h : Accounted g (Fated g find .unknownIngredient) (Fated g find' .unknownSupply) v s ws)
    (hk : Keeps g g') :
    Accounted g' (Fated g' find .unknownIngredient) (Fated g' find' .unknownSupply) v s ws := by
  obtain ⟨hhas, hname, fates, fates', hfated, hfated', huses, huses', hws⟩ := h
  have hstep := congrArg Step.name (hk.steps.get hhas)
  have hname' : (g'.steps.get s).name = (g.steps.get s).name := hstep
  refine ⟨hk.steps.has hhas, hname'.symm ▸ hname, fates, fates', ?_, ?_, ?_, ?_, hws⟩
  · rw [hname']
    exact hfated.imp fun _ _ hfate => hfate.of_keeps hk
  · rw [hname']
    exact hfated'.imp fun _ _ hfate => hfate.of_keeps hk
  · rw [hk.useIngredients_eq hhas, huses]
  · rw [hk.useSupplies_eq hhas, huses']

theorem find_eq_none_of_useOf? (h : useOf? index v = none) {id : String}
    (hid : v.atKey "belongsToId" = .text id) : index.lookup id = none := by
  unfold useOf? at h
  rw [hid] at h
  exact Option.map_eq_none_iff.mp h

theorem fated_link {a : Use} (h : useOf? index v = some a) :
    Fated (g.link a) (index.lookup ·) unknown name v (.linked g.uses.next) := by
  have hget : (g.link a).uses.get? g.uses.next = some a := by
    rw [g.uses_link, Shelf.get?_add_next]
  obtain ⟨id, owner, hid, hlookup, rfl⟩ := useOf?_inv h
  refine .linked hid (Shelf.has_of_get? hget) ?_ ?_ <;> rw [Shelf.get_of_get? hget]
  exact hlookup

/-- The uses that were made from entries, and the warnings that were given, are their fates. -/
theorem uses_fated {us : List (Ref .use)}
    (h : uses index (unknown name) vs g = (⟨ws, .ok us⟩, g')) :
    ∃ fates, List.Forall₂ (Fated g' (index.lookup ·) unknown name) vs fates ∧
      us = fates.filterMap Fate.use? ∧ ws = fates.filterMap Fate.warning? := by
  induction vs generalizing g ws us with
  | nil =>
      obtain ⟨rfl, rfl, rfl⟩ := Work.pure_inv h
      exact ⟨[], .nil, rfl, rfl⟩
  | cons v vs ih =>
      obtain ⟨ws₁, u, g₁, ws₂, us', huse, huses, rfl, rfl⟩ := uses_cons_inv h
      obtain ⟨fates, hfated, rfl, rfl⟩ := ih huses
      have hk := Keeps.of_linked (uses_linked huses).2
      obtain ⟨-, ⟨hnone, rfl, rfl, id, hid, rfl⟩ | ⟨a, hsome, rfl, rfl, rfl⟩⟩ := use_inv huse
      · refine ⟨.reported (unknown name id) :: fates, .cons ?_ hfated, rfl, ?_⟩
        · exact .reported (fun s hs => find_eq_none_of_useOf? hnone hs) hid
        · rfl
      · refine ⟨.linked g.uses.next :: fates, .cons ?_ hfated, rfl, ?_⟩
        · exact (fated_link hsome).of_keeps hk
        · rfl

/-! ### The fates of all entries -/

theorem step_accounted {ingredients supplies : Index} {s : Ref .step}
    (h : step ingredients supplies v g = (⟨ws, .ok s⟩, g')) :
    Keeps g g' ∧ Accounted g' (Fated g' (ingredients.lookup ·) .unknownIngredient)
      (Fated g' (supplies.lookup ·) .unknownSupply) v s ws := by
  obtain ⟨made, g₁, g₂, ws₁, ws₂, hname, -, ⟨entries, hentries, huses⟩,
    ⟨entries', hentries', huses'⟩, hadd, rfl⟩ := step_run h
  obtain rfl : g' = (g₂.addStep made).1 := congrArg Prod.fst hadd
  obtain rfl : s = g₂.steps.next := congrArg Prod.snd hadd
  obtain ⟨hrecords, hlinked⟩ := uses_linked huses
  obtain ⟨hrecords', hlinked'⟩ := uses_linked huses'
  obtain ⟨fates, hfated, hus, hws⟩ := uses_fated huses
  obtain ⟨fates', hfated', hus', hws'⟩ := uses_fated huses'
  rw [listField_eq_listed hentries hrecords] at hfated
  rw [listField_eq_listed hentries' hrecords'] at hfated'
  have hk : Keeps g₂ (g₂.addStep made).1 := .of_addStep g₂ made
  have hk' : Keeps g₁ (g₂.addStep made).1 := (Keeps.of_linked hlinked').trans hk
  have hmade := g₂.get_steps_addStep made
  have hname' : ((g₂.addStep made).1.steps.get g₂.steps.next).name = made.name := by
    rw [hmade]
    rfl
  refine ⟨(Keeps.of_linked hlinked).trans hk', ?_⟩
  constructor
  case has_step => exact Shelf.has_of_get? (g₂.steps.get?_add_next made.detached)
  case name => rw [hname', hname]
  case entries =>
    refine ⟨fates, fates', ?_, ?_, ?_, ?_, by rw [hws, hws']⟩
    · rw [hname']
      exact hfated.imp fun _ _ hfate => hfate.of_keeps hk'
    · rw [hname']
      exact hfated'.imp fun _ _ hfate => hfate.of_keeps hk
    · rw [hmade]
      exact hus
    · rw [hmade]
      exact hus'

theorem steps_accounted {ingredients supplies : Index} {ss : List (Ref .step)}
    (h : steps ingredients supplies vs g = (⟨ws, .ok ss⟩, g')) :
    Keeps g g' ∧ InOrder (Accounted g' (Fated g' (ingredients.lookup ·) .unknownIngredient)
      (Fated g' (supplies.lookup ·) .unknownSupply)) vs ss ws := by
  induction vs generalizing g ws ss with
  | nil =>
      obtain ⟨rfl, rfl, rfl⟩ := Work.pure_inv h
      exact ⟨.refl g', .nil⟩
  | cons v vs ih =>
      obtain ⟨ws₁, s, g₁, ws₂, ss', hstep, hsteps, rfl, rfl⟩ := Work.mapM'_cons_inv h
      obtain ⟨hk, haccounted⟩ := step_accounted hstep
      obtain ⟨hk', hrest⟩ := ih hsteps
      exact ⟨hk.trans hk', .cons (haccounted.of_keeps hk') hrest⟩

/-! ### Recipes -/

theorem Accounted.isRecord {s : Ref .step} (h : Accounted g P P' v s ws) : v.IsRecord :=
  isRecord_of_textField h.name

theorem Accounted.length_eq {s : Ref .step} (h : Accounted g P P' v s ws) :
    (g.steps.get s).uses.length + ws.length =
      (v.listed "useIngredients" ++ v.listed "useSupplies").length := by
  obtain ⟨fates, fates', hfated, hfated', huses, huses', rfl⟩ := h.entries
  have hcount := Fate.length_use?_add_length_warning? fates
  have hcount' := Fate.length_use?_add_length_warning? fates'
  rw [Step.uses, huses, huses', List.length_append, List.length_append, List.length_append,
    hfated.length_eq, hfated'.length_eq]
  omega

theorem InOrder.isRecord {ss : List (Ref .step)} (h : InOrder (Accounted g P P') vs ss ws) :
    ∀ v ∈ vs, v.IsRecord := by
  induction h with
  | nil => exact List.forall_mem_nil _
  | cons h _ ih => exact List.forall_mem_cons.mpr ⟨h.isRecord, ih⟩

/-- There are as many uses and warnings together as there are entries. -/
theorem InOrder.length_eq {ss : List (Ref .step)} (h : InOrder (Accounted g P P') vs ss ws) :
    (ss.flatMap fun s => (g.steps.get s).uses).length + ws.length =
      (vs.flatMap fun v => v.listed "useIngredients" ++ v.listed "useSupplies").length := by
  induction h with
  | nil => rfl
  | cons h _ ih =>
      have hstep := h.length_eq
      simp only [List.flatMap_cons, List.length_append] at hstep ih ⊢
      omega

theorem lookup_ingredientSide (g : Graph) (is : List (Ref .ingredient)) (id : String) :
    (ingredientSide g is).index.lookup id =
      (is.filter fun i => (g.ingredients.get i).id == id).getLast?.map .ingredient :=
  Index.lookup_lastWins_map (fun i => (g.ingredients.get i).id) Owner.ingredient is id

theorem lookup_supplySide (g : Graph) (js : List (Ref .supply)) (id : String) :
    (supplySide g js).index.lookup id =
      (js.filter fun j => (g.supplies.get j).id == id).getLast?.map .supply :=
  Index.lookup_lastWins_map (fun j => (g.supplies.get j).id) Owner.supply js id

variable {r : Ref .recipe}

theorem recipe_inOrder (h : recipe v p g = (⟨ws, .ok r⟩, g')) :
    InOrder (Accounted g' (Fated g' (g'.lastIngredient? r) .unknownIngredient)
        (Fated g' (g'.lastSupply? r) .unknownSupply))
      (v.listed "steps") (g'.recipes.get r).steps ws := by
  obtain ⟨g₀, s, hmade, -, rfl⟩ := recipe_inv h
  obtain ⟨is, js, items, rs, ts, ss, name, g₁, g₂, g₃, -, hrs, -, hts, hitems, hss, -, hmake⟩ :=
    recipeForOne_run hmade
  obtain ⟨hadded, hadded'⟩ := addOwners_inv hrs hts
  rw [← ingredientSide_index hadded.map_get, ← supplySide_index hadded'.map_get] at hss
  obtain ⟨hk, horder⟩ := steps_accounted hss
  have hk' : Keeps g₃ (g₀.setPortions r p) :=
    (Work.keeps_makeRecipe hmake).trans (g₀.keeps_setPortions r p)
  obtain ⟨-, hget, -⟩ := Work.makeRecipe_inv hmake
  have hrecipe : (g₀.setPortions r p).recipes.get r =
      { name, ingredients := rs, supplies := ts, steps := ss, portions := p } :=
    Shelf.get_of_get? (Graph.get?_recipes_setPortions p hget)
  rw [listField_eq_listed hitems horder.isRecord] at horder
  -- The index that the steps were made with finds what is the last owner in the recipe.
  rw [← ingredientSide_eq (hk.trans hk') fun i hi => hadded.has hi,
    ← supplySide_eq (hk.trans hk') fun j hj => hadded'.has hj] at horder
  have hfind : ((ingredientSide (g₀.setPortions r p) rs).index.lookup ·) =
      (g₀.setPortions r p).lastIngredient? r := by
    funext id
    rw [lookup_ingredientSide, Graph.lastIngredient?, Graph.ingredientsWith, hrecipe]
  have hfind' : ((supplySide (g₀.setPortions r p) ts).index.lookup ·) =
      (g₀.setPortions r p).lastSupply? r := by
    funext id
    rw [lookup_supplySide, Graph.lastSupply?, Graph.suppliesWith, hrecipe]
  rw [hfind, hfind'] at horder
  rw [hrecipe]
  exact horder.imp fun _ _ _ _ haccounted => haccounted.of_keeps hk'

/-- **Every entry is linked or reported.** However a recipe was made from a record, the uses of its
steps and the warnings of the run are the fates of the entries, step by step and in order: an entry
whose id is a text that an ingredient (or a supply) has is linked to the last one that has it, with
its own amount, and any other one gives a warning that names the step and the id. No two entries
have one use, and together there are as many uses and warnings as entries. -/
theorem entries_accounted (h : recipe v p g = (⟨ws, .ok r⟩, g')) :
    let uses := (g'.recipes.get r).steps.flatMap fun s => (g'.steps.get s).uses
    InOrder (Accounted g' (Fated g' (g'.lastIngredient? r) .unknownIngredient)
          (Fated g' (g'.lastSupply? r) .unknownSupply))
        (v.listed "steps") (g'.recipes.get r).steps ws ∧
      uses.Nodup ∧
      uses.length + ws.length =
        ((v.listed "steps").flatMap fun w =>
          w.listed "useIngredients" ++ w.listed "useSupplies").length :=
  ⟨recipe_inOrder h, (recipe_built h).shared.nodup, (recipe_inOrder h).length_eq⟩

/-- Salt is there twice, and a supply has the same id. One step has entries for salt, for a ghost
and for a number, and another one an entry without an id. -/
def haunted : Value :=
  let entry (id amount : Value) : Value := .record [("belongsToId", id), ("amount", amount)]
  .record [
    ("ingredients", .list [.record [("id", .text "salt")], .record [("id", .text "salt")]]),
    ("supplies", .list [.record [("id", .text "salt")]]),
    ("steps", .list [
      .record [("name", .text "Haunt"),
        ("useIngredients", .list [entry (.text "ghost") (.int 1), entry (.text "salt") (.int 2),
          entry (.int 5) (.int 3)]),
        ("useSupplies", .list [entry (.text "spoon") (.int 1), entry (.text "salt") .null])],
      .record [("name", .text "Rest"), ("useIngredients", .list [.record []])]])]

/-- The warnings that haunted entries give. -/
def hauntedWarnings : List Warning :=
  [.unknownIngredient "Haunt" "ghost", .unknownIngredient "Haunt" "5",
    .unknownSupply "Haunt" "spoon", .unknownIngredient "Rest" "None"]

theorem report_haunted : (recipe haunted (.int 4) .empty).1 = ⟨hauntedWarnings, .ok ⟨0⟩⟩ := rfl

theorem lastIngredient?_haunted :
    (recipe haunted (.int 4) .empty).2.lastIngredient? ⟨0⟩ "salt" = some (.ingredient ⟨1⟩) := rfl

theorem entries_haunted :
    ((haunted.listed "steps").flatMap fun w =>
      w.listed "useIngredients" ++ w.listed "useSupplies").length = 6 := rfl

theorem entries_accounted_haunted :
    let g := (recipe haunted (.int 4) .empty).2
    recipe haunted (.int 4) .empty = (⟨hauntedWarnings, .ok ⟨0⟩⟩, g) ∧
      InOrder (Accounted g (Fated g (g.lastIngredient? ⟨0⟩) .unknownIngredient)
          (Fated g (g.lastSupply? ⟨0⟩) .unknownSupply))
        (haunted.listed "steps") (g.recipes.get ⟨0⟩).steps hauntedWarnings ∧
      g.lastIngredient? ⟨0⟩ "salt" = some (.ingredient ⟨1⟩) ∧
      ((g.recipes.get ⟨0⟩).steps.flatMap fun s => (g.steps.get s).uses).length + 4 = 6 := by
  intro g
  have hmade : recipe haunted (.int 4) .empty = (⟨hauntedWarnings, .ok ⟨0⟩⟩, g) := by
    rw [← report_haunted]
  obtain ⟨horder, -, hlength⟩ := entries_accounted hmade
  rw [entries_haunted] at hlength
  exact ⟨hmade, horder, lastIngredient?_haunted, hlength⟩

end Build

end Cookbook
