import Mathlib.Tactic.FinCases
import Cookbook.Proofs.Build.Apart
import Cookbook.Proofs.Build.Rebuild
import Cookbook.Proofs.Graph.Renaming
import Cookbook.Proofs.Value.Path
/-!
# Cookbook.Proofs.Build.Renaming

Ids are only names. A record with other ids, in its ingredients and supplies, in the uses of its
steps and in the templates of their texts (`Value.renamed`), is made into the same recipe with other
ids (`renames_recipe`): ids are compared with each other and with nothing else, so an owner is found
by the new id where it was found by the old one. No id is shown in a document, so the documents of
both records are the same (`document_renamed`).
-/

namespace Cookbook

namespace Value

/-- A text changed; any other value stays as it is. -/
def mapText (f : String → String) : Value → Value
  | text s => text (f s)
  | v => v

/-- A list with every item changed; any other value stays as it is. -/
def mapItems (f : Value → Value) : Value → Value
  | list items => list (items.map f)
  | v => v

/-- Only a list has items that are not texts. -/
theorem map_items_of_texts {f : Value → Value} (hf : ∀ s, f (text s) = text s) {v : Value}
    (hlist : ∀ items, v ≠ list items) {vs : List Value} (h : v.items = .ok vs) : vs.map f = vs := by
  have htexts : ∀ {α : Type} (as : List α) (g : α → String),
      (as.map fun a => text (g a)).map f = as.map fun a => text (g a) := by
    intro α as g
    rw [List.map_map]
    exact List.map_congr_left fun a _ => hf (g a)
  unfold items at h
  split at h
  · cases h
    rfl
  · split at h
    · exact absurd rfl (hlist _)
    · cases h
      exact htexts _ String.singleton
    · cases h
      exact htexts _ Prod.fst
    · cases h

/-- A change of items that leaves texts alone is seen in the items that are read. -/
theorem items_mapItems {f : Value → Value} (hf : ∀ s, f (text s) = text s) (v : Value) :
    (v.mapItems f).items = v.items.map (List.map f) := by
  have hsame : (∀ items, v ≠ list items) → v.items = v.items.map (List.map f) := by
    intro hlist
    cases hitems : v.items with
    | error fault => rfl
    | ok vs => exact congrArg Except.ok (map_items_of_texts hf hlist hitems).symm
  cases v with
  | list items => rw [mapItems, items_list, items_list, Except.map]
  | _ => exact hsame nofun

/-! ### Records with other ids -/

/-- An ingredient or a supply with another id. -/
def renamedOwner (s : Renaming) (v : Value) : Value := v.mapField "id" (mapText s.newId)

/-- A use with another id. -/
def renamedUse (s : Renaming) (v : Value) : Value := v.mapField "belongsToId" (mapText s.newId)

/-- A step with other ids in its uses and in its text. -/
def renamedStep (s : Renaming) (v : Value) : Value :=
  ((v.mapField "useIngredients" (mapItems (renamedUse s))).mapField "useSupplies"
    (mapItems (renamedUse s))).mapField "text" (mapText (Template.renameIds s))

/-- A recipe with other ids in its ingredients, its supplies and its steps. -/
def renamed (v : Value) (s : Renaming) : Value :=
  ((v.mapField "ingredients" (mapItems (renamedOwner s))).mapField "supplies"
    (mapItems (renamedOwner s))).mapField "steps" (mapItems (renamedStep s))

end Value

namespace Build

open Cookbook.Work (Renames)

variable {s : Renaming} {v w : Value} {key k : String}

/-! ### What is read of a record -/

theorem listField_mapField_of_ne (v : Value) (h : k ≠ key) (f : Value → Value) :
    listField (v.mapField key f) k = listField v k := by
  rw [listField, Value.fieldOrNull_mapField_of_ne v h, listField]

theorem textField_mapField_of_ne (v : Value) (h : k ≠ key) (f : Value → Value) :
    textField (v.mapField key f) k = textField v k := by
  rw [textField, Value.field?_mapField_of_ne v h, textField]

theorem listField_mapItems {f : Value → Value} (hf : ∀ s, f (.text s) = .text s) (v : Value)
    (key : String) :
    listField (v.mapField key (·.mapItems f)) key = (listField v key).map (List.map f) := by
  unfold listField
  rw [Value.fieldOrNull_mapField_self (f := (·.mapItems f)) rfl]
  cases v.fieldOrNull key with
  | error fault => rfl
  | ok w => exact Value.items_mapItems hf w

/-- A field with a changed text. A missing one is read as the empty text, which must stay empty if
there is none. -/
theorem textField_mapText {f : String → String}
    (h : ∀ u, v.field? key = .ok u → (∃ x, u = some (.text x)) ∨ u = none ∧ f "" = "") :
    textField (v.mapField key (Value.mapText f)) key = (textField v key).map f := by
  unfold textField
  rw [Value.field?_mapField_self]
  cases hfield : v.field? key with
  | error fault => rfl
  | ok u =>
      rcases h u hfield with ⟨x, rfl⟩ | ⟨rfl, hempty⟩
      · rfl
      · exact congrArg Except.ok hempty.symm

/-- The ids of ingredients and of supplies are texts, and so are the texts of steps, where there are
any. -/
structure TextIds (v : Value) : Prop where
  ingredient : ∀ ws, listField v "ingredients" = .ok ws → ∀ w ∈ ws, ∀ u, w.field? "id" = .ok u →
    ∃ x, u = some (.text x)
  supply : ∀ ws, listField v "supplies" = .ok ws → ∀ w ∈ ws, ∀ u, w.field? "id" = .ok u →
    ∃ x, u = some (.text x)
  step : ∀ ws, listField v "steps" = .ok ws → ∀ w ∈ ws, ∀ u, w.field? "text" = .ok (some u) →
    ∃ x, u = .text x

theorem ingredient_renamed (h : ∀ u, w.field? "id" = .ok u → ∃ x, u = some (.text x)) :
    ingredient (w.renamedOwner s) = (ingredient w).map (·.renamed s) := by
  have hid : textField (w.renamedOwner s) "id" = (textField w "id").map s.newId :=
    textField_mapText fun u hu => .inl (h u hu)
  have hname : textField (w.renamedOwner s) "name" = textField w "name" :=
    textField_mapField_of_ne w (by decide) _
  have hunit : (w.renamedOwner s).fieldOrNull "unit" = w.fieldOrNull "unit" :=
    Value.fieldOrNull_mapField_of_ne w (by decide) _
  unfold ingredient
  rw [hid, hname, hunit]
  cases textField w "id" with
  | error fault => rfl
  | ok id =>
      cases textField w "name" with
      | error fault => rfl
      | ok name =>
          cases w.fieldOrNull "unit" with
          | error fault => rfl
          | ok unit =>
              show (unit.orElse (.text "")).write >>= _ =
                Except.map _ ((unit.orElse (.text "")).write >>= _)
              cases (unit.orElse (.text "")).write <;> rfl

theorem supply_renamed (h : ∀ u, w.field? "id" = .ok u → ∃ x, u = some (.text x)) :
    supply (w.renamedOwner s) = (supply w).map (·.renamed s) := by
  have hid : textField (w.renamedOwner s) "id" = (textField w "id").map s.newId :=
    textField_mapText fun u hu => .inl (h u hu)
  have hname : textField (w.renamedOwner s) "name" = textField w "name" :=
    textField_mapField_of_ne w (by decide) _
  unfold supply
  rw [hid, hname]
  cases textField w "id" with
  | error fault => rfl
  | ok id => cases textField w "name" <;> rfl

/-- A list that is read as records, where each changed item is read as a changed record. -/
theorem records_renamed {α : Type} {describe : Value → Except Fault α} {f : Value → Value}
    {m : α → α} {v v' : Value} (hlist : listField v' key = (listField v key).map (List.map f))
    (h : ∀ ws, listField v key = .ok ws → ∀ w ∈ ws, describe (f w) = (describe w).map m) :
    records v' key describe = (records v key describe).map (List.map m) := by
  unfold records
  rw [hlist]
  cases hread : listField v key with
  | error fault => rfl
  | ok ws =>
      show (ws.map f).mapM describe = (ws.mapM describe).map (List.map m)
      rw [exceptMapM_map_congr (h ws hread), exceptMapM_map]

/-! ### Owners by id -/

/-- An index with other ids. -/
def Index.renamed (index : Index) (s : Renaming) : Index :=
  index.map fun (id, owner) => (s.newId id, owner)

theorem Index.lookup_renamed (index : Index) (s : Renaming) (id : String) :
    (index.renamed s).lookup (s.newId id) = index.lookup id := by
  induction index with
  | nil => rfl
  | cons entry index ih =>
      obtain ⟨key, owner⟩ := entry
      simp only [renamed, List.map_cons, List.lookup_cons, s.newId_beq]
      cases id == key with
      | true => rfl
      | false => exact ih

/-- What an id names is named by the new one. What is no text names nothing, and is not changed. -/
theorem findIn_renamed (index : Index) (s : Renaming) (id : Value) :
    Value.findIn (index.renamed s) (id.mapText s.newId) = Value.findIn index id := by
  cases id with
  | text x => exact congrArg Except.ok (index.lookup_renamed s x)
  | _ => rfl

theorem lastWins_renamed {α : Type} {kind : Kind} (as : List α) (rs : List (Ref kind))
    (rename : α → α) (id : α → String) (hid : ∀ a, id (rename a) = s.newId (id a))
    (owner : Ref kind → Owner) :
    Index.lastWins (((as.map rename).zip rs).map fun (a, r) => (id a, owner r)) =
      (Index.lastWins ((as.zip rs).map fun (a, r) => (id a, owner r))).renamed s := by
  simp only [Index.lastWins, Index.renamed, List.zip_map_left, List.map_map, List.map_reverse]
  congr 2
  funext entry
  simp [hid]

/-! ### Steps -/

theorem renames_linkUse (owner : Owner) (amount : Value) :
    Renames s id (linkUse owner amount) (linkUse owner amount) := by
  refine (Work.renames_addUse _).bind fun u => ?_
  refine (Renames.change fun g => (g.register_renamed owner u s).symm).bind fun _ => ?_
  exact .pure u

/-- The warning about an id that names nothing is about the new id. -/
theorem renames_use (index : Index) (unknown : String → Warning) (v : Value) :
    Renames s id (use index unknown v) (use (index.renamed s) unknown (v.renamedUse s)) := by
  have hid : (v.renamedUse s).fieldOrNull "belongsToId" =
      (v.fieldOrNull "belongsToId").map (Value.mapText s.newId) :=
    Value.fieldOrNull_mapField_self rfl v _
  have hamount : (v.renamedUse s).fieldOrNull "amount" = v.fieldOrNull "amount" :=
    Value.fieldOrNull_mapField_of_ne v (by decide) _
  refine (Renames.lift hid).bind fun id => ?_
  rw [findIn_renamed, hamount]
  refine (Renames.liftSame _).bind fun found => ?_
  cases found with
  | none =>
      -- An id that names nothing is put into words for the warning, also if it is no text.
      cases id with
      | text x =>
          refine (Renames.lift (f := s.newId) rfl).bind fun id => ?_
          exact (Renames.warn _ _).bind fun _ => .pure none
      | _ =>
          refine (Renames.liftSame _).bind fun id => ?_
          exact (Renames.warn _ _).bind fun _ => .pure none
  | some owner =>
      refine (Renames.liftSame _).bind fun amount => ?_
      refine (renames_linkUse owner _).bind fun u => ?_
      exact .pure (some u)

theorem renames_uses (index : Index) (unknown : String → Warning) (vs : List Value) :
    Renames s id (uses index unknown vs)
      (uses (index.renamed s) unknown (vs.map (Value.renamedUse s))) := by
  induction vs with
  | nil => exact .pure []
  | cons v vs ih =>
      refine (renames_use index unknown v).bind fun u => ?_
      refine ih.bind fun us => ?_
      exact .pure (u.toList ++ us)

/-- The text of a step may be missing, and then it is empty before and after. -/
theorem renames_step (ingredients supplies : Index)
    (h : ∀ u, v.field? "text" = .ok (some u) → ∃ x, u = .text x) :
    Renames s id (step ingredients supplies v)
      (step (ingredients.renamed s) (supplies.renamed s) (v.renamedStep s)) := by
  have huses := fun v key => listField_mapItems (f := Value.renamedUse s) (fun _ => rfl) v key
  have hname : textField (v.renamedStep s) "name" = textField v "name" := by
    simp (disch := decide) only [Value.renamedStep, textField_mapField_of_ne]
  have hingredients : listField (v.renamedStep s) "useIngredients" =
      (listField v "useIngredients").map (List.map (Value.renamedUse s)) := by
    simp (disch := decide) only [Value.renamedStep, listField_mapField_of_ne, huses]
  have hsupplies : listField (v.renamedStep s) "useSupplies" =
      (listField v "useSupplies").map (List.map (Value.renamedUse s)) := by
    simp (disch := decide) only [Value.renamedStep, listField_mapField_of_ne, huses]
  have htext : textField (v.renamedStep s) "text" =
      (textField v "text").map (Template.renameIds s) := by
    refine (textField_mapText fun u hu => ?_).trans ?_
    · simp (disch := decide) only [Value.field?_mapField_of_ne] at hu
      cases u with
      | none => exact .inr ⟨rfl, Template.renameIds_empty s⟩
      | some u =>
          obtain ⟨x, rfl⟩ := h u hu
          exact .inl ⟨x, rfl⟩
    · simp (disch := decide) only [textField_mapField_of_ne]
  unfold step
  rw [hname, hingredients, hsupplies, htext]
  refine (Renames.liftSame _).bind fun name => ?_
  refine (Renames.lift rfl).bind fun entries => ?_
  refine (renames_uses ingredients _ entries).bind fun useIngredients => ?_
  refine (Renames.lift rfl).bind fun entries => ?_
  refine (renames_uses supplies _ entries).bind fun useSupplies => ?_
  refine (Renames.lift rfl).bind fun text => ?_
  exact Work.renames_addStep { name, text, useIngredients, useSupplies }

theorem renames_steps (ingredients supplies : Index) {vs : List Value}
    (h : ∀ w ∈ vs, ∀ u, w.field? "text" = .ok (some u) → ∃ x, u = .text x) :
    Renames s id (steps ingredients supplies vs)
      (steps (ingredients.renamed s) (supplies.renamed s) (vs.map (Value.renamedStep s))) :=
  .mapM' fun v hv => renames_step ingredients supplies (h v hv)

/-! ### Recipes -/

theorem renames_addIngredients (is : List Ingredient) :
    Renames s id (addIngredients is) (addIngredients (is.map (·.renamed s))) :=
  .mapM' fun i _ => Work.renames_addIngredient i

theorem renames_addSupplies (js : List Supply) :
    Renames s id (addSupplies js) (addSupplies (js.map (·.renamed s))) :=
  .mapM' fun j _ => Work.renames_addSupply j

/-- A record with other ids is made into the recipe with other ids. -/
theorem renames_recipeForOne (h : TextIds v) :
    Renames s id (recipeForOne v) (recipeForOne (v.renamed s)) := by
  have howners := fun v key => listField_mapItems (f := Value.renamedOwner s) (fun _ => rfl) v key
  have hsteps := fun v key => listField_mapItems (f := Value.renamedStep s) (fun _ => rfl) v key
  have hingredients : listField (v.renamed s) "ingredients" =
      (listField v "ingredients").map (List.map (Value.renamedOwner s)) := by
    simp (disch := decide) only [Value.renamed, listField_mapField_of_ne, howners]
  have hsupplies : listField (v.renamed s) "supplies" =
      (listField v "supplies").map (List.map (Value.renamedOwner s)) := by
    simp (disch := decide) only [Value.renamed, listField_mapField_of_ne, howners]
  have hsteps : listField (v.renamed s) "steps" =
      (listField v "steps").map (List.map (Value.renamedStep s)) := by
    simp (disch := decide) only [Value.renamed, listField_mapField_of_ne, hsteps]
  have hname : textField (v.renamed s) "name" = textField v "name" := by
    simp (disch := decide) only [Value.renamed, textField_mapField_of_ne]
  have hi : records (v.renamed s) "ingredients" ingredient =
      (records v "ingredients" ingredient).map (List.map (·.renamed s)) :=
    records_renamed hingredients fun ws hws w hw => ingredient_renamed (h.ingredient ws hws w hw)
  have hj : records (v.renamed s) "supplies" supply =
      (records v "supplies" supply).map (List.map (·.renamed s)) :=
    records_renamed hsupplies fun ws hws w hw => supply_renamed (h.supply ws hws w hw)
  unfold recipeForOne
  rw [hi, hj, hsteps, hname]
  refine (Renames.lift rfl).bind fun is => ?_
  refine (renames_addIngredients is).bind fun rs => ?_
  refine (Renames.lift rfl).bind fun js => ?_
  refine (renames_addSupplies js).bind fun ts => ?_
  -- That texts are texts is known of the steps that are read here, and of no other values.
  refine Renames.lift_bind rfl fun items hitems => ?_
  dsimp only [id]
  rw [lastWins_renamed (s := s) is rs (·.renamed s) Ingredient.id (fun _ => rfl) .ingredient,
    lastWins_renamed (s := s) js ts (·.renamed s) Supply.id (fun _ => rfl) .supply]
  refine (renames_steps _ _ (h.step items hitems)).bind fun xs => ?_
  refine (Renames.liftSame _).bind fun name => ?_
  exact Work.renames_makeRecipe name rs ts xs

theorem renames_recipe (h : TextIds v) (p : Value) :
    Renames s id (recipe v p) (recipe (v.renamed s) p) := by
  refine (renames_recipeForOne h).bind fun r => ?_
  refine (Renames.change fun g => (g.setPortions_renamed r p s).symm).bind fun _ => ?_
  refine (Renames.liftSame _).bind fun _ => ?_
  exact .pure r

/-! ### Documents -/

/-- A record as a document: it is made into a recipe in a graph, and that is put into words. -/
def document (v p : Value) (profile : Profile) (g : Graph) : Except Fault String := do
  let r ← (recipe v p g).1.outcome
  Markdown.render (recipe v p g).2 profile r

/-- A document does not depend on the graph that the recipe is made in. -/
theorem document_anywhere (v p : Value) (profile : Profile) (g : Graph) :
    document v p profile g = document v p profile .empty := by
  obtain ⟨hreport, hgraph⟩ := copied_recipe v p .empty g g.copied_empty
  unfold document
  rw [hreport]
  rcases hmade : recipe v p .empty with ⟨⟨ws, outcome⟩, e⟩
  rw [hmade] at hgraph
  cases outcome with
  | error fault => rfl
  | ok r =>
      have hview := hgraph.view_moved (recipe_built hmade).hasUses
      exact congrArg (·.markdown profile) hview

/-- **Ids are only names.** A record with other ids gives the same document, or the same fault, in
whatever graphs the two recipes are made. -/
theorem document_renamed (h : TextIds v) (s : Renaming) (p : Value) (profile : Profile)
    (g g' : Graph) : document (v.renamed s) p profile g' = document v p profile g := by
  -- A graph may hold other recipes, with ids that stay as they are, so both are made from nothing.
  rw [document_anywhere, document_anywhere v]
  obtain ⟨houtcome, hgraph⟩ := renames_recipe (s := s) h p .empty
  rw [Graph.renamed_empty] at houtcome hgraph
  have hrender : Markdown.render ((recipe v p .empty).2.renamed s) profile =
      Markdown.render (recipe v p .empty).2 profile :=
    funext fun r => Graph.render_renamed (closed_recipe v p) s profile r
  unfold document
  rw [houtcome, hgraph, hrender, Except.map_id]
  rfl

/-- An id twice, another one that begins with it, and a third one that nothing has; a step uses all
of them and refers to them. -/
def threeSalts : Value :=
  let salt (id name : String) : Value := .record [("id", .text id), ("name", .text name)]
  let use (id : String) : Value := .record [("belongsToId", .text id), ("amount", .int 2)]
  .record [
    ("ingredients", .list [salt "salt" "Salt", salt "salt-b" "Sea salt", salt "salt" "Rock salt"]),
    ("steps", .list [.record [
      ("name", .text "Mix"),
      ("useIngredients", .list [use "salt", use "salt-b", use "salt-c"]),
      ("text", .text ("Mix \x7b\x7buseIngredients:salt\x7d\x7d, " ++
        "\x7b\x7bingredients:salt\x7d\x7d, \x7b\x7bingredients:salt-b\x7d\x7d and " ++
        "\x7b\x7bingredients:salt-c\x7d\x7d."))]])]

theorem textIds_threeSalts : TextIds threeSalts where
  ingredient := by
    intro ws hws w hw u hu
    cases hws
    fin_cases hw <;> (cases hu; exact ⟨_, rfl⟩)
  supply := by
    intro ws hws
    cases hws
    exact nofun
  step := by
    intro ws hws w hw u hu
    cases hws
    fin_cases hw
    cases hu
    exact ⟨_, rfl⟩

/-- The same three salts with their ids written backwards, made after the first ones. -/
theorem document_renamed_threeSalts :
    let g := (recipe threeSalts (.int 4) .empty).2
    TextIds threeSalts ∧ (∃ t, document threeSalts (.int 4) .complete .empty = .ok t) ∧
      document (threeSalts.renamed Template.reversed) (.int 4) .complete g =
        document threeSalts (.int 4) .complete .empty := by
  intro g
  have hdocument : ∃ t, document threeSalts (.int 4) .complete .empty = .ok t :=
    exceptIsOk_iff.mp (by decide +kernel)
  exact ⟨textIds_threeSalts, hdocument, document_renamed textIds_threeSalts _ _ _ _ _⟩

end Build

end Cookbook
