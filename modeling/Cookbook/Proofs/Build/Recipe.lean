import Cookbook.Proofs.Build.Sharing
import Cookbook.Proofs.Graph.Portions
/-!
# Cookbook.Proofs.Build.Recipe

The graph after a recipe was made from a record (`recipe_built`). The ingredients and supplies are
made first, without uses; the steps are made and linked to them (`Shared`); the recipe is made and
its steps are attached; and last the portions are set. The last two change neither who owns a use
nor which uses a step has. `Built` is what holds from then on, however often portions are set
(`Built.setPortions`).
-/

namespace Cookbook

namespace Build

open Cookbook.Graph (Keeps)

variable {v : Value} {g g' : Graph} {ws : List Warning}

/-! ### Ingredients and supplies -/

/-- Making objects one by one, on one of the shelves of a graph. -/
theorem makeAll_inv {kind : Kind} {α : Type} (shelf : Graph → Shelf kind α)
    (put : Graph → Shelf kind α → Graph) (hshelf : ∀ g s, shelf (put g s) = s)
    (hput : ∀ g s s', put (put g s) s' = put g s') (hself : ∀ g, put g (shelf g) = g)
    {as : List α} {rs : List (Ref kind)}
    (h : as.mapM' (fun a => Work.make fun g => (put g ((shelf g).add a), (shelf g).next)) g =
      (⟨ws, .ok rs⟩, g')) :
    ws = [] ∧ (shelf g).Added (shelf g') rs as ∧ g' = put g (shelf g') := by
  induction as generalizing g ws rs with
  | nil =>
      obtain ⟨rfl, rfl, rfl⟩ := Work.pure_inv h
      exact ⟨rfl, .refl _, (hself _).symm⟩
  | cons a as ih =>
      obtain ⟨ws₁, r, g₁, ws₂, rs', hmake, hrest, rfl, rfl⟩ := Work.mapM'_cons_inv h
      obtain ⟨rfl, hadd⟩ := Work.make_inv hmake
      cases hadd
      obtain ⟨rfl, hadded, hg'⟩ := ih hrest
      rw [hshelf] at hadded
      rw [hput] at hg'
      exact ⟨rfl, (Shelf.Added.single (shelf g) a).trans hadded, hg'⟩

theorem addIngredients_inv {is : List Ingredient} {rs : List (Ref .ingredient)}
    (h : addIngredients is g = (⟨ws, .ok rs⟩, g')) :
    ws = [] ∧ g.ingredients.Added g'.ingredients rs is ∧
      g' = { g with ingredients := g'.ingredients } :=
  makeAll_inv Graph.ingredients (fun g s => { g with ingredients := s })
    (fun _ _ => rfl) (fun _ _ _ => rfl) (fun _ => rfl) h

theorem addSupplies_inv {js : List Supply} {ts : List (Ref .supply)}
    (h : addSupplies js g = (⟨ws, .ok ts⟩, g')) :
    ws = [] ∧ g.supplies.Added g'.supplies ts js ∧ g' = { g with supplies := g'.supplies } :=
  makeAll_inv Graph.supplies (fun g s => { g with supplies := s })
    (fun _ _ => rfl) (fun _ _ _ => rfl) (fun _ => rfl) h

/-- Ingredients and supplies are made on different shelves. -/
theorem addOwners_inv {g₁ : Graph} {ws' : List Warning} {is : List Ingredient}
    {rs : List (Ref .ingredient)} {js : List Supply} {ts : List (Ref .supply)}
    (hi : addIngredients is g = (⟨ws, .ok rs⟩, g₁))
    (hj : addSupplies js g₁ = (⟨ws', .ok ts⟩, g')) :
    g.ingredients.Added g'.ingredients rs is ∧ g.supplies.Added g'.supplies ts js := by
  obtain ⟨-, hadded, hg₁⟩ := addIngredients_inv hi
  obtain ⟨-, hadded', hg'⟩ := addSupplies_inv hj
  have hingredients : g'.ingredients = g₁.ingredients := by rw [hg']
  have hsupplies : g₁.supplies = g.supplies := by rw [hg₁]
  rw [hingredients, ← hsupplies]
  exact ⟨hadded, hadded'⟩

/-- An ingredient that was read has the id and the name of its record, and no uses. -/
theorem ingredient_inv {i : Ingredient} (h : ingredient v = .ok i) :
    textField v "id" = .ok i.id ∧ textField v "name" = .ok i.name ∧ i.unused = i := by
  obtain ⟨id, hid, h₁⟩ := exceptBind_inv h
  obtain ⟨name, hname, h₂⟩ := exceptBind_inv h₁
  obtain ⟨w, -, h₃⟩ := exceptBind_inv h₂
  obtain ⟨unit, -, h₄⟩ := exceptBind_inv h₃
  cases h₄
  exact ⟨hid, hname, rfl⟩

/-- A supply that was read has the id and the name of its record, and no uses. -/
theorem supply_inv {s : Supply} (h : supply v = .ok s) :
    textField v "id" = .ok s.id ∧ textField v "name" = .ok s.name ∧ s.unused = s := by
  obtain ⟨id, hid, h₁⟩ := exceptBind_inv h
  obtain ⟨name, hname, h₂⟩ := exceptBind_inv h₁
  cases h₂
  exact ⟨hid, hname, rfl⟩

theorem isRecord_of_ingredient (v : Value) (i : Ingredient) (h : ingredient v = .ok i) :
    v.IsRecord :=
  isRecord_of_textField (ingredient_inv h).1

theorem isRecord_of_supply (v : Value) (s : Supply) (h : supply v = .ok s) : v.IsRecord :=
  isRecord_of_textField (supply_inv h).1

/-- An ingredient can be read exactly if its texts can be, and its unit put into words. -/
theorem exists_ingredient_iff : (∃ i, ingredient v = .ok i) ↔
    (∃ id, textField v "id" = .ok id) ∧ (∃ name, textField v "name" = .ok name) ∧
      ∃ w, v.fieldOrNull "unit" = .ok w ∧ ∃ unit, (w.orElse (.text "")).write = .ok unit := by
  refine exceptBind_exists_ok_iff fun _ => exceptBind_exists_ok_iff fun _ => ?_
  constructor
  · rintro ⟨i, h⟩
    obtain ⟨w, hw, hrest⟩ := exceptBind_inv h
    obtain ⟨unit, hunit, -⟩ := exceptBind_inv hrest
    exact ⟨w, hw, unit, hunit⟩
  · rintro ⟨w, hw, hunit⟩
    rw [hw]
    exact (exceptBind_total_iff fun _ => ⟨_, rfl⟩).mpr hunit

/-- A supply can be read exactly if its texts can be. -/
theorem exists_supply_iff : (∃ j, supply v = .ok j) ↔
    (∃ id, textField v "id" = .ok id) ∧ ∃ name, textField v "name" = .ok name :=
  exceptBind_exists_ok_iff fun _ => exceptBind_total_iff fun _ => ⟨_, rfl⟩

/-- What was read of all records in a list holds of each result. -/
theorem mem_of_records {α : Type} {key : String} {describe : Value → Except Fault α} {xs : List α}
    (h : records v key describe = .ok xs) : ∀ x ∈ xs, ∃ w, describe w = .ok x := by
  obtain ⟨items, -, hread⟩ := exceptBind_inv h
  intro x hx
  obtain ⟨w, -, hw⟩ := exceptMapM_mem hread x hx
  exact ⟨w, hw⟩

theorem unused_of_ingredients {key : String} {is : List Ingredient}
    (h : records v key ingredient = .ok is) : ∀ i ∈ is, i.unused = i := by
  intro i hi
  obtain ⟨w, hw⟩ := mem_of_records h i hi
  exact (ingredient_inv hw).2.2

theorem unused_of_supplies {key : String} {js : List Supply} (h : records v key supply = .ok js) :
    ∀ j ∈ js, j.unused = j := by
  intro j hj
  obtain ⟨w, hw⟩ := mem_of_records h j hj
  exact (supply_inv hw).2.2

/-- Ingredients and supplies that were made have no uses, so the invariant holds before the first
step. -/
theorem shared_of_made {is : List Ingredient} {rs : List (Ref .ingredient)} {js : List Supply}
    {ts : List (Ref .supply)} (hi : g.ingredients.Added g'.ingredients rs is)
    (hj : g.supplies.Added g'.supplies ts js) (hui : ∀ i ∈ is, i.unused = i)
    (huj : ∀ j ∈ js, j.unused = j) : Shared g' rs ts [] [] := by
  have hi' : ∀ r ∈ rs, (g'.ingredients.get r).unused = g'.ingredients.get r := hi.forall_get hui
  have hj' : ∀ t ∈ ts, (g'.supplies.get t).unused = g'.supplies.get t := hj.forall_get huj
  refine .nil (fun r hr => hi.has hr) (fun t ht => hj.has ht) ?_ ?_
  · intro r hr
    rw [← hi' r hr]
    rfl
  · intro t ht
    rw [← hj' t ht]
    rfl

theorem ingredientSide_index {is : List Ingredient} {rs : List (Ref .ingredient)}
    (h : rs.map g.ingredients.get = is) :
    (ingredientSide g rs).index =
      Index.lastWins ((is.zip rs).map fun (i, r) => (i.id, .ingredient r)) := by
  rw [← h, ← List.map_prod_right_eq_zip, List.map_map]
  rfl

theorem supplySide_index {js : List Supply} {ts : List (Ref .supply)}
    (h : ts.map g.supplies.get = js) :
    (supplySide g ts).index =
      Index.lastWins ((js.zip ts).map fun (j, t) => (j.id, .supply t)) := by
  rw [← h, ← List.map_prod_right_eq_zip, List.map_map]
  rfl

/-! ### The recipe -/

/-- A recipe was made from a record; its portions may have been set since then. -/
structure Built (v portions : Value) (g : Graph) (r : Ref .recipe) : Prop where
  has_recipe : g.recipes.Has r
  shared : Shared g (g.recipes.get r).ingredients (g.recipes.get r).supplies (v.listed "steps")
    (g.recipes.get r).steps
  nodup_ingredients : (g.recipes.get r).ingredients.Nodup
  nodup_supplies : (g.recipes.get r).supplies.Nodup
  ingredients : records v "ingredients" ingredient =
    .ok ((g.recipes.get r).ingredients.map fun i => (g.ingredients.get i).unused)
  supplies : records v "supplies" supply =
    .ok ((g.recipes.get r).supplies.map fun j => (g.supplies.get j).unused)
  portions_eq : (g.recipes.get r).portions = portions
  use_portions : ∀ i ∈ (g.recipes.get r).ingredients, ∀ u ∈ (g.ingredients.get i).uses,
    (g.uses.get u).portions = portions
  supply_portions : ∀ s ∈ (g.recipes.get r).steps, ∀ u ∈ (g.steps.get s).useSupplies,
    (g.uses.get u).portions = .int 1
  attached : ∀ s ∈ (g.recipes.get r).steps, (g.steps.get s).recipe = some r

/-- Attaching the steps completes a recipe whose steps were made. -/
theorem Shared.built {name : String} {is : List (Ref .ingredient)} {js : List (Ref .supply)}
    {ss : List (Ref .step)} {r : Ref .recipe} (h : Shared g is js (v.listed "steps") ss)
    (hu : Unscaled g ss) (his : is.Nodup) (hjs : js.Nodup)
    (hi : records v "ingredients" ingredient =
      .ok (is.map fun i => (g.ingredients.get i).unused))
    (hj : records v "supplies" supply = .ok (js.map fun j => (g.supplies.get j).unused))
    (hmake : Work.makeRecipe name is js ss g = (⟨ws, .ok r⟩, g')) :
    Built v (.int 1) g' r := by
  obtain ⟨rfl, hrecipe, hg'⟩ := Work.makeRecipe_inv hmake
  have hingredients : g'.ingredients = g.ingredients := by rw [hg']
  have hsupplies : g'.supplies = g.supplies := by rw [hg']
  have huses : g'.uses = g.uses := by rw [hg']
  have hkeeps : Keeps g g' := Work.keeps_makeRecipe hmake
  have hshared : Shared g' is js (v.listed "steps") ss := h.of_keeps hkeeps hingredients hsupplies
  have hget : g'.recipes.get r = { name, ingredients := is, supplies := js, steps := ss } :=
    Shelf.get_of_get? hrecipe
  constructor
  case has_recipe => exact Shelf.has_of_get? hrecipe
  case shared => rw [hget]; exact hshared
  case nodup_ingredients => rw [hget]; exact his
  case nodup_supplies => rw [hget]; exact hjs
  case ingredients => rw [hget, hingredients, hi]
  case supplies => rw [hget, hsupplies, hj]
  case portions_eq => rw [hget]
  case use_portions =>
    intro i hmem u hreg
    rw [hget] at hmem
    rw [hingredients] at hreg
    -- A use that is registered is one of a step.
    obtain ⟨s, hs, hu'⟩ := h.ingredients.mem_step_of_registered (List.mem_map_of_mem hmem) hreg
    rw [huses]
    exact hu s hs u (List.mem_append_left _ hu')
  case supply_portions =>
    intro s hs u hmem
    rw [hget] at hs
    rw [hkeeps.useSupplies_eq (h.has_step s hs)] at hmem
    rw [huses]
    exact hu s hs u (List.mem_append_right _ hmem)
  case attached =>
    intro s hs
    rw [hget] at hs
    exact Work.recipe_of_makeRecipe hmake hs (h.has_step s hs)

/-- No supply use of a step is registered with an ingredient, so setting portions leaves it out. -/
theorem Built.supply_not_scaled {p : Value} {r : Ref .recipe} (h : Built v p g r)
    {s : Ref .step} (hs : s ∈ (g.recipes.get r).steps) {u : Ref .use}
    (hu : u ∈ (g.steps.get s).useSupplies) : u ∉ g.scaledUses r := by
  intro hmem
  obtain ⟨i, hi, hreg⟩ := List.mem_flatMap.mp hmem
  have hsupply := h.shared.supplies.owner_mem s hs u hu
  rw [h.shared.ingredients.owner_of_registered (List.mem_map_of_mem hi) hreg] at hsupply
  exact not_mem_of_mem_ingredients (List.mem_map_of_mem hi) hsupply

/-- Setting portions changes those of the recipe and of its ingredients' uses, and nothing else. -/
theorem Built.setPortions {p : Value} {r : Ref .recipe} (h : Built v p g r) (q : Value) :
    Built v q (g.setPortions r q) r := by
  have hget : (g.setPortions r q).recipes.get r = { g.recipes.get r with portions := q } :=
    Graph.get_recipes_setPortions q h.has_recipe
  constructor
  case has_recipe =>
    obtain ⟨recipe, hrecipe⟩ := Option.isSome_iff_exists.mp h.has_recipe
    exact Shelf.has_of_get? (Graph.get?_recipes_setPortions q hrecipe)
  case shared =>
    rw [hget]
    exact h.shared.of_keeps (g.keeps_setPortions r q) (g.ingredients_setPortions r q)
      (g.supplies_setPortions r q)
  case nodup_ingredients => rw [hget]; exact h.nodup_ingredients
  case nodup_supplies => rw [hget]; exact h.nodup_supplies
  case ingredients => rw [hget, Graph.ingredients_setPortions, h.ingredients]
  case supplies => rw [hget, Graph.supplies_setPortions, h.supplies]
  case portions_eq => rw [hget]
  case use_portions =>
    intro i hmem u hu
    rw [hget] at hmem
    rw [Graph.ingredients_setPortions] at hu
    refine Graph.portions_setPortions q ?_ ?_
    · exact List.mem_flatMap.mpr ⟨i, hmem, hu⟩
    · exact h.shared.ingredients.has_registered (List.mem_map_of_mem hmem) hu
  case supply_portions =>
    intro s hs u hu
    rw [hget] at hs
    rw [Graph.steps_setPortions] at hu
    have hkept := g.get?_uses_setPortions r q u
    rw [if_neg (h.supply_not_scaled hs hu)] at hkept
    rw [Shelf.get_congr hkept]
    exact h.supply_portions s hs u hu
  case attached =>
    intro s hs
    rw [hget] at hs
    rw [Graph.steps_setPortions]
    exact h.attached s hs

/-- What is read and made on the way to a recipe, in order: its ingredients, its supplies, its
steps, which alone give warnings, its name, and the recipe itself. -/
theorem recipeForOne_run {r : Ref .recipe} (h : recipeForOne v g = (⟨ws, .ok r⟩, g')) :
    ∃ is js items rs ts ss name g₁ g₂ g₃,
      records v "ingredients" ingredient = .ok is ∧ addIngredients is g = (⟨[], .ok rs⟩, g₁) ∧
      records v "supplies" supply = .ok js ∧ addSupplies js g₁ = (⟨[], .ok ts⟩, g₂) ∧
      listField v "steps" = .ok items ∧
      steps (Index.lastWins ((is.zip rs).map fun (i, r) => (i.id, .ingredient r)))
        (Index.lastWins ((js.zip ts).map fun (j, t) => (j.id, .supply t))) items g₂ =
          (⟨ws, .ok ss⟩, g₃) ∧
      textField v "name" = .ok name ∧ Work.makeRecipe name rs ts ss g₃ = (⟨[], .ok r⟩, g') := by
  obtain ⟨ws₁, is, g₁, ws₂, his, h₁, rfl⟩ := Work.bind_inv h
  obtain ⟨his', rfl, rfl⟩ := Work.lift_inv his
  obtain ⟨ws₃, rs, g₂, ws₄, hrs, h₂, rfl⟩ := Work.bind_inv h₁
  obtain ⟨ws₅, js, g₃, ws₆, hjs, h₃, rfl⟩ := Work.bind_inv h₂
  obtain ⟨hjs', rfl, rfl⟩ := Work.lift_inv hjs
  obtain ⟨ws₇, ts, g₄, ws₈, hts, h₄, rfl⟩ := Work.bind_inv h₃
  obtain ⟨ws₉, items, g₅, ws₁₀, hitems, h₅, rfl⟩ := Work.bind_inv h₄
  obtain ⟨hitems', rfl, rfl⟩ := Work.lift_inv hitems
  obtain ⟨ws₁₁, ss, g₆, ws₁₂, hss, h₆, rfl⟩ := Work.bind_inv h₅
  obtain ⟨ws₁₃, name, g₇, ws₁₄, hname, hmake, rfl⟩ := Work.bind_inv h₆
  obtain ⟨hname', rfl, rfl⟩ := Work.lift_inv hname
  obtain ⟨rfl, -, -⟩ := addIngredients_inv hrs
  obtain ⟨rfl, -, -⟩ := addSupplies_inv hts
  obtain ⟨rfl, -, -⟩ := Work.makeRecipe_inv hmake
  simp only [List.nil_append, List.append_nil]
  exact ⟨is, js, items, rs, ts, ss, name, _, _, _, his', hrs, hjs', hts, hitems', hss, hname',
    hmake⟩

/-- Making a recipe from a record builds it, for one portion. -/
theorem recipeForOne_built {r : Ref .recipe} (h : recipeForOne v g = (⟨ws, .ok r⟩, g')) :
    Built v (.int 1) g' r := by
  obtain ⟨is, js, items, rs, ts, ss, name, g₁, g₂, g₃, his, hrs, hjs, hts, hitems, hss, -, hmake⟩ :=
    recipeForOne_run h
  obtain ⟨hadded, hadded'⟩ := addOwners_inv hrs hts
  have hui := unused_of_ingredients his
  have huj := unused_of_supplies hjs
  have hnil : Shared g₂ rs ts [] [] := shared_of_made hadded hadded' hui huj
  rw [← ingredientSide_index hadded.map_get, ← supplySide_index hadded'.map_get] at hss
  obtain ⟨hrecords, hk, hshared, hunscaled⟩ := hnil.steps (by simp [Unscaled]) hss
  rw [List.nil_append, List.nil_append, listField_eq_listed hitems hrecords] at hshared
  -- Linking uses to the ingredients and supplies has left everything else of them as it was read.
  have hi : rs.map (fun i => (g₃.ingredients.get i).unused) = is :=
    (hadded.map_kept hk.ingredients).trans ((List.map_congr_left hui).trans (List.map_id is))
  have hj : ts.map (fun j => (g₃.supplies.get j).unused) = js :=
    (hadded'.map_kept hk.supplies).trans ((List.map_congr_left huj).trans (List.map_id js))
  exact hshared.built hunscaled hadded.nodup hadded'.nodup (by rw [hi, his]) (by rw [hj, hjs]) hmake

/-- A recipe that was made for portions was made for one portion first, and then scaled. The
portions have a text. -/
theorem recipe_inv {p : Value} {r : Ref .recipe} (h : recipe v p g = (⟨ws, .ok r⟩, g')) :
    ∃ g₀ s, recipeForOne v g = (⟨ws, .ok r⟩, g₀) ∧ p.write = .ok s ∧ g' = g₀.setPortions r p := by
  obtain ⟨ws₁, r', g₀, ws₂, hmade, h₁, rfl⟩ := Work.bind_inv h
  obtain ⟨ws₃, u, g₁, ws₄, hscale, h₂, rfl⟩ := Work.bind_inv h₁
  obtain ⟨rfl, rfl⟩ := Work.change_inv hscale
  obtain ⟨ws₅, s, g₂, ws₆, hwrite, h₃, rfl⟩ := Work.bind_inv h₂
  obtain ⟨hwrite', rfl, rfl⟩ := Work.lift_inv hwrite
  obtain ⟨rfl, rfl, rfl⟩ := Work.pure_inv h₃
  rw [List.nil_append, List.nil_append, List.append_nil]
  exact ⟨g₀, s, hmade, hwrite', rfl⟩

/-- Making a recipe from a record builds it. -/
theorem recipe_built {p : Value} {r : Ref .recipe} (h : recipe v p g = (⟨ws, .ok r⟩, g')) :
    Built v p g' r := by
  obtain ⟨g₀, s, hmade, -, rfl⟩ := recipe_inv h
  exact (recipeForOne_built hmade).setPortions p

/-- A recipe has the name that its record gives. -/
theorem name_of_recipe {p : Value} {r : Ref .recipe} (h : recipe v p g = (⟨ws, .ok r⟩, g')) :
    textField v "name" = .ok (g'.recipes.get r).name := by
  obtain ⟨g₀, s, hmade, -, rfl⟩ := recipe_inv h
  rw [Graph.get_recipes_setPortions p (recipeForOne_built hmade).has_recipe]
  obtain ⟨-, -, -, rs, ts, ss, name, -, -, g₃, -, -, -, -, -, -, hname, hmake⟩ :=
    recipeForOne_run hmade
  obtain ⟨-, hrecipe, -⟩ := Work.makeRecipe_inv hmake
  rw [Shelf.get_of_get? hrecipe]
  exact hname

/-! ### Shared uses -/

/-- The uses of a recipe are shared between its steps and the ingredients and supplies of its own:
none is lost and none is there twice. -/
structure UsesShared (g : Graph) (recipe : Recipe) : Prop where
  /-- An ingredient has the uses that the steps have of it, in the order of the steps. -/
  ingredient_uses : ∀ i ∈ recipe.ingredients, g.ingredients.Has i ∧
    (g.ingredients.get i).uses = recipe.steps.flatMap fun s =>
      (g.steps.get s).useIngredients.filter fun u => (g.uses.get u).owner = .ingredient i
  /-- A supply has the uses that the steps have of it, in the order of the steps. -/
  supply_uses : ∀ j ∈ recipe.supplies, g.supplies.Has j ∧
    (g.supplies.get j).uses = recipe.steps.flatMap fun s =>
      (g.steps.get s).useSupplies.filter fun u => (g.uses.get u).owner = .supply j
  /-- What a step uses is an ingredient of the recipe. -/
  ingredient_owner : ∀ s ∈ recipe.steps, g.steps.Has s ∧ ∀ u ∈ (g.steps.get s).useIngredients,
    g.uses.Has u ∧ ∃ i ∈ recipe.ingredients, (g.uses.get u).owner = .ingredient i
  /-- The equipment that a step uses is a supply of the recipe. -/
  supply_owner : ∀ s ∈ recipe.steps, g.steps.Has s ∧ ∀ u ∈ (g.steps.get s).useSupplies,
    g.uses.Has u ∧ ∃ j ∈ recipe.supplies, (g.uses.get u).owner = .supply j
  /-- No use is in two steps, or twice in one. -/
  nodup_steps : (recipe.steps.flatMap fun s =>
    (g.steps.get s).useIngredients ++ (g.steps.get s).useSupplies).Nodup
  /-- No use is registered twice. -/
  nodup_registered : ((recipe.ingredients.flatMap fun i => (g.ingredients.get i).uses) ++
    recipe.supplies.flatMap fun j => (g.supplies.get j).uses).Nodup

theorem Shared.usesShared {recipe : Recipe} {vs : List Value}
    (h : Shared g recipe.ingredients recipe.supplies vs recipe.steps)
    (hi : recipe.ingredients.Nodup) (hj : recipe.supplies.Nodup) : UsesShared g recipe where
  ingredient_uses := fun i hmem =>
    ⟨h.has_ingredient i hmem, h.ingredients.registered _ (List.mem_map_of_mem hmem)⟩
  supply_uses := fun j hmem =>
    ⟨h.has_supply j hmem, h.supplies.registered _ (List.mem_map_of_mem hmem)⟩
  ingredient_owner := by
    refine fun s hs => ⟨h.has_step s hs, fun u hu => ⟨h.ingredients.has_use s hs u hu, ?_⟩⟩
    obtain ⟨i, hmem, howner⟩ := List.mem_map.mp (h.ingredients.owner_mem s hs u hu)
    exact ⟨i, hmem, howner.symm⟩
  supply_owner := by
    refine fun s hs => ⟨h.has_step s hs, fun u hu => ⟨h.supplies.has_use s hs u hu, ?_⟩⟩
    obtain ⟨j, hmem, howner⟩ := List.mem_map.mp (h.supplies.owner_mem s hs u hu)
    exact ⟨j, hmem, howner.symm⟩
  nodup_steps := h.nodup
  nodup_registered := h.nodup_registered hi hj

/-- However a recipe was made from a record, also from one with an id twice, its uses are shared. -/
theorem uses_shared {p : Value} {r : Ref .recipe} (h : recipe v p g = (⟨ws, .ok r⟩, g')) :
    g'.recipes.Has r ∧ UsesShared g' (g'.recipes.get r) := by
  have hbuilt : Built v p g' r := recipe_built h
  exact ⟨hbuilt.has_recipe,
    hbuilt.shared.usesShared hbuilt.nodup_ingredients hbuilt.nodup_supplies⟩

/-- A record with an id twice. Both steps use it, each of them in two entries. -/
def doubleSalt : Value :=
  let salt (amount : Value) : Value := .record [("belongsToId", .text "salt"), ("amount", amount)]
  .record [
    ("ingredients", .list [.record [("id", .text "salt")], .record [("id", .text "salt")]]),
    ("supplies", .list [.record [("id", .text "pan")]]),
    ("steps", .list [
      .record [("useIngredients", .list [salt (.int 2), salt (.bool true)]),
        ("useSupplies", .list [.record [("belongsToId", .text "pan")]])],
      .record [("useIngredients", .list [salt (.int 5), salt .null])]])]

theorem recipe_doubleSalt :
    recipe doubleSalt (.int 4) .empty = (⟨[], .ok ⟨0⟩⟩, (recipe doubleSalt (.int 4) .empty).2) := by
  have hreport : (recipe doubleSalt (.int 4) .empty).1 = ⟨[], .ok ⟨0⟩⟩ :=
    Report.ext (by decide +kernel) (by decide +kernel)
  rw [← hreport]

theorem uses_shared_doubleSalt :
    let g := (recipe doubleSalt (.int 4) .empty).2
    recipe doubleSalt (.int 4) .empty = (⟨[], .ok ⟨0⟩⟩, g) ∧ g.recipes.Has ⟨0⟩ ∧
      UsesShared g (g.recipes.get ⟨0⟩) :=
  ⟨recipe_doubleSalt, uses_shared recipe_doubleSalt⟩

end Build

end Cookbook
