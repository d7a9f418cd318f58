import Cookbook.Proofs.Build.Recipe
import Cookbook.Proofs.Graph.Apart
/-!
# Cookbook.Proofs.Build.Apart

Making a recipe from a record changes nothing that there was (`within_recipe`). Each function that
makes something of a record only gets hold of what was made before it from the same record: the
owners of the uses are in the indexes, the uses of a step are those that were linked for it, and the
recipe has what was made for it. So the graph that there was stays apart from all of it, even where
the making fails halfway.
-/

namespace Cookbook

namespace Build

open Work (Within)

variable {b g : Graph} {given : List Handle}

/-- The owner that an index gives is one of those in it. -/
theorem owner_mem_of_findIn {index : Index} {v : Value} {owner : Owner}
    (h : Value.findIn index (v.atKey "belongsToId") = .ok (some owner)) :
    owner ∈ index.map Prod.snd :=
  owner_mem_of_useOf? (useOf?_of_findIn_some h)

/-- An index has the owners that it was made of. -/
theorem owners_lastWins {α : Type} {kind : Kind} (as : List α) (rs : List (Ref kind))
    (id : α → String) (owner : Ref kind → Owner) :
    ∀ o ∈ (Index.lastWins ((as.zip rs).map fun (a, r) => (id a, owner r))).map Prod.snd,
      ∃ r ∈ rs, o = owner r := by
  intro o ho
  simp only [Index.lastWins, List.map_reverse, List.map_map, List.mem_reverse, List.mem_map] at ho
  obtain ⟨⟨a, r⟩, hmem, rfl⟩ := ho
  exact ⟨r, (List.of_mem_zip hmem).2, rfl⟩

/-! ### Steps -/

theorem within_linkUse {owner : Owner} (h : owner.handle ∈ given) (amount : Value) :
    Within b given (linkUse owner amount) fun u => [u.handle] := by
  have huse : Kind.handles .use { amount, owner } ⊆ given := by simpa [Kind.handles] using h
  refine (Within.add .use _ huse).bind fun u => ?_
  refine Within.bind (.change fun g hg hgiven => ?_) fun _ => .pure (by simp)
  exact ⟨hg.register (hgiven _ (List.mem_append_left _ h)).2 (hgiven _ (by simp)),
    g.grows_register owner u⟩

theorem within_use {index : Index} (h : ∀ o ∈ index.map Prod.snd, o.handle ∈ given)
    (unknown : String → Warning) (v : Value) :
    Within b given (use index unknown v) fun u => u.toList.map Ref.handle := by
  refine .lift_bind fun id hid => .lift_bind fun found hfound => ?_
  obtain ⟨-, rfl⟩ := Value.fieldOrNull_inv hid
  cases found with
  | none =>
      exact .lift_bind fun id _ => Within.bind (.report _) fun _ => .pure (List.nil_subset _)
  | some owner =>
      have howner : owner.handle ∈ given := h owner (owner_mem_of_findIn hfound)
      exact .lift_bind fun amount _ => (within_linkUse howner _).bind fun u => .pure (by simp)

theorem within_uses {index : Index} (h : ∀ o ∈ index.map Prod.snd, o.handle ∈ given)
    (unknown : String → Warning) (vs : List Value) :
    Within b given (uses index unknown vs) fun us => us.map Ref.handle := by
  induction vs generalizing given with
  | nil => exact .pure (List.nil_subset _)
  | cons v vs ih =>
      refine (within_use h unknown v).bind fun u => ?_
      refine (ih fun o ho => List.mem_append_left _ (h o ho)).bind fun us => ?_
      exact .pure (by simp)

theorem within_step {ingredients supplies : Index}
    (hi : ∀ o ∈ ingredients.map Prod.snd, o.handle ∈ given)
    (hj : ∀ o ∈ supplies.map Prod.snd, o.handle ∈ given) (v : Value) :
    Within b given (step ingredients supplies v) fun s => [s.handle] := by
  refine .lift_bind fun name _ => .lift_bind fun entries _ => ?_
  refine (within_uses hi _ entries).bind fun us => .lift_bind fun entries' _ => ?_
  refine (within_uses (fun o ho => List.mem_append_left _ (hj o ho)) _ entries').bind fun us' => ?_
  refine .lift_bind fun text _ => ?_
  -- A new step belongs to no recipe yet, and refers to nothing but its uses.
  exact Within.add .step
    { name, text, useIngredients := us, useSupplies := us', recipe := none }
    (by simp [Kind.handles])

theorem within_steps {ingredients supplies : Index}
    (hi : ∀ o ∈ ingredients.map Prod.snd, o.handle ∈ given)
    (hj : ∀ o ∈ supplies.map Prod.snd, o.handle ∈ given) (vs : List Value) :
    Within b given (steps ingredients supplies vs) fun ss => ss.map Ref.handle :=
  .mapM' fun v _ _ hgiven =>
    within_step (fun o ho => hgiven (hi o ho)) (fun o ho => hgiven (hj o ho)) v

/-! ### Recipes -/

/-- Making objects that hold no handles, one by one, on one of the shelves of a graph. -/
theorem within_makeAll (kind : Kind) {as : List kind.Object} (h : ∀ a ∈ as, kind.handles a = []) :
    Within b given (as.mapM' fun a => Work.make fun g => (g.add kind a, (g.shelf kind).next))
      fun rs => rs.map Ref.handle :=
  .mapM' fun a ha _ _ => .add kind a (h a ha ▸ List.nil_subset _)

theorem within_addIngredients {is : List Ingredient} (h : ∀ i ∈ is, i.unused = i) :
    Within b given (addIngredients is) fun rs => rs.map Ref.handle :=
  within_makeAll .ingredient fun i hi => by
    rw [← h i hi]
    rfl

theorem within_addSupplies {js : List Supply} (h : ∀ j ∈ js, j.unused = j) :
    Within b given (addSupplies js) fun ts => ts.map Ref.handle :=
  within_makeAll .supply fun j hj => by
    rw [← h j hj]
    rfl

theorem within_recipeForOne (v : Value) :
    Within b given (recipeForOne v) fun r => [r.handle] := by
  refine .lift_bind fun is his => ?_
  refine (within_addIngredients (unused_of_ingredients his)).bind fun rs => ?_
  refine .lift_bind fun js hjs => ?_
  refine (within_addSupplies (unused_of_supplies hjs)).bind fun ts => ?_
  refine .lift_bind fun items _ => ?_
  have howners : ∀ o ∈ (Index.lastWins ((is.zip rs).map fun x => (x.1.id, .ingredient x.2))).map
      Prod.snd, o.handle ∈ given ++ rs.map Ref.handle ++ ts.map Ref.handle := by
    intro o ho
    obtain ⟨r, hr, rfl⟩ := owners_lastWins is rs Ingredient.id .ingredient o ho
    exact List.mem_append_left _ (List.mem_append_right _ (List.mem_map_of_mem hr))
  have howners' : ∀ o ∈ (Index.lastWins ((js.zip ts).map fun x => (x.1.id, .supply x.2))).map
      Prod.snd, o.handle ∈ given ++ rs.map Ref.handle ++ ts.map Ref.handle := by
    intro o ho
    obtain ⟨t, ht, rfl⟩ := owners_lastWins js ts Supply.id .supply o ho
    exact List.mem_append_right _ (List.mem_map_of_mem ht)
  refine (within_steps howners howners' items).bind fun ss => .lift_bind fun name _ => ?_
  refine Work.within_makeRecipe name ?_ ?_ ?_
  · exact fun r hr => by simp [List.mem_map_of_mem (f := Ref.handle) hr]
  · exact fun t ht => by simp [List.mem_map_of_mem (f := Ref.handle) ht]
  · exact fun s hs => by simp [List.mem_map_of_mem (f := Ref.handle) hs]

/-- Making a recipe leaves the graph that there was apart, and the recipe is new. -/
theorem within_recipe (v p : Value) : Within b given (recipe v p) fun r => [r.handle] := by
  refine (within_recipeForOne v).bind fun r => ?_
  refine Within.bind (.change fun g hg hgiven => ?_) fun _ => .lift_bind fun _ _ => .pure (by simp)
  exact ⟨hg.setPortions (hgiven _ (by simp)).2 p, g.grows_setPortions r p⟩

/-- In the graph of a recipe that was made from nothing every reference is to an object that
exists. -/
theorem closed_recipe (v p : Value) : (recipe v p .empty).2.Closed := by
  have hwithin : Within .empty [] (recipe v p) fun r => [r.handle] := within_recipe v p
  exact hwithin.closed Graph.closed_empty (List.forall_mem_nil _)

end Build

end Cookbook
