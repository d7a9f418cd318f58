import Mathlib.Data.List.Flatten
import Mathlib.Data.List.Nodup
import Cookbook.Proofs.Build.Uses
import Cookbook.Proofs.Graph.Frame
/-!
# Cookbook.Proofs.Build.Sharing

The graph while the steps of a recipe are made. Ingredients and supplies are linked in the same way,
so a `Side` stands for either, and `Sharing` is what holds of one side when some of the steps have
been made: each owner has the very uses of the steps that are its own, in order, each use of a step
is of one of the owners, and the steps have the uses that their records describe.

`Shared` is the invariant: both sides, and no use twice. It holds before the first step, each step
keeps it (`Shared.step`), so it holds after all of them (`Shared.steps`); and it is kept by whatever
only attaches steps or scales uses (`Shared.of_keeps`). While steps are made no use is scaled either
(`Unscaled`), which is no longer so as soon as portions are set.
-/

namespace Cookbook

/-- All uses of a step. -/
def Step.uses (s : Step) : List (Ref .use) := s.useIngredients ++ s.useSupplies

namespace Graph

/-- The uses that are registered with an owner. -/
def registered (g : Graph) : Owner → List (Ref .use)
  | .ingredient i => (g.ingredients.get i).uses
  | .supply s => (g.supplies.get s).uses

/-- The owner exists. -/
def HasOwner (g : Graph) : Owner → Prop
  | .ingredient i => g.ingredients.Has i
  | .supply s => g.supplies.Has s

theorem Linked.registered_eq {g g' : Graph} {us : List (Ref .use)} {as : List Use} {o : Owner}
    (h : Linked g g' us as) (ho : g.HasOwner o) :
    g'.registered o = g.registered o ++ g'.ownedBy o us := by
  cases o with
  | ingredient i =>
      obtain ⟨a, ha⟩ := Option.isSome_iff_exists.mp ho
      have hget := h.ingredients i
      rw [ha, Option.map_some] at hget
      simp only [registered, Shelf.get_of_get? ha, Shelf.get_of_get? hget]
      rfl
  | supply s =>
      obtain ⟨a, ha⟩ := Option.isSome_iff_exists.mp ho
      have hget := h.supplies s
      rw [ha, Option.map_some] at hget
      simp only [registered, Shelf.get_of_get? ha, Shelf.get_of_get? hget]
      rfl

end Graph

namespace Build

open Cookbook.Graph (Linked Keeps)

theorem unscaled_of_useOf? {index : Index} {v : Value} {use : Use}
    (h : useOf? index v = some use) : use.unscaled = use := by
  obtain ⟨id, owner, -, -, rfl⟩ := useOf?_inv h
  rfl

theorem portions_of_useOf? {index : Index} {v : Value} {use : Use}
    (h : useOf? index v = some use) : use.portions = .int 1 := by
  rw [← unscaled_of_useOf? h]
  rfl

/-! ### One side -/

/-- The ingredients of a recipe, or its supplies: where the entries of a step are, where a step has
the uses, and which owners they can have. -/
structure Side where
  key : String
  field : Step → List (Ref .use)
  owners : List Owner
  index : Index
  field_detached : ∀ s : Step, field s.detached = field s
  index_owners : ∀ o ∈ index.map Prod.snd, o ∈ owners

/-- One side of the graph after the steps `ss` were made from the records `vs`. -/
structure Sharing (g : Graph) (d : Side) (vs : List Value) (ss : List (Ref .step)) : Prop where
  registered : ∀ o ∈ d.owners,
    g.registered o = ss.flatMap fun s => g.ownedBy o (d.field (g.steps.get s))
  has_use : ∀ s ∈ ss, ∀ u ∈ d.field (g.steps.get s), g.uses.Has u
  owner_mem : ∀ s ∈ ss, ∀ u ∈ d.field (g.steps.get s), (g.uses.get u).owner ∈ d.owners
  entries : ss.map (fun s => (d.field (g.steps.get s)).map fun u => (g.uses.get u).unscaled) =
    vs.map fun v => (v.listed d.key).filterMap (useOf? d.index)

variable {g g' : Graph} {d : Side} {v : Value} {vs : List Value} {ss : List (Ref .step)}

theorem Side.field_eq (d : Side) (hk : Keeps g g') {s : Ref .step} (hs : g.steps.Has s) :
    d.field (g'.steps.get s) = d.field (g.steps.get s) := by
  rw [← d.field_detached, hk.steps.get hs, d.field_detached]

/-- Uses that entries of a side describe are of its owners. -/
theorem Side.owner_mem (d : Side) {us : List (Ref .use)}
    (h : us.map g.uses.get = vs.filterMap (useOf? d.index)) :
    ∀ u ∈ us, (g.uses.get u).owner ∈ d.owners := by
  intro u hu
  have hmem : g.uses.get u ∈ vs.filterMap (useOf? d.index) := by
    rw [← h]
    exact List.mem_map_of_mem hu
  obtain ⟨w, -, hw⟩ := List.mem_filterMap.mp hmem
  exact d.index_owners _ (owner_mem_of_useOf? hw)

/-- Uses that entries of a side describe are of no other owner. -/
theorem Side.ownedBy_eq_nil (d : Side) {us : List (Ref .use)}
    (h : us.map g.uses.get = vs.filterMap (useOf? d.index)) {o : Owner} (ho : o ∉ d.owners) :
    g.ownedBy o us = [] := by
  refine Graph.ownedBy_eq_nil fun u hu heq => ho ?_
  rw [← heq]
  exact d.owner_mem h u hu

namespace Sharing

theorem nil (h : ∀ o ∈ d.owners, g.registered o = []) : Sharing g d [] [] where
  registered := h
  has_use := by simp
  owner_mem := by simp
  entries := rfl

/-- The uses of an owner in steps that exist stay the same. -/
theorem flatMap_ownedBy_eq (h : Sharing g d vs ss) (hss : ∀ s ∈ ss, g.steps.Has s)
    (hk : Keeps g g') (o : Owner) :
    (ss.flatMap fun s => g'.ownedBy o (d.field (g'.steps.get s))) =
      ss.flatMap fun s => g.ownedBy o (d.field (g.steps.get s)) := by
  refine List.flatMap_congr fun s hs => ?_
  rw [d.field_eq hk (hss s hs)]
  exact Graph.ownedBy_congr (fun u hu => hk.owner_eq (h.has_use s hs u hu)) o

/-- Steps that exist keep the uses that their records describe. -/
theorem entries_eq (h : Sharing g d vs ss) (hss : ∀ s ∈ ss, g.steps.Has s) (hk : Keeps g g') :
    ss.map (fun s => (d.field (g'.steps.get s)).map fun u => (g'.uses.get u).unscaled) =
      vs.map fun v => (v.listed d.key).filterMap (useOf? d.index) := by
  rw [← h.entries]
  refine List.map_congr_left fun s hs => ?_
  rw [d.field_eq hk (hss s hs)]
  exact List.map_congr_left fun u hu => hk.uses.get (h.has_use s hs u hu)

/-- The uses of an owner are those that entries describe, of this owner. -/
theorem map_registered (h : Sharing g d vs ss) {o : Owner} (ho : o ∈ d.owners) :
    (g.registered o).map (fun u => (g.uses.get u).unscaled) =
      ((vs.flatMap (·.listed d.key)).filterMap (useOf? d.index)).filter (·.owner = o) := by
  have hstep (s : Ref .step) :
      (g.ownedBy o (d.field (g.steps.get s))).map (fun u => (g.uses.get u).unscaled) =
        ((d.field (g.steps.get s)).map fun u => (g.uses.get u).unscaled).filter
          (·.owner = o) := by
    rw [List.filter_map]
    rfl
  rw [h.registered o ho, List.map_flatMap, List.filterMap_flatMap, List.filter_flatMap]
  simp only [hstep]
  rw [← List.flatMap_map, h.entries, List.flatMap_map]

theorem owner_of_registered (h : Sharing g d vs ss) {o : Owner} (ho : o ∈ d.owners)
    {u : Ref .use} (hu : u ∈ g.registered o) : (g.uses.get u).owner = o := by
  rw [h.registered o ho] at hu
  obtain ⟨s, -, howned⟩ := List.mem_flatMap.mp hu
  simpa using (List.mem_filter.mp howned).2

/-- No use is registered twice, neither with one owner nor with two. -/
theorem nodup_registered (h : Sharing g d vs ss) (howners : d.owners.Nodup)
    (hnodup : (ss.flatMap fun s => d.field (g.steps.get s)).Nodup) :
    (d.owners.flatMap g.registered).Nodup := by
  refine List.nodup_flatMap.mpr ⟨fun o ho => ?_, howners.imp_of_mem fun ho ho' hne u hu hu' => ?_⟩
  · have hfilter : g.registered o = g.ownedBy o (ss.flatMap fun s => d.field (g.steps.get s)) := by
      rw [h.registered o ho]
      exact List.filter_flatMap.symm
    rw [hfilter]
    exact hnodup.filter _
  · exact hne ((h.owner_of_registered ho hu).symm.trans (h.owner_of_registered ho' hu'))

theorem mem_step_of_registered (h : Sharing g d vs ss) {o : Owner} (ho : o ∈ d.owners)
    {u : Ref .use} (hu : u ∈ g.registered o) : ∃ s ∈ ss, u ∈ d.field (g.steps.get s) := by
  rw [h.registered o ho] at hu
  obtain ⟨s, hs, howned⟩ := List.mem_flatMap.mp hu
  exact ⟨s, hs, (List.mem_filter.mp howned).1⟩

/-- Every use of a step is registered with its owner. -/
theorem mem_registered (h : Sharing g d vs ss) {s : Ref .step} (hs : s ∈ ss) {u : Ref .use}
    (hu : u ∈ d.field (g.steps.get s)) : u ∈ g.registered (g.uses.get u).owner := by
  rw [h.registered _ (h.owner_mem s hs u hu)]
  refine List.mem_flatMap.mpr ⟨s, hs, List.mem_filter.mpr ⟨hu, ?_⟩⟩
  exact decide_eq_true rfl

theorem has_registered (h : Sharing g d vs ss) {o : Owner} (ho : o ∈ d.owners) {u : Ref .use}
    (hu : u ∈ g.registered o) : g.uses.Has u := by
  obtain ⟨s, hs, hmem⟩ := h.mem_step_of_registered ho hu
  exact h.has_use s hs u hmem

theorem of_keeps (h : Sharing g d vs ss) (hss : ∀ s ∈ ss, g.steps.Has s) (hk : Keeps g g')
    (hregistered : ∀ o ∈ d.owners, g'.registered o = g.registered o) : Sharing g' d vs ss where
  registered := by
    intro o ho
    rw [hregistered o ho, h.registered o ho, h.flatMap_ownedBy_eq hss hk]
  has_use := by
    intro s hs u hu
    rw [d.field_eq hk (hss s hs)] at hu
    exact hk.uses.has (h.has_use s hs u hu)
  owner_mem := by
    intro s hs u hu
    rw [d.field_eq hk (hss s hs)] at hu
    rw [hk.owner_eq (h.has_use s hs u hu)]
    exact h.owner_mem s hs u hu
  entries := h.entries_eq hss hk

/-- One more step. Of the uses that were linked for it, those of this side are the step's, and no
other is of an owner on this side. -/
theorem snoc {g₂ : Graph} {us : List (Ref .use)} {as : List Use} {step : Step}
    (h : Sharing g d vs ss) (hss : ∀ s ∈ ss, g.steps.Has s)
    (howners : ∀ o ∈ d.owners, g.HasOwner o) (hl : Linked g g₂ us as)
    (hfield : ∀ u ∈ d.field step, u ∈ us)
    (hrest : ∀ o ∈ d.owners, g₂.ownedBy o us = g₂.ownedBy o (d.field step))
    (hentries : (d.field step).map g₂.uses.get =
      (v.listed d.key).filterMap (useOf? d.index)) :
    Sharing (g₂.addStep step).1 d (vs ++ [v]) (ss ++ [g₂.steps.next]) := by
  have hk : Keeps g (g₂.addStep step).1 := (Keeps.of_linked hl).trans (.of_addStep g₂ step)
  have hnew : d.field ((g₂.addStep step).1.steps.get g₂.steps.next) = d.field step := by
    rw [g₂.get_steps_addStep, d.field_detached]
  constructor
  case registered =>
    intro o ho
    -- An owner gains its uses at the end, where the new step is.
    have hgained : (g₂.addStep step).1.registered o =
        g.registered o ++ g₂.ownedBy o (d.field step) := by
      rw [← hrest o ho]
      exact hl.registered_eq (howners o ho)
    rw [hgained, h.registered o ho, List.flatMap_append, List.flatMap_singleton, hnew,
      h.flatMap_ownedBy_eq hss hk]
    rfl
  case has_use =>
    intro s hs u hu
    rcases List.mem_append.mp hs with hs | hs
    · rw [d.field_eq hk (hss s hs)] at hu
      exact hk.uses.has (h.has_use s hs u hu)
    · rw [List.mem_singleton.mp hs, hnew] at hu
      exact hl.uses.has (hfield u hu)
  case owner_mem =>
    intro s hs u hu
    rcases List.mem_append.mp hs with hs | hs
    · rw [d.field_eq hk (hss s hs)] at hu
      rw [hk.owner_eq (h.has_use s hs u hu)]
      exact h.owner_mem s hs u hu
    · rw [List.mem_singleton.mp hs, hnew] at hu
      exact d.owner_mem hentries u hu
  case entries =>
    have hunscaled : (d.field step).map (fun u => (g₂.uses.get u).unscaled) =
        (v.listed d.key).filterMap (useOf? d.index) := by
      rw [← hentries]
      refine List.map_congr_left fun u hu => ?_
      have hmem : g₂.uses.get u ∈ (v.listed d.key).filterMap (useOf? d.index) := by
        rw [← hentries]
        exact List.mem_map_of_mem hu
      obtain ⟨w, -, hw⟩ := List.mem_filterMap.mp hmem
      exact unscaled_of_useOf? hw
    rw [List.map_append, List.map_append, h.entries_eq hss hk, List.map_singleton,
      List.map_singleton, hnew, ← hunscaled]
    rfl

end Sharing

/-! ### Both sides -/

/-- The ingredients of a recipe. -/
def ingredientSide (g : Graph) (is : List (Ref .ingredient)) : Side where
  key := "useIngredients"
  field := Step.useIngredients
  owners := is.map .ingredient
  index := Index.lastWins (is.map fun i => ((g.ingredients.get i).id, .ingredient i))
  field_detached := fun _ => rfl
  index_owners := by simp [Index.lastWins]

/-- The supplies of a recipe. -/
def supplySide (g : Graph) (is : List (Ref .supply)) : Side where
  key := "useSupplies"
  field := Step.useSupplies
  owners := is.map .supply
  index := Index.lastWins (is.map fun i => ((g.supplies.get i).id, .supply i))
  field_detached := fun _ => rfl
  index_owners := by simp [Index.lastWins]

theorem ingredientSide_eq {is : List (Ref .ingredient)} (hk : Keeps g g')
    (his : ∀ i ∈ is, g.ingredients.Has i) : ingredientSide g' is = ingredientSide g is := by
  have hmap : is.map (fun i => ((g'.ingredients.get i).id, Owner.ingredient i)) =
      is.map fun i => ((g.ingredients.get i).id, .ingredient i) :=
    List.map_congr_left fun i hi => by rw [hk.ingredient_id_eq (his i hi)]
  simp only [ingredientSide, hmap]

theorem supplySide_eq {is : List (Ref .supply)} (hk : Keeps g g')
    (his : ∀ i ∈ is, g.supplies.Has i) : supplySide g' is = supplySide g is := by
  have hmap : is.map (fun i => ((g'.supplies.get i).id, Owner.supply i)) =
      is.map fun i => ((g.supplies.get i).id, .supply i) :=
    List.map_congr_left fun i hi => by rw [hk.supply_id_eq (his i hi)]
  simp only [supplySide, hmap]

theorem not_mem_of_mem_ingredients {is : List (Ref .ingredient)} {js : List (Ref .supply)}
    {o : Owner} (hi : o ∈ is.map Owner.ingredient) : o ∉ js.map Owner.supply := by
  intro hj
  obtain ⟨i, -, rfl⟩ := List.mem_map.mp hi
  obtain ⟨j, -, hj⟩ := List.mem_map.mp hj
  cases hj

/-- The graph after the steps `ss` of a recipe with ingredients `is` and supplies `js` were made
from the records `vs`. -/
structure Shared (g : Graph) (is : List (Ref .ingredient)) (js : List (Ref .supply))
    (vs : List Value) (ss : List (Ref .step)) : Prop where
  ingredients : Sharing g (ingredientSide g is) vs ss
  supplies : Sharing g (supplySide g js) vs ss
  nodup : (ss.flatMap fun s => (g.steps.get s).uses).Nodup
  has_ingredient : ∀ i ∈ is, g.ingredients.Has i
  has_supply : ∀ j ∈ js, g.supplies.Has j
  has_step : ∀ s ∈ ss, g.steps.Has s

/-- All uses in these steps are for one portion. -/
def Unscaled (g : Graph) (ss : List (Ref .step)) : Prop :=
  ∀ s ∈ ss, ∀ u ∈ (g.steps.get s).uses, (g.uses.get u).portions = .int 1

namespace Shared

variable {is : List (Ref .ingredient)} {js : List (Ref .supply)}

theorem has_use (h : Shared g is js vs ss) {s : Ref .step} (hs : s ∈ ss) {u : Ref .use}
    (hu : u ∈ (g.steps.get s).uses) : g.uses.Has u := by
  rcases List.mem_append.mp hu with hu | hu
  · exact h.ingredients.has_use s hs u hu
  · exact h.supplies.has_use s hs u hu

/-- No use is registered twice, neither with one owner nor with two. -/
theorem nodup_registered (h : Shared g is js vs ss) (his : is.Nodup) (hjs : js.Nodup) :
    ((is.flatMap fun i => (g.ingredients.get i).uses) ++
      js.flatMap fun j => (g.supplies.get j).uses).Nodup := by
  have hi : (is.flatMap fun i => (g.ingredients.get i).uses) =
      (is.map Owner.ingredient).flatMap g.registered := by
    rw [List.flatMap_map]
    rfl
  have hj : (js.flatMap fun j => (g.supplies.get j).uses) =
      (js.map Owner.supply).flatMap g.registered := by
    rw [List.flatMap_map]
    rfl
  rw [hi, hj]
  refine List.nodup_append.mpr ⟨?_, ?_, ?_⟩
  · refine h.ingredients.nodup_registered ?_ (h.nodup.sublist ?_)
    · exact his.map fun i i' heq => Owner.ingredient.inj heq
    · exact List.Sublist.flatMap_right ss fun s _ => List.sublist_append_left _ _
  · refine h.supplies.nodup_registered ?_ (h.nodup.sublist ?_)
    · exact hjs.map fun j j' heq => Owner.supply.inj heq
    · exact List.Sublist.flatMap_right ss fun s _ => List.sublist_append_right _ _
  · rintro u hu _ hu' rfl
    obtain ⟨o, ho, hregistered⟩ := List.mem_flatMap.mp hu
    obtain ⟨o', ho', hregistered'⟩ := List.mem_flatMap.mp hu'
    have heq : o' = o := (h.supplies.owner_of_registered ho' hregistered').symm.trans
      (h.ingredients.owner_of_registered ho hregistered)
    exact not_mem_of_mem_ingredients ho (heq ▸ ho')

theorem flatMap_uses_eq (h : Shared g is js vs ss) (hk : Keeps g g') :
    (ss.flatMap fun s => (g'.steps.get s).uses) = ss.flatMap fun s => (g.steps.get s).uses := by
  refine List.flatMap_congr fun s hs => ?_
  rw [Step.uses, Step.uses, hk.useIngredients_eq (h.has_step s hs),
    hk.useSupplies_eq (h.has_step s hs)]

/-- Attaching steps and scaling uses keep the invariant. -/
theorem of_keeps (h : Shared g is js vs ss) (hk : Keeps g g')
    (hi : g'.ingredients = g.ingredients) (hj : g'.supplies = g.supplies) :
    Shared g' is js vs ss where
  ingredients := by
    rw [ingredientSide_eq hk h.has_ingredient]
    refine h.ingredients.of_keeps h.has_step hk fun o ho => ?_
    obtain ⟨i, -, rfl⟩ := List.mem_map.mp ho
    rw [Graph.registered, Graph.registered, hi]
  supplies := by
    rw [supplySide_eq hk h.has_supply]
    refine h.supplies.of_keeps h.has_step hk fun o ho => ?_
    obtain ⟨j, -, rfl⟩ := List.mem_map.mp ho
    rw [Graph.registered, Graph.registered, hj]
  nodup := by
    rw [h.flatMap_uses_eq hk]
    exact h.nodup
  has_ingredient := fun i hi => hk.ingredients.has (h.has_ingredient i hi)
  has_supply := fun j hj => hk.supplies.has (h.has_supply j hj)
  has_step := fun s hs => hk.steps.has (h.has_step s hs)

theorem nil (his : ∀ i ∈ is, g.ingredients.Has i) (hjs : ∀ j ∈ js, g.supplies.Has j)
    (hui : ∀ i ∈ is, (g.ingredients.get i).uses = [])
    (huj : ∀ j ∈ js, (g.supplies.get j).uses = []) : Shared g is js [] [] where
  ingredients := by
    refine .nil fun o ho => ?_
    obtain ⟨i, hi, rfl⟩ := List.mem_map.mp ho
    exact hui i hi
  supplies := by
    refine .nil fun o ho => ?_
    obtain ⟨j, hj, rfl⟩ := List.mem_map.mp ho
    exact huj j hj
  nodup := List.nodup_nil
  has_ingredient := his
  has_supply := hjs
  has_step := by simp

/-- Making one more step keeps the invariant, and all objects that exist. -/
theorem step {ws : List Warning} {s : Ref .step} (h : Shared g is js vs ss)
    (hstep : Build.step (ingredientSide g is).index (supplySide g js).index v g =
      (⟨ws, .ok s⟩, g')) :
    v.IsRecord ∧ Keeps g g' ∧ Shared g' is js (vs ++ [v]) (ss ++ [s]) := by
  obtain ⟨hrecord, g₁, g₂, made, hl, hl', hadd⟩ := step_inv hstep
  obtain rfl : g' = (g₂.addStep made).1 := congrArg Prod.fst hadd
  obtain rfl : s = g₂.steps.next := congrArg Prod.snd hadd
  have hboth : Linked g g₂ made.uses _ := hl.trans hl'
  have hk : Keeps g (g₂.addStep made).1 := (Keeps.of_linked hboth).trans (.of_addStep g₂ made)
  have hread : made.useIngredients.map g₂.uses.get =
      (v.listed "useIngredients").filterMap (useOf? (ingredientSide g is).index) := by
    rw [← hl.uses.map_get]
    exact List.map_congr_left fun u hu => Shelf.get_congr (hl'.uses.kept u (hl.uses.has hu))
  -- The uses of either kind are of no owner of the other kind.
  have hingredient : ∀ o ∈ is.map Owner.ingredient, g₂.ownedBy o made.useSupplies = [] :=
    fun o ho =>
      (supplySide g js).ownedBy_eq_nil hl'.uses.map_get (not_mem_of_mem_ingredients ho)
  have hsupply : ∀ o ∈ js.map Owner.supply, g₂.ownedBy o made.useIngredients = [] :=
    fun o ho => (ingredientSide g is).ownedBy_eq_nil hread fun ho' =>
      not_mem_of_mem_ingredients ho' ho
  refine ⟨hrecord, hk, ?_⟩
  constructor
  case ingredients =>
    rw [ingredientSide_eq hk h.has_ingredient]
    refine h.ingredients.snoc h.has_step ?_ hboth ?_ ?_ hread
    · intro o ho
      obtain ⟨i, hi, rfl⟩ := List.mem_map.mp ho
      exact h.has_ingredient i hi
    · exact fun u hu => List.mem_append_left made.useSupplies hu
    · intro o ho
      rw [Step.uses, Graph.ownedBy_append, hingredient o ho, List.append_nil]
      rfl
  case supplies =>
    rw [supplySide_eq hk h.has_supply]
    refine h.supplies.snoc h.has_step ?_ hboth ?_ ?_ hl'.uses.map_get
    · intro o ho
      obtain ⟨j, hj, rfl⟩ := List.mem_map.mp ho
      exact h.has_supply j hj
    · exact fun u hu => List.mem_append_right made.useIngredients hu
    · intro o ho
      rw [Step.uses, Graph.ownedBy_append, hsupply o ho, List.nil_append]
      rfl
  case nodup =>
    have hnew : ((g₂.addStep made).1.steps.get g₂.steps.next).uses = made.uses := by
      rw [g₂.get_steps_addStep]
      rfl
    rw [List.flatMap_append, List.flatMap_singleton, hnew, h.flatMap_uses_eq hk]
    refine List.nodup_append.mpr ⟨h.nodup, hboth.uses.nodup, ?_⟩
    rintro a ha b hb rfl
    obtain ⟨s, hs, hu⟩ := List.mem_flatMap.mp ha
    exact hboth.uses.fresh a hb (h.has_use hs hu)
  case has_ingredient => exact fun i hi => hk.ingredients.has (h.has_ingredient i hi)
  case has_supply => exact fun j hj => hk.supplies.has (h.has_supply j hj)
  case has_step =>
    intro s hs
    rcases List.mem_append.mp hs with hs | hs
    · exact hk.steps.has (h.has_step s hs)
    · rw [List.mem_singleton.mp hs]
      exact Shelf.has_of_get? (g₂.steps.get?_add_next made.detached)

/-- One more step keeps the uses of the others as they are, and its own are for one portion. -/
theorem unscaled_step {ws : List Warning} {s : Ref .step} (h : Shared g is js vs ss)
    (hu : Unscaled g ss)
    (hstep : Build.step (ingredientSide g is).index (supplySide g js).index v g =
      (⟨ws, .ok s⟩, g')) :
    Unscaled g' (ss ++ [s]) := by
  obtain ⟨-, g₁, g₂, made, hl, hl', hadd⟩ := step_inv hstep
  obtain rfl : g' = (g₂.addStep made).1 := congrArg Prod.fst hadd
  obtain rfl : s = g₂.steps.next := congrArg Prod.snd hadd
  have hboth : Linked g g₂ made.uses _ := hl.trans hl'
  intro s hs u huse
  show (g₂.uses.get u).portions = .int 1
  rcases List.mem_append.mp hs with hs | hs
  · have hstep : (g₂.addStep made).1.steps.get s = g.steps.get s := by
      have hhas : g₂.steps.Has s := by
        rw [hboth.steps]
        exact h.has_step s hs
      rw [← hboth.steps]
      exact Shelf.get_congr (Shelf.get?_add_of_has hhas _)
    rw [hstep] at huse
    rw [Shelf.get_congr (hboth.uses.kept u (h.has_use hs huse))]
    exact hu s hs u huse
  · rw [List.mem_singleton.mp hs, g₂.get_steps_addStep] at huse
    refine hboth.uses.forall_get (P := fun use => use.portions = .int 1) ?_ u huse
    intro use hmem
    rcases List.mem_append.mp hmem with hmem | hmem
    · obtain ⟨w, -, hw⟩ := List.mem_filterMap.mp hmem
      exact portions_of_useOf? hw
    · obtain ⟨w, -, hw⟩ := List.mem_filterMap.mp hmem
      exact portions_of_useOf? hw

/-- Making all steps keeps the invariant, and all objects that exist. -/
theorem steps {ws : List Warning} {vs' : List Value} {ss' : List (Ref .step)}
    (h : Shared g is js vs ss) (hu : Unscaled g ss)
    (hsteps : Build.steps (ingredientSide g is).index (supplySide g js).index vs' g =
      (⟨ws, .ok ss'⟩, g')) :
    (∀ v ∈ vs', v.IsRecord) ∧ Keeps g g' ∧ Shared g' is js (vs ++ vs') (ss ++ ss') ∧
      Unscaled g' (ss ++ ss') := by
  induction vs' generalizing g vs ss ws ss' with
  | nil =>
      obtain ⟨rfl, rfl, rfl⟩ := Work.pure_inv hsteps
      rw [List.append_nil, List.append_nil]
      exact ⟨by simp, .refl g', h, hu⟩
  | cons v vs' ih =>
      obtain ⟨ws₁, s, g₁, ws₂, ss', hstep, hrest, rfl, rfl⟩ := Work.mapM'_cons_inv hsteps
      obtain ⟨hrecord, hk, hshared⟩ := h.step hstep
      have hu' := h.unscaled_step hu hstep
      -- The ids of the owners are what they were, so the later steps look them up as this one did.
      rw [← ingredientSide_eq hk h.has_ingredient, ← supplySide_eq hk h.has_supply] at hrest
      obtain ⟨hrecords, hk', hshared', hu''⟩ := ih hshared hu' hrest
      rw [List.append_assoc, List.append_assoc] at hshared'
      rw [List.append_assoc] at hu''
      exact ⟨List.forall_mem_cons.mpr ⟨hrecord, hrecords⟩, hk.trans hk', hshared', hu''⟩

end Shared

end Build

end Cookbook
