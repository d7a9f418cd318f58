import Cookbook.Proofs.Build.Entries
/-!
# Cookbook.Proofs.Build.SameId

Ids that are the same. The id of an ingredient or a supply is put into words as it is read, but the
id of an entry is looked up as it is, and nothing other than a text is found. So it depends on the
kind of the id what becomes of an entry that has the same one as a record (`SameId`): if it is a
text the entry is linked, and if it is a number the entry is reported, although there is an owner
with the very id that the warning names (`same_id_linked_or_reported`).
-/

namespace Cookbook

/-- Whether a value is a number as it may stand in a file. -/
def Value.isNumber : Value → Bool
  | int _ | float _ => true
  | _ => false

namespace Build

/-- The owners are found by their ids, and nothing else is. -/
structure Finds (g : Graph) (owners : List Owner) (find : String → Option Owner) : Prop where
  sound : ∀ id o, find id = some o → o ∈ owners ∧ g.ownerId o = id
  complete : ∀ o ∈ owners, find (g.ownerId o) ≠ none

/-- What becomes of an entry that has the id of a record. In either case the recipe has an owner
with this id. Where the id is a text the entry is linked, by a use that is registered with such an
owner; where it is a number the entry is reported, as if there were none. -/
structure SameId (g : Graph) (owners : List Owner) (records : List Value)
    (unknown : String → String → Warning) (name : String) (e : Value) (fate : Fate) : Prop where
  text : ∀ a ∈ records, ∀ id, a.atKey "id" = .text id → e.atKey "belongsToId" = .text id →
    ∃ o ∈ owners, g.ownerId o = id ∧
      ∃ u ∈ g.registered o, (g.uses.get u).owner = o ∧ fate = .linked u
  number : ∀ a ∈ records, (a.atKey "id").isNumber = true →
    e.atKey "belongsToId" = a.atKey "id" →
    ∃ o ∈ owners, (a.atKey "id").write = .ok (g.ownerId o) ∧
      fate = .reported (unknown name (g.ownerId o))

variable {find : String → Option Owner} {unknown : String → String → Warning} {name : String}
  {owners : List Owner} {as : List Value} {g g' : Graph} {v p e : Value} {ws : List Warning}
  {r : Ref .recipe} {fate : Fate}

/-! ### Owners and their records -/

theorem finds_last {α : Type} {id : α → String} {owner : α → Owner}
    (hid : ∀ x, g.ownerId (owner x) = id x) (xs : List α) :
    Finds g (xs.map owner) fun key => (xs.filter fun x => id x == key).getLast?.map owner where
  sound := by
    intro key o hfind
    obtain ⟨x, hlast, rfl⟩ := Option.map_eq_some_iff.mp hfind
    obtain ⟨hx, hkey⟩ := List.mem_filter.mp (List.mem_of_getLast? hlast)
    exact ⟨List.mem_map_of_mem hx, (hid x).trans (eq_of_beq hkey)⟩
  complete := by
    intro o ho hnone
    obtain ⟨x, hx, rfl⟩ := List.mem_map.mp ho
    have hempty := List.getLast?_eq_none_iff.mp (Option.map_eq_none_iff.mp hnone)
    exact List.filter_eq_nil_iff.mp hempty x hx (beq_iff_eq.mpr (hid x).symm)

/-- Where owners were read from a list of records, there is one with the id of each record in
words. -/
theorem exists_owner_of_record {α : Type} {kind : Kind} {key : String}
    {describe : Value → Except Fault α} {rs : List (Ref kind)} {stored : Ref kind → α}
    {owner : Ref kind → Owner} (hread : records v key describe = .ok (rs.map stored))
    (hrecord : ∀ a x, describe a = .ok x → a.IsRecord)
    (hid : ∀ a x, describe a = .ok (stored x) → textField a "id" = .ok (g.ownerId (owner x))) :
    ∀ a ∈ v.listed key, ∃ o ∈ rs.map owner, textField a "id" = .ok (g.ownerId o) := by
  intro a ha
  obtain ⟨_, hmem, hdescribe⟩ := mem_records hrecord hread ha
  obtain ⟨x, hx, rfl⟩ := List.mem_map.mp hmem
  exact ⟨owner x, List.mem_map_of_mem hx, hid a x hdescribe⟩

/-- For every record of an ingredient the recipe has one with the id of the record in words. -/
theorem Built.ingredient_of_record (h : Built v p g r) :
    ∀ a ∈ v.listed "ingredients", ∃ o ∈ (g.recipes.get r).ingredients.map Owner.ingredient,
      textField a "id" = .ok (g.ownerId o) :=
  exists_owner_of_record h.ingredients isRecord_of_ingredient fun _ _ hread =>
    (ingredient_inv hread).1

/-- For every record of a supply the recipe has one with the id of the record in words. -/
theorem Built.supply_of_record (h : Built v p g r) :
    ∀ a ∈ v.listed "supplies", ∃ o ∈ (g.recipes.get r).supplies.map Owner.supply,
      textField a "id" = .ok (g.ownerId o) :=
  exists_owner_of_record h.supplies isRecord_of_supply fun _ _ hread => (supply_inv hread).1

/-! ### Entries with the id of a record -/

theorem Fated.sameId (h : Fated g find unknown name e fate) (hfinds : Finds g owners find)
    (has : ∀ a ∈ as, ∃ o ∈ owners, textField a "id" = .ok (g.ownerId o))
    (hregistered : ∀ u, fate = .linked u → u ∈ g.registered (g.uses.get u).owner) :
    SameId g owners as unknown name e fate where
  text := by
    intro a ha id hid he
    cases h with
    | linked hid' _ howner _ =>
        obtain rfl := Value.text.inj (he.symm.trans hid')
        obtain ⟨hmem, hown⟩ := hfinds.sound id _ howner
        exact ⟨_, hmem, hown, _, hregistered _ rfl, rfl, rfl⟩
    | reported hnone _ =>
        obtain ⟨o, ho, htext⟩ := has a ha
        rw [textField_of_ne_null (by rw [hid]; exact Value.noConfusion), hid] at htext
        obtain rfl : id = g.ownerId o := Except.ok.inj htext
        exact absurd (hnone _ he) (hfinds.complete o ho)
  number := by
    intro a ha hnumber he
    obtain ⟨o, ho, htext⟩ := has a ha
    have hgiven : a.atKey "id" ≠ .null := by
      intro hnull
      rw [hnull] at hnumber
      cases hnumber
    rw [textField_of_ne_null hgiven] at htext
    cases h with
    | linked hid _ _ _ =>
        rw [← he, hid] at hnumber
        cases hnumber
    | reported _ hid =>
        rw [he, htext] at hid
        obtain rfl := Except.ok.inj hid
        exact ⟨o, ho, htext, rfl⟩

/-- The uses of one side of a step, and so of the entries of its record that are linked, are
registered with their owners. -/
theorem Sharing.sameId {d : Side} {vs : List Value} {ss : List (Ref .step)} {s : Ref .step}
    {es : List Value} {fates : List Fate} (h : Sharing g d vs ss) (hs : s ∈ ss)
    (hfinds : Finds g d.owners find)
    (has : ∀ a ∈ as, ∃ o ∈ d.owners, textField a "id" = .ok (g.ownerId o))
    (huses : d.field (g.steps.get s) = fates.filterMap Fate.use?)
    (hfated : List.Forall₂ (Fated g find unknown name) es fates) :
    List.Forall₂ (SameId g d.owners as unknown name) es fates := by
  have hmem : List.Forall₂
      (fun e fate => fate ∈ fates ∧ Fated g find unknown name e fate) es fates :=
    ((List.forall₂_and_left _ _).mpr ⟨fun _ hfate => hfate, hfated.flip⟩).flip
  refine hmem.imp fun e fate hfate => hfate.2.sameId hfinds has ?_
  rintro u rfl
  refine h.mem_registered hs ?_
  rw [huses]
  exact List.mem_filterMap.mpr ⟨_, hfate.1, rfl⟩

/-- **The same id.** However a recipe was made from a record, an entry that has the same text for an
id as the record of an ingredient (or of a supply) is linked to one that has this id, which counts
the use. An entry that has the same number is never linked: it is reported, step by step and in
order, and the warning names the id of an ingredient (or of a supply) that the recipe has. -/
theorem same_id_linked_or_reported (h : recipe v p g = (⟨ws, .ok r⟩, g')) :
    InOrder (Accounted g'
        (SameId g' ((g'.recipes.get r).ingredients.map .ingredient) (v.listed "ingredients")
          .unknownIngredient)
        (SameId g' ((g'.recipes.get r).supplies.map .supply) (v.listed "supplies") .unknownSupply))
      (v.listed "steps") (g'.recipes.get r).steps ws := by
  have hbuilt : Built v p g' r := recipe_built h
  refine (recipe_inOrder h).imp fun s hs w ws' haccounted => ?_
  obtain ⟨hhas, hname, fates, fates', hfated, hfated', huses, huses', hws⟩ := haccounted
  refine ⟨hhas, hname, fates, fates', ?_, ?_, huses, huses', hws⟩
  · exact hbuilt.shared.ingredients.sameId hs (finds_last (fun _ => rfl) _)
      hbuilt.ingredient_of_record huses hfated
  · exact hbuilt.shared.supplies.sameId hs (finds_last (fun _ => rfl) _)
      hbuilt.supply_of_record huses' hfated'

/-- Salt has a number for an id, and pepper a text. A step has an entry for each of them. -/
def numberedSalt : Value :=
  let entry (id amount : Value) : Value := .record [("belongsToId", id), ("amount", amount)]
  .record [
    ("ingredients", .list [.record [("id", .int 5)], .record [("id", .text "pepper")]]),
    ("steps", .list [.record [("name", .text "Season"),
      ("useIngredients", .list [entry (.int 5) (.int 2), entry (.text "pepper") (.int 1)])]])]

/-- The graph of the recipe with salt and pepper. -/
def numberedGraph : Graph := (recipe numberedSalt (.int 1) .empty).2

theorem recipe_numberedSalt :
    recipe numberedSalt (.int 1) .empty =
      (⟨[.unknownIngredient "Season" "5"], .ok ⟨0⟩⟩, numberedGraph) := by
  have hreport : (recipe numberedSalt (.int 1) .empty).1 =
      ⟨[.unknownIngredient "Season" "5"], .ok ⟨0⟩⟩ := rfl
  rw [← hreport]
  rfl

theorem same_id_numberedSalt :
    recipe numberedSalt (.int 1) .empty =
        (⟨[.unknownIngredient "Season" "5"], .ok ⟨0⟩⟩, numberedGraph) ∧
      InOrder (Accounted numberedGraph
          (SameId numberedGraph ((numberedGraph.recipes.get ⟨0⟩).ingredients.map .ingredient)
            (numberedSalt.listed "ingredients") .unknownIngredient)
          (SameId numberedGraph ((numberedGraph.recipes.get ⟨0⟩).supplies.map .supply)
            (numberedSalt.listed "supplies") .unknownSupply))
        (numberedSalt.listed "steps") (numberedGraph.recipes.get ⟨0⟩).steps
        [.unknownIngredient "Season" "5"] :=
  ⟨recipe_numberedSalt, same_id_linked_or_reported recipe_numberedSalt⟩

/-- The entry for salt has the id of salt, and yet no use in the recipe is of an ingredient with
this id; the total of salt does not count it. -/
theorem not_linked_numberedSalt :
    recipe numberedSalt (.int 1) .empty =
        (⟨[.unknownIngredient "Season" "5"], .ok ⟨0⟩⟩, numberedGraph) ∧
      (numberedGraph.ingredients.get ⟨0⟩).id = "5" ∧ numberedGraph.total ⟨0⟩ = .ok (.int 0) ∧
      ¬ ∀ a ∈ numberedSalt.listed "ingredients", ∀ w ∈ numberedSalt.listed "steps",
        ∀ e ∈ w.listed "useIngredients", (a.atKey "id").isText || (a.atKey "id").isNumber →
          e.atKey "belongsToId" = a.atKey "id" →
            ∃ s ∈ (numberedGraph.recipes.get ⟨0⟩).steps,
              ∃ u ∈ (numberedGraph.steps.get s).useIngredients,
                (a.atKey "id").write = .ok (numberedGraph.useId u) := by
  have hsteps : (numberedGraph.recipes.get ⟨0⟩).steps = [⟨0⟩] := rfl
  have huses : (numberedGraph.steps.get ⟨0⟩).useIngredients = [⟨0⟩] := rfl
  have hid : numberedGraph.useId ⟨0⟩ = "pepper" := rfl
  have hwrite : Value.write (.int 5) = .ok "5" := rfl
  refine ⟨recipe_numberedSalt, by rfl, by rfl, fun hlinks => ?_⟩
  obtain ⟨s, hs, u, hu, hlinked⟩ := hlinks _ List.mem_cons_self _ List.mem_cons_self _
    List.mem_cons_self rfl rfl
  rw [hsteps] at hs
  obtain rfl := List.mem_singleton.mp hs
  rw [huses] at hu
  obtain rfl := List.mem_singleton.mp hu
  rw [hid] at hlinked
  have heq : "5" = "pepper" := Except.ok.inj (hwrite.symm.trans hlinked)
  exact absurd heq (by decide)

end Build

end Cookbook
