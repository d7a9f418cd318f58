import Cookbook.Proofs.Build.Record
import Cookbook.Proofs.Graph.Link
import Cookbook.Proofs.Graph.Work
/-!
# Cookbook.Proofs.Build.Uses

The uses of a step from its record. An entry describes a use if its id is a text that names an
owner (`useOf?`); it is linked then, and left out with a warning otherwise (`use_inv`). So the
entries of a step are linked in order, those that describe no use left out (`uses_linked`), and
the step refers to what was linked (`step_inv`).
-/

namespace Cookbook.Build

/-- The use that an entry describes, if its id names an owner. -/
def useOf? (index : Index) (v : Value) : Option Use :=
  match v.atKey "belongsToId" with
  | .text id =>
    (index.lookup id).map fun owner => { amount := (v.atKey "amount").orElse (.int 0), owner }
  | _ => none

/-- Invert the description of a use: the id of the entry is a text, and it names the owner. What is
needed of a use that an entry describes is read off this. -/
theorem useOf?_inv {index : Index} {v : Value} {use : Use} (h : useOf? index v = some use) :
    ∃ id owner, v.atKey "belongsToId" = .text id ∧ index.lookup id = some owner ∧
      use = { amount := (v.atKey "amount").orElse (.int 0), owner } := by
  unfold useOf? at h
  split at h
  · rename_i id hid
    obtain ⟨owner, hlookup, rfl⟩ := Option.map_eq_some_iff.mp h
    exact ⟨id, owner, hid, hlookup, rfl⟩
  · cases h

/-- A use is of an owner that the index has. -/
theorem owner_mem_of_useOf? {index : Index} {v : Value} {use : Use}
    (h : useOf? index v = some use) : use.owner ∈ index.map Prod.snd := by
  obtain ⟨id, owner, -, hlookup, rfl⟩ := useOf?_inv h
  obtain ⟨before, after, rfl, -⟩ := List.lookup_eq_some_iff.mp hlookup
  simp

theorem useOf?_of_findIn_none {index : Index} {v : Value}
    (h : Value.findIn index (v.atKey "belongsToId") = .ok none) : useOf? index v = none := by
  unfold useOf?
  split
  · rename_i id hid
    rw [hid, Value.findIn_text, Except.ok.injEq] at h
    rw [h]
    rfl
  · rfl

theorem useOf?_of_findIn_some {index : Index} {v : Value} {owner : Owner}
    (h : Value.findIn index (v.atKey "belongsToId") = .ok (some owner)) :
    useOf? index v = some { amount := (v.atKey "amount").orElse (.int 0), owner } := by
  unfold useOf?
  split
  · rename_i id hid
    rw [hid, Value.findIn_text, Except.ok.injEq] at h
    rw [h]
    rfl
  · -- Only a text finds an owner.
    rename_i hne
    unfold Value.findIn at h
    split at h
    · rename_i id hid
      exact absurd hid (hne id)
    · split at h <;> cases h

variable {index : Index} {unknown : String → Warning} {v : Value} {g g' : Graph}
  {ws : List Warning}

theorem linkUse_inv {owner : Owner} {amount : Value} {u : Ref .use}
    (h : linkUse owner amount g = (⟨ws, .ok u⟩, g')) :
    ws = [] ∧ u = g.uses.next ∧ g' = g.link { amount, owner } := by
  obtain ⟨ws₁, u', g₁, ws₂, hmake, h₁, rfl⟩ := Work.bind_inv h
  obtain ⟨ws₃, a, g₂, ws₄, hchange, h₂, rfl⟩ := Work.bind_inv h₁
  obtain ⟨rfl, hadd⟩ := Work.make_inv hmake
  obtain ⟨rfl, rfl⟩ := Work.change_inv hchange
  obtain ⟨rfl, rfl, rfl⟩ := Work.pure_inv h₂
  cases hadd
  exact ⟨rfl, rfl, rfl⟩

/-- An entry that was read is left out with a warning, or linked. -/
theorem use_inv {u : Option (Ref .use)} (h : use index unknown v g = (⟨ws, .ok u⟩, g')) :
    v.IsRecord ∧
      ((useOf? index v = none ∧ u = none ∧ g' = g ∧
          ∃ id, (v.atKey "belongsToId").write = .ok id ∧ ws = [unknown id]) ∨
        ∃ a, useOf? index v = some a ∧ u = some g.uses.next ∧ g' = g.link a ∧ ws = []) := by
  obtain ⟨ws₁, id, g₁, ws₂, hid, h₁, rfl⟩ := Work.bind_inv h
  obtain ⟨hid', rfl, rfl⟩ := Work.lift_inv hid
  obtain ⟨hrecord, rfl⟩ := Value.fieldOrNull_inv hid'
  obtain ⟨ws₃, found, g₂, ws₄, hfind, h₂, rfl⟩ := Work.bind_inv h₁
  obtain ⟨hfind', rfl, rfl⟩ := Work.lift_inv hfind
  refine ⟨hrecord, ?_⟩
  cases found with
  | none =>
      -- The id is written for the warning, and the amount is not even read.
      obtain ⟨ws₅, id, g₃, ws₆, hwrite, h₃, rfl⟩ := Work.bind_inv h₂
      obtain ⟨hwrite', rfl, rfl⟩ := Work.lift_inv hwrite
      obtain ⟨ws₇, a, g₄, ws₈, hwarn, h₄, rfl⟩ := Work.bind_inv h₃
      obtain ⟨hwarn', rfl⟩ := Work.report_inv hwarn
      obtain ⟨rfl, rfl, rfl⟩ := Work.pure_inv h₄
      cases hwarn'
      exact Or.inl ⟨useOf?_of_findIn_none hfind', rfl, rfl, id, hwrite', rfl⟩
  | some owner =>
      obtain ⟨ws₅, amount, g₃, ws₆, hamount, h₃, rfl⟩ := Work.bind_inv h₂
      obtain ⟨hamount', rfl, rfl⟩ := Work.lift_inv hamount
      obtain ⟨-, rfl⟩ := Value.fieldOrNull_inv hamount'
      obtain ⟨ws₇, u', g₄, ws₈, hlink, h₄, rfl⟩ := Work.bind_inv h₃
      obtain ⟨rfl, rfl, rfl⟩ := linkUse_inv hlink
      obtain ⟨rfl, rfl, rfl⟩ := Work.pure_inv h₄
      exact Or.inr ⟨_, useOf?_of_findIn_some hfind', rfl, rfl, rfl⟩

/-- Invert the making of uses, at the first entry. -/
theorem uses_cons_inv {vs : List Value} {us : List (Ref .use)}
    (h : uses index unknown (v :: vs) g = (⟨ws, .ok us⟩, g')) :
    ∃ ws₁ u g₁ ws₂ us', use index unknown v g = (⟨ws₁, .ok u⟩, g₁) ∧
      uses index unknown vs g₁ = (⟨ws₂, .ok us'⟩, g') ∧ ws = ws₁ ++ ws₂ ∧ us = u.toList ++ us' := by
  obtain ⟨ws₁, u, g₁, ws₂, huse, h₁, rfl⟩ := Work.bind_inv h
  obtain ⟨ws₃, us', g₂, ws₄, huses, h₂, rfl⟩ := Work.bind_inv h₁
  obtain ⟨rfl, rfl, rfl⟩ := Work.pure_inv h₂
  exact ⟨ws₁, u, g₁, ws₃, us', huse, huses, by rw [List.append_nil], rfl⟩

/-- What is so of every entry that was read is so of all entries of a list that was. -/
theorem forall_of_uses {P : Value → Prop} {vs : List Value} {us : List (Ref .use)}
    (hP : ∀ v g ws u g', use index unknown v g = (⟨ws, .ok u⟩, g') → P v)
    (h : uses index unknown vs g = (⟨ws, .ok us⟩, g')) : ∀ v ∈ vs, P v := by
  induction vs generalizing g ws us with
  | nil => exact List.forall_mem_nil _
  | cons v vs ih =>
      obtain ⟨ws₁, u, g₁, ws₂, us', huse, huses, -, -⟩ := uses_cons_inv h
      exact List.forall_mem_cons.mpr ⟨hP v g ws₁ u g₁ huse, ih huses⟩

/-- The entries that describe uses are linked, in order. -/
theorem uses_linked {vs : List Value} {us : List (Ref .use)}
    (h : uses index unknown vs g = (⟨ws, .ok us⟩, g')) :
    (∀ v ∈ vs, v.IsRecord) ∧ Graph.Linked g g' us (vs.filterMap (useOf? index)) := by
  refine ⟨forall_of_uses (fun v g ws u g' huse => (use_inv huse).1) h, ?_⟩
  induction vs generalizing g ws us with
  | nil =>
      obtain ⟨rfl, rfl, rfl⟩ := Work.pure_inv h
      exact .refl g'
  | cons v vs ih =>
      obtain ⟨ws₁, u, g₁, ws₂, us', huse, huses, rfl, rfl⟩ := uses_cons_inv h
      have hlinked := ih huses
      rcases (use_inv huse).2 with ⟨hnone, rfl, rfl, -⟩ | ⟨a, hsome, rfl, rfl, -⟩
      · rw [List.filterMap_cons_none hnone]
        exact hlinked
      · rw [List.filterMap_cons_some hsome]
        exact (Graph.Linked.single g a).trans hlinked

/-- What is read and made on the way to a step, in order: its name, its uses of ingredients and then
those of supplies, each kind from the entries of its own list, its text, and the step itself. -/
theorem step_run {ingredients supplies : Index} {s : Ref .step}
    (h : step ingredients supplies v g = (⟨ws, .ok s⟩, g')) :
    ∃ made g₁ g₂ ws₁ ws₂, textField v "name" = .ok made.name ∧ textField v "text" = .ok made.text ∧
      (∃ entries, listField v "useIngredients" = .ok entries ∧
        uses ingredients (.unknownIngredient made.name) entries g =
          (⟨ws₁, .ok made.useIngredients⟩, g₁)) ∧
      (∃ entries, listField v "useSupplies" = .ok entries ∧
        uses supplies (.unknownSupply made.name) entries g₁ =
          (⟨ws₂, .ok made.useSupplies⟩, g₂)) ∧
      (g', s) = g₂.addStep made ∧ ws = ws₁ ++ ws₂ := by
  obtain ⟨ws₁, name, g₁, ws₂, hname, h₁, rfl⟩ := Work.bind_inv h
  obtain ⟨hname', rfl, rfl⟩ := Work.lift_inv hname
  obtain ⟨ws₃, entries, g₂, ws₄, hentries, h₂, rfl⟩ := Work.bind_inv h₁
  obtain ⟨hentries', rfl, rfl⟩ := Work.lift_inv hentries
  obtain ⟨ws₅, us, g₃, ws₆, huses, h₃, rfl⟩ := Work.bind_inv h₂
  obtain ⟨ws₇, entries', g₄, ws₈, hsupplies, h₄, rfl⟩ := Work.bind_inv h₃
  obtain ⟨hsupplies', rfl, rfl⟩ := Work.lift_inv hsupplies
  obtain ⟨ws₉, us', g₅, ws₁₀, huses', h₅, rfl⟩ := Work.bind_inv h₄
  obtain ⟨ws₁₁, text, g₆, ws₁₂, htext, h₆, rfl⟩ := Work.bind_inv h₅
  obtain ⟨htext', rfl, rfl⟩ := Work.lift_inv htext
  obtain ⟨rfl, hadd⟩ := Work.make_inv h₆
  refine ⟨{ name, text, useIngredients := us, useSupplies := us' }, _, _, ws₅, ws₉, hname', htext',
    ⟨entries, hentries', huses⟩, ⟨entries', hsupplies', huses'⟩, hadd.symm, ?_⟩
  simp only [List.nil_append, List.append_nil]

/-- A step is made after its uses were linked, and refers to them. -/
theorem step_inv {ingredients supplies : Index} {s : Ref .step}
    (h : step ingredients supplies v g = (⟨ws, .ok s⟩, g')) :
    v.IsRecord ∧ ∃ g₁ g₂ made,
      Graph.Linked g g₁ made.useIngredients
        ((v.listed "useIngredients").filterMap (useOf? ingredients)) ∧
      Graph.Linked g₁ g₂ made.useSupplies
        ((v.listed "useSupplies").filterMap (useOf? supplies)) ∧
      (g', s) = g₂.addStep made := by
  obtain ⟨made, g₁, g₂, ws₁, ws₂, hname, -, ⟨entries, hentries, huses⟩,
    ⟨entries', hentries', huses'⟩, hadd, rfl⟩ := step_run h
  obtain ⟨hrecords, hlinked⟩ := uses_linked huses
  obtain ⟨hrecords', hlinked'⟩ := uses_linked huses'
  rw [listField_eq_listed hentries hrecords] at hlinked
  rw [listField_eq_listed hentries' hrecords'] at hlinked'
  exact ⟨isRecord_of_textField hname, g₁, g₂, made, hlinked, hlinked', hadd⟩

end Cookbook.Build
