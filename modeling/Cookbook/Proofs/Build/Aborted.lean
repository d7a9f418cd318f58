import Mathlib.Data.List.TakeWhile
import Cookbook.Proofs.Build.Sharing
/-!
# Cookbook.Proofs.Build.Aborted

A step that could not be made. Entries are read one after the other, and the use of an entry is
linked before the next entry is read. So when the making of a step fails, the uses of the entries
that were read by then (`linkedBefore`) stay with their owners, though there is no step that refers
to them. Nothing else has changed (`step_aborted`).
-/

namespace Cookbook.Build

open Cookbook.Graph (Linked)

variable {index : Index} {unknown : String → Warning} {v : Value} {g g' : Graph} {ws : List Warning}
  {fault : Fault}

/-! ### Entries that can be read -/

/-- Whether an entry can be read: its id can be looked up, and be put into words if it names
nothing. -/
def isReadable (index : Index) (v : Value) : Bool :=
  match v.fieldOrNull "belongsToId" >>= Value.findIn index with
  | .ok (some _) => true
  | .ok none => (v.atKey "belongsToId").write.isOk
  | .error _ => false

/-- The uses of the entries before the first one that cannot be read. -/
def usesRead (index : Index) (vs : List Value) : List Use :=
  (vs.takeWhile (isReadable index)).filterMap (useOf? index)

/-- The uses of a step that are linked if its making fails: those of its ingredients, and then those
of its supplies if every entry for an ingredient can be read. -/
def linkedBefore (ingredients supplies : Index) (v : Value) : List Use :=
  match textField v "name", listField v "useIngredients" with
  | .ok _, .ok entries =>
    usesRead ingredients entries ++
      if entries.all (isReadable ingredients) then
        match listField v "useSupplies" with
        | .ok entries => usesRead supplies entries
        | .error _ => []
      else []
  | _, _ => []

theorem usesRead_cons_of_isReadable {vs : List Value} (h : isReadable index v = true) :
    usesRead index (v :: vs) = (useOf? index v).toList ++ usesRead index vs := by
  rw [usesRead, List.takeWhile_cons_of_pos h, usesRead]
  cases hu : useOf? index v with
  | none => rw [List.filterMap_cons_none hu]; rfl
  | some use => rw [List.filterMap_cons_some hu]; rfl

theorem usesRead_cons_of_not_isReadable {vs : List Value} (h : isReadable index v = false) :
    usesRead index (v :: vs) = [] := by
  rw [usesRead, List.takeWhile_cons_of_neg (by simp [h])]
  rfl

/-! ### Failing -/

theorem isReadable_of_use {u : Option (Ref .use)} (h : use index unknown v g = (⟨ws, .ok u⟩, g')) :
    isReadable index v = true := by
  obtain ⟨ws₁, id, g₁, ws₂, hid, h₁, rfl⟩ := Work.bind_inv h
  obtain ⟨hid', rfl, rfl⟩ := Work.lift_inv hid
  obtain ⟨ws₃, found, g₂, ws₄, hfind, h₂, rfl⟩ := Work.bind_inv h₁
  obtain ⟨hfind', rfl, rfl⟩ := Work.lift_inv hfind
  rw [isReadable, hid']
  cases found with
  | none =>
      obtain ⟨ws₅, s, g₃, ws₆, hwrite, h₃, rfl⟩ := Work.bind_inv h₂
      obtain ⟨hwrite', rfl, rfl⟩ := Work.lift_inv hwrite
      obtain ⟨-, rfl⟩ := Value.fieldOrNull_inv hid'
      simp only [bind, Except.bind, hfind', hwrite']
      rfl
  | some owner => simp only [bind, Except.bind, hfind']

/-- An entry that cannot be read fails before anything has changed. -/
theorem use_failed (h : use index unknown v g = (⟨ws, .error fault⟩, g')) :
    isReadable index v = false ∧ g' = g := by
  rcases Work.bind_error_inv h with hid | ⟨ws₁, id, g₁, ws₂, hid, h₁⟩
  · obtain ⟨hid', rfl⟩ := Work.lift_error_inv hid
    exact ⟨by rw [isReadable, hid']; rfl, rfl⟩
  · obtain ⟨hid', rfl, rfl⟩ := Work.lift_inv hid
    rcases Work.bind_error_inv h₁ with hfind | ⟨ws₃, found, g₂, ws₄, hfind, h₂⟩
    · obtain ⟨hfind', rfl⟩ := Work.lift_error_inv hfind
      exact ⟨by simp only [isReadable, hid', bind, Except.bind, hfind'], rfl⟩
    · obtain ⟨hfind', rfl, rfl⟩ := Work.lift_inv hfind
      obtain ⟨hrecord, rfl⟩ := Value.fieldOrNull_inv hid'
      cases found with
      | none =>
          rcases Work.bind_error_inv h₂ with hwrite | ⟨ws₅, s, g₃, ws₆, hwrite, h₃⟩
          · obtain ⟨hwrite', rfl⟩ := Work.lift_error_inv hwrite
            refine ⟨?_, rfl⟩
            simp only [isReadable, hid', bind, Except.bind, hfind', hwrite']
            rfl
          · cases h₃
      | some owner =>
          -- The amount of a record can be read, and linking does not fail.
          obtain ⟨fields, rfl⟩ := hrecord
          cases h₂

theorem all_isReadable_of_uses {vs : List Value} {us : List (Ref .use)}
    (h : uses index unknown vs g = (⟨ws, .ok us⟩, g')) : ∀ v ∈ vs, isReadable index v = true :=
  forall_of_uses (fun _ _ _ _ _ => isReadable_of_use) h

/-- The entries of a list that could be read are linked. -/
theorem linked_usesRead {vs : List Value} {us : List (Ref .use)}
    (h : uses index unknown vs g = (⟨ws, .ok us⟩, g')) : Linked g g' us (usesRead index vs) := by
  rw [usesRead, List.takeWhile_eq_self_iff.mpr (all_isReadable_of_uses h)]
  exact (uses_linked h).2

/-- The entries before the first one that cannot be read are linked, and those behind it are not
looked at. -/
theorem uses_failed {vs : List Value} (h : uses index unknown vs g = (⟨ws, .error fault⟩, g')) :
    vs.all (isReadable index) = false ∧ ∃ us, Linked g g' us (usesRead index vs) := by
  induction vs generalizing g ws with
  | nil => cases h
  | cons v vs ih =>
      rw [List.all_cons]
      rcases Work.bind_error_inv h with huse | ⟨ws₁, u, g₁, ws₂, huse, h₁⟩
      · obtain ⟨hread, rfl⟩ := use_failed huse
        rw [hread, usesRead_cons_of_not_isReadable hread]
        exact ⟨rfl, [], .refl g'⟩
      · have hread := isReadable_of_use huse
        rcases Work.bind_error_inv h₁ with huses | ⟨ws₃, us, g₂, ws₄, huses, h₂⟩
        · obtain ⟨hall, us, hlinked⟩ := ih huses
          rw [hread, hall, usesRead_cons_of_isReadable hread]
          refine ⟨rfl, ?_⟩
          obtain ⟨-, ⟨hnone, -, rfl, -⟩ | ⟨use, hsome, -, rfl, -⟩⟩ := use_inv huse
          · rw [hnone]
            exact ⟨us, hlinked⟩
          · rw [hsome]
            exact ⟨_, (Linked.single g use).trans hlinked⟩
        · cases h₂

variable {ingredients supplies : Index}

/-- However the making of a step fails, what was linked by then are uses of the entries that were
read. -/
theorem step_failed (h : step ingredients supplies v g = (⟨ws, .error fault⟩, g')) :
    ∃ us, Linked g g' us (linkedBefore ingredients supplies v) := by
  unfold linkedBefore
  rcases Work.bind_error_inv h with hname | ⟨ws₁, name, g₁, ws₂, hname, h₁⟩
  · obtain ⟨hname', rfl⟩ := Work.lift_error_inv hname
    rw [hname']
    exact ⟨[], .refl g'⟩
  obtain ⟨hname', rfl, rfl⟩ := Work.lift_inv hname
  rcases Work.bind_error_inv h₁ with hentries | ⟨ws₃, entries, g₂, ws₄, hentries, h₂⟩
  · obtain ⟨hentries', rfl⟩ := Work.lift_error_inv hentries
    rw [hname', hentries']
    exact ⟨[], .refl g'⟩
  obtain ⟨hentries', rfl, rfl⟩ := Work.lift_inv hentries
  rw [hname', hentries']
  dsimp only
  rcases Work.bind_error_inv h₂ with huses | ⟨ws₅, us, g₃, ws₆, huses, h₃⟩
  · obtain ⟨hall, hlinked⟩ := uses_failed huses
    rw [hall, if_neg Bool.false_ne_true, List.append_nil]
    exact hlinked
  have hlinked := linked_usesRead huses
  rw [if_pos (List.all_eq_true.mpr (all_isReadable_of_uses huses))]
  rcases Work.bind_error_inv h₃ with hentries | ⟨ws₇, entries', g₄, ws₈, hentries, h₄⟩
  · obtain ⟨hentries', rfl⟩ := Work.lift_error_inv hentries
    rw [hentries', List.append_nil]
    exact ⟨us, hlinked⟩
  obtain ⟨hentries', rfl, rfl⟩ := Work.lift_inv hentries
  rw [hentries']
  rcases Work.bind_error_inv h₄ with huses' | ⟨ws₉, us', g₅, ws₁₀, huses', h₅⟩
  · obtain ⟨-, us', hlinked'⟩ := uses_failed huses'
    exact ⟨us ++ us', hlinked.trans hlinked'⟩
  have hlinked' := linked_usesRead huses'
  rcases Work.bind_error_inv h₅ with htext | ⟨ws₁₁, text, g₆, ws₁₂, htext, h₆⟩
  · obtain ⟨-, rfl⟩ := Work.lift_error_inv htext
    exact ⟨us ++ us', hlinked.trans hlinked'⟩
  · cases h₆

/-! ### What is left behind -/

/-- Uses of owners that exist were linked, so their lists are as they were only if there were
none. -/
theorem registered_eq_iff_of_linked {us : List (Ref .use)} {as : List Use} (h : Linked g g' us as)
    (howners : ∀ a ∈ as, g.HasOwner a.owner) :
    (∀ o, g.HasOwner o → g'.registered o = g.registered o) ↔ as = [] := by
  constructor
  · intro hsame
    refine List.eq_nil_iff_forall_not_mem.mpr fun a ha => ?_
    obtain ⟨u, hu, hget⟩ := List.mem_map.mp (h.uses.map_get ▸ ha)
    have hregistered := h.registered_eq (howners a ha)
    rw [hsame a.owner (howners a ha), List.self_eq_append_right] at hregistered
    have hmem : u ∈ g'.ownedBy a.owner us := List.mem_filter.mpr ⟨hu, by simp [hget]⟩
    rw [hregistered] at hmem
    cases hmem
  · rintro rfl o ho
    obtain rfl : us = [] := List.map_eq_nil_iff.mp h.uses.map_get
    rw [h.registered_eq ho]
    exact List.append_nil _

theorem owner_mem_of_usesRead {vs : List Value} {a : Use} (h : a ∈ usesRead index vs) :
    a.owner ∈ index.map Prod.snd := by
  obtain ⟨w, -, hw⟩ := List.mem_filterMap.mp h
  exact owner_mem_of_useOf? hw

theorem owner_mem_of_linkedBefore {a : Use} (h : a ∈ linkedBefore ingredients supplies v) :
    a.owner ∈ ingredients.map Prod.snd ∨ a.owner ∈ supplies.map Prod.snd := by
  unfold linkedBefore at h
  split at h
  · rcases List.mem_append.mp h with h | h
    · exact .inl (owner_mem_of_usesRead h)
    · split at h
      · split at h
        · exact .inr (owner_mem_of_usesRead h)
        · cases h
      · cases h
  · cases h

/-- **A step that fails leaves uses behind.** When the making of a step fails, each ingredient and
each supply has the uses that it had, and behind them its uses from the entries that were read by
then, in order. They are new uses; no other object is made or changed. So the uses of all of them
are the same as before exactly if none of the entries that were read by then was linked. -/
theorem step_aborted (hingredients : ∀ o ∈ ingredients.map Prod.snd, g.HasOwner o)
    (hsupplies : ∀ o ∈ supplies.map Prod.snd, g.HasOwner o)
    (h : step ingredients supplies v g = (⟨ws, .error fault⟩, g')) :
    ∃ us, Linked g g' us (linkedBefore ingredients supplies v) ∧
      (∀ o, g.HasOwner o → g'.registered o = g.registered o ++ g'.ownedBy o us) ∧
      ((∀ o, g.HasOwner o → g'.registered o = g.registered o) ↔
        linkedBefore ingredients supplies v = []) := by
  obtain ⟨us, hlinked⟩ := step_failed h
  refine ⟨us, hlinked, fun o ho => hlinked.registered_eq ho,
    registered_eq_iff_of_linked hlinked fun a ha => ?_⟩
  rcases owner_mem_of_linkedBefore ha with ho | ho
  · exact hingredients _ ho
  · exact hsupplies _ ho

/-- Salt alone. -/
def saltOnly : Graph := (Graph.addIngredient .empty { id := "salt", name := "Salt", unit := "g" }).1

/-- A step with an entry for salt, and one that is no record. -/
def brokenStep : Value :=
  .record [("useIngredients", .list [
    .record [("belongsToId", .text "salt"), ("amount", .int 2)], .null])]

/-- The index of salt. -/
def saltIndex : Index := [("salt", .ingredient ⟨0⟩)]

theorem step_brokenStep : (step saltIndex [] brokenStep saltOnly).1 = ⟨[], .error .notARecord⟩ :=
  rfl

theorem step_aborted_brokenStep :
    let g := (step saltIndex [] brokenStep saltOnly).2
    linkedBefore saltIndex [] brokenStep = [{ amount := .int 2, owner := .ingredient ⟨0⟩ }] ∧
      ∃ us, Linked saltOnly g us (linkedBefore saltIndex [] brokenStep) ∧
        g.registered (.ingredient ⟨0⟩) =
          saltOnly.registered (.ingredient ⟨0⟩) ++ g.ownedBy (.ingredient ⟨0⟩) us := by
  intro g
  have hrun : step saltIndex [] brokenStep saltOnly = (⟨[], .error .notARecord⟩, g) := by
    rw [← step_brokenStep]
  have hsalt : saltOnly.HasOwner (.ingredient ⟨0⟩) := rfl
  obtain ⟨us, hlinked, hregistered, -⟩ :=
    step_aborted (fun o ho => by rwa [List.mem_singleton.mp ho]) (List.forall_mem_nil _) hrun
  exact ⟨rfl, us, hlinked, hregistered _ hsalt⟩

/-- The making of a broken step fails, and salt has a use that it did not have. -/
theorem not_untouched_brokenStep :
    (step saltIndex [] brokenStep saltOnly).1 = ⟨[], .error .notARecord⟩ ∧
      saltOnly.registered (.ingredient ⟨0⟩) = [] ∧
      (step saltIndex [] brokenStep saltOnly).2.registered (.ingredient ⟨0⟩) = [⟨0⟩] :=
  ⟨step_brokenStep, rfl, rfl⟩

end Cookbook.Build
