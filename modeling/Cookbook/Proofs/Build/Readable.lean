import Cookbook.Proofs.Build.Recipe
import Cookbook.Proofs.Build.Shape
/-!
# Cookbook.Proofs.Build.Readable

A recipe is made from a record exactly if the record can be read. That it is enough to be able to
read a record is the bound on the faults of making (`recipe_faultsIn`); here is the other direction,
for each record that is read on the way. Whether a record can be read has nothing to do with the
graph, so neither has whether a recipe is made from it (`recipe_exists_ok_iff`).
-/

namespace Cookbook.Build

variable {v p : Value} {g g' : Graph} {ws : List Warning}

/-- A key that is looked up in one index can be looked up in any other one. -/
theorem exists_findIn {index : Index} {key : Value} {found : Option Owner}
    (h : Value.findIn index key = .ok found) (index' : Index) :
    ∃ found, Value.findIn index' key = .ok found := by
  unfold Value.findIn at h ⊢
  split at h
  · exact ⟨_, rfl⟩
  · split at h
    · rename_i hkey
      exact ⟨none, if_pos hkey⟩
    · cases h

theorem readsUse_of_use {index : Index} {unknown : String → Warning} {u : Option (Ref .use)}
    (h : use index unknown v g = (⟨ws, .ok u⟩, g')) : ReadsUse NoFault v := by
  obtain ⟨ws₁, id, g₁, ws₂, hid, h₁, rfl⟩ := Work.bind_inv h
  obtain ⟨hid', rfl, rfl⟩ := Work.lift_inv hid
  obtain ⟨ws₃, found, g₂, ws₄, hfind, h₂, rfl⟩ := Work.bind_inv h₁
  obtain ⟨hfind', rfl, rfl⟩ := Work.lift_inv hfind
  have heq : ∀ id', v.fieldOrNull "belongsToId" = .ok id' → id' = id := fun id' h =>
    Except.ok.inj (h.symm.trans hid')
  constructor
  case id => exact .of_eq_ok hid'
  case find =>
    intro id' h index'
    rw [heq id' h]
    exact .of_exists (exists_findIn hfind' index')
  case write_id =>
    intro id' h
    rw [heq id' h]
    cases found with
    | none =>
        obtain ⟨ws₅, s, g₃, ws₆, hwrite, -, -⟩ := Work.bind_inv h₂
        exact .of_eq_ok (Work.lift_inv hwrite).1
    | some owner =>
        -- Only a text finds an owner.
        unfold Value.findIn at hfind'
        split at hfind'
        · exact .ok _
        · split at hfind' <;> cases hfind'
  case amount =>
    obtain ⟨⟨fields, rfl⟩, -⟩ := Value.fieldOrNull_inv hid'
    exact .ok _

theorem readsUse_of_uses {index : Index} {unknown : String → Warning} {vs : List Value}
    {us : List (Ref .use)} (h : uses index unknown vs g = (⟨ws, .ok us⟩, g')) :
    ∀ v ∈ vs, ReadsUse NoFault v :=
  forall_of_uses (fun _ _ _ _ _ => readsUse_of_use) h

theorem readsStep_of_step {ingredients supplies : Index} {s : Ref .step}
    (h : step ingredients supplies v g = (⟨ws, .ok s⟩, g')) : ReadsStep NoFault v := by
  obtain ⟨made, g₁, g₂, ws₁, ws₂, hname, htext, ⟨entries, hentries, huses⟩,
    ⟨entries', hentries', huses'⟩, -, -⟩ := step_run h
  constructor
  case name => exact .of_eq_ok hname
  case text => exact .of_eq_ok htext
  case ingredients => exact .of_eq_ok hentries
  case ingredient =>
    intro vs hvs
    obtain rfl := Except.ok.inj (hentries.symm.trans hvs)
    exact readsUse_of_uses huses
  case supplies => exact .of_eq_ok hentries'
  case supply =>
    intro vs hvs
    obtain rfl := Except.ok.inj (hentries'.symm.trans hvs)
    exact readsUse_of_uses huses'

theorem readsStep_of_steps {ingredients supplies : Index} {vs : List Value} {ss : List (Ref .step)}
    (h : steps ingredients supplies vs g = (⟨ws, .ok ss⟩, g')) : ∀ v ∈ vs, ReadsStep NoFault v := by
  induction vs generalizing g g' ws ss with
  | nil => exact List.forall_mem_nil _
  | cons v vs ih =>
      obtain ⟨ws₁, s, g₁, ws₂, ss', hstep, hsteps, -, -⟩ := Work.mapM'_cons_inv h
      exact List.forall_mem_cons.mpr ⟨readsStep_of_step hstep, ih hsteps⟩

theorem readsRecipe_of_recipe {r : Ref .recipe} (h : recipe v p g = (⟨ws, .ok r⟩, g')) :
    ReadsRecipe NoFault v := by
  obtain ⟨g₀, s, hmade, -, -⟩ := recipe_inv h
  obtain ⟨is, js, items, rs, ts, ss, name, g₁, g₂, g₃, his, -, hjs, -, hitems, hss, hname, -⟩ :=
    recipeForOne_run hmade
  constructor
  case name => exact .of_eq_ok hname
  case ingredients => exact .of_eq_ok his
  case supplies => exact .of_eq_ok hjs
  case steps => exact .of_eq_ok hitems
  case step =>
    intro vs hvs
    obtain rfl := Except.ok.inj (hitems.symm.trans hvs)
    exact readsStep_of_steps hss

/-- A recipe is made from a record, in whatever graph, exactly if the record can be read and the
portions can be put into words. -/
theorem recipe_exists_ok_iff (g : Graph) : (∃ ws r g', recipe v p g = (⟨ws, .ok r⟩, g')) ↔
    ReadsRecipe NoFault v ∧ ∃ s, p.write = .ok s := by
  constructor
  · rintro ⟨ws, r, g', h⟩
    obtain ⟨g₀, s, -, hs, -⟩ := recipe_inv h
    exact ⟨readsRecipe_of_recipe h, s, hs⟩
  · rintro ⟨hreads, hp⟩
    obtain ⟨r, hr⟩ := (recipe_faultsIn hreads (.of_exists hp) g).exists_ok
    exact ⟨_, r, _, Work.run_of_toOption (by rw [hr]; rfl)⟩

end Cookbook.Build
