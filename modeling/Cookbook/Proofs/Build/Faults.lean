import Cookbook.Proofs.Build.Uses
import Cookbook.Proofs.Graph.Frame
import Cookbook.Proofs.Value.Written
/-!
# Cookbook.Proofs.Build.Faults

What can go wrong when a recipe is made from a record. Making goes wrong only where reading the
record does: objects are made and linked without fault, and every step is new, so that none is taken
from another recipe.

`ReadsRecipe P` says of a record that every fault in reading it meets `P`; then so does every fault
in making a recipe from it (`recipe_faultsIn`). Every record whatsoever can only be wrong in shape
or hold a number of too many digits (`readsRecipe_ofReading`).
-/

namespace Cookbook.Build

variable {P : Fault → Prop} {index : Index} {unknown : String → Warning} {v : Value} {g : Graph}

/-! ### Reading -/

/-- The faults in reading an entry for a use. -/
structure ReadsUse (P : Fault → Prop) (v : Value) : Prop where
  id : FaultsIn P (v.fieldOrNull "belongsToId")
  find : ∀ id, v.fieldOrNull "belongsToId" = .ok id →
    ∀ index : Index, FaultsIn P (Value.findIn index id)
  write_id : ∀ id, v.fieldOrNull "belongsToId" = .ok id → FaultsIn P id.write
  amount : FaultsIn P (v.fieldOrNull "amount")

/-- The faults in reading a step. -/
structure ReadsStep (P : Fault → Prop) (v : Value) : Prop where
  name : FaultsIn P (textField v "name")
  text : FaultsIn P (textField v "text")
  ingredients : FaultsIn P (listField v "useIngredients")
  ingredient : ∀ vs, listField v "useIngredients" = .ok vs → ∀ w ∈ vs, ReadsUse P w
  supplies : FaultsIn P (listField v "useSupplies")
  supply : ∀ vs, listField v "useSupplies" = .ok vs → ∀ w ∈ vs, ReadsUse P w

/-- The faults in reading a recipe. -/
structure ReadsRecipe (P : Fault → Prop) (v : Value) : Prop where
  name : FaultsIn P (textField v "name")
  ingredients : FaultsIn P (records v "ingredients" ingredient)
  supplies : FaultsIn P (records v "supplies" supply)
  steps : FaultsIn P (listField v "steps")
  step : ∀ vs, listField v "steps" = .ok vs → ∀ w ∈ vs, ReadsStep P w

/-! ### Making -/

theorem use_faultsIn (h : ReadsUse P v) (g : Graph) :
    FaultsIn P (use index unknown v g).1.outcome := by
  refine Work.faultsIn_lift h.id fun id hid => ?_
  refine Work.faultsIn_lift (h.find id hid index) fun found _ => ?_
  cases found with
  | none =>
      refine Work.faultsIn_lift (h.write_id id hid) fun s _ => ?_
      refine Work.faultsIn_bind (.ok _) ?_
      intro ws a g' _
      exact .ok _
  | some owner =>
      refine Work.faultsIn_lift h.amount fun amount _ => ?_
      refine Work.faultsIn_bind (.ok _) ?_
      intro ws a g' _
      exact .ok _

theorem uses_faultsIn {vs : List Value} (h : ∀ v ∈ vs, ReadsUse P v) (g : Graph) :
    FaultsIn P (uses index unknown vs g).1.outcome := by
  induction vs generalizing g with
  | nil => exact .ok _
  | cons v vs ih =>
      obtain ⟨hv, hvs⟩ := List.forall_mem_cons.mp h
      refine Work.faultsIn_bind (use_faultsIn hv g) ?_
      intro ws u g₁ _
      refine Work.faultsIn_bind (ih hvs g₁) ?_
      intro ws us g₂ _
      exact .ok _

theorem step_faultsIn {ingredients supplies : Index} (h : ReadsStep P v) (g : Graph) :
    FaultsIn P (step ingredients supplies v g).1.outcome := by
  refine Work.faultsIn_lift h.name fun name _ => ?_
  refine Work.faultsIn_lift h.ingredients fun vs hvs => ?_
  refine Work.faultsIn_bind (uses_faultsIn (h.ingredient vs hvs) _) ?_
  intro ws us g₁ _
  refine Work.faultsIn_lift h.supplies fun vs' hvs' => ?_
  refine Work.faultsIn_bind (uses_faultsIn (h.supply vs' hvs') _) ?_
  intro ws us' g₂ _
  refine Work.faultsIn_lift h.text fun text _ => ?_
  exact .ok _

theorem steps_faultsIn {ingredients supplies : Index} {vs : List Value}
    (h : ∀ v ∈ vs, ReadsStep P v) (g : Graph) :
    FaultsIn P (steps ingredients supplies vs g).1.outcome :=
  Work.faultsIn_mapM' (fun v hv => step_faultsIn (h v hv)) g

theorem addIngredients_faultsIn (is : List Ingredient) (g : Graph) :
    FaultsIn P (addIngredients is g).1.outcome :=
  Work.faultsIn_mapM' (fun _ _ _ => .ok _) g

theorem addSupplies_faultsIn (js : List Supply) (g : Graph) :
    FaultsIn P (addSupplies js g).1.outcome :=
  Work.faultsIn_mapM' (fun _ _ _ => .ok _) g

/-! ### New steps -/

/-- A step that was made is new and belongs to no recipe; the others are as they were. -/
theorem step_added {ingredients supplies : Index} {g' : Graph} {ws : List Warning} {s : Ref .step}
    (h : step ingredients supplies v g = (⟨ws, .ok s⟩, g')) :
    ∃ made : Step, g.steps.Added g'.steps [s] [made.detached] := by
  obtain ⟨-, g₁, g₂, made, hl, hl', hadd⟩ := step_inv h
  obtain rfl : g' = (g₂.addStep made).1 := congrArg Prod.fst hadd
  obtain rfl : s = g₂.steps.next := congrArg Prod.snd hadd
  have hsteps : g₂.steps = g.steps := hl'.steps.trans hl.steps
  refine ⟨made, ?_⟩
  rw [← hsteps]
  exact .single g₂.steps made.detached

theorem steps_added {ingredients supplies : Index} {vs : List Value} {g' : Graph}
    {ws : List Warning} {ss : List (Ref .step)}
    (h : steps ingredients supplies vs g = (⟨ws, .ok ss⟩, g')) :
    ∃ made : List Step, g.steps.Added g'.steps ss (made.map Step.detached) := by
  induction vs generalizing g ws ss with
  | nil =>
      obtain ⟨rfl, rfl, rfl⟩ := Work.pure_inv h
      exact ⟨[], .refl g'.steps⟩
  | cons v vs ih =>
      obtain ⟨ws₁, s, g₁, ws₂, ss', hstep, hsteps, rfl, rfl⟩ := Work.mapM'_cons_inv h
      obtain ⟨made, hadded⟩ := step_added hstep
      obtain ⟨mades, hadded'⟩ := ih hsteps
      exact ⟨made :: mades, hadded.trans hadded'⟩

/-- A recipe is made of new steps without fault. -/
theorem makeRecipe_faultsIn {name : String} {is : List (Ref .ingredient)} {js : List (Ref .supply)}
    {ss : List (Ref .step)} (h : ∀ s ∈ ss, (g.steps.get s).recipe = none) :
    FaultsIn P (Work.makeRecipe name is js ss g).1.outcome := by
  refine Work.faultsIn_bind (.ok _) ?_
  intro ws r g₁ hmake
  obtain ⟨-, hadd⟩ := Work.make_inv hmake
  have hsteps : g.steps = g₁.steps := congrArg (fun out => out.1.steps) hadd
  refine Work.faultsIn_bind ?_ fun ws u g₂ _ => .ok _
  have hfree : ∀ s ∈ ss, (g₁.steps.get s).recipe = none ∨ (g₁.steps.get s).recipe = some r := by
    intro s hs
    exact Or.inl (hsteps ▸ h s hs)
  obtain ⟨g₂, hattach⟩ := Work.attachAll_of_free hfree
  rw [hattach]
  exact .ok _

/-! ### The recipe -/

theorem recipeForOne_faultsIn (h : ReadsRecipe P v) (g : Graph) :
    FaultsIn P (recipeForOne v g).1.outcome := by
  refine Work.faultsIn_lift h.ingredients fun is _ => ?_
  refine Work.faultsIn_bind (addIngredients_faultsIn is g) ?_
  intro ws rs g₁ _
  refine Work.faultsIn_lift h.supplies fun js _ => ?_
  refine Work.faultsIn_bind (addSupplies_faultsIn js g₁) ?_
  intro ws ts g₂ _
  refine Work.faultsIn_lift h.steps fun vs hvs => ?_
  refine Work.faultsIn_bind (steps_faultsIn (h.step vs hvs) g₂) ?_
  intro ws ss g₃ hsteps
  refine Work.faultsIn_lift h.name fun name _ => ?_
  obtain ⟨made, hadded⟩ := steps_added hsteps
  refine makeRecipe_faultsIn ?_
  refine hadded.forall_get (P := fun step => step.recipe = none) ?_
  intro step hstep
  obtain ⟨s, -, rfl⟩ := List.mem_map.mp hstep
  rfl

/-- Making a recipe goes wrong only where reading its record does, or where its portions cannot be
put into words. -/
theorem recipe_faultsIn (h : ReadsRecipe P v) {p : Value} (hp : FaultsIn P p.write) (g : Graph) :
    FaultsIn P (recipe v p g).1.outcome := by
  refine Work.faultsIn_bind (recipeForOne_faultsIn h g) ?_
  intro ws r g₁ _
  refine Work.faultsIn_bind (.ok _) ?_
  intro ws u g₂ _
  exact Work.faultsIn_lift hp fun s _ => .ok _

/-! ### Any record -/

/-- The faults there are in reading a value as a record. -/
inductive OfReading : Fault → Prop
  | notARecord : OfReading .notARecord
  | notAList : OfReading .notAList
  | notAKey : OfReading .notAKey
  | tooManyDigits : OfReading .tooManyDigits

theorem field?_ofReading (v : Value) (key : String) : FaultsIn OfReading (v.field? key) := by
  cases v with
  | record fields => exact .ok _
  | _ => exact .error .notARecord

theorem fieldOrNull_ofReading (v : Value) (key : String) :
    FaultsIn OfReading (v.fieldOrNull key) := (field?_ofReading v key).map

theorem items_ofReading (v : Value) : FaultsIn OfReading v.items := by
  unfold Value.items
  split
  · exact .ok _
  · split
    · exact .ok _
    · exact .ok _
    · exact .ok _
    · exact .error .notAList

theorem findIn_ofReading (index : Index) (key : Value) :
    FaultsIn OfReading (Value.findIn index key) := by
  unfold Value.findIn
  split
  · exact .ok _
  · split
    · exact .ok _
    · exact .error .notAKey

theorem write_ofReading (v : Value) : FaultsIn OfReading v.write :=
  (Value.faultsIn_write v).imp fun _ h => h ▸ .tooManyDigits

theorem textField_ofReading (v : Value) (key : String) : FaultsIn OfReading (textField v key) := by
  refine (field?_ofReading v key).bind fun found _ => ?_
  cases found with
  | none => exact .ok _
  | some w => exact write_ofReading w

theorem listField_ofReading (v : Value) (key : String) : FaultsIn OfReading (listField v key) :=
  (fieldOrNull_ofReading v key).bind fun w _ => items_ofReading w

theorem records_ofReading {α : Type} {describe : Value → Except Fault α}
    (h : ∀ v, FaultsIn OfReading (describe v)) (v : Value) (key : String) :
    FaultsIn OfReading (records v key describe) :=
  (listField_ofReading v key).bind fun _ _ => .mapM fun w _ => h w

theorem ingredient_ofReading (v : Value) : FaultsIn OfReading (ingredient v) :=
  (textField_ofReading v "id").bind fun _ _ =>
    (textField_ofReading v "name").bind fun _ _ =>
      (fieldOrNull_ofReading v "unit").bind fun _ _ => (write_ofReading _).bind fun _ _ => .ok _

theorem supply_ofReading (v : Value) : FaultsIn OfReading (supply v) :=
  (textField_ofReading v "id").bind fun _ _ =>
    (textField_ofReading v "name").bind fun _ _ => .ok _

theorem readsUse_ofReading (v : Value) : ReadsUse OfReading v where
  id := fieldOrNull_ofReading v _
  find id _ index := findIn_ofReading index id
  write_id id _ := write_ofReading id
  amount := fieldOrNull_ofReading v _

theorem readsStep_ofReading (v : Value) : ReadsStep OfReading v where
  name := textField_ofReading v _
  text := textField_ofReading v _
  ingredients := listField_ofReading v _
  ingredient _ _ w _ := readsUse_ofReading w
  supplies := listField_ofReading v _
  supply _ _ w _ := readsUse_ofReading w

theorem readsRecipe_ofReading (v : Value) : ReadsRecipe OfReading v where
  name := textField_ofReading v _
  ingredients := records_ofReading ingredient_ofReading v _
  supplies := records_ofReading supply_ofReading v _
  steps := listField_ofReading v _
  step _ _ w _ := readsStep_ofReading w

end Cookbook.Build
