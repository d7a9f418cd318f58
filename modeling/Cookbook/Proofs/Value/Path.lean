import Cookbook.Proofs.Build.Record
/-!
# Cookbook.Proofs.Value.Path

Records inside a record. A path leads from a record to one inside it: each of its steps names a list
of the record it is at, and the number of an item in that list. `at?` follows a path, and `modifyAt`
changes the value at its end. A change deep inside is seen at one key only
(`field?_modifyListed_of_ne`), as a changed item of the list there
(`fieldOrNull_modifyListed_self`).
-/

namespace Cookbook.Value

/-- A record without a key. -/
def without (key : String) : Value → Value
  | record fields => record (fields.filter (·.1 != key))
  | v => v

/-- A record with what it holds at a key changed. -/
def mapField (key : String) (f : Value → Value) : Value → Value
  | record fields => record (fields.map fun (k, w) => (k, if k = key then f w else w))
  | v => v

/-- A list with an item changed. -/
def modifyItem (n : Nat) (f : Value → Value) : Value → Value
  | list items => list (items.modify n f)
  | v => v

/-- A record with an item changed in the list at a key. -/
def modifyListed (key : String) (n : Nat) (f : Value → Value) : Value → Value
  | record fields =>
    record (fields.map fun (k, w) => (k, if k = key then w.modifyItem n f else w))
  | v => v

/-- The value that a path leads to. -/
def at? : List (String × Nat) → Value → Option Value
  | [], v => some v
  | (key, n) :: path, v => (v.listed key)[n]?.bind (at? path)

/-- A record with the value changed that a path leads to. -/
def modifyAt : List (String × Nat) → (Value → Value) → Value → Value
  | [], f, v => f v
  | (key, n) :: path, f, v => v.modifyListed key n (modifyAt path f)

theorem getElem?_of_at? {v w : Value} {key : String} {n : Nat} (h : v.at? [(key, n)] = some w) :
    (v.listed key)[n]? = some w := by
  simpa [at?] using h

/-! ### Fields -/

section

variable {α : Type} {fields : List (String × Value)} {key k : String}

theorem lookup_filter_of_ne (fields : List (String × α)) (h : k ≠ key) :
    (fields.filter (·.1 != key)).lookup k = fields.lookup k := by
  induction fields with
  | nil => rfl
  | cons field fields ih =>
      obtain ⟨a, w⟩ := field
      by_cases ha : a = key
      · subst ha
        rw [List.filter_cons_of_neg (by simp), ih, List.lookup_cons, beq_false_of_ne h]
      · rw [List.filter_cons_of_pos (by simpa using ha), List.lookup_cons, List.lookup_cons, ih]

theorem lookup_filter_self (fields : List (String × α)) (key : String) :
    (fields.filter (·.1 != key)).lookup key = none := by
  refine List.lookup_eq_none_iff.mpr fun field hfield => ?_
  exact bne_iff_ne.mpr (bne_iff_ne.mp (List.mem_filter.mp hfield).2).symm

theorem lookup_map_field (fields : List (String × Value)) (g : String → Value → Value)
    (k : String) :
    (fields.map fun (a, w) => (a, g a w)).lookup k = (fields.lookup k).map (g k) := by
  induction fields with
  | nil => rfl
  | cons field fields ih =>
      obtain ⟨a, w⟩ := field
      rw [List.map_cons, List.lookup_cons, List.lookup_cons, ih]
      by_cases ha : k = a
      · subst ha
        simp
      · simp [beq_false_of_ne ha]

end

variable {v : Value} {key k : String} {n : Nat} {f : Value → Value}

theorem atKey_of_field? {w : Value} (h : v.field? key = .ok (some w)) : v.atKey key = w := by
  obtain ⟨fields, rfl⟩ := isRecord_of_field? h
  rw [atKey, show fields.lookup key = some w from Except.ok.inj h]
  rfl

theorem field?_without_of_ne (v : Value) (h : k ≠ key) : (v.without key).field? k = v.field? k := by
  cases v with
  | record fields => exact congrArg Except.ok (lookup_filter_of_ne fields h)
  | _ => rfl

theorem field?_without_self (v : Value) (key : String) :
    (v.without key).field? key = (v.field? key).map fun _ => none := by
  cases v with
  | record fields => exact congrArg Except.ok (lookup_filter_self fields key)
  | _ => rfl

theorem field?_mapField (v : Value) (key : String) (f : Value → Value) (k : String) :
    (v.mapField key f).field? k = (v.field? k).map (·.map fun w => if k = key then f w else w) := by
  cases v with
  | record fields =>
      exact congrArg Except.ok (lookup_map_field fields (fun a w => if a = key then f w else w) k)
  | _ => rfl

theorem field?_mapField_self (v : Value) (key : String) (f : Value → Value) :
    (v.mapField key f).field? key = (v.field? key).map (·.map f) := by
  rw [field?_mapField]
  simp only [if_true]

theorem field?_mapField_of_ne (v : Value) (h : k ≠ key) (f : Value → Value) :
    (v.mapField key f).field? k = v.field? k := by
  rw [field?_mapField]
  simp only [if_neg h, Option.map_id']
  cases v.field? k <;> rfl

theorem fieldOrNull_mapField_of_ne (v : Value) (h : k ≠ key) (f : Value → Value) :
    (v.mapField key f).fieldOrNull k = v.fieldOrNull k := by
  rw [fieldOrNull, field?_mapField_of_ne v h, fieldOrNull]

/-- A missing field is read as `null`, so a change that is to be seen there must leave `null`
alone. -/
theorem fieldOrNull_mapField_self (hf : f null = null) (v : Value) (key : String) :
    (v.mapField key f).fieldOrNull key = (v.fieldOrNull key).map f := by
  rw [fieldOrNull, field?_mapField_self, fieldOrNull]
  cases v with
  | record fields =>
      simp only [field?, Except.map]
      cases fields.lookup key with
      | none => exact congrArg Except.ok hf.symm
      | some w => rfl
  | _ => rfl

theorem modifyListed_eq (v : Value) (key : String) (n : Nat) (f : Value → Value) :
    v.modifyListed key n f = v.mapField key (·.modifyItem n f) := by
  cases v <;> rfl

theorem field?_modifyListed_of_ne (v : Value) (h : k ≠ key) (n : Nat) (f : Value → Value) :
    (v.modifyListed key n f).field? k = v.field? k := by
  rw [modifyListed_eq, field?_mapField_of_ne v h]

/-- Where a key is `null`, a record is read the same without it. -/
theorem fieldOrNull_without (h : v.atKey key = null) (k : String) :
    (v.without key).fieldOrNull k = v.fieldOrNull k := by
  by_cases hk : k = key
  · subst hk
    cases v with
    | record fields =>
        have hnull : (fields.lookup k).getD null = null := h
        rw [fieldOrNull, field?_without_self, fieldOrNull]
        exact congrArg Except.ok hnull.symm
    | _ => rfl
  · rw [fieldOrNull, field?_without_of_ne v hk, fieldOrNull]

theorem fieldOrNull_modifyListed_of_ne (v : Value) (h : k ≠ key) (n : Nat) (f : Value → Value) :
    (v.modifyListed key n f).fieldOrNull k = v.fieldOrNull k := by
  rw [modifyListed_eq, fieldOrNull_mapField_of_ne v h]

theorem fieldOrNull_modifyListed_self (v : Value) (key : String) (n : Nat) (f : Value → Value) :
    (v.modifyListed key n f).fieldOrNull key = (v.fieldOrNull key).map (·.modifyItem n f) := by
  rw [modifyListed_eq, fieldOrNull_mapField_self (f := (·.modifyItem n f)) rfl]

/-! ### Items -/

/-- A changed item is seen in a list, and nowhere else. -/
theorem items_modifyItem (w : Value) (n : Nat) (f : Value → Value) :
    (w.modifyItem n f).items = w.items ∨
      ∃ vs, w = list vs ∧ w.items = .ok vs ∧ (w.modifyItem n f).items = .ok (vs.modify n f) := by
  cases w with
  | list vs => exact .inr ⟨vs, rfl, items_list vs, items_list _⟩
  | _ => exact .inl rfl

section

variable {vs : List Value} {w : Value}

/-- What is computed from a list item by item is not changed by an item that gives the same. -/
theorem modify_congr {α β : Type} {g : Value → α} {F : List Value → β} {G : α → β → β}
    (hcons : ∀ v vs, F (v :: vs) = G (g v) (F vs)) (hw : vs[n]? = some w) (h : g (f w) = g w) :
    F (vs.modify n f) = F vs := by
  induction vs generalizing n with
  | nil => cases hw
  | cons v vs ih =>
      cases n with
      | zero =>
          obtain rfl : v = w := Option.some.inj hw
          rw [List.modify_zero_cons, hcons, hcons, h]
      | succ n => rw [List.modify_succ_cons, hcons, hcons, ih hw]

/-- An item of a list with an item changed is one that was there, or the changed one. -/
theorem mem_modify (hw : vs[n]? = some w) {w' : Value} (h : w' ∈ vs.modify n f) :
    w' ∈ vs ∨ w' = f w := by
  induction vs generalizing n with
  | nil => cases hw
  | cons v vs ih =>
      cases n with
      | zero =>
          obtain rfl : v = w := Option.some.inj hw
          rw [List.modify_zero_cons] at h
          exact (List.mem_cons.mp h).symm.imp_left (List.mem_cons_of_mem v)
      | succ n =>
          rw [List.modify_succ_cons] at h
          rcases List.mem_cons.mp h with rfl | h
          · exact .inl List.mem_cons_self
          · exact (ih hw h).imp_left (List.mem_cons_of_mem v)

end

/-! ### At the end of a path -/

theorem listed_modifyListed (v : Value) (key : String) (n : Nat) (f : Value → Value) :
    (v.modifyListed key n f).listed key = (v.listed key).modify n f := by
  cases v with
  | record fields =>
      unfold listed atKey modifyListed
      dsimp only
      rw [lookup_map_field fields (fun a w => if a = key then w.modifyItem n f else w)]
      cases fields.lookup key with
      | none => cases n <;> rfl
      | some w =>
          simp only [Option.map_some, Option.getD_some, if_true]
          cases w with
          | list items => rfl
          | _ => cases n <;> rfl
  | _ => cases n <;> rfl

/-- What was changed is found at the end of the path. -/
theorem at?_modifyAt (path : List (String × Nat)) (f : Value → Value) (v : Value) :
    (v.modifyAt path f).at? path = (v.at? path).map f := by
  induction path generalizing v with
  | nil => rfl
  | cons step path ih =>
      obtain ⟨key, n⟩ := step
      rw [modifyAt, at?, listed_modifyListed, List.getElem?_modify_eq, at?]
      cases (v.listed key)[n]? with
      | none => rfl
      | some w => exact ih w

end Cookbook.Value
