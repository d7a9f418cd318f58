import Mathlib.Data.List.Forall2
import Cookbook.Fault
/-!
# Cookbook.Proofs.Outcome

Inverting work that may fail. A sequence succeeds only if each of its steps does, and a list is read
if each of its items is (`exceptMapM_eq_ok_iff`).

The other way round, `FaultsIn` bounds the faults that work can end with. The faults of a sequence
are those of its steps, so a bound for a whole comes from bounds for its parts; with no fault
allowed the work succeeds (`FaultsIn.exists_ok`).
-/

namespace Cookbook

variable {α β : Type}

/-- Invert one step of a sequence that may fail. -/
theorem exceptBind_inv {ε : Type} {x : Except ε α} {f : α → Except ε β} {b : β}
    (h : (x >>= f) = .ok b) : ∃ a, x = .ok a ∧ f a = .ok b := by
  cases x with
  | error fault => cases h
  | ok a => exact ⟨a, rfl, h⟩

/-- Where it does not depend on the first result whether the rest of a sequence succeeds, the
sequence succeeds exactly if both do. -/
theorem exceptBind_exists_ok_iff {x : Except Fault α} {f : α → Except Fault β} {rest : Prop}
    (h : ∀ a, (∃ b, f a = .ok b) ↔ rest) :
    (∃ b, (x >>= f) = .ok b) ↔ (∃ a, x = .ok a) ∧ rest := by
  constructor
  · rintro ⟨b, hb⟩
    obtain ⟨a, ha, hb⟩ := exceptBind_inv hb
    exact ⟨⟨a, ha⟩, (h a).mp ⟨b, hb⟩⟩
  · rintro ⟨⟨a, ha⟩, hrest⟩
    obtain ⟨b, hb⟩ := (h a).mpr hrest
    exact ⟨b, by rw [ha]; exact hb⟩

/-- Where nothing can fail after its first step, a sequence succeeds exactly if that does. -/
theorem exceptBind_total_iff {x : Except Fault α} {f : α → Except Fault β}
    (h : ∀ a, ∃ b, f a = .ok b) : (∃ b, (x >>= f) = .ok b) ↔ ∃ a, x = .ok a :=
  (exceptBind_exists_ok_iff fun a => iff_true_intro (h a)).trans (and_iff_left trivial)

theorem exceptIsOk_iff {x : Except Fault α} : x.isOk = true ↔ ∃ a, x = .ok a := by
  cases x <;> simp [Except.isOk, Except.toBool]

theorem exceptMap_exists_ok_iff {x : Except Fault α} {f : α → β} :
    (∃ b, x.map f = .ok b) ↔ ∃ a, x = .ok a := by
  cases x <;> simp [Except.map]

theorem exceptMap_eq_error_iff {x : Except Fault α} {f : α → β} {fault : Fault} :
    x.map f = .error fault ↔ x = .error fault := by
  cases x <;> simp [Except.map]

/-- A list is read if each of its items is; then the results come from the items, one from each and
in order. -/
theorem exceptMapM_eq_ok_iff {f : α → Except Fault β} {xs : List α} {ys : List β} :
    xs.mapM f = .ok ys ↔ List.Forall₂ (fun x y => f x = .ok y) xs ys := by
  constructor
  · intro h
    induction xs generalizing ys with
    | nil =>
        cases h
        exact .nil
    | cons x xs ih =>
        rw [List.mapM_cons] at h
        obtain ⟨y, hy, h⟩ := exceptBind_inv h
        obtain ⟨ys', hys, h⟩ := exceptBind_inv h
        cases h
        exact .cons hy (ih hys)
  · intro h
    induction h with
    | nil => rfl
    | cons hxy _ ih =>
        rw [List.mapM_cons, hxy, ih]
        rfl

/-- The items of two related lists at one place are related. -/
theorem exists_getElem?_of_forall₂ {R : α → β → Prop} {xs : List α} {ys : List β}
    (h : List.Forall₂ R xs ys) {n : Nat} {x : α} (hx : xs[n]? = some x) :
    ∃ y, ys[n]? = some y ∧ R x y := by
  induction h generalizing n with
  | nil => cases hx
  | cons hxy _ ih =>
      cases n with
      | zero => exact ⟨_, rfl, Option.some.inj hx ▸ hxy⟩
      | succ n => exact ih hx

/-- Each item of a list is related to one of the items that the list is related to. -/
theorem exists_of_forall₂ {R : α → β → Prop} {xs : List α} {ys : List β}
    (h : List.Forall₂ R xs ys) : ∀ x ∈ xs, ∃ y ∈ ys, R x y := by
  intro x hx
  obtain ⟨n, hn⟩ := List.mem_iff_getElem?.mp hx
  obtain ⟨y, hy, hR⟩ := exists_getElem?_of_forall₂ h hn
  exact ⟨y, List.mem_of_getElem? hy, hR⟩

/-- Each result of reading a list comes from one of its items. -/
theorem exceptMapM_mem {f : α → Except Fault β} {xs : List α} {ys : List β}
    (h : xs.mapM f = .ok ys) : ∀ y ∈ ys, ∃ x ∈ xs, f x = .ok y :=
  exists_of_forall₂ (exceptMapM_eq_ok_iff.mp h).flip

/-- A list is read if and only if each of its items is. -/
theorem exceptMapM_exists_ok_iff {f : α → Except Fault β} {xs : List α} :
    (∃ ys, xs.mapM f = .ok ys) ↔ ∀ x ∈ xs, ∃ y, f x = .ok y := by
  constructor
  · rintro ⟨ys, h⟩ x hx
    obtain ⟨y, -, hy⟩ := exists_of_forall₂ (exceptMapM_eq_ok_iff.mp h) x hx
    exact ⟨y, hy⟩
  · intro h
    induction xs with
    | nil => exact ⟨[], rfl⟩
    | cons x xs ih =>
        obtain ⟨⟨y, hy⟩, hxs⟩ := List.forall_mem_cons.mp h
        obtain ⟨ys, hys⟩ := ih hxs
        exact ⟨y :: ys, by rw [List.mapM_cons, hy, hys]; rfl⟩

/-- A list and its image are read in the same way by functions that agree along the map. -/
theorem exceptMapM_map_congr {γ : Type} {move : γ → α} {f : α → Except Fault β}
    {f' : γ → Except Fault β} {xs : List γ} (h : ∀ x ∈ xs, f (move x) = f' x) :
    (xs.map move).mapM f = xs.mapM f' := by
  induction xs with
  | nil => rfl
  | cons x xs ih =>
      obtain ⟨hx, hxs⟩ := List.forall_mem_cons.mp h
      rw [List.map_cons, List.mapM_cons, List.mapM_cons, hx, ih hxs]

/-- Results are changed one by one or all together. -/
theorem exceptMapM_map {γ : Type} (f : α → Except Fault β) (m : β → γ) (xs : List α) :
    xs.mapM (fun x => (f x).map m) = (xs.mapM f).map (List.map m) := by
  induction xs with
  | nil => rfl
  | cons x xs ih =>
      rw [List.mapM_cons, List.mapM_cons, ih]
      cases f x with
      | error fault => rfl
      | ok y => cases xs.mapM f <;> rfl

/-! ### Faults -/

/-- Every fault that there may be meets a condition. -/
def FaultsIn (P : Fault → Prop) (x : Except Fault α) : Prop := ∀ fault, x = .error fault → P fault

namespace FaultsIn

variable {P Q : Fault → Prop} {x : Except Fault α}

theorem ok (a : α) : FaultsIn P (.ok a : Except Fault α) := by
  intro fault h
  cases h

theorem error {fault : Fault} (h : P fault) : FaultsIn P (.error fault : Except Fault α) := by
  intro fault' h'
  cases h'
  exact h

theorem of_eq_ok {a : α} (h : x = .ok a) : FaultsIn P x := h ▸ ok a

theorem of_exists (h : ∃ a, x = .ok a) : FaultsIn P x := by
  obtain ⟨a, ha⟩ := h
  exact of_eq_ok ha

theorem imp (h : FaultsIn P x) (hPQ : ∀ fault, P fault → Q fault) : FaultsIn Q x :=
  fun fault hfault => hPQ fault (h fault hfault)

theorem bind {f : α → Except Fault β} (hx : FaultsIn P x)
    (hf : ∀ a, x = .ok a → FaultsIn P (f a)) : FaultsIn P (x >>= f) := by
  cases x with
  | error fault => exact error (hx fault rfl)
  | ok a => exact hf a rfl

theorem map {f : α → β} (hx : FaultsIn P x) : FaultsIn P (x.map f) := by
  cases x with
  | error fault => exact error (hx fault rfl)
  | ok a => exact ok (f a)

theorem mapM {f : α → Except Fault β} {xs : List α} (h : ∀ a ∈ xs, FaultsIn P (f a)) :
    FaultsIn P (xs.mapM f) := by
  induction xs with
  | nil => exact ok []
  | cons a xs ih =>
      obtain ⟨ha, hxs⟩ := List.forall_mem_cons.mp h
      rw [List.mapM_cons]
      exact ha.bind fun b _ => (ih hxs).bind fun bs _ => ok (b :: bs)

/-- Where no fault is allowed there is a result. -/
theorem exists_ok (h : FaultsIn (fun _ => False) x) : ∃ a, x = .ok a := by
  cases x with
  | error fault => exact absurd rfl (h fault)
  | ok a => exact ⟨a, rfl⟩

end FaultsIn

end Cookbook
