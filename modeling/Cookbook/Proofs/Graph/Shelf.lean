import Cookbook.Graph.Shelf
/-!
# Cookbook.Proofs.Graph.Shelf

What happens to a shelf in many steps. Objects are added one by one and objects are changed one by
one; `Added` sums up the first and `modifyAll` the second, so that later proofs read the result off
once and do not follow the single steps.
-/

namespace Cookbook.Shelf

variable {kind : Kind} {α : Type}

/-! ### Objects that exist -/

/-- The reference is to an object that exists. -/
def Has (s : Shelf kind α) (r : Ref kind) : Prop := (s.get? r).isSome = true

theorem has_of_get? {s : Shelf kind α} {r : Ref kind} {a : α} (h : s.get? r = some a) :
    s.Has r := by
  rw [Has, h]
  rfl

theorem not_has_next (s : Shelf kind α) : ¬ s.Has s.next := by
  simp [Has, get?, next]

theorem get?_add_of_has {s : Shelf kind α} {r : Ref kind} (h : s.Has r) (a : α) :
    (s.add a).get? r = s.get? r :=
  s.get?_add_of_ne a fun heq => s.not_has_next (heq ▸ h)

theorem get_of_get? [Inhabited α] {s : Shelf kind α} {r : Ref kind} {a : α}
    (h : s.get? r = some a) : s.get r = a := by
  rw [get, h]
  rfl

theorem get_congr [Inhabited α] {s s' : Shelf kind α} {r : Ref kind} (h : s'.get? r = s.get? r) :
    s'.get r = s.get r := by
  rw [get, get, h]

/-- What is read after an object was changed is the changed object, or what was read before. -/
theorem get_modify_cases [Inhabited α] (s : Shelf kind α) (r r' : Ref kind) (f : α → α) :
    (s.modify r f).get r' = s.get r' ∨ r' = r ∧ (s.modify r f).get r' = f (s.get r') := by
  by_cases heq : r' = r
  · subst heq
    cases hget : s.get? r' with
    | none =>
        left
        simp [get, hget]
    | some a =>
        right
        simp [get, hget]
  · left
    exact get_congr (s.get?_modify_of_ne f heq)

/-- A shelf is what is found on it. -/
theorem ext_get? {s s' : Shelf kind α} (h : ∀ r, s.get? r = s'.get? r) : s = s' := by
  obtain ⟨objects⟩ := s
  obtain ⟨objects'⟩ := s'
  congr 1
  refine Array.ext_getElem? fun n => ?_
  exact h ⟨n⟩

/-! ### Adding -/

/-- Objects were added to a shelf: they are new, each has its own reference, and what was on the
shelf before is as it was. -/
structure Added (s s' : Shelf kind α) (rs : List (Ref kind)) (as : List α) : Prop where
  made : rs.map s'.get? = as.map some
  fresh : ∀ r ∈ rs, ¬ s.Has r
  nodup : rs.Nodup
  kept : ∀ r, s.Has r → s'.get? r = s.get? r

namespace Added

variable {s s₁ s₂ : Shelf kind α} {rs rs' : List (Ref kind)} {as as' : List α}

theorem refl (s : Shelf kind α) : Added s s [] [] where
  made := rfl
  fresh := by simp
  nodup := List.nodup_nil
  kept := fun _ _ => rfl

theorem single (s : Shelf kind α) (a : α) : Added s (s.add a) [s.next] [a] where
  made := by simp
  fresh := by simpa using s.not_has_next
  nodup := by simp
  kept := fun _ h => get?_add_of_has h a

theorem has_of_has (h : Added s s₁ rs as) {r : Ref kind} (hr : s.Has r) : s₁.Has r := by
  rw [Has, h.kept r hr]
  exact hr

theorem has (h : Added s s₁ rs as) {r : Ref kind} (hr : r ∈ rs) : s₁.Has r := by
  have hmem : s₁.get? r ∈ as.map some := h.made ▸ List.mem_map_of_mem hr
  obtain ⟨a, -, ha⟩ := List.mem_map.mp hmem
  exact has_of_get? ha.symm

theorem trans (h : Added s s₁ rs as) (h' : Added s₁ s₂ rs' as') :
    Added s s₂ (rs ++ rs') (as ++ as') where
  made := by
    -- What was added first exists by then, so adding more keeps it.
    have hkept : rs.map s₂.get? = rs.map s₁.get? :=
      List.map_congr_left fun r hr => h'.kept r (h.has hr)
    rw [List.map_append, List.map_append, hkept, h.made, h'.made]
  fresh := by
    intro r hr hhas
    rcases List.mem_append.mp hr with hr | hr
    · exact h.fresh r hr hhas
    · exact h'.fresh r hr (h.has_of_has hhas)
  nodup := by
    refine List.nodup_append.mpr ⟨h.nodup, h'.nodup, ?_⟩
    rintro a ha b hb rfl
    exact h'.fresh a hb (h.has ha)
  kept := by
    intro r hr
    rw [h'.kept r (h.has_of_has hr), h.kept r hr]

/-- The objects that were added, read one by one. -/
theorem map_get [Inhabited α] (h : Added s s₁ rs as) : rs.map s₁.get = as := by
  have hget : rs.map s₁.get = (rs.map s₁.get?).map fun a => a.getD default := by
    rw [List.map_map]
    rfl
  rw [hget, h.made, List.map_map]
  exact List.map_id' as

/-- What holds of all objects that were added holds of each one that is read. -/
theorem forall_get [Inhabited α] (h : Added s s₁ rs as) {P : α → Prop} (hP : ∀ a ∈ as, P a) :
    ∀ r ∈ rs, P (s₁.get r) := by
  intro r hr
  have hmem : s₁.get r ∈ rs.map s₁.get := List.mem_map_of_mem hr
  rw [h.map_get] at hmem
  exact hP _ hmem

end Added

/-! ### Changing -/

/-- Change the objects that references are to, one after the other. -/
def modifyAll (s : Shelf kind α) (rs : List (Ref kind)) (f : α → α) : Shelf kind α :=
  rs.foldl (fun s r => s.modify r f) s

/-- A change that gives the same when it is made again changes the named objects, once. -/
theorem get?_modifyAll {f : α → α} (hf : ∀ a, f (f a) = f a) (s : Shelf kind α)
    (rs : List (Ref kind)) (r : Ref kind) :
    (s.modifyAll rs f).get? r = if r ∈ rs then (s.get? r).map f else s.get? r := by
  unfold modifyAll
  induction rs generalizing s with
  | nil => simp
  | cons r' rs ih =>
      rw [List.foldl_cons, ih]
      by_cases heq : r = r'
      · -- A reference may be named more than once; the second change then gives the same.
        subst heq
        have htwice : ((s.get? r).map f).map f = (s.get? r).map f := by
          rw [Option.map_map]
          congr 1
          exact funext hf
        simp [htwice]
      · simp [heq, s.get?_modify_of_ne f heq]

/-- Of two changes of an object only the later one is seen, if it does not depend on the other. -/
theorem modify_modify {f f' : α → α} (hf : ∀ a, f' (f a) = f' a) (s : Shelf kind α)
    (r : Ref kind) : (s.modify r f).modify r f' = s.modify r f' := by
  refine ext_get? fun r' => ?_
  by_cases heq : r' = r
  · subst heq
    simp only [get?_modify_self, Option.map_map]
    congr 1
    exact funext hf
  · simp only [get?_modify_of_ne _ _ heq]

/-- Changes of two objects can be made in either order. -/
theorem modify_comm {r r' : Ref kind} (hne : r ≠ r') (s : Shelf kind α) (f f' : α → α) :
    (s.modify r f).modify r' f' = (s.modify r' f').modify r f := by
  refine ext_get? fun x => ?_
  by_cases hr : x = r
  · subst hr
    rw [get?_modify_of_ne _ _ hne, get?_modify_self, get?_modify_self, get?_modify_of_ne _ _ hne]
  · rw [get?_modify_of_ne _ f hr]
    by_cases hr' : x = r'
    · subst hr'
      rw [get?_modify_self, get?_modify_self, get?_modify_of_ne _ _ hr]
    · rw [get?_modify_of_ne _ _ hr', get?_modify_of_ne _ _ hr', get?_modify_of_ne _ _ hr]

/-- Of two changes of the same objects only the later one is seen, as for one object. -/
theorem modifyAll_modifyAll {f f' : α → α} (hf : ∀ a, f (f a) = f a)
    (hf' : ∀ a, f' (f' a) = f' a) (h : ∀ a, f' (f a) = f' a) (s : Shelf kind α)
    (rs : List (Ref kind)) : (s.modifyAll rs f).modifyAll rs f' = s.modifyAll rs f' := by
  refine ext_get? fun r => ?_
  simp only [get?_modifyAll hf, get?_modifyAll hf']
  by_cases hr : r ∈ rs
  · simp only [if_pos hr, Option.map_map]
    congr 1
    exact funext h
  · simp only [if_neg hr]

/-- Changes of many objects can be made in either order if those of the same object can. -/
theorem modifyAll_comm {f f' : α → α} (hf : ∀ a, f (f a) = f a) (hf' : ∀ a, f' (f' a) = f' a)
    (s : Shelf kind α) {rs rs' : List (Ref kind)}
    (h : ∀ r ∈ rs, r ∈ rs' → ∀ a, f' (f a) = f (f' a)) :
    (s.modifyAll rs f).modifyAll rs' f' = (s.modifyAll rs' f').modifyAll rs f := by
  refine ext_get? fun r => ?_
  simp only [get?_modifyAll hf, get?_modifyAll hf']
  by_cases hr : r ∈ rs
  · by_cases hr' : r ∈ rs'
    · simp only [if_pos hr, if_pos hr', Option.map_map]
      congr 1
      exact funext (h r hr hr')
    · simp only [if_pos hr, if_neg hr']
  · simp only [if_neg hr]

end Cookbook.Shelf
