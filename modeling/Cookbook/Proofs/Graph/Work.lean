import Mathlib.Order.Defs.Unbundled
import Cookbook.Graph.Work
import Cookbook.Proofs.Outcome
/-!
# Cookbook.Proofs.Graph.Work

Inverting pieces of work. A run of a sequence that succeeds is made of runs of its parts that
succeed, each from the graph that the one before it left; the warnings follow in the same order.

`Moves` is about runs that may fail. A relation that is kept by every primitive, and goes from step
to step, holds between the graphs before and after any work, whether it succeeds or not.
-/

namespace Cookbook.Work

variable {α β : Type} {g g' : Graph} {ws : List Warning}

/-- Invert one step of a sequence. -/
theorem bind_inv {w : Work α} {f : α → Work β} {b : β} (h : (w >>= f) g = (⟨ws, .ok b⟩, g')) :
    ∃ ws₁ a g₁ ws₂, w g = (⟨ws₁, .ok a⟩, g₁) ∧ f a g₁ = (⟨ws₂, .ok b⟩, g') ∧ ws = ws₁ ++ ws₂ := by
  replace h : Work.bind w f g = (⟨ws, .ok b⟩, g') := h
  unfold Work.bind at h
  rcases hw : w g with ⟨⟨ws₁, outcome⟩, g₁⟩
  rw [hw] at h
  cases outcome with
  | error fault => cases h
  | ok a =>
      rcases hf : f a g₁ with ⟨⟨ws₂, outcome₂⟩, g₂⟩
      simp only [hf] at h
      cases h
      exact ⟨ws₁, a, g₁, ws₂, rfl, hf, rfl⟩

/-- Work goes on with the result of a first piece of it, if there is one. -/
theorem bind_of_ok {w : Work α} {f : α → Work β} {g g' : Graph} {ws : List Warning} {a : α}
    (h : w g = (⟨ws, .ok a⟩, g')) :
    (w >>= f) g = (⟨ws ++ (f a g').1.warnings, (f a g').1.outcome⟩, (f a g').2) := by
  show Work.bind w f g = _
  unfold Work.bind
  rw [h]

/-- A sequence that fails does so in its first part, or in the rest after the first part
succeeded. -/
theorem bind_error_inv {w : Work α} {f : α → Work β} {fault : Fault}
    (h : (w >>= f) g = (⟨ws, .error fault⟩, g')) :
    w g = (⟨ws, .error fault⟩, g') ∨
      ∃ ws₁ a g₁ ws₂, w g = (⟨ws₁, .ok a⟩, g₁) ∧ f a g₁ = (⟨ws₂, .error fault⟩, g') := by
  replace h : Work.bind w f g = (⟨ws, .error fault⟩, g') := h
  unfold Work.bind at h
  rcases hw : w g with ⟨⟨ws₁, outcome⟩, g₁⟩
  rw [hw] at h
  cases outcome with
  | error fault' =>
      cases h
      exact .inl rfl
  | ok a =>
      rcases hf : f a g₁ with ⟨⟨ws₂, outcome₂⟩, g₂⟩
      simp only [hf] at h
      cases h
      exact .inr ⟨ws₁, a, g₁, ws₂, rfl, hf⟩

/-- Work goes on with what was read. -/
theorem lift_ok_then (a : α) (f : α → Work β) :
    (liftM (.ok a : Except Fault α) : Work α) >>= f = f a :=
  rfl

/-- Nothing happens after a fault. -/
theorem bind_of_error {w : Work α} {f : α → Work β} {g g' : Graph} {ws : List Warning}
    {fault : Fault} (h : w g = (⟨ws, .error fault⟩, g')) :
    (w >>= f) g = (⟨ws, .error fault⟩, g') := by
  show Work.bind w f g = _
  unfold Work.bind
  rw [h]

theorem pure_inv {a b : α} (h : (pure a : Work α) g = (⟨ws, .ok b⟩, g')) :
    ws = [] ∧ b = a ∧ g' = g := by
  cases h
  exact ⟨rfl, rfl, rfl⟩

theorem lift_inv {outcome : Except Fault α} {a : α}
    (h : (liftM outcome : Work α) g = (⟨ws, .ok a⟩, g')) :
    outcome = .ok a ∧ ws = [] ∧ g' = g := by
  cases h
  exact ⟨rfl, rfl, rfl⟩

theorem lift_error_inv {outcome : Except Fault α} {fault : Fault}
    (h : (liftM outcome : Work α) g = (⟨ws, .error fault⟩, g')) :
    outcome = .error fault ∧ g' = g := by
  cases h
  exact ⟨rfl, rfl⟩

theorem report_inv {report : Report α} {a : α}
    (h : (liftM report : Work α) g = (⟨ws, .ok a⟩, g')) :
    report = ⟨ws, .ok a⟩ ∧ g' = g := by
  cases h
  exact ⟨rfl, rfl⟩

theorem make_inv {f : Graph → Graph × α} {a : α} (h : make f g = (⟨ws, .ok a⟩, g')) :
    ws = [] ∧ f g = (g', a) := by
  cases h
  exact ⟨rfl, rfl⟩

theorem change_inv {f : Graph → Graph} {u : Unit} (h : change f g = (⟨ws, .ok u⟩, g')) :
    ws = [] ∧ g' = f g := by
  cases h
  exact ⟨rfl, rfl⟩

/-- Invert work that goes through a list, at its first item. -/
theorem mapM'_cons_inv {f : α → Work β} {a : α} {as : List α} {bs : List β}
    (h : (a :: as).mapM' f g = (⟨ws, .ok bs⟩, g')) :
    ∃ ws₁ b g₁ ws₂ bs', f a g = (⟨ws₁, .ok b⟩, g₁) ∧ as.mapM' f g₁ = (⟨ws₂, .ok bs'⟩, g') ∧
      ws = ws₁ ++ ws₂ ∧ bs = b :: bs' := by
  obtain ⟨ws₁, b, g₁, ws₂, hfirst, h₁, rfl⟩ := bind_inv h
  obtain ⟨ws₃, bs', g₂, ws₄, hrest, h₂, rfl⟩ := bind_inv h₁
  obtain ⟨rfl, rfl, rfl⟩ := pure_inv h₂
  exact ⟨ws₁, b, g₁, ws₃, bs', hfirst, hrest, by rw [List.append_nil], rfl⟩

/-- Work that has a result succeeds with it. -/
theorem run_of_toOption {w : Work α} {a : α} (h : (w g).1.outcome.toOption = some a) :
    w g = (⟨(w g).1.warnings, .ok a⟩, (w g).2) := by
  generalize w g = run at h ⊢
  obtain ⟨⟨ws, outcome⟩, g'⟩ := run
  cases outcome with
  | error fault => cases h
  | ok b => cases h; rfl

/-! ### Outcomes -/

@[simp] theorem outcome_bind (w : Work α) (f : α → Work β) (g : Graph) :
    ((w >>= f) g).1.outcome =
      (w g).1.outcome >>= fun a => (f a (w g).2).1.outcome := by
  show (Work.bind w f g).1.outcome = _
  unfold Work.bind
  rcases w g with ⟨⟨ws, outcome⟩, g'⟩
  cases outcome <;> rfl

@[simp] theorem liftReport_apply (report : Report α) (g : Graph) :
    (liftM report : Work α) g = (report, g) := rfl

/-! ### Faults -/

variable {P : Fault → Prop}

/-- The faults of a sequence are those of its parts, each run from the graph that was left to it. -/
theorem faultsIn_bind {w : Work α} {f : α → Work β} (hw : FaultsIn P (w g).1.outcome)
    (hf : ∀ ws a g', w g = (⟨ws, .ok a⟩, g') → FaultsIn P (f a g').1.outcome) :
    FaultsIn P ((w >>= f) g).1.outcome := by
  show FaultsIn P (Work.bind w f g).1.outcome
  unfold Work.bind
  rcases hrun : w g with ⟨⟨ws, outcome⟩, g'⟩
  rw [hrun] at hw
  cases outcome with
  | error fault => exact .error (hw fault rfl)
  | ok a => exact hf ws a g' hrun

theorem faultsIn_lift {outcome : Except Fault α} {f : α → Work β} (h : FaultsIn P outcome)
    (hf : ∀ a, outcome = .ok a → FaultsIn P (f a g).1.outcome) :
    FaultsIn P ((liftM outcome >>= f : Work β) g).1.outcome := by
  refine faultsIn_bind h ?_
  intro ws a g' hrun
  obtain ⟨ha, -, rfl⟩ := lift_inv hrun
  exact hf a ha

/-- Going through a list fails only where one of its items does. -/
theorem faultsIn_mapM' {f : α → Work β} {as : List α}
    (h : ∀ a ∈ as, ∀ g, FaultsIn P (f a g).1.outcome) (g : Graph) :
    FaultsIn P (as.mapM' f g).1.outcome := by
  induction as generalizing g with
  | nil => exact .ok _
  | cons a as ih =>
      obtain ⟨ha, has⟩ := List.forall_mem_cons.mp h
      refine faultsIn_bind (ha g) fun _ _ g₁ _ => ?_
      exact faultsIn_bind (ih has g₁) fun _ _ _ _ => .ok _

/-! ### Relations between graphs -/

/-- Wherever work starts, and however it ends, it leads to a graph in a relation to the first
one. -/
def Moves (R : Graph → Graph → Prop) (w : Work α) : Prop := ∀ g, R g (w g).2

namespace Moves

variable {R : Graph → Graph → Prop}

theorem pure [Std.Refl R] (a : α) : Moves R (pure a : Work α) := fun g => Std.Refl.refl g

theorem lift [Std.Refl R] (outcome : Except Fault α) : Moves R (liftM outcome : Work α) :=
  fun g => Std.Refl.refl g

theorem report [Std.Refl R] (report : Report α) : Moves R (liftM report : Work α) :=
  fun g => Std.Refl.refl g

theorem make {f : Graph → Graph × α} (h : ∀ g, R g (f g).1) : Moves R (Work.make f) := h

theorem change {f : Graph → Graph} (h : ∀ g, R g (f g)) : Moves R (Work.change f) := h

/-- What goes on with a result of reading may rely on it. -/
theorem lift_bind [Std.Refl R] {outcome : Except Fault α} {f : α → Work β}
    (h : ∀ a, outcome = .ok a → Moves R (f a)) : Moves R (liftM outcome >>= f) := by
  cases outcome with
  | error fault => exact fun g => Std.Refl.refl g
  | ok a => exact h a rfl

theorem bind [IsTrans Graph R] {w : Work α} {f : α → Work β} (hw : Moves R w)
    (hf : ∀ a, Moves R (f a)) : Moves R (w >>= f) := by
  intro g
  cases hrun : w g with
  | mk report g' =>
  obtain ⟨ws, outcome⟩ := report
  have hfirst : R g g' := by
    have hmoves := hw g
    rwa [hrun] at hmoves
  cases outcome with
  | error fault =>
      rw [bind_of_error hrun]
      exact hfirst
  | ok a =>
      rw [bind_of_ok hrun]
      exact IsTrans.trans _ _ _ hfirst (hf a g')

theorem mapM' [Std.Refl R] [IsTrans Graph R] {f : α → Work β} {as : List α}
    (h : ∀ a ∈ as, Moves R (f a)) : Moves R (as.mapM' f) := by
  induction as with
  | nil => exact .pure []
  | cons a as ih =>
      obtain ⟨ha, has⟩ := List.forall_mem_cons.mp h
      exact .bind ha fun b => .bind (ih has) fun bs => .pure (b :: bs)

end Moves

/-! Attaching steps and making recipes. -/

/-- Only a step that belongs to no other recipe is attached; any other one is left as it is. -/
theorem attach_cases (s : Ref .step) (r : Ref .recipe) (g : Graph) :
    ((∀ r' ∈ (g.steps.get s).recipe, r' = r) ∧
        attach s r g = ((pure () : Report Unit), g.setRecipe s r)) ∨
      ∃ fault, attach s r g = (Report.fail fault, g) := by
  unfold attach
  dsimp only
  split
  · rename_i hnone
    refine .inl ⟨fun r' hr' => ?_, rfl⟩
    rw [hnone] at hr'
    cases hr'
  · rename_i r' hr'
    split
    · rename_i heq
      refine .inl ⟨fun r'' hr'' => ?_, rfl⟩
      rw [hr'] at hr''
      exact (Option.some.inj hr'').symm.trans heq
    · exact .inr ⟨_, rfl⟩

section

variable {R : Graph → Graph → Prop} [Std.Refl R]
  (hset : ∀ g s r, (∀ r' ∈ (g.steps.get s).recipe, r' = r) → R g (Graph.setRecipe g s r))

include hset

theorem moves_attach (s : Ref .step) (r : Ref .recipe) : Moves R (attach s r) := by
  intro g
  rcases attach_cases s r g with ⟨hfree, hattach⟩ | ⟨fault, hattach⟩ <;> rw [hattach]
  · exact hset g s r hfree
  · exact Std.Refl.refl g

variable [IsTrans Graph R]

theorem moves_attachAll (r : Ref .recipe) (ss : List (Ref .step)) : Moves R (attachAll r ss) := by
  induction ss with
  | nil => exact .pure ()
  | cons s ss ih => exact .bind (moves_attach hset s r) fun _ => ih

theorem moves_makeRecipe
    (hadd : ∀ g recipe, recipe.portions = .int 1 → R g (Graph.addRecipe g recipe).1) (name : String)
    (is : List (Ref .ingredient)) (js : List (Ref .supply)) (ss : List (Ref .step)) :
    Moves R (makeRecipe name is js ss) :=
  .bind (.make fun g => hadd g _ rfl) fun r => .bind (moves_attachAll hset r ss) fun _ => .pure r

end

end Cookbook.Work
