import Cookbook.Report
/-!
# Cookbook.Proofs.Report

The outcome of a report apart from its warnings. Warnings never decide how a report goes on, so the
outcome of a sequence is the sequence of the outcomes; with the equations below a `do` block of
reports is opened into one that may only fail.
-/

namespace Cookbook.Report

variable {α β : Type}

@[simp] theorem outcome_bind (r : Report α) (f : α → Report β) :
    (r >>= f).outcome = r.outcome >>= fun a => (f a).outcome := by
  obtain ⟨ws, outcome⟩ := r
  cases outcome <;> rfl

@[simp] theorem outcome_map (f : α → β) (r : Report α) :
    (f <$> r).outcome = r.outcome.map f := by
  obtain ⟨ws, outcome⟩ := r
  cases outcome <;> rfl

@[simp] theorem warnings_map (f : α → β) (r : Report α) : (f <$> r).warnings = r.warnings := by
  obtain ⟨ws, outcome⟩ := r
  cases outcome
  · rfl
  · exact List.append_nil ws

@[simp] theorem outcome_lift (outcome : Except Fault α) :
    (liftM outcome : Report α).outcome = outcome := rfl

theorem lift_ok_then (a : α) (f : α → Report β) :
    (liftM (.ok a : Except Fault α) : Report α) >>= f = f a := pure_then a f

/-- What comes after a first report adds its warnings at the end. -/
theorem bind_of_ok {r : Report α} {ws : List Warning} {a : α} (h : r = ⟨ws, .ok a⟩)
    (f : α → Report β) : r >>= f = ⟨ws ++ (f a).warnings, (f a).outcome⟩ := by
  rw [h]
  rfl

end Cookbook.Report
