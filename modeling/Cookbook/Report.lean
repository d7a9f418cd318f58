import Cookbook.Fault
import Cookbook.Warning
/-!
# Cookbook.Report

A result together with the warnings on the way to it. Reports are put one after the other: the
warnings of the first come before those of the second, and after a fault nothing more happens.
The warnings given before a fault are kept.
-/

namespace Cookbook

/-- A result or a fault, with the warnings in order. -/
structure Report (α : Type) where
  warnings : List Warning
  outcome : Except Fault α

namespace Report

variable {α β : Type}

/-- A result without warnings. -/
protected def pure (a : α) : Report α := ⟨[], .ok a⟩

/-- One report after the other. -/
protected def bind (r : Report α) (f : α → Report β) : Report β :=
  match r.outcome with
  | .error fault => ⟨r.warnings, .error fault⟩
  | .ok a => ⟨r.warnings ++ (f a).warnings, (f a).outcome⟩

instance : Monad Report where
  pure := Report.pure
  bind := Report.bind

/-- A single warning. -/
def warn (w : Warning) : Report Unit := ⟨[w], .ok ()⟩

/-- A fault without warnings. -/
def fail (fault : Fault) : Report α := ⟨[], .error fault⟩

/-- A result or a fault without warnings. -/
def ofExcept (outcome : Except Fault α) : Report α := ⟨[], outcome⟩

instance : MonadLift (Except Fault) Report where
  monadLift := ofExcept

@[ext] theorem ext {r s : Report α} (hw : r.warnings = s.warnings) (ho : r.outcome = s.outcome) :
    r = s := by
  cases r
  cases s
  simp_all

theorem map_id (r : Report α) : id <$> r = r := by
  cases r with
  | mk ws o => cases o <;> simp [Functor.map, Report.bind, Report.pure]

theorem bind_bind {γ : Type} (r : Report α) (f : α → Report β) (g : β → Report γ) :
    (r >>= f) >>= g = r >>= fun a => f a >>= g := by
  cases r with
  | mk ws o =>
    cases o with
    | error fault => rfl
    | ok a =>
      simp only [bind, Report.bind]
      split <;> simp_all

theorem pure_then (a : α) (f : α → Report β) : pure a >>= f = f a := by
  simp [bind, pure, Report.bind, Report.pure]

instance : LawfulMonad Report := LawfulMonad.mk' Report map_id pure_then bind_bind

end Report

end Cookbook
