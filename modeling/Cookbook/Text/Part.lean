/-!
# Cookbook.Text.Part

Texts inside texts: at the front, or at any place.
-/

namespace Cookbook.Text

/-- What follows a text that stands at the front of another. -/
def after? : List Char → List Char → Option (List Char)
  | [], cs => some cs
  | _ :: _, [] => none
  | p :: ps, c :: cs => if p = c then after? ps cs else none

theorem after?_append (ps rest : List Char) : after? ps (ps ++ rest) = some rest := by
  induction ps with
  | nil => rfl
  | cons p ps ih => simpa [after?] using ih

/-- A text stands at the front of exactly those that continue it. -/
theorem after?_eq_some_iff {ps cs rest : List Char} :
    after? ps cs = some rest ↔ cs = ps ++ rest := by
  constructor
  · intro h
    induction ps generalizing cs with
    | nil => simpa [after?] using h
    | cons p ps ih =>
      cases cs with
      | nil => cases h
      | cons c cs =>
        by_cases hpc : p = c
        · have hrest : after? ps cs = some rest := by simpa [after?, hpc] using h
          rw [ih hrest, hpc, List.cons_append]
        · simp [after?, hpc] at h
  · intro h
    rw [h]
    exact after?_append ps rest

/-- Whether a text stands at some place of another. -/
def occursIn (ps : List Char) : List Char → Bool
  | [] => ps.isEmpty
  | c :: cs => (after? ps (c :: cs)).isSome || occursIn ps cs

/-- The characters of a text from one place up to, but not including, another one. -/
def slice (s : String) (i j : Nat) : String := String.ofList (s.toList.extract i j)

end Cookbook.Text
