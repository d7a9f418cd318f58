import Cookbook.Value.Written
/-!
# Cookbook.Portions

The portions that a request asks for. A request may hold any value; it counts if its text, without
the white space around it, is a positive whole number. Otherwise a default takes its place.
-/

namespace Cookbook.Portions

/-- The portions that a value asks for. -/
def requested? : Value → Option Int
  | .null | .bool _ => none
  | v =>
    match v.write with
    | .error _ => none
    | .ok s => (Text.Integer.read? (Text.strip s)).filter (0 < ·)

/-- The portions that a value asks for, or a default. -/
def orDefault (v : Value) (default : Int) : Int := (requested? v).getD default

example : orDefault (.text " +4 ") 1 = 4 ∧ orDefault (.bool true) 2 = 2 := by
  constructor <;> cbv

end Cookbook.Portions
