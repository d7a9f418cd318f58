/-!
# Cookbook.Value

Plain data: what a stored file holds, and what may stand in any field of a recipe record. Whole
numbers have no bound and differ from floating point numbers; a record keeps its fields in order,
each key once.
-/

namespace Cookbook

/-- A piece of plain data. -/
inductive Value
  | null
  | bool (b : Bool)
  | int (n : Int)
  | float (x : Float)
  | text (s : String)
  | list (items : List Value)
  | record (fields : List (String × Value))
deriving Inhabited

namespace Value

/-- Whether a value counts as given: it is neither `null`, `false`, a zero, nor empty. -/
def isGiven : Value → Bool
  | null => false
  | bool b => b
  | int n => n != 0
  | float x => x != 0
  | text s => s != ""
  | list items => !items.isEmpty
  | record fields => !fields.isEmpty

/-- A value if it counts as given, and another one in its place otherwise. -/
def orElse (v default : Value) : Value := if v.isGiven then v else default

@[simp] theorem orElse_of_isGiven {v : Value} (h : v.isGiven = true) (d : Value) :
    v.orElse d = v := by simp [orElse, h]

@[simp] theorem orElse_of_not_isGiven {v : Value} (h : v.isGiven = false) (d : Value) :
    v.orElse d = d := by simp [orElse, h]

/-- Whether a value can be looked up among the keys of a record. -/
def isKey : Value → Bool
  | list _ | record _ => false
  | _ => true

end Value

/-- Set a field: in its place if the key is there, and at the end otherwise. -/
def setField (key : String) (v : Value) : List (String × Value) → List (String × Value)
  | [] => [(key, v)]
  | (k, w) :: fields => if k == key then (k, v) :: fields else (k, w) :: setField key v fields

end Cookbook
