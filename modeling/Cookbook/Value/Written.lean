import Cookbook.Decimal.Written
import Cookbook.Fault
import Cookbook.Text.Integer
import Cookbook.Text.Quoted
import Cookbook.Value
/-!
# Cookbook.Value.Written

Values as text. A text is written as it is. Every other value is written as inside a list or a
record, where texts stand in quotes. A whole number of too many digits cannot be written.
-/

namespace Cookbook.Value

/-- A whole number as text. -/
def writeInt (n : Int) : Except Fault String :=
  match Text.Integer.write? n with
  | some s => .ok s
  | none => .error .tooManyDigits

mutual

/-- A value as it stands inside a list or a record. -/
def quoted : Value → Except Fault String
  | null => .ok "None"
  | bool b => .ok (if b then "True" else "False")
  | int n => writeInt n
  | float x => .ok (Decimal.write x)
  | text s => .ok (Text.quoted s)
  | list items => (quotedItems items).map fun parts => "[" ++ ", ".intercalate parts ++ "]"
  | record fields =>
    (quotedFields fields).map fun parts => "\x7b" ++ ", ".intercalate parts ++ "\x7d"

/-- The items of a list. -/
def quotedItems : List Value → Except Fault (List String)
  | [] => .ok []
  | v :: items => do
    let part ← quoted v
    let parts ← quotedItems items
    return part :: parts

/-- The fields of a record, each with its key. -/
def quotedFields : List (String × Value) → Except Fault (List String)
  | [] => .ok []
  | (key, v) :: fields => do
    let part ← quoted v
    let parts ← quotedFields fields
    return (Text.quoted key ++ ": " ++ part) :: parts

end

/-- A value as text. -/
def write : Value → Except Fault String
  | text s => .ok s
  | v => v.quoted

example : write (record [("a", list [null, text "b"])]) = .ok "\x7b'a': [None, 'b']\x7d" := by cbv

end Cookbook.Value
