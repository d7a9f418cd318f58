import Cookbook.Fault
import Cookbook.Value
/-!
# Cookbook.Catalog.Id

The ids of recipes. An id is made of small letters, digits and hyphens and does not start with a
hyphen, so it never leads out of the directory of recipes. One line end after it is let through.
-/

namespace Cookbook.Catalog

/-- The characters an id may start with. -/
def isIdStart (c : Char) : Bool := ('a' ≤ c && c ≤ 'z') || ('0' ≤ c && c ≤ '9')

/-- The characters of an id. -/
def isIdChar (c : Char) : Bool := isIdStart c || c == '-'

/-- Without one line end at the end. -/
def dropLineEnd (cs : List Char) : List Char :=
  if cs.getLast? == some '\n' then cs.dropLast else cs

/-- Whether a text is an id. -/
def isId (s : String) : Bool :=
  match dropLineEnd s.toList with
  | [] => false
  | c :: cs => isIdStart c && cs.all isIdChar

/-- Whether a value is an id. What does not count as given is none; of what does, only a text can
be asked about. -/
def isIdValue (v : Value) : Except Fault Bool :=
  match v.orElse (.text "") with
  | .text s => .ok (isId s)
  | _ => .error .notAText

example : isId "a-1" ∧ isId "a\n" ∧ ¬ isId "-a" ∧ ¬ isId "a\n\n" ∧ ¬ isId "" := by decide +kernel

end Cookbook.Catalog
