import Cookbook.Text.Blank
import Cookbook.Text.Digit
/-!
# Cookbook.Text.Integer

Whole numbers as text. A number is read from optional padding, an optional sign and decimal
digits of any script, between which single underscores may stand. Both directions are bounded:
no text of more than `digitLimit` digits is read or written.
-/

namespace Cookbook.Text.Integer

/-- The greatest number of digits that a number may have as text. -/
def digitLimit : Nat := 4300

/-- The white space that may surround a number: all of it but the information separators. -/
def isPadding (c : Char) : Bool := isBlank c && !(0x1C ≤ c.toNat && c.toNat ≤ 0x1F)

/-- The digits of a run in which single underscores may stand between digits; `closed` says whether
the character before was a digit, after which the run may end. -/
def digits? : Bool → List Char → Option (List Nat)
  | closed, [] => if closed then some [] else none
  | closed, c :: cs =>
    match digitValue? c with
    | some d => (digits? true cs).map (d :: ·)
    | none => if closed && c == '_' then digits? false cs else none

/-- The number that decimal digits denote. -/
def ofDigits (ds : List Nat) : Nat := ds.foldl (fun n d => 10 * n + d) 0

/-- The number that an unsigned run of digits denotes, within the limit. -/
def magnitude? (cs : List Char) : Option Nat :=
  (digits? false cs).bind fun ds => if ds.length ≤ digitLimit then some (ofDigits ds) else none

/-- The number that a text denotes. -/
def read? (s : String) : Option Int :=
  match trimBy isPadding s.toList with
  | '+' :: cs => (magnitude? cs).map Int.ofNat
  | '-' :: cs => (magnitude? cs).map fun n => -Int.ofNat n
  | cs => (magnitude? cs).map Int.ofNat

/-- A number as text, within the limit. -/
def write? (n : Int) : Option String :=
  let digits := Nat.repr n.natAbs
  if digits.length ≤ digitLimit then some (if n < 0 then "-" ++ digits else digits) else none

example : read? " +1_0 " = some 10 := by cbv
example : read? "1__0" = none ∧ read? "_1" = none ∧ read? "+ 1" = none := by constructor <;> cbv

end Cookbook.Text.Integer
