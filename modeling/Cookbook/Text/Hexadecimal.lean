/-!
# Cookbook.Text.Hexadecimal

Numbers in hexadecimal: reading takes both cases, writing gives small letters.
-/

namespace Cookbook.Text

/-- The value of a hexadecimal digit. -/
def hexDigit? (c : Char) : Option Nat :=
  let n := c.toNat
  if 48 ≤ n ∧ n ≤ 57 then some (n - 48)
  else if 65 ≤ n ∧ n ≤ 70 then some (n - 55)
  else if 97 ≤ n ∧ n ≤ 102 then some (n - 87)
  else none

/-- The number that hexadecimal digits denote. -/
def hexNumber? (cs : List Char) : Option Nat :=
  (cs.mapM hexDigit?).map fun ds => ds.foldl (fun n d => 16 * n + d) 0

/-- A number in hexadecimal, padded with zeros to a width. -/
def paddedHex (width n : Nat) : List Char :=
  let digits := Nat.toDigits 16 n
  List.replicate (width - digits.length) '0' ++ digits

example : hexNumber? "1fA".toList = some 506 ∧ paddedHex 4 506 = "01fa".toList := by
  decide +kernel

end Cookbook.Text
