import Cookbook.Decimal.Shortest
import Cookbook.Text.Integer
/-!
# Cookbook.Decimal.Written

Floating point numbers as text. A number is written with the fewest digits that read back: in
positional form with at least one digit after the point when its decimal exponent is from -4 to
15, and with an exponent of at least two digits otherwise.

Reading accepts the same forms and more: a sign, underscores between digits, a point anywhere
beside a digit, an exponent, and the names of the values that are not finite.
-/

namespace Cookbook.Decimal

/-- Which decimal exponents are written in positional form. -/
def isPositional (exponent : Int) : Bool := -4 ≤ exponent && exponent < 16

/-- Digits with a point after `position` of them, zeros filled in at either side. -/
def positional (digits : List Char) (position : Int) : List Char :=
  let n := position.toNat
  if position ≤ 0 then '0' :: '.' :: (List.replicate (-position).toNat '0' ++ digits)
  else if digits.length ≤ n then
    digits ++ List.replicate (n - digits.length) '0' ++ ['.', '0']
  else digits.take n ++ '.' :: digits.drop n

/-- Digits with a point after the first, and an exponent. -/
def scientific (digits : List Char) (exponent : Int) : List Char :=
  let power := Nat.toDigits 10 exponent.natAbs
  let power := List.replicate (2 - power.length) '0' ++ power
  let sign := if exponent < 0 then '-' else '+'
  match digits with
  | first :: more@(_ :: _) => first :: '.' :: more ++ 'e' :: sign :: power
  | _ => digits ++ 'e' :: sign :: power

/-- A decimal number as text. -/
def Digits.write (d : Digits) : List Char :=
  let digits := Nat.toDigits 10 d.digits
  let position := d.exponent + digits.length
  if isPositional (position - 1) then positional digits position
  else scientific digits (position - 1)

/-- A floating point number as text. -/
def write (x : Float) : String :=
  match parts x with
  | .nan => "nan"
  | .infinite negative => if negative then "-inf" else "inf"
  | .finite negative m q =>
    let digits := if m == 0 then ['0', '.', '0'] else (shortest m q).write
    String.ofList (if negative then '-' :: digits else digits)

/-! ### Reading -/

/-- The exponents beyond which a decimal number is infinite or zero, whatever its digits. -/
def exponentBound : Int := 400

/-- The number nearest to `± digits · 10 ^ exponent`; beyond the greatest one it is infinite. -/
def ofDigits (negative : Bool) (digits : List Nat) (exponent : Int) : Float :=
  let n := Text.Integer.ofDigits digits
  let top := exponent + (Nat.repr n).length
  let infinite := Float.ofBits 0x7FF0000000000000
  let magnitude :=
    if n == 0 || top < -exponentBound then Float.ofBits 0
    else if exponentBound < top then infinite
    else (nearest? (raisedTen n exponent) (raisedTen 1 (-exponent))).getD infinite
  if negative then -magnitude else magnitude

/-- Digits with single underscores between them, and what follows; `closed` says whether the
character before was a digit. -/
def spanDigits : Bool → List Char → Option (List Nat × List Char)
  | closed, [] => if closed then some ([], []) else none
  | closed, c :: cs =>
    match Text.digitValue? c with
    | some d => (spanDigits true cs).map fun (ds, rest) => (d :: ds, rest)
    | none =>
      if closed && c == '_' then spanDigits false cs
      else if closed then some ([], c :: cs)
      else none

/-- Digits if there are any, and what follows. -/
def spanOptionalDigits (cs : List Char) : Option (List Nat × List Char) :=
  match cs with
  | c :: _ => if (Text.digitValue? c).isSome then spanDigits false cs else some ([], cs)
  | [] => some ([], [])

/-- The exponent at the end of a number. -/
def readExponent? : List Char → Option Int
  | [] => some 0
  | e :: cs =>
    if e == 'e' || e == 'E' then
      let (negative, cs) :=
        match cs with
        | '-' :: cs => (true, cs)
        | '+' :: cs => (false, cs)
        | cs => (false, cs)
      match spanDigits false cs with
      | some (ds, []) =>
        let n : Int := Text.Integer.ofDigits ds
        some (if negative then -n else n)
      | _ => none
    else none

/-- A number without its sign. -/
def readMagnitude? (negative : Bool) (cs : List Char) : Option Float :=
  let name := String.ofList (cs.map Char.toLower)
  if name == "inf" || name == "infinity" then
    let infinite := Float.ofBits 0x7FF0000000000000
    some (if negative then -infinite else infinite)
  else if name == "nan" then some (Float.ofBits 0x7FF8000000000000)
  else do
    let (whole, rest) ← spanOptionalDigits cs
    let (fraction, rest) ←
      match rest with
      | '.' :: rest => spanOptionalDigits rest
      | rest => some ([], rest)
    if whole.isEmpty && fraction.isEmpty then none
    else
      let exponent ← readExponent? rest
      some (ofDigits negative (whole ++ fraction) (exponent - fraction.length))

/-- The floating point number that a text denotes. -/
def read? (s : String) : Option Float :=
  match Text.trimBy Text.Integer.isPadding s.toList with
  | '-' :: cs => readMagnitude? true cs
  | '+' :: cs => readMagnitude? false cs
  | cs => readMagnitude? false cs

end Cookbook.Decimal
