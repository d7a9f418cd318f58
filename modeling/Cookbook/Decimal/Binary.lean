/-!
# Cookbook.Decimal.Binary

Floating point numbers as exact values. A finite number is `m · 2 ^ q` with a whole `m`; in this
form its comparison with decimals is arithmetic on natural numbers. In the other direction a
quotient of natural numbers is rounded to the nearest number, a half to the even neighbour.
-/

namespace Cookbook.Decimal

/-- A floating point number taken apart; a finite one is `± mantissa · 2 ^ exponent`. -/
inductive Parts
  | nan
  | infinite (negative : Bool)
  | finite (negative : Bool) (mantissa : Nat) (exponent : Int)

/-- The exponent of the finest grid of numbers. -/
def leastExponent : Int := -1074

/-- Take a number apart. -/
def parts (x : Float) : Parts :=
  let bits := x.toBits.toNat
  let negative := bits / Nat.pow 2 63 == 1
  let field : Nat := bits / Nat.pow 2 52 % 2048
  let fraction := bits % Nat.pow 2 52
  if field == 2047 then
    if fraction == 0 then .infinite negative else .nan
  else if field == 0 then .finite negative fraction leastExponent
  else .finite negative (Nat.pow 2 52 + fraction) ((field : Int) - 1075)

/-- `n · 2 ^ e` for a positive `e`, and `n` otherwise. -/
def raised (n : Nat) (e : Int) : Nat := n * Nat.pow 2 e.toNat

/-- A quotient rounded to the nearest whole number, a half to the even neighbour. -/
def roundDiv (num den : Nat) : Nat :=
  let q := num / den
  let r := num % den
  if 2 * r < den then q else if den < 2 * r then q + 1 else q + q % 2

/-- The exponent `e` with `2 ^ e ≤ num / den < 2 ^ (e + 1)`. -/
def floorLog2 (num den : Nat) : Int :=
  let e : Int := (num.log2 : Int) - (den.log2 : Int)
  if raised den e ≤ raised num (-e) then e else e - 1

/-- The number nearest to a quotient, or `none` beyond the greatest one. -/
def nearest? (num den : Nat) : Option Float :=
  if num == 0 then some (Float.ofBits 0)
  else
    let q := max (floorLog2 num den - 52) leastExponent
    let m := roundDiv (raised num (-q)) (raised den q)
    let bits :=
      if m < Nat.pow 2 52 then m
      else (q + 1075).toNat * Nat.pow 2 52 + (m - Nat.pow 2 52)
    if bits < 2047 * Nat.pow 2 52 then some (Float.ofBits (UInt64.ofNat bits)) else none

/-- The number nearest to a whole number, or `none` beyond the greatest one. -/
def ofInt? (n : Int) : Option Float :=
  (nearest? n.natAbs 1).map fun x => if n < 0 then -x else x

/-- The whole number that a floating point number is, if it is one. -/
def toInt? (x : Float) : Option Int :=
  match parts x with
  | .finite negative m q =>
    let scaled := raised m q
    let unit := raised 1 (-q)
    if scaled % unit == 0 then
      let n : Int := (scaled / unit : Nat)
      some (if negative then -n else n)
    else none
  | _ => none

end Cookbook.Decimal
