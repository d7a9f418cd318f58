import Cookbook.Decimal.Binary
import Cookbook.Value.Written
/-!
# Cookbook.Value.Arithmetic

Products, totals and amounts. Truth values count as one and zero. Whole numbers are exact; as soon
as one operand is a floating point number, so is the result. A text or a list times a whole number
is repeated that many times. A total adds from the left, starting at the whole number zero.
-/

namespace Cookbook

/-- A whole or a floating point number. -/
inductive Number
  | int (n : Int)
  | float (x : Float)

namespace Number

/-- A number as a value. -/
def toValue : Number → Value
  | int n => .int n
  | float x => .float x

/-- A number as a floating point number. -/
def toFloat : Number → Except Fault Float
  | float x => .ok x
  | int n =>
    match Decimal.ofInt? n with
    | some x => .ok x
    | none => .error .beyondFloat

/-- Combine two numbers, exactly if both are whole. -/
def combine (exact : Int → Int → Int) (rounded : Float → Float → Float) :
    Number → Number → Except Fault Number
  | int a, int b => .ok (int (exact a b))
  | a, b => do
    let x ← a.toFloat
    let y ← b.toFloat
    return float (rounded x y)

/-- The product of two numbers. -/
def times (a b : Number) : Except Fault Number := combine (· * ·) (· * ·) a b

/-- The sum of two numbers. -/
def plus (a b : Number) : Except Fault Number := combine (· + ·) (· + ·) a b

end Number

namespace Value

/-- The number that a value is. -/
def number? : Value → Option Number
  | bool b => some (.int (if b then 1 else 0))
  | int n => some (.int n)
  | float x => some (.float x)
  | _ => none

/-- The bound on the length of a text and on how often something is repeated. -/
def lengthBound : Int := Nat.pow 2 63

/-- How often something is repeated: not at all for a negative number. -/
def copies (n : Int) : Except Fault Nat :=
  if -lengthBound ≤ n ∧ n < lengthBound then .ok n.toNat else .error .tooManyCopies

/-- A text or a list, repeated. -/
def repeated (v : Value) (n : Int) : Except Fault Value :=
  match v with
  | text s => do
    let count ← copies n
    if s == "" then return text ""
    else if s.length * count < lengthBound then
      return text (String.join (List.replicate count s))
    else .error .tooManyCopies
  | list items => do
    let count ← copies n
    if items.isEmpty then return list []
    else return list (List.replicate count items).flatten
  | _ => .error .noProduct

/-- The product of two values. -/
def times (v w : Value) : Except Fault Value :=
  match v.number?, w.number? with
  | some a, some b => (a.times b).map Number.toValue
  | none, some (.int n) => v.repeated n
  | some (.int n), none => w.repeated n
  | _, _ => .error .noProduct

/-- Add a value to a number. -/
def addTo (total : Number) (v : Value) : Except Fault Number :=
  match v.number? with
  | some a => total.plus a
  | none => .error .noSum

/-- Add the products of pairs to a number, from the left. -/
def addProducts (total : Number) : List (Value × Value) → Except Fault Number
  | [] => .ok total
  | (v, w) :: pairs => do
    let product ← v.times w
    let total ← addTo total product
    addProducts total pairs

/-- The sum of the products of pairs. -/
def sumOfProducts (pairs : List (Value × Value)) : Except Fault Number :=
  addProducts (.int 0) pairs

/-- An amount as text: a floating point number that is whole is written without a point. -/
def writeAmount (v : Value) : Except Fault String :=
  match v with
  | float x =>
    match Decimal.toInt? x with
    | some n => writeInt n
    | none => v.write
  | _ => v.write

end Value

end Cookbook
