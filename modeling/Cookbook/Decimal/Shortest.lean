import Cookbook.Decimal.Binary
/-!
# Cookbook.Decimal.Shortest

The fewest decimal digits that read back. The reals that round to `m · 2 ^ q` form an interval, its
ends included exactly when `m` is even. For one digit, then two, and so on, the value's two
neighbours on that decimal grid are tested; the first grid with a neighbour in the interval gives
the digits. Of two neighbours the nearer one is taken, and of two equally near the even one.
-/

namespace Cookbook.Decimal

/-- The decimal number `digits · 10 ^ exponent`. -/
structure Digits where
  digits : Nat
  exponent : Int
deriving DecidableEq, Repr

/-- `n · 10 ^ e` for a positive `e`, and `n` otherwise. -/
def raisedTen (n : Nat) (e : Int) : Nat := n * Nat.pow 10 e.toNat

/-- The interval around a positive number, in quarters of its last place `2 ^ (exponent - 2)`. -/
structure Interval where
  low : Nat
  value : Nat
  high : Nat
  closed : Bool
  exponent : Int

namespace Interval

/-- The reals that round to `m · 2 ^ q`; below a power of two the grid is twice as fine. -/
def around (m : Nat) (q : Int) : Interval where
  low := if m == Nat.pow 2 52 && leastExponent < q then 4 * m - 1 else 4 * m - 2
  value := 4 * m
  high := 4 * m + 2
  closed := m % 2 == 0
  exponent := q - 2

/-- A multiple of `10 ^ k` in the common unit of the interval and the grid. -/
def onGrid (i : Interval) (k : Int) (d : Nat) : Nat := raised (raisedTen d k) (-i.exponent)

/-- A multiple of the interval's unit in the common unit of the interval and the grid. -/
def inGrid (i : Interval) (k : Int) (n : Nat) : Nat := raised (raisedTen n (-k)) i.exponent

/-- Whether `d · 10 ^ k` lies in the interval. -/
def contains (i : Interval) (k : Int) (d : Nat) : Bool :=
  let x := i.onGrid k d
  let low := i.inGrid k i.low
  let high := i.inGrid k i.high
  if i.closed then low ≤ x && x ≤ high else low < x && x < high

/-- The multiple of `10 ^ k` in the interval next to the value, if there is one. -/
def onGrid? (i : Interval) (k : Int) : Option Nat :=
  let unit := i.onGrid k 1
  let value := i.inGrid k i.value
  let below := value / unit
  let past := value % unit
  match i.contains k below, i.contains k (below + 1) with
  | true, true =>
    if 2 * past < unit then some below
    else if unit < 2 * past then some (below + 1)
    else some (below + below % 2)
  | true, false => some below
  | false, true => some (below + 1)
  | false, false => none

/-- The exponent `e` with `10 ^ e ≤ value < 10 ^ (e + 1)`. -/
def floorLog10 (i : Interval) : Int :=
  let e := Int.fdiv ((i.value.log2 + i.exponent) * 30103) 100000
  let reaches (e : Int) : Bool := i.onGrid e 1 ≤ i.inGrid e i.value
  if reaches (e + 1) then e + 1 else if reaches e then e else e - 1

/-- The first grid with a hit, from `n` digits on and for at most `fuel` grids. -/
def search (i : Interval) (top : Int) : Nat → Nat → Option Digits
  | 0, _ => none
  | fuel + 1, n =>
    let k := top + 1 - n
    match i.onGrid? k with
    | some d => some ⟨d, k⟩
    | none => i.search top fuel (n + 1)

end Interval

/-- The number of digits that always suffices. -/
def enoughDigits : Nat := 17

/-- Without the zeros at the end, which the exponent takes over. -/
def Digits.normalize : Nat → Digits → Digits
  | 0, d => d
  | fuel + 1, d =>
    if d.digits != 0 && d.digits % 10 == 0 then normalize fuel ⟨d.digits / 10, d.exponent + 1⟩
    else d

/-- The shortest decimal that reads back as the positive number `m · 2 ^ q`. -/
def shortest (m : Nat) (q : Int) : Digits :=
  let i := Interval.around m q
  ((i.search i.floorLog10 enoughDigits 1).getD ⟨0, 0⟩).normalize (enoughDigits + 1)

end Cookbook.Decimal
