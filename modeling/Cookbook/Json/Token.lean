import Cookbook.Decimal.Written
import Cookbook.Json.Failure
import Cookbook.Text.Hexadecimal
import Cookbook.Value
/-!
# Cookbook.Json.Token

Strings and numbers of a JSON text. Every reader gives what it read and the rest of the text.

In a string an escaped code unit stands for a character of its own or, two by two, for one beyond
the basic plane; half of such a pair alone is read as the replacement character. A number with
neither a fraction nor an exponent is whole.
-/

namespace Cookbook.Json

/-! ### Strings -/

/-- A part of a string: a character, or a code unit that was escaped by its number. -/
inductive Piece
  | plain (c : Char)
  | unit (n : Nat)

/-- The character that a letter after a backslash stands for. -/
def escape? : Char → Option Char
  | '"' => some '"'
  | '\\' => some '\\'
  | '/' => some '/'
  | 'b' => some '\x08'
  | 'f' => some '\x0c'
  | 'n' => some '\n'
  | 'r' => some '\r'
  | 't' => some '\t'
  | _ => none

/-- The pieces of a string up to its closing quote; `opening` is the text from the opening quote
on and `read` holds the pieces so far, the last one first. -/
def readPieces (opening : List Char) (read : List Piece) :
    List Char → Except Stop (List Piece × List Char)
  | [] => .error (.malformed .openString opening)
  | c :: cs =>
    if c == '"' then .ok (read.reverse, cs)
    else if c == '\\' then
      match cs with
      | [] => .error (.malformed .openString opening)
      | e :: digits =>
        if e == 'u' then
          match digits with
          | d₁ :: d₂ :: d₃ :: d₄ :: rest =>
            match Text.hexNumber? [d₁, d₂, d₃, d₄], rest.isEmpty with
            | some n, false => readPieces opening (.unit n :: read) rest
            | _, _ => .error (.malformed .codePoint (e :: digits))
          | _ => .error (.malformed .codePoint (e :: digits))
        else
          match escape? e with
          | some x => readPieces opening (.plain x :: read) digits
          | none => .error (.malformed .escape (c :: e :: digits))
    else if c.toNat ≤ 0x1F then .error (.malformed .controlCharacter (c :: cs))
    else readPieces opening (.plain c :: read) cs

/-- Whether a code unit is the first half of a pair. -/
def isHighHalf (n : Nat) : Bool := 0xD800 ≤ n && n ≤ 0xDBFF

/-- Whether a code unit is the second half of a pair. -/
def isLowHalf (n : Nat) : Bool := 0xDC00 ≤ n && n ≤ 0xDFFF

/-- The character of a code unit that is not part of a pair. -/
def lone (n : Nat) : Char := if isHighHalf n || isLowHalf n then '\uFFFD' else Char.ofNat n

/-- The characters that pieces stand for, in front of `joined`; the last piece comes first. -/
def joinPieces (joined : List Char) : List Piece → List Char
  | [] => joined
  | .plain c :: pieces => joinPieces (c :: joined) pieces
  | .unit low :: .unit high :: pieces =>
    if isHighHalf high && isLowHalf low then
      joinPieces (Char.ofNat (0x10000 + (high - 0xD800) * 0x400 + (low - 0xDC00)) :: joined) pieces
    else joinPieces (lone low :: joined) (.unit high :: pieces)
  | .unit n :: pieces => joinPieces (lone n :: joined) pieces

/-- A string, after its opening quote. -/
def readString (cs : List Char) : Except Stop (String × List Char) := do
  let (pieces, rest) ← readPieces ('"' :: cs) [] cs
  return (String.ofList (joinPieces [] pieces.reverse), rest)

/-! ### Numbers -/

/-- The values of the decimal digits at the front, and the rest. -/
def readDigits (cs : List Char) : List Nat × List Char :=
  ((cs.takeWhile Char.isDigit).map fun c => c.toNat - 48, cs.dropWhile Char.isDigit)

/-- The whole part of a number: a zero alone, or digits that do not start with a zero. -/
def readWhole? (cs : List Char) : Option (List Nat × List Char) :=
  match cs with
  | '0' :: rest => some ([0], rest)
  | _ =>
    let (digits, rest) := readDigits cs
    if digits.isEmpty then none else some (digits, rest)

/-- The digits of a fraction, none if there is no fraction. -/
def readFraction (cs : List Char) : List Nat × List Char :=
  match cs with
  | '.' :: rest =>
    let (digits, rest) := readDigits rest
    if digits.isEmpty then ([], cs) else (digits, rest)
  | _ => ([], cs)

/-- An exponent, if there is one. -/
def readExponent (cs : List Char) : Option Int × List Char :=
  match cs with
  | e :: rest =>
    if e == 'e' || e == 'E' then
      let (negative, rest) : Bool × List Char :=
        match rest with
        | '-' :: rest => (true, rest)
        | '+' :: rest => (false, rest)
        | rest => (false, rest)
      let (digits, rest) := readDigits rest
      let n : Int := Text.Integer.ofDigits digits
      if digits.isEmpty then (none, cs) else (some (if negative then -n else n), rest)
    else (none, cs)
  | [] => (none, cs)

/-- A number. -/
def readNumber (cs : List Char) : Except Stop (Value × List Char) :=
  let (negative, unsigned) : Bool × List Char :=
    match cs with
    | '-' :: rest => (true, rest)
    | rest => (false, rest)
  match readWhole? unsigned with
  | none => .error (.malformed .value cs)
  | some (whole, rest) =>
    let (fraction, rest) := readFraction rest
    let (exponent, rest) := readExponent rest
    if fraction.isEmpty && exponent.isNone then
      if whole.length ≤ Text.Integer.digitLimit then
        let n : Int := Text.Integer.ofDigits whole
        .ok (.int (if negative then -n else n), rest)
      else .error .tooManyDigits
    else
      let x := Decimal.ofDigits negative (whole ++ fraction) (exponent.getD 0 - fraction.length)
      .ok (.float x, rest)

end Cookbook.Json
