/-!
# Cookbook.Text.Utf8

Text as bytes. A character takes one to four bytes; the first one tells how many follow and
narrows the range of the second, so that no character has two forms and no surrogate has one.

Decoding gives a list with `none` for each stretch of bytes that cannot be read: the longest start
of a character that the next byte does not continue, or a byte that starts none.
-/

namespace Cookbook.Text.Utf8

/-- What a first byte announces: the bits it contributes, the number of bytes that follow, and the
range of the second byte. -/
structure Lead where
  bits : Nat
  following : Nat
  low : Nat
  high : Nat

/-- What a byte announces when it starts a character. -/
def lead? (b : Nat) : Option Lead :=
  if b < 0x80 then some ⟨b, 0, 0, 0⟩
  else if b < 0xC2 then none
  else if b < 0xE0 then some ⟨b - 0xC0, 1, 0x80, 0xBF⟩
  else if b == 0xE0 then some ⟨0, 2, 0xA0, 0xBF⟩
  else if b == 0xED then some ⟨0xD, 2, 0x80, 0x9F⟩
  else if b < 0xF0 then some ⟨b - 0xE0, 2, 0x80, 0xBF⟩
  else if b == 0xF0 then some ⟨0, 3, 0x90, 0xBF⟩
  else if b < 0xF4 then some ⟨b - 0xF0, 3, 0x80, 0xBF⟩
  else if b == 0xF4 then some ⟨4, 3, 0x80, 0x8F⟩
  else none

/-- Where a decoder stands: between characters, or inside one. -/
inductive State
  | between
  | inside (bits following low high : Nat)

/-- The state after a byte that starts a character or cannot be read. -/
def start (b : Nat) : Option Char × State :=
  match lead? b with
  | none => (none, .between)
  | some ⟨bits, 0, _, _⟩ => (some (Char.ofNat bits), .between)
  | some ⟨bits, following + 1, low, high⟩ => (none, .inside bits following low high)

/-- Read bytes from a state. -/
def decodeFrom : State → List UInt8 → List (Option Char)
  | .between, [] => []
  | .inside .., [] => [none]
  | .between, b :: bs =>
    match start b.toNat with
    | (c, .between) => c :: decodeFrom .between bs
    | (_, inside) => decodeFrom inside bs
  | .inside bits following low high, b :: bs =>
    let n := b.toNat
    if low ≤ n && n ≤ high then
      let bits := 64 * bits + (n - 0x80)
      match following with
      | 0 => some (Char.ofNat bits) :: decodeFrom .between bs
      | following + 1 => decodeFrom (.inside bits following 0x80 0xBF) bs
    else
      match start n with
      | (c, .between) => none :: c :: decodeFrom .between bs
      | (_, inside) => none :: decodeFrom inside bs

/-- The characters that bytes denote, with `none` for what cannot be read. -/
def decode (bs : List UInt8) : List (Option Char) := decodeFrom .between bs

/-- The text that bytes denote, if every byte can be read. -/
def read? (bs : List UInt8) : Option String :=
  ((decode bs).mapM id).map String.ofList

/-- The text that bytes denote, with a replacement character for what cannot be read. -/
def readLossy (bs : List UInt8) : String :=
  String.ofList ((decode bs).map (·.getD '\uFFFD'))

/-- A text as bytes. -/
def write (s : String) : List UInt8 := s.toUTF8.toList

example : read? [0x61, 0xC3, 0xB1, 0xF0, 0x9F, 0x98, 0x80] = some "añ😀" := by cbv
example : read? [0xC0, 0x80] = none ∧ read? [0xED, 0xA0, 0x80] = none := by constructor <;> cbv
example : readLossy [0x61, 0xE2, 0x82, 0x62] = "a\uFFFDb" := by cbv

end Cookbook.Text.Utf8
