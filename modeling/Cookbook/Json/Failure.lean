/-!
# Cookbook.Json.Failure

Why a text is not JSON. A complaint names what is wrong; the place is given as a line and a column,
both from one, and as the number of characters before it. A place is known by what is left of the
text there.
-/

namespace Cookbook.Json

/-- What is wrong with a text at some place. -/
inductive Complaint
  | value
  | fieldName
  | colon
  | comma
  | moreText
  | openString
  | controlCharacter
  | escape
  | codePoint
  | byteOrderMark
deriving DecidableEq, Repr

/-- A complaint in words. -/
def Complaint.message : Complaint → String
  | value => "Expecting value"
  | fieldName => "Expecting property name enclosed in double quotes"
  | colon => "Expecting ':' delimiter"
  | comma => "Expecting ',' delimiter"
  | moreText => "Extra data"
  | openString => "Unterminated string starting at"
  | controlCharacter => "Invalid control character at"
  | escape => "Invalid \\escape"
  | codePoint => "Invalid \\uXXXX escape"
  | byteOrderMark => "Unexpected UTF-8 BOM (decode using utf-8-sig)"

/-- A place in a text. -/
structure Place where
  line : Nat
  column : Nat
  position : Nat
deriving DecidableEq, Repr

/-- The place after some text. -/
def Place.after (before : List Char) : Place where
  line := before.count '\n' + 1
  column := (before.reverse.takeWhile (· != '\n')).length + 1
  position := before.length

/-- Why a text cannot be read. -/
inductive Failure
  /-- The text is not JSON. -/
  | malformed (complaint : Complaint) (place : Place)
  /-- A whole number has too many digits. -/
  | tooManyDigits
deriving DecidableEq, Repr

/-- A complaint and its place in words. -/
def describe (complaint : Complaint) (place : Place) : String :=
  complaint.message ++ ": line " ++ Nat.repr place.line ++ " column " ++ Nat.repr place.column ++
    " (char " ++ Nat.repr place.position ++ ")"

/-- What stops a reader: a complaint with the text that is left, or a number that is too long. -/
inductive Stop
  | malformed (complaint : Complaint) (rest : List Char)
  | tooManyDigits
deriving DecidableEq, Repr

/-- The failure that a reader of a whole text reports when it stops. -/
def Stop.toFailure (whole : List Char) : Stop → Failure
  | malformed complaint rest =>
    .malformed complaint (Place.after (whole.take (whole.length - rest.length)))
  | tooManyDigits => .tooManyDigits

example : Place.after "a\nbc".toList = ⟨2, 3, 4⟩ := by cbv

end Cookbook.Json
