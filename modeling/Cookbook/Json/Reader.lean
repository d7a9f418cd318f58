import Cookbook.Json.Token
import Cookbook.Text.Part
/-!
# Cookbook.Json.Reader

JSON texts as values. Besides the standard the reader takes the names of the numbers that are not
finite. Of fields with one key the last value counts, in the place of the first. Values may be
nested to any depth.
-/

namespace Cookbook.Json

/-- White space between the parts of a text. -/
def isSpace (c : Char) : Bool := c == ' ' || c == '\t' || c == '\n' || c == '\r'

/-- The text after white space. -/
def skipSpace (cs : List Char) : List Char := cs.dropWhile isSpace

/-- The words that stand for values. -/
def words : List (String × Value) :=
  [("null", .null), ("true", .bool true), ("false", .bool false),
    ("NaN", .float (Float.ofBits 0x7FF8000000000000)),
    ("Infinity", .float (Float.ofBits 0x7FF0000000000000)),
    ("-Infinity", .float (Float.ofBits 0xFFF0000000000000))]

/-- The word at the front of a text, and the rest. -/
def readWord? (cs : List Char) : Option (Value × List Char) :=
  words.findSome? fun (word, v) => (Text.after? word.toList cs).map fun rest => (v, rest)

/-- Fields in order of first appearance, each with its last value; the last field comes first. -/
def gather (fields : List (String × Value)) : List (String × Value) :=
  fields.foldr (fun (key, v) gathered => setField key v gathered) []

mutual

/-- A value at the front of a text. -/
def readValue : Nat → List Char → Except Stop (Value × List Char)
  | 0, cs => .error (.malformed .value cs)
  | fuel + 1, cs =>
    match cs with
    | '"' :: rest => (readString rest).map fun (s, rest) => (.text s, rest)
    | '[' :: rest =>
      match skipSpace rest with
      | ']' :: rest => .ok (.list [], rest)
      | rest => readItems fuel [] rest
    | '\x7b' :: rest =>
      match skipSpace rest with
      | '\x7d' :: rest => .ok (.record [], rest)
      | rest => readFields fuel [] rest
    | _ =>
      match readWord? cs with
      | some (v, rest) => .ok (v, rest)
      | none => readNumber cs

/-- The items of a list from one of them on; `read` holds those before, the last one first. -/
def readItems : Nat → List Value → List Char → Except Stop (Value × List Char)
  | 0, _, cs => .error (.malformed .value cs)
  | fuel + 1, read, cs => do
    let (v, rest) ← readValue fuel cs
    match skipSpace rest with
    | ']' :: rest => return (.list (v :: read).reverse, rest)
    | ',' :: rest => readItems fuel (v :: read) (skipSpace rest)
    | rest => .error (.malformed .comma rest)

/-- The fields of a record from one of them on; `read` holds those before, the last one first. -/
def readFields : Nat → List (String × Value) → List Char → Except Stop (Value × List Char)
  | 0, _, cs => .error (.malformed .value cs)
  | fuel + 1, read, cs =>
    match cs with
    | '"' :: rest => do
      let (key, rest) ← readString rest
      match skipSpace rest with
      | ':' :: rest =>
        let (v, rest) ← readValue fuel (skipSpace rest)
        match skipSpace rest with
        | '\x7d' :: rest => return (.record (gather ((key, v) :: read)), rest)
        | ',' :: rest => readFields fuel ((key, v) :: read) (skipSpace rest)
        | rest => .error (.malformed .comma rest)
      | rest => .error (.malformed .colon rest)
    | _ => .error (.malformed .fieldName cs)

end

/-- The value that a whole text denotes; every character allows two steps. -/
def readText (cs : List Char) : Except Stop Value :=
  if cs.head? == some '\uFEFF' then .error (.malformed .byteOrderMark cs)
  else do
    let (v, rest) ← readValue (2 * cs.length + 2) (skipSpace cs)
    match skipSpace rest with
    | [] => return v
    | rest => .error (.malformed .moreText rest)

/-- Read a JSON text. -/
def read (s : String) : Except Failure Value :=
  (readText s.toList).mapError (Stop.toFailure s.toList)

end Cookbook.Json
