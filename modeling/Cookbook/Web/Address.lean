import Cookbook.Text.Fields
import Cookbook.Text.Hexadecimal
import Cookbook.Text.Part
import Cookbook.Text.Utf8
/-!
# Cookbook.Web.Address

Addresses of the web interface. Escapes in a path are decoded before it is divided, so an escaped
slash divides it too. One line end after a fixed ending is let through. A path that is known with or
without slashes at its end leads to that other form.
-/

namespace Cookbook.Web

/-- The bytes of a path, its escapes replaced; `skip` characters belong to an escape already
read. -/
def unescape (skip : Nat) : List Char → List UInt8
  | [] => []
  | c :: cs =>
    match skip with
    | skip + 1 => unescape skip cs
    | 0 =>
      match c, cs with
      | '%', a :: b :: _ =>
        match Text.hexNumber? [a, b] with
        | some n => UInt8.ofNat n :: unescape 2 cs
        | none => Text.Utf8.write (String.singleton c) ++ unescape 0 cs
      | _, _ => Text.Utf8.write (String.singleton c) ++ unescape 0 cs

/-- A path without single and double dots between its slashes; two dots take one name away. -/
def withoutDots (cs : List Char) : List Char :=
  let kept := (Text.fields '/' cs).foldl
    (fun (kept : List (List Char)) name =>
      if name == ['.'] then kept
      else if name == ['.', '.'] then if kept.length ≤ 1 then kept else kept.drop 1
      else name :: kept)
    []
  ['/'].intercalate kept.reverse

/-- The path that an escaped path stands for. -/
def decodePath (path : String) : List Char :=
  (Text.Utf8.readLossy (unescape 0 (withoutDots path.toList))).toList

/-- What can be asked for. -/
inductive Route
  | root
  | health
  | index
  | recipe (id : String)
  | document (id : String)
deriving DecidableEq, Repr

namespace Route

/-- Where the recipes are. -/
def recipes : List Char := "/api/v1/recipes".toList

/-- Whether a text is a fixed one, perhaps with a line end after it. -/
def endsAs (fixed cs : List Char) : Bool := cs == fixed || cs == fixed ++ ['\n']

/-- The route below the recipes. -/
def below? (cs : List Char) : Option Route :=
  match Text.fields '/' cs with
  | [id] => if id.isEmpty then none else some (.recipe (String.ofList id))
  | [id, last] =>
    if !id.isEmpty && endsAs "markdown".toList last then some (.document (String.ofList id))
    else none
  | _ => none

/-- The route of a path. -/
def ofPath? (cs : List Char) : Option Route :=
  if endsAs ['/'] cs then some .root
  else if endsAs "/health".toList cs then some .health
  else if endsAs recipes cs then some .index
  else
    match Text.after? recipes cs with
    | some ('/' :: cs) => below? cs
    | _ => none

/-- The other form of a path: without the slashes at its end, or with one if there is none. -/
def otherForm (cs : List Char) : List Char :=
  if cs.getLast? == some '/' then (cs.reverse.dropWhile (· == '/')).reverse else cs ++ ['/']

/-- Whether a path that has no route has one in its other form. -/
def redirects (cs : List Char) : Bool := cs != ['/'] && (ofPath? (otherForm cs)).isSome

end Route

end Cookbook.Web
