import Cookbook.Text.Fields
/-!
# Cookbook.Files.Path

Paths of files. A path is a list of names; it starts at the root or in the working directory. Empty
names and single dots are dropped when a path is read; two dots are kept, since only the files tell
where they lead.
-/

namespace Cookbook

/-- The path of a file; `root` is empty for a path from the working directory. -/
structure Path where
  root : String
  names : List String
deriving DecidableEq, Repr

namespace Path

/-- The root that leading slashes name: two slashes are a root of their own. -/
def rootOf : List Char → String
  | '/' :: '/' :: '/' :: _ => "/"
  | '/' :: '/' :: _ => "//"
  | '/' :: _ => "/"
  | _ => ""

/-- Whether a name stays in a path. -/
def isName (cs : List Char) : Bool := cs != [] && cs != ['.']

/-- The path that a text names. -/
def ofString (s : String) : Path where
  root := rootOf s.toList
  names := ((Text.fields '/' s.toList).filter isName).map String.ofList

/-- A path as text; the working directory is a dot. -/
def write (p : Path) : String :=
  let s := p.root ++ "/".intercalate p.names
  if s == "" then "." else s

/-- A path with one more name. -/
def child (p : Path) (name : String) : Path := { p with names := p.names ++ [name] }

/-- A path without its last name. -/
def parent (p : Path) : Path := { p with names := p.names.dropLast }

/-- Whether a path starts at the root. -/
def isAbsolute (p : Path) : Bool := p.root != ""

/-- The path that a text names from a path on; one that starts at the root is from there. -/
def join (p : Path) (s : String) : Path :=
  let q := ofString s
  bif q.isAbsolute then q else { p with names := p.names ++ q.names }

/-- Whether a path holds the character U+0000, which no file name may hold. -/
def hasNul (p : Path) : Bool := p.names.any (·.toList.contains '\x00')

/-- Names without single or double dots, from the root on: two dots take one name away. -/
def normalize (names : List String) : List String :=
  (names.foldl (fun here name => if name == ".." then here.drop 1 else name :: here) []).reverse

/-- The absolute path of a path in a working directory. -/
def resolve (working : List String) (p : Path) : Path where
  root := "/"
  names := normalize (if p.isAbsolute then p.names else working ++ p.names)

/-- A file name without its ending: what comes before the last dot, unless that is nothing or
nothing follows. -/
def stem (name : String) : String :=
  let ending := name.toList.reverse.takeWhile (· != '.')
  let before := (name.toList.reverse.dropWhile (· != '.')).drop 1
  if ending.isEmpty || before.isEmpty then name else String.ofList before.reverse

example : (ofString "./x//../d/").names = ["x", "..", "d"] := by decide +kernel
example : stem "a.b.json" = "a.b" ∧ stem ".json" = ".json" ∧ stem "a." = "a." := by decide +kernel

end Path

end Cookbook
