import Cookbook.Fault
import Cookbook.Files.Path
import Cookbook.Text.Quoted
import Cookbook.Text.Utf8
/-!
# Cookbook.Files.Tree

Files and directories, and what can be done with them. A directory holds entries by name; of two
entries with one name only the first exists. Looking for a path follows its names one by one, so a
path leads nowhere if one of them is missing, is too long, or is below a file.
-/

namespace Cookbook

/-- A file with its bytes, or a directory with its entries. -/
inductive Node
  | file (bytes : List UInt8)
  | directory (entries : List (String × Node))
deriving Inhabited

namespace Node

/-- Whether a node is a file. -/
def isFile : Node → Bool
  | file _ => true
  | directory _ => false

/-- The names in a directory, in order of their characters. -/
def names : Node → List String
  | file _ => []
  | directory entries => (entries.map (·.1)).eraseDups.mergeSort fun a b => decide (a ≤ b)

/-- The node that plain names lead to. -/
def at? (node : Node) : List String → Option Node
  | [] => some node
  | name :: names =>
    match node with
    | file _ => none
    | directory entries => (entries.lookup name).bind fun n => n.at? names

/-- Set the entry with a name. -/
def setEntry (name : String) (node : Node) : List (String × Node) → List (String × Node)
  | [] => [(name, node)]
  | (k, n) :: entries =>
    if k == name then (k, node) :: entries else (k, n) :: setEntry name node entries

/-- Put a node where plain names lead to; missing directories are made, and below a file nothing is
put. -/
def put (node new : Node) : List String → Node
  | [] => new
  | name :: names =>
    match node with
    | file bytes => file bytes
    | directory entries =>
      let old := (entries.lookup name).getD (directory [])
      directory (setEntry name (put old new names) entries)

/-- Take away the node that plain names lead to. -/
def remove (node : Node) : List String → Node
  | [] => node
  | [name] =>
    match node with
    | file bytes => file bytes
    | directory entries => directory (entries.filter (·.1 != name))
  | name :: names =>
    match node with
    | file bytes => file bytes
    | directory entries =>
      match entries.lookup name with
      | none => node
      | some old => directory (setEntry name (remove old names) entries)

end Node

/-- All files, and the directory that paths start in. -/
structure Files where
  top : Node
  working : List String := []

namespace Files

/-- The greatest length of a name, in bytes. -/
def nameLimit : Nat := 255

/-- The greatest length of a path, in bytes. -/
def pathLimit : Nat := 4095

/-- Follow names from a node; `here` is where the node is, the last name first. -/
def follow (top : Node) (here : List String) (node : Node) :
    List String → Except FileFault (List String × Node)
  | [] => .ok (here, node)
  | name :: names =>
    match node with
    | .file _ => .error .notADirectory
    | .directory entries =>
      if name == ".." then
        match top.at? (here.drop 1).reverse with
        | some n => follow top (here.drop 1) n names
        | none => .error .missing
      else if nameLimit < name.utf8ByteSize then .error .nameTooLong
      else
        match entries.lookup name with
        | some n => follow top (name :: here) n names
        | none => .error .missing

/-- Where a path starts, the last name first. -/
def start (f : Files) (p : Path) : List String := if p.isAbsolute then [] else f.working.reverse

/-- Where a path leads to, the last name first, and what is there. -/
def locate (f : Files) (p : Path) : Except FileFault (List String × Node) :=
  if pathLimit < p.write.utf8ByteSize then .error .nameTooLong
  else
    match f.top.at? (f.start p).reverse with
    | some n => follow f.top (f.start p) n p.names
    | none => .error .missing

/-- A refusal of the file system for a path. -/
def refusal (cause : FileFault) (p : Path) : Fault := .file cause (Text.quoted p.write)

/-- What a path leads to. Nothing there is no fault, but a name that is too long is one. -/
def find? (f : Files) (p : Path) : Except Fault (Option Node) :=
  if p.hasNul then .ok none
  else
    match f.locate p with
    | .ok (_, n) => .ok (some n)
    | .error .nameTooLong => .error (refusal .nameTooLong p)
    | .error _ => .ok none

/-- Whether a path leads to anything. -/
def hasNode (f : Files) (p : Path) : Except Fault Bool := (f.find? p).map (·.isSome)

/-- Whether a path leads to a file. -/
def hasFile (f : Files) (p : Path) : Except Fault Bool := (f.find? p).map (·.any Node.isFile)

/-- The bytes of a file. -/
def readBytes (f : Files) (p : Path) : Except FileFault (List UInt8) :=
  match f.locate p with
  | .ok (_, .file bytes) => .ok bytes
  | .ok (_, .directory _) => .error .isADirectory
  | .error cause => .error cause

/-- The names in a directory, in order; a file and nothing hold no names. -/
def namesIn (f : Files) (p : Path) : List String :=
  match f.locate p with
  | .ok (_, n) => n.names
  | .error _ => []

/-- Follow names and make the directories that are missing. -/
def makeFrom (top : Node) (here : List String) : List String → Except FileFault Node
  | [] => .ok top
  | name :: names =>
    if name == ".." then makeFrom top (here.drop 1) names
    else if nameLimit < name.utf8ByteSize then .error .nameTooLong
    else
      match top.at? (name :: here).reverse with
      | some (.directory _) => makeFrom top (name :: here) names
      | some (.file _) => .error (if names.isEmpty then .alreadyThere else .notADirectory)
      | none => makeFrom (top.put (.directory []) (name :: here).reverse) (name :: here) names

/-- Make a directory and those above it, unless they are there. -/
def makeDirectories (f : Files) (p : Path) : Except Fault Files :=
  if p.hasNul then .error .nulInPath
  else if pathLimit < p.write.utf8ByteSize then .error (refusal .nameTooLong p)
  else
    match makeFrom f.top (f.start p) p.names with
    | .ok top => .ok { f with top }
    | .error cause => .error (refusal cause p)

/-- Where a file can be written, the last name first: over a file or beside nothing. -/
def target (f : Files) (p : Path) : Except FileFault (List String) :=
  match f.locate p, p.names.getLast? with
  | .ok (_, .directory _), _ => .error .isADirectory
  | .ok (here, .file _), _ => .ok here
  | .error .missing, some name =>
    match f.locate p.parent with
    | .ok (here, .directory _) => .ok (name :: here)
    | .ok (_, .file _) => .error .notADirectory
    | .error cause => .error cause
  | .error cause, _ => .error cause

/-- Write a text to a file, over what is there. -/
def writeText (f : Files) (p : Path) (s : String) : Except Fault Files :=
  if p.hasNul then .error .nulInPath
  else
    match f.target p with
    | .ok here => .ok { f with top := f.top.put (.file (Text.Utf8.write s)) here.reverse }
    | .error cause => .error (refusal cause p)

end Files

end Cookbook
