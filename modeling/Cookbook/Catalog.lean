import Cookbook.Catalog.Id
import Cookbook.Files.Tree
import Cookbook.Json.Reader
import Cookbook.Report
import Cookbook.Text.Newline
import Cookbook.Value.Written
/-!
# Cookbook.Catalog

Recipes in a directory, one file for each, named for its id. An index file lists them; if there is
none, or it cannot be used, the directory is scanned. Damage to a file is reported as a warning: a
recipe in such a file is not found, and the scan passes it over.

Two kinds of damage are faults instead: bytes that are no text, and numbers with too many digits.
-/

namespace Cookbook

/-- The directory that holds the recipes. -/
structure Catalog where
  directory : Path

/-- A recipe as listed. -/
structure IndexEntry where
  id : String
  name : String
deriving DecidableEq, Repr

/-- Why a file cannot be used. -/
inductive Damage
  | refused (cause : FileFault) (path : Path)
  | malformed (complaint : Json.Complaint) (place : Json.Place)

/-- Damage in words. -/
def Damage.message : Damage → String
  | refused cause path => (Files.refusal cause path).message
  | malformed complaint place => Json.describe complaint place

namespace Catalog

/-- The catalog in a data directory. -/
def ofDataDir (dir : String) : Catalog := ⟨(Path.ofString dir).child "recipes"⟩

/-- The name of the index file. -/
def indexName : String := "index.json"

/-- The ending of the files of recipes. -/
def ending : String := ".json"

/-- The path of the index. -/
def indexPath (c : Catalog) : Path := c.directory.child indexName

/-- The path of a recipe. -/
def recipePath (c : Catalog) (id : String) : Path := c.directory.join (id ++ ending)

/-- The value in a file, or the damage to it. -/
def readValue (files : Files) (p : Path) : Except Fault (Except Damage Value) :=
  match files.readBytes p with
  | .error cause => .ok (.error (.refused cause p))
  | .ok bytes =>
    match Text.Utf8.read? bytes with
    | none => .error .notUtf8
    | some s =>
      match Json.read (Text.withLineFeeds s) with
      | .ok v => .ok (.ok v)
      | .error (.malformed complaint place) => .ok (.error (.malformed complaint place))
      | .error .tooManyDigits => .error .tooManyDigits

/-! ### Reading a recipe -/

/-- There is no such recipe. -/
def notFound {α : Type} (id reason : String) : Report α := Report.fail (.recipeNotFound id reason)

/-- The record of the recipe with an id. -/
def getById (c : Catalog) (files : Files) (id : String) : Report Value := do
  let path := c.recipePath id
  if !(← files.hasFile path) then
    Report.warn (.noFile path.write)
    notFound id "no existe"
  else
    match ← readValue files path with
    | .error damage =>
      Report.warn (.unreadableFile path.write damage.message)
      notFound id ("archivo ilegible (" ++ damage.message ++ ")")
    | .ok (.record fields) => return .record fields
    | .ok _ => notFound id "el archivo no contiene un objeto JSON"

/-- The record of the recipe with an id, if it is an id. -/
def get (c : Catalog) (files : Files) (id : Value) : Report Value := do
  if ← isIdValue id then getById c files (← id.write)
  else
    Report.warn (.invalidId (← id.quoted))
    notFound (← id.write) "id inválido"

/-! ### Listing recipes -/

/-- The name that a record gives, or the id if it gives none. -/
def nameOr (id : String) (name : Value) : Except Fault String := (name.orElse (.text id)).write

/-- The field of a record at a key; of anything else it is `null`. -/
def lenientField (v : Value) (key : String) : Value :=
  match v with
  | .record fields => (fields.lookup key).getD .null
  | _ => .null

/-- The file names in the directory that belong to recipes, in order. -/
def recipeNames (c : Catalog) (files : Files) : List String :=
  (files.namesIn c.directory).filter fun name =>
    name.endsWith ending && name != indexName && isId (Path.stem name)

/-- The entry of a file in the directory, unless the file is damaged. -/
def scanFile (c : Catalog) (files : Files) (name : String) : Report (Option IndexEntry) := do
  let path := c.directory.child name
  match ← readValue files path with
  | .error damage =>
    Report.warn (.ignoredFile path.write damage.message)
    return none
  | .ok v =>
    let id := Path.stem name
    let name ← nameOr id (lenientField v "name")
    return some { id, name }

/-- The entries of files, in order. -/
def scanFiles (c : Catalog) (files : Files) : List String → Report (List IndexEntry)
  | [] => return []
  | name :: names => do
    let entry ← scanFile c files name
    let entries ← scanFiles c files names
    return entry.toList ++ entries

/-- The recipes found in the directory. -/
def scan (c : Catalog) (files : Files) : Report (List IndexEntry) := do
  if ← files.hasNode c.directory then scanFiles c files (c.recipeNames files) else return []

/-- One entry of the index, unless it has no valid id. -/
def indexEntry (v : Value) : Report (Option IndexEntry) := do
  match lenientField v "id" with
  | .text id =>
    if isId id then
      let name ← nameOr id (lenientField v "name")
      return some { id, name }
    else
      Report.warn (.invalidEntry (← v.quoted))
      return none
  | _ =>
    Report.warn (.invalidEntry (← v.quoted))
    return none

/-- The entries of the index, in order. -/
def indexEntries : List Value → Report (List IndexEntry)
  | [] => return []
  | v :: vs => do
    let entry ← indexEntry v
    let entries ← indexEntries vs
    return entry.toList ++ entries

/-- The recipes that the index lists, or those in the directory if the index cannot be used. -/
def list (c : Catalog) (files : Files) : Report (List IndexEntry) := do
  let path := c.indexPath
  if !(← files.hasNode path) then scan c files
  else
    match ← readValue files path with
    | .error damage =>
      Report.warn (.unreadableIndex path.write damage.message)
      scan c files
    | .ok v =>
      match lenientField v "recipes" with
      | .list entries => indexEntries entries
      | _ =>
        Report.warn (.indexWithoutList path.write)
        scan c files

end Catalog

end Cookbook
