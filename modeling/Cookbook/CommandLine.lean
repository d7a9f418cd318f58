import Cookbook.CommandLine.Arguments
import Cookbook.Page
import Cookbook.Portions
/-!
# Cookbook.CommandLine

What the program does on a command line: list the recipes of a catalog, or render one to the
standard output or to a file. It ends with 0, with 1 if there is no such recipe, and with 2 if the
command line is misused.
-/

namespace Cookbook.CommandLine

/-- What a run leaves: its exit code, what it prints, and the files; `written` is the file that it
wrote. -/
structure Finish where
  exit : Nat
  output : String := ""
  files : Files
  written : Option (Path × String) := none

/-- The listing of recipes: an id and a name on each line. -/
def listing (entries : List IndexEntry) : String :=
  String.join (entries.map fun e => e.id ++ "\t" ++ e.name ++ "\n")

/-- The exit code of rendering. -/
def exitCode (page : Page) : Nat := if page.found then 0 else 1

/-- Print a page. -/
def print (files : Files) (page : Page) : Finish :=
  { exit := exitCode page, output := page.markdown, files }

/-- Write a page to a file; the directories above it are made. -/
def save (files : Files) (page : Page) (output : String) : Except Fault Finish := do
  let path := Path.ofString output
  let files ← files.makeDirectories path.parent
  let files ← files.writeText path page.markdown
  let shown := (path.resolve files.working).write
  return {
    exit := exitCode page
    output := "✅ Receta generada en: " ++ shown ++ "\n"
    files
    written := some (path, page.markdown) }

/-- Serve a request on a catalog. -/
def serve (settings : Settings) (files : Files) (c : Catalog) : Request → Report Finish
  | .list => do
    let entries ← c.list files
    return { exit := 0, output := listing entries, files }
  | .render id portions mode output => do
    let given (o : Option String) : Value := (o.map Value.text).getD .null
    let portions := Portions.orDefault (given portions) settings.defaultPortions
    let source := Source.ofCatalog c files
    let page ← (Page.render source settings (.text id) (.int portions) (given mode) .empty).1
    match output.filter (· != "") with
    | none => return print files page
    | some output => save files page output

/-- The catalog that an invocation works on. -/
def catalogFor (settings : Settings) (i : Invocation) : Catalog :=
  Catalog.ofDataDir ((i.dataDir.filter (· != "")).getD settings.dataDir)

/-- Do what an invocation says. -/
def perform (environment : Environment) (files : Files) (i : Invocation) : Report Finish :=
  let settings := Settings.ofEnvironment environment
  serve settings files (catalogFor settings i) i.request

/-- Run a command line. -/
def run (environment : Environment) (files : Files) (args : List String) : Report Finish :=
  match invocation args with
  | .error .help => return { exit := 0, files }
  | .error .usage => return { exit := 2, files }
  | .ok i => perform environment files i

end Cookbook.CommandLine
