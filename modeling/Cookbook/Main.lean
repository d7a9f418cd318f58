import Cookbook.CommandLine
/-!
# Cookbook.Main

The program. It reads the environment and the files of the catalog, runs the command line on them,
and then prints what the run prints and writes the file that the run wrote.
-/

namespace Cookbook.Main

/-- The variables of the environment that are set. -/
def readEnvironment : IO Environment :=
  Settings.variableNames.filterMapM fun name => do
    return (← IO.getEnv name).map fun value => (name, value)

/-- The files in the directory of a catalog; what is in directories below it is not read. -/
def readFiles (c : Catalog) : IO Files := do
  let here ← IO.currentDir
  let working := (Path.ofString here.toString).names
  let files : Files := { top := (Node.directory []).put (.directory []) working, working }
  let directory := here / c.directory.write
  if ← directory.isDir then
    let mut files := (files.makeDirectories c.directory).toOption.getD files
    for entry in ← directory.readDir do
      let node ←
        if ← entry.path.isDir then pure (.directory [])
        else .file <$> (·.toList) <$> IO.FS.readBinFile entry.path
      let location := (c.directory.child entry.fileName).resolve working
      files := { files with top := files.top.put node location.names }
    return files
  else return files

/-- Show the warnings and the outcome of a run, and write its file. -/
def conclude (report : Report CommandLine.Finish) : IO UInt32 := do
  for warning in report.warnings do
    IO.eprintln warning.message
  match report.outcome with
  | .error fault =>
    IO.eprintln fault.message
    return 1
  | .ok finish =>
    if let some (path, text) := finish.written then
      IO.FS.createDirAll path.parent.write
      IO.FS.writeFile path.write text
    IO.print finish.output
    return UInt32.ofNat finish.exit

/-- Run the program on its command line. -/
def run (args : List String) : IO UInt32 := do
  match CommandLine.invocation args with
  | .error .help =>
    IO.print CommandLine.usage
    return 0
  | .error .usage =>
    IO.eprint CommandLine.usage
    return 2
  | .ok invocation =>
    let environment ← readEnvironment
    let settings := Settings.ofEnvironment environment
    let files ← readFiles (CommandLine.catalogFor settings invocation)
    conclude (CommandLine.perform environment files invocation)

end Cookbook.Main

/-- The program. -/
def main (args : List String) : IO UInt32 := Cookbook.Main.run args
