import Cookbook.CommandLine.Token
/-!
# Cookbook.CommandLine.Arguments

The command line of the program: an option for the data directory, then a command with options and
words of its own. Of an option that is repeated the last value counts. Help is given as soon as it
is asked for; every misuse that comes before that, and every argument left over at the end, is a
usage error.
-/

namespace Cookbook.CommandLine

/-- The options of a command and the values they take; no values means any. -/
abbrev Options := List (String × List String)

/-- Why a command line leads to no run. -/
inductive Refusal
  | help
  | usage
deriving DecidableEq, Repr

/-- What has been read of a command: values, the latest first, its word, and whether an argument is
left over. -/
structure Given where
  values : List (String × String) := []
  word : Option String := none
  leftOver : Bool := false
deriving DecidableEq, Repr

namespace Given

/-- The value of an option. -/
def get? (g : Given) (name : String) : Option String := g.values.lookup name

/-- Give an option a value, if it takes it. -/
def set (g : Given) (options : Options) (name value : String) : Except Refusal Given :=
  let choices := (options.lookup name).getD []
  if choices.isEmpty || choices.contains value then
    .ok { g with values := (name, value) :: g.values }
  else .error .usage

/-- Note that an argument is left over. -/
def leave (g : Given) : Given := { g with leftOver := true }

end Given

/-- Read the arguments of a command that takes `words` words, at most one. A double hyphen next to
the word belongs to it. -/
def readCommand (options : Options) (words : Nat) (g : Given) :
    List (String × Token) → Except Refusal Given
  | [] => .ok g
  | (arg, .word) :: rest =>
    if g.word.isNone && words == 1 then
      match rest with
      | (_, .separator) :: rest => readCommand options words { g with word := some arg } rest
      | rest => readCommand options words { g with word := some arg } rest
    else readCommand options words g.leave rest
  | (_, .separator) :: rest =>
    match rest with
    | (arg, .word) :: rest' =>
      if g.word.isNone && words == 1 then
        readCommand options words { g with word := some arg } rest'
      else readCommand options words g.leave ((arg, .word) :: rest')
    | rest => readCommand options words g.leave rest
  | (_, .help) :: _ => .error .help
  | (_, .badHelp) :: _ => .error .usage
  | (_, .unknown) :: rest => readCommand options words g.leave rest
  | (_, .option name (some value)) :: rest => do
    readCommand options words (← g.set options name value) rest
  | (_, .option name none) :: rest =>
    match rest with
    | (value, .word) :: rest => do readCommand options words (← g.set options name value) rest
    | _ => .error .usage

/-- Read the raw arguments of a command that takes `words` words, at most one. -/
def command (options : Options) (words : Nat) (args : List String) : Except Refusal Given :=
  match tokens? (options.map (·.1)) args with
  | none => .error .usage
  | some tokens => do
    let g ← readCommand options words {} tokens
    if g.leftOver || (words == 1 && g.word.isNone) then .error .usage else .ok g

/-- What to do. -/
inductive Request
  | list
  | render (id : String) (portions mode output : Option String)
deriving DecidableEq, Repr

/-- What to do, and where the data is if that is given. -/
structure Invocation where
  dataDir : Option String
  request : Request
deriving DecidableEq, Repr

/-- The options before the command. -/
def generalOptions : Options := [("--data-dir", [])]

/-- The options of rendering. -/
def renderOptions : Options :=
  [("--portions", []), ("--mode", ["simple", "completo"]), ("--output", [])]

/-- How the program is called. -/
def usage : String :=
  "usage: cookbook [-h] [--data-dir DIR] list\n" ++
  "       cookbook [-h] [--data-dir DIR] render [--portions N] [--mode simple|completo]\n" ++
  "                [--output FILE] ID\n"

/-- Read a command by its name. -/
def request (name : String) (args : List String) : Except Refusal Request :=
  if name == "list" then do
    let _ ← command [] 0 args
    return .list
  else if name == "render" then do
    let g ← command renderOptions 1 args
    return .render (g.word.getD "") (g.get? "--portions") (g.get? "--mode") (g.get? "--output")
  else .error .usage

/-- Read the options before the command, and then the command. -/
def readGeneral (g : Given) : List (String × Token) → Except Refusal Invocation
  | (name, .word) :: rest => do
    let request ← request name (rest.map (·.1))
    if g.leftOver then .error .usage else return ⟨g.get? "--data-dir", request⟩
  | (_, .help) :: _ => .error .help
  | (_, .unknown) :: rest => readGeneral g.leave rest
  | (_, .option name (some value)) :: rest => do
    readGeneral (← g.set generalOptions name value) rest
  | (_, .option name none) :: (value, .word) :: rest => do
    readGeneral (← g.set generalOptions name value) rest
  | _ => .error .usage

/-- Read a command line. -/
def invocation (args : List String) : Except Refusal Invocation :=
  match tokens? (generalOptions.map (·.1)) args with
  | none => .error .usage
  | some tokens => readGeneral {} tokens

end Cookbook.CommandLine
