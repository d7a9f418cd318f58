import Cookbook.Text.Digit
import Cookbook.Text.Fields
import Cookbook.Text.Part
/-!
# Cookbook.CommandLine.Token

What each argument of a command line is. An argument that starts with a hyphen is an option, unless
it is a hyphen alone, looks like a negative number or holds a space. The start of an option's name
stands for the option if it starts no other name, and a value may follow the name after an equals
sign. After a double hyphen every argument is a word.
-/

namespace Cookbook.CommandLine

/-- What an argument is. -/
inductive Token
  /-- An argument for the command itself. -/
  | word
  /-- The double hyphen that ends the options. -/
  | separator
  /-- A request for help. -/
  | help
  /-- A request for help that carries something it must not. -/
  | badHelp
  /-- An option, with the value after its equals sign if there is one. -/
  | option (name : String) (value : Option String)
  /-- An option that there is not. -/
  | unknown
deriving DecidableEq, Repr

/-- The long name of the option that asks for help. -/
def helpName : String := "--help"

/-- Whether a text is digits only, and at least one. -/
def isDigits (cs : List Char) : Bool := !cs.isEmpty && cs.all fun c => (Text.digitValue? c).isSome

/-- Whether a text looks like a negative number; one line end after it is let through. -/
def isNegativeNumber (cs : List Char) : Bool :=
  match if cs.getLast? == some '\n' then cs.dropLast else cs with
  | '-' :: cs =>
    let whole := cs.takeWhile (· != '.')
    match cs.dropWhile (· != '.') with
    | [] => isDigits whole
    | _ :: fraction => (whole.isEmpty || isDigits whole) && isDigits fraction
  | _ => false

/-- What follows the short request for help: more such requests, or letters that are ignored. A
hyphen or an equals sign there is an error. -/
def shortHelp : List Char → Token
  | [] => .help
  | '-' :: _ => .badHelp
  | 'h' :: '=' :: _ => .badHelp
  | 'h' :: cs => shortHelp cs
  | _ => .help

/-- The option with a name, or the request for help. -/
def named (name : String) (value : Option (List Char)) : Token :=
  if name == helpName then if value.isSome then .badHelp else .help
  else .option name (value.map String.ofList)

/-- What an argument before a double hyphen is, given the names of the options; `none` if it is the
start of several names. -/
def token? (names : List String) (arg : String) : Option Token :=
  let cs := arg.toList
  let names := helpName :: names
  let (name, value) := Text.cutAt '=' cs
  match cs with
  | '-' :: '-' :: _ =>
    if names.contains arg then some (named arg none)
    else if names.contains (String.ofList name) && value.isSome then
      some (named (String.ofList name) value)
    else
      match names.filter fun n => (Text.after? name n.toList).isSome with
      | [n] => some (named n value)
      | _ :: _ :: _ => none
      | [] => some (if cs.contains ' ' then .word else .unknown)
  | '-' :: 'h' :: rest => some (if rest.head? == some '=' then .badHelp else shortHelp rest)
  | '-' :: _ :: _ => some (if isNegativeNumber cs || cs.contains ' ' then .word else .unknown)
  | _ => some .word

/-- Each argument with what it is; `none` if one of them is the start of several names. -/
def tokens? (names : List String) : List String → Option (List (String × Token))
  | [] => some []
  | arg :: args =>
    if arg == "--" then some ((arg, .separator) :: args.map fun a => (a, .word))
    else do
      let token ← token? names arg
      let rest ← tokens? names args
      return (arg, token) :: rest

end Cookbook.CommandLine
