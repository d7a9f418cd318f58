import Cookbook.Text.Blank
import Cookbook.Text.Fields
import Cookbook.Text.Integer
import Cookbook.Text.Uppercase
/-!
# Cookbook.Settings

What the environment decides. Every variable has a default; portions that are not a positive whole
number fall back to it. A session reads the settings once and keeps them until they are cleared,
whatever happens to the environment meanwhile.
-/

namespace Cookbook

/-- The variables of an environment. -/
abbrev Environment := List (String × String)

namespace Environment

/-- The environment without a variable. -/
def unset (e : Environment) (name : String) : Environment := e.filter (·.1 != name)

/-- The environment with a variable set. -/
def set (e : Environment) (name value : String) : Environment := (name, value) :: e.unset name

/-- A variable, or a default if it is not set. -/
def get (e : Environment) (name default : String) : String := (e.lookup name).getD default

end Environment

/-- What the environment decides. -/
structure Settings where
  dataDir : String
  defaultPortions : Int
  defaultMode : String
  environment : String
  logLevel : String
  corsOrigins : List String
deriving DecidableEq, Repr

namespace Settings

/-- A positive whole number, or a default. -/
def positiveOr (default : Int) (s : String) : Int :=
  match Text.Integer.read? s with
  | some n => if 0 < n then n else default
  | none => default

/-- The items of a list between commas, without white space around them and without empty ones. -/
def items (s : String) : List String :=
  ((Text.fields ',' s.toList).map fun f => Text.strip (String.ofList f)).filter (· != "")

/-- The origins that may ask when the environment names none. -/
def defaultOrigins : String := "http://localhost:3000,http://localhost:3001"

/-- The variables that settings are read from. -/
def variableNames : List String :=
  ["RIZZIPES_DATA_DIR", "RIZZIPES_DEFAULT_PORTIONS", "RIZZIPES_PROFILE", "ENVIRONMENT",
    "LOG_LEVEL", "CORS_ORIGINS"]

/-- The settings that an environment decides on. -/
def ofEnvironment (e : Environment) : Settings where
  dataDir := e.get "RIZZIPES_DATA_DIR" "data"
  defaultPortions := positiveOr 1 (e.get "RIZZIPES_DEFAULT_PORTIONS" "")
  defaultMode := e.get "RIZZIPES_PROFILE" "completo"
  environment := e.get "ENVIRONMENT" "local"
  logLevel := Text.uppercase (e.get "LOG_LEVEL" "INFO")
  corsOrigins := items (e.get "CORS_ORIGINS" defaultOrigins)

theorem positiveOr_pos {default : Int} (h : 0 < default) (s : String) :
    0 < positiveOr default s := by
  unfold positiveOr
  split
  · split
    · assumption
    · exact h
  · exact h

end Settings

/-- An environment with the settings that were read from it, if any. -/
structure Session where
  environment : Environment
  cached : Option Settings := none

namespace Session

/-- Change the environment. -/
def change (s : Session) (f : Environment → Environment) : Session :=
  { s with environment := f s.environment }

/-- Forget the settings. -/
def clear (s : Session) : Session := { s with cached := none }

/-- The settings: those read before, or those of the environment as it is. -/
def settings (s : Session) : Settings := s.cached.getD (Settings.ofEnvironment s.environment)

/-- Keep the settings for later. -/
def keep (s : Session) : Session := { s with cached := some s.settings }

end Session

end Cookbook
