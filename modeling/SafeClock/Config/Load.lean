import SafeClock.Config.Check
import SafeClock.Config.Decode
import SafeClock.Config.Environment
import SafeClock.System.FileTree
import SafeClock.Yaml.Schema

/-!
# Loading the configuration

The configuration is made of four layers, each put over the one before: the defaults, a file, a
second file for one's own changes, and the environment. A file that is not there is an empty layer.
A relative path is looked for in the working directory and then in each directory above it.
-/

set_option autoImplicit false

namespace SafeClock.Config

/-- The file that is read if no other one is asked for. -/
def usualFile : String := "freqprof.yaml"

/-- The file for one's own changes. -/
def localFile : String := ".freqprof/local.yaml"

/-- Why a configuration could not be loaded. -/
inductive LoadError where
  /-- A layer cannot be read, or the layers together are no configuration. -/
  | unreadable (path : String)
  | unusable (cause : ConfigError)
deriving DecidableEq, Repr

/-- The text shown for a load error. It names the first file, whichever layer is at fault. -/
def LoadError.message : LoadError → String
  | unreadable path => "Failed to load config from " ++ path
  | unusable cause => cause.message

/-- The directories from which a path is looked for, the nearest first. -/
def lookupPlaces (cwd : Place) (path : String) : List Place :=
  if path.startsWith "/" then [[]]
  else ((List.range (cwd.length + 1)).map fun n => cwd.take n).reverse

/-- The layer of a file, none if the file cannot be read. -/
def fileLayer? (t : FileTree) (cwd : Place) (path : String) : Option Value :=
  match (lookupPlaces cwd path).find? (t.isFile · path) with
  | none => some (.record [])
  | some place =>
    match t.readText place path with
    | .ok text => Yaml.read? text
    | .error _ => none

/-- Layers put over the defaults, the last one on top. -/
def ofLayers? (layers : List Value) : Option Config :=
  ofValue? .layered (layers.foldl Value.merge ({} : Config).toValue)

/-- The layers over the defaults, none if one of them cannot be read. -/
def layers? (t : FileTree) (cwd : Place) (environment : List (String × String)) (path : String) :
    Option (List Value) := do
  let primary ← fileLayer? t cwd path
  let own ← fileLayer? t cwd localFile
  return [primary, own, Environment.layer environment]

/-- Loads a configuration. -/
def load (t : FileTree) (cwd : Place) (environment : List (String × String))
    (path : Option String) : Except LoadError Config :=
  let primary := path.getD usualFile
  match (layers? t cwd environment primary).bind ofLayers? with
  | none => .error (.unreadable primary)
  | some c =>
    match c.check with
    | .ok _ => .ok c
    | .error e => .error (.unusable e)

end SafeClock.Config
