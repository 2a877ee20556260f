import Resumption.Config.Settings

/-!
# Loading a configuration

A value that was set explicitly wins over the one of the file, and that wins over the default.  The
result has to make sense as a whole.
-/

namespace Resumption

/-- How files are read: the content of the file of that name, if there is one. -/
abbrev Files := String → Option String

inductive ConfigError where
  /-- The file is missing, or it cannot be understood. -/
  | load
  | emptyNamespace
  | noCalls
deriving Repr, DecidableEq

def ConfigError.message : ConfigError → String
  | .load => "failed to load configuration"
  | .emptyNamespace => "invalid configuration: namespace must not be empty"
  | .noCalls => "invalid configuration: max_call_depth must be at least 1"

/-- Values that were set explicitly. -/
structure Overrides where
  debuggingEnabled : Option Bool
  debugBuiltins : Option Bool
  ns : Option String
  maxCallDepth : Option Nat
  logFilter : Option String

def Overrides.none : Overrides := ⟨.none, .none, .none, .none, .none⟩

namespace Config

/-- The name of the file that is read when no other one is given. -/
def fileName : String := "reify"

def fileExtension : String := ".toml"

def hasExtension (name : String) : Bool := fileExtension.toList.isSuffixOf name.toList

/-- The content of a configuration file.  Its name may be given without the extension. -/
def content? (files : Files) (name : String) : Option String :=
  match files name with
  | some text => if hasExtension name then some text else none
  | none => files (name ++ fileExtension)

/-- The settings of the file.  A file that was asked for has to be there. -/
def fileSettings (files : Files) (path : Option String) :
    Except ConfigError (List (String × Setting)) :=
  let read := fun (text : String) => match Setting.ofText? text with
    | some settings => .ok settings
    | none => .error .load
  match path with
  | some path =>
    match content? files path with
    | some text => read text
    | none => .error .load
  | none =>
    match content? files fileName with
    | some text => read text
    | none => .ok []

/-- The value that wins. -/
def choose {α : Type} (override : Option α) (setting : Option Setting)
    (convert : Setting → Option α) (default : α) : Except ConfigError α :=
  match override, setting with
  | some a, _ => .ok a
  | none, some s =>
    match convert s with
    | some a => .ok a
    | none => .error .load
  | none, none => .ok default

/-- The configuration, if it makes sense. -/
def validate (c : Config) : Except ConfigError Config :=
  if c.ns.isEmpty then .error .emptyNamespace
  else if c.maxCallDepth == 0 then .error .noCalls
  else .ok c

/-- Puts a configuration together.  A number of calls has to fit into 63 bits. -/
def build (settings : List (String × Setting)) (o : Overrides) : Except ConfigError Config := do
  let c := Config.default
  let debuggingEnabled ←
    choose o.debuggingEnabled (settings.lookup debuggingEnabledKey) Setting.toBool?
      c.debuggingEnabled
  let debugBuiltins ←
    choose o.debugBuiltins (settings.lookup debugBuiltinsKey) Setting.toBool? c.debugBuiltins
  let ns ←
    choose o.ns (settings.lookup namespaceKey) (fun s => some s.toText) c.ns
  let maxCallDepth ←
    choose o.maxCallDepth (settings.lookup maxCallDepthKey) Setting.toNat? c.maxCallDepth
  let logFilter ←
    choose o.logFilter (settings.lookup logFilterKey) (fun s => some s.toText) c.logFilter
  if (o.maxCallDepth.getD 0) ≥ 2 ^ 63 then .error .load
  else validate ⟨debuggingEnabled, debugBuiltins, ns, maxCallDepth, logFilter⟩

/-- Loads a configuration. -/
def load (files : Files) (path : Option String) (o : Overrides) : Except ConfigError Config := do
  build (← fileSettings files path) o

end Config

end Resumption
