import Resumption.Number.Text

/-!
# Commands

What a command line asks for.  Flags may stand anywhere behind the command they belong to; the
configuration file may be given on either side of the command, and the inner one wins.
-/

namespace Resumption

inductive Command where
  /-- Instrument a script and run it; resume it that many times at most. -/
  | run (file : String) (resume : Bool) (maxResumes : Nat)
  /-- Print the instrumented form of a script. -/
  | instrument (file : String) (ns : Option String)
  /-- Walk a script without keeping books. -/
  | interpret (file : String)
  /-- Print the configuration. -/
  | config
deriving Repr, DecidableEq

structure Invocation where
  /-- The configuration file. -/
  config : Option String
  command : Command
deriving Repr, DecidableEq

namespace Command

inductive Flag where
  | config | resume | maxResumes | ns
deriving Repr, DecidableEq

namespace Flag

def takesValue : Flag → Bool
  | .resume => false
  | _ => true

def ofLong? : String → Option Flag
  | "config" => some .config
  | "resume" => some .resume
  | "max-resumes" => some .maxResumes
  | "namespace" => some .ns
  | _ => none

def ofShort? : Char → Option Flag
  | 'n' => some .ns
  | _ => none

end Flag

/-- What a word of a command line is. -/
inductive Word where
  | operand
  /-- A flag, with its value if that is attached to it. -/
  | flag (f : Flag) (value : Option String)
  | unknown

/-- The value behind an equals sign. -/
def attached? : List Char → Option String
  | '=' :: value => some (String.ofList value)
  | _ => none

def classify (word : String) : Word :=
  match word.toList with
  | '-' :: '-' :: rest =>
    let (name, value) := rest.span (fun c => c != '=')
    match Flag.ofLong? (String.ofList name) with
    | some f => .flag f (attached? value)
    | none => .unknown
  | '-' :: c :: rest =>
    match Flag.ofShort? c with
    | some f =>
      if rest.isEmpty then .flag f none
      else .flag f ((attached? rest).or (some (String.ofList rest)))
    | none => .unknown
  | _ => .operand

def isOperand (word : String) : Bool :=
  match classify word with
  | .operand => true
  | _ => false

/-- What was given to a command. -/
structure Given where
  flags : List (Flag × String)
  operands : List String

def Given.value? (g : Given) (f : Flag) : Option String := g.flags.lookup f

/-- Adds a flag.  It has to be one of the command's, and no flag is given twice. -/
def Given.add (allowed : List Flag) (f : Flag) (value : String) (g : Given) : Option Given :=
  if allowed.contains f && (g.value? f).isNone then some { g with flags := g.flags ++ [(f, value)] }
  else none

/-- Sorts words into flags and operands.  Behind `--` there are only operands. -/
def scan (allowed : List Flag) : List String → Given → Option Given
  | [], g => some g
  | word :: rest, g =>
    if word == "--" then some { g with operands := g.operands ++ rest }
    else
      match classify word with
      | .unknown => none
      | .operand => scan allowed rest { g with operands := g.operands ++ [word] }
      | .flag f (some value) =>
        if f.takesValue then (g.add allowed f value).bind (scan allowed rest) else none
      | .flag f none =>
        if f.takesValue then
          match rest with
          | value :: rest =>
            if isOperand value then (g.add allowed f value).bind (scan allowed rest) else none
          | [] => none
        else (g.add allowed f "").bind (scan allowed rest)

/-- The only operand, which names a file. -/
def Given.file? (g : Given) : Option String :=
  match g.operands with
  | [file] => if file.isEmpty then none else some file
  | _ => none

/-- The number of times a script is resumed when nothing else is said. -/
def defaultMaxResumes : Nat := 16

def Given.maxResumes? (g : Given) : Option Nat :=
  match g.value? .maxResumes with
  | some value => Number.bounded? 10 (2 ^ 64) value.toList
  | none => some defaultMaxResumes

/-- The command of a name with the words behind it, and the configuration file given there. -/
def ofWords? (name : String) (words : List String) : Option (Command × Option String) := do
  let given := fun (allowed : List Flag) => scan (.config :: allowed) words ⟨[], []⟩
  match name with
  | "run" =>
    let g ← given [.resume, .maxResumes]
    let file ← g.file?
    let maxResumes ← g.maxResumes?
    return (.run file (g.value? .resume).isSome maxResumes, g.value? .config)
  | "rewrite" =>
    let g ← given [.ns]
    return (.instrument (← g.file?) (g.value? .ns), g.value? .config)
  | "interpret" =>
    let g ← given []
    return (.interpret (← g.file?), g.value? .config)
  | "config" =>
    let g ← given []
    if g.operands.isEmpty then return (.config, g.value? .config) else none
  | _ => none

end Command

/-- The invocation with a configuration file, unless it has one. -/
def Invocation.ofCommand (config : Option String) : Command × Option String → Invocation
  | (command, inner) => ⟨inner.or config, command⟩

/-- Reads a command line. -/
def Invocation.ofArgs? (args : List String) : Option Invocation :=
  let command := fun (config : Option String) (words : List String) =>
    match words with
    | name :: words => (Command.ofWords? name words).map (Invocation.ofCommand config)
    | [] => none
  match args with
  | [] => none
  | word :: rest =>
    match Command.classify word with
    | .flag .config (some value) => command (some value) rest
    | .flag .config none =>
      match rest with
      | value :: rest => if Command.isOperand value then command (some value) rest else none
      | [] => none
    | _ => command none args

end Resumption
