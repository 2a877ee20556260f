import Resumption.Code.Printer
import Resumption.Command.Basic
import Resumption.Config.Load
import Resumption.Engine.Drive
import Resumption.Script.Grammar

/-!
# Performing commands

A command turns files into a report: what it prints, and why it failed if it did.
-/

namespace Resumption

open Script (Program ParseError)

inductive Failure where
  | config (e : ConfigError)
  | unreadable (file : String)
  | malformed (file : String) (e : ParseError)
  | notInstrumented (e : Code.LoweringError)
  | notResumed (o : Obstacle)
  /-- The script threw a value that nothing caught. -/
  | uncaught (value : String)
  | stillPaused (resumes : Nat)

namespace Failure

/-- What went wrong, from the outside to the inside. -/
def contexts : Failure → List String
  | .config e => ["Failed to load configuration", e.message]
  | .unreadable file => ["Failed to read " ++ file]
  | .malformed file e => ["Failed to parse " ++ file, e.message]
  | .notInstrumented e => ["Failed to instrument script", e.message]
  | .notResumed o => ["Failed to resume script", o.message]
  | .uncaught value => ["Uncaught " ++ value]
  | .stillPaused n => ["Still paused after " ++ toString n ++ " resumes"]

def message (f : Failure) : String := ": ".intercalate f.contexts

end Failure

structure Report where
  output : String
  failure : Option Failure

namespace Report

def ofFailure (f : Failure) : Report := ⟨"", some f⟩

def printed (output : String) : Report := ⟨output, none⟩

/-- A report with something printed in front. -/
def behind (output : String) (r : Report) : Report := { r with output := output ++ r.output }

end Report

namespace Machine

/-- Takes what was written to the console, one line for each. -/
def takeConsole : MachineM String := do
  let lines ← takeOutput
  return String.join (lines.map (fun line => line ++ "\n"))

/-- The value of a run that completed. -/
def resultLine (v : Value) : MachineM String := do return "=> " ++ (← inspect v) ++ "\n"

/-- The frames of a continuation under a heading. -/
def frameLines (heading : String) (k : Continuation) : MachineM String := do
  let lines ← k.chain.mapM (fun frame => do
    return "  at " ++ (← convert (fun h => frame.describe? h)) ++ "\n")
  return heading ++ ":\n" ++ String.join lines

/-- Reports on a run, and resumes it after a pause as long as that is wanted. -/
def follow (fuel : Nat) (resume : Bool) (limit : Nat) : Nat → Outcome → MachineM Report
  | left, outcome => do
    let console ← takeConsole
    match outcome with
    | .completed v => return .printed (console ++ (← resultLine v))
    | .failed error k =>
      let frames ← frameLines "Uncaught error" k
      return ⟨console ++ frames, some (.uncaught (← inspect error))⟩
    | .paused k =>
      let frames ← frameLines "Paused" k
      if resume then
        match left with
        | 0 => return ⟨console ++ frames, some (.stillPaused limit)⟩
        | left + 1 =>
          match ← k.resume fuel with
          | .error obstacle => return ⟨console ++ frames, some (.notResumed obstacle)⟩
          | .ok outcome =>
            return (← follow fuel resume limit left outcome).behind (console ++ frames)
      else return .printed (console ++ frames)

end Machine

namespace Invocation

/-- Reads a script. -/
def loadProgram (files : Files) (file : String) : Except Failure Program :=
  match files file with
  | none => .error (.unreadable file)
  | some source =>
    match Program.parse source with
    | .ok p => .ok p
    | .error e => .error (.malformed file e)

/-- Does something with a script and the registry that was made for it. -/
def withProgram (files : Files) (file : String) (f : Program → Nat → MachineM Report) :
    MachineM Report := do
  match loadProgram files file with
  | .error failure => return .ofFailure failure
  | .ok p => f p (← Machine.newRegistry)

def performCommand (fuel : Nat) (files : Files) : Command → MachineM Report
  | .run file resume maxResumes => withProgram files file (fun p registry => do
      match ← Machine.runProgram fuel p registry with
      | .error e => return .ofFailure (.notInstrumented e)
      | .ok outcome => Machine.follow fuel resume maxResumes maxResumes outcome)
  | .instrument file _ => withProgram files file (fun p registry => do
      match ← Machine.compileProgram p registry with
      | .error e => return .ofFailure (.notInstrumented e)
      | .ok code => return .printed (code.print 0))
  | .interpret file => withProgram files file (fun p registry => do
      let outcome ← Machine.interpret fuel p registry .plain
      let console ← Machine.takeConsole
      match outcome with
      | .completed v => return .printed (console ++ (← Machine.resultLine v))
      | .failed error _ => return ⟨console, some (.uncaught (← Machine.inspect error))⟩
      | .paused k => return .printed (console ++ (← Machine.frameLines "Paused" k)))
  | .config => do return .printed (← get).config.render

/-- The configuration that a command works with. -/
def configure (c : Config) : Command → Config
  | .instrument _ (some ns) => { c with ns }
  | _ => c

/-- Performs a command.  There is no report if the fuel does not suffice. -/
def perform (fuel : Nat) (files : Files) (inv : Invocation) : Option Report :=
  match Config.load files inv.config Overrides.none with
  | .error e => some (.ofFailure (.config e))
  | .ok c =>
    match performCommand fuel files inv.command (Machine.new (configure c inv.command)) with
    | .ok report _ => some report
    | .error _ _ => none

/-- The files that a command may read. -/
def fileNames (inv : Invocation) : List String :=
  let config := inv.config.getD Config.fileName
  let script := match inv.command with
    | .run file _ _ | .instrument file _ | .interpret file => [file]
    | .config => []
  [config, config ++ Config.fileExtension] ++ script

end Invocation

end Resumption
