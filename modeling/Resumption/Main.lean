import Resumption.Command.Perform

/-!
# The command line
-/

namespace Resumption

/-- More steps than any run will take. -/
def ampleFuel : Nat := 2 ^ 62

/-- Reads the files that are there. -/
def readFiles (names : List String) : IO (List (String × String)) :=
  names.filterMapM (fun (name : String) => do
    try return some (name, ← IO.FS.readFile name)
    catch _ => return none)

end Resumption

open Resumption in
def main (args : List String) : IO UInt32 := do
  match Invocation.ofArgs? args with
  | none =>
    IO.eprintln "usage: [--config FILE] (run | rewrite | interpret | config) [FILE] [FLAGS]"
    return 2
  | some invocation =>
    let files ← readFiles invocation.fileNames
    match invocation.perform ampleFuel (fun name => files.lookup name) with
    | none => return 1
    | some report =>
      IO.print report.output
      match report.failure with
      | none => return 0
      | some failure =>
        IO.eprintln ("Error: " ++ failure.message)
        return 1
