import Resumption.Engine.Instrumented
import Resumption.Engine.Stepper

/-!
# Calls

Where the ways of running a function come together.  A call may open further calls, so it takes
fuel; a computation that needs more than it was given is told apart from everything a script can
do.
-/

namespace Resumption.Machine

/-- Calls a function. -/
def call : Nat → Invoke
  | 0 => fun _ _ _ => throw .exhausted
  | fuel + 1 => fun f this args => do
    match ← ask (fun h => h.callable? f) with
    | none => typeError ((← inspect f) ++ " is not a function")
    | some callable =>
      enter
      closing (match callable with
        | .native native => runNative (call fuel) fuel native this args
        | .instrumented closure => Instrumented.call (call fuel) fuel closure f this args
        | .stepped closure => Stepper.call (call fuel) fuel closure f this args)

/-- Takes up an interrupted function where it was left. -/
def runFrame (fuel : Nat) (frame : Frame) : MachineM Value := do
  match frame.origin with
  | none => fail .general "frame has no AST"
  | some origin =>
    match origin.func? with
    | none => fail .general "frame origin is not a function"
    | some f =>
      let env : Env :=
        { invoke := call fuel, fuel, this := frame.this, args := frame.args, ns := origin.tree.ns
          index := origin.index, registry := frame.registry, records := true }
      let act : Activation :=
        { site := env.toSite, chain := frame.scope, cache := frame.cache
          last := frame.pc.getD origin.index, arguments := none, pending := frame.pending
          pc := frame.pc }
      enter
      closing (runActivation env act (Stepper.execList env origin.tree (origin.index + 1) f.body))

end Resumption.Machine
