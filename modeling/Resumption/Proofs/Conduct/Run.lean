import Resumption.Proofs.Conduct.Instrumented
import Resumption.Proofs.Conduct.Stepper

/-!
# Whole runs obey

By induction on the calls that may be opened, every call obeys every policy, and so does every frame
that is taken up again.  What sets the machine up obeys a policy too, if it does not matter which
registry is in use for the time being.
-/

namespace Resumption

variable {P : Policy}

namespace Instrumented

theorem call_obeyed {invoke : Invoke} (hinvoke : invoke.Obeys P) (fuel : Nat)
    (closure : InstrumentedClosure) (callee this : Value) (args : List Value) :
    P.machine.Obeyed (call invoke fuel closure callee this args) := by
  refine .bind (Machine.alloc_obeyed _) fun a => P.run ?_ rfl
  exact .bind (instantiate_obeyed hinvoke a _) fun _ => execList_obeyed hinvoke _

end Instrumented

namespace Stepper

theorem call_obeyed {invoke : Invoke} (hinvoke : invoke.Obeys P) (fuel : Nat)
    (closure : SteppedClosure) (callee this : Value) (args : List Value) :
    P.machine.Obeyed (call invoke fuel closure callee this args) := by
  unfold call
  dsimp only
  split
  · exact Machine.fail_obeyed _ _
  · refine .bind (Machine.alloc_obeyed _) fun a => P.run ?_ rfl
    exact .bind (instantiate_obeyed _ a _) fun _ => execList_obeyed hinvoke _ _

end Stepper

namespace Machine

theorem call_obeys (fuel : Nat) : (call fuel).Obeys P := by
  induction fuel with
  | zero => exact fun _ _ _ => .exhausted
  | succ fuel ih =>
      intro f this args
      refine .bind (ask_obeyed _) fun callable => ?_
      split
      · exact .bind (convert_obeyed _) fun _ => typeError_obeyed _
      · refine opened_obeyed ?_
        split
        · exact runNative_obeyed ih fuel _ this args
        · exact Instrumented.call_obeyed ih fuel _ f this args
        · exact Stepper.call_obeyed ih fuel _ f this args

theorem runFrame_obeyed (fuel : Nat) (frame : Frame) : P.machine.Obeyed (runFrame fuel frame) := by
  unfold runFrame
  split
  · exact fail_obeyed _ _
  · split
    · exact fail_obeyed _ _
    · refine opened_obeyed (P.run ?_ rfl)
      exact Stepper.execList_obeyed (call_obeys fuel) _ _

/-! ## Setting up -/

theorem instrument_obeyed (f : Script.Func) (ns : String) (inherited : List String)
    (isProgram : Bool) : P.machine.Obeyed (instrument f ns inherited isProgram) :=
  .bind .get fun _ => .bind (.modifyGet fun _ => P.quietly (quietly_update ..)) fun _ => .pure _

section Preparation

variable (hwithin : ∀ {α : Type} {x : MachineM α} (id : Nat), P.machine.Obeyed x →
  P.machine.Obeyed (withRegistry id x))
include hwithin

theorem debugMethod_obeyed (f : Script.Func) : P.machine.Obeyed (debugMethod f) := by
  refine .bind (hwithin _ (instrument_obeyed _ _ _ _)) fun code => ?_
  split
  · exact .bind (newFunction_obeyed _) fun _ => .pure _
  · exact .pure _

theorem prepareDebugMethods_obeyed : P.machine.Obeyed prepareDebugMethods := by
  refine .bind .get fun m => ?_
  split
  · refine .bind ?_ fun _ => .modifyGet fun _ => P.quietly
      ⟨⟨rfl, rfl, rfl, rfl⟩, rfl, rfl, rfl, Nat.le_refl _, Nat.le_refl _, fun _ => rfl⟩
    exact .filterMapM (debugMethod_obeyed hwithin) _
  · exact .pure _

end Preparation

theorem obstacle?_obeyed (k : Continuation) : P.machine.Obeyed k.obstacle? := by
  unfold Continuation.obstacle?
  split
  · exact .pure _
  · split
    · exact .pure _
    · split
      · exact .pure _
      · split
        · exact .bind (convert_obeyed _) fun _ => .pure _
        · exact .pure _

end Machine

end Resumption
