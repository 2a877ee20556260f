import Resumption.Code.Lowering
import Resumption.Engine.ArrayMethods
import Resumption.Engine.Call
import Resumption.Machine.Setup

/-!
# Running scripts

The ways into a machine: compile a function or a program, run it, walk it, call a closure, resume a
continuation.  Each of them sets the machine up for the time of the run and puts everything back
afterwards, and each turns what stopped a script into an outcome.
-/

namespace Resumption

open Script (Func Program)

/-- How a run ended. -/
inductive Outcome where
  | completed (value : Value)
  | paused (k : Continuation)
  /-- A value was thrown and nothing caught it. -/
  | failed (error : Value) (k : Continuation)

namespace Outcome

def ofUnwind (registries : Array Registry) (u : Unwind) : Outcome :=
  let k := Continuation.ofUnwind registries u
  match u.thrown? with
  | some error => .failed error k
  | none => .paused k

/-- What is left to resume. -/
def continuation? : Outcome → Option Continuation
  | .completed _ => none
  | .paused k | .failed _ k => some k

def isPaused : Outcome → Bool
  | .paused _ => true
  | _ => false

end Outcome

namespace Machine

variable {α : Type}

/-! ## Asking and telling -/

/-- The value of a global variable, accessors left aside. -/
def globalValue? (name : String) : MachineM (Option Value) :=
  ask (fun h => h.findData? name Intrinsic.globalObject)

def setGlobal (name : String) (v : Value) : MachineM Unit := setOwn Intrinsic.globalObject name v

/-- Takes the lines written to the console so far. -/
def takeOutput : MachineM (List String) := modifyGet (fun m => (m.output, { m with output := [] }))

def setDebugging (on : Bool) : MachineM Unit := modify (fun m => { m with debugging := on })

/-- Installs a hook, and hands over the one before. -/
def setHook (hook : Option Hook) : MachineM (Option Hook) :=
  modifyGet (fun m => (m.hook, { m with hook }))

/-- Runs to an outcome. -/
def settle (x : MachineM Value) : MachineM Outcome := do
  match ← caught x with
  | .ok v => return .completed v
  | .error u => return .ofUnwind (← get).registries u

/-! ## Setting up and putting back -/

/-- Runs with a registry in use. -/
def withRegistry (id : Nat) (x : MachineM α) : MachineM α := do
  let saved := (← get).active
  modify (fun m => { m with active := id })
  afterwards x (fun m => { m with active := saved })

/-- Instruments a tree against the registry in use. -/
def instrument (f : Func) (ns : String) (inherited : List String) (isProgram : Bool) :
    MachineM (Code.Lowered Code.Func) := do
  let m ← get
  let (code, registry) := Code.instrument f (m.registries.getD m.active default) ns inherited isProgram
  modify (fun m => { m with registries := m.registries.setIfInBounds m.active registry })
  return code

/-- The name space of the instrumented array methods. -/
def builtinNamespace : String := "[builtins]"

/-- Makes one instrumented array method. -/
def debugMethod (f : Func) : MachineM (Option (String × Value)) := do
  match ← withRegistry builtinRegistry (instrument f builtinNamespace [] false), f.name with
  | .ok code, some name =>
    return some (name, ← newFunction (.instrumented ⟨code, [], builtinRegistry⟩))
  | _, _ => return none

/-- Makes the instrumented array methods when they are first wanted. -/
def prepareDebugMethods : MachineM Unit := do
  let m ← get
  if m.config.debugBuiltins && m.debugMethods.isNone then
    let methods ← ArrayMethods.all.filterMapM debugMethod
    modify (fun m => { m with debugMethods := some methods })

/-- Runs the way the configuration asks for: with pauses, and with the instrumented array methods. -/
def withDebugSupport (x : MachineM α) : MachineM α := do
  prepareDebugMethods
  let m ← get
  let (debugging, debugBuiltins) := (m.debugging, m.debugBuiltins)
  modify (fun m =>
    { m with debugging := m.config.debuggingEnabled, debugBuiltins := m.config.debugBuiltins })
  afterwards x (fun m => { m with debugging, debugBuiltins })

/-! ## Compiling and running -/

/-- Instruments a function in the name space of the configuration. -/
def compile (f : Func) (registry : Nat) (inherited : List String) :
    MachineM (Code.Lowered Code.Func) := do
  withRegistry registry (instrument f (← get).config.ns inherited false)

def compileProgram (p : Program) (registry : Nat) : MachineM (Code.Lowered Code.Func) := do
  withRegistry registry (instrument p.toFunc (← get).config.ns [] true)

/-- Calls a function, with pauses. -/
def runClosure (fuel : Nat) (f this : Value) (args : List Value) : MachineM Outcome :=
  withDebugSupport (settle (call fuel f this args))

/-- Runs instrumented code. -/
def runCode (fuel : Nat) (code : Code.Func) (chain : Chain) (registry : Nat) (args : List Value) :
    MachineM Outcome :=
  withDebugSupport (settle do
    let f ← newFunction (.instrumented ⟨code, chain, registry⟩)
    call fuel f .undefined args)

/-- Compiles and runs a function.  The properties of the bindings, if there are any, are variables
around it. -/
def run (fuel : Nat) (f : Func) (registry : Nat) (args : List Value) (bindings : Option Address) :
    MachineM (Code.Lowered Outcome) := do
  let inherited ← match bindings with
    | some a => ask (fun h => (h.object a).keys)
    | none => pure []
  match ← compile f registry inherited with
  | .error e => return .error e
  | .ok code =>
    let chain := bindings.toList.map (fun a => Link.mk .function a)
    return .ok (← runCode fuel code chain registry args)

/-- Compiles and runs a program. -/
def runProgram (fuel : Nat) (p : Program) (registry : Nat) : MachineM (Code.Lowered Outcome) := do
  match ← compileProgram p registry with
  | .error e => return .error e
  | .ok code => return .ok (← runCode fuel code [] registry [])

/-- Registers a tree in a registry. -/
def assign (id : Nat) (f : Func) (ns : String) (isProgram : Bool) : MachineM IndexedTree :=
  modifyGet (fun m =>
    let (tree, registry) := (m.registries.getD id default).assign f ns isProgram
    (tree, { m with registries := m.registries.setIfInBounds id registry }))

/-- Registers a program and walks it. -/
def interpret (fuel : Nat) (p : Program) (registry : Nat) (mode : Mode) : MachineM Outcome :=
  withDebugSupport (settle do
    let tree ← assign registry p.toFunc (← get).config.ns true
    let f ← newFunction (.stepped ⟨tree, tree.base, [], mode, registry⟩)
    call fuel f .undefined [])

end Machine

/-! ## Resuming -/

/-- Why a continuation cannot be resumed. -/
inductive Obstacle where
  | noFrames
  /-- The function of the innermost frame is not known. -/
  | noFunction
  /-- It is not known where the innermost frame stood. -/
  | noPosition
  /-- Another frame cannot be resumed. -/
  | frame (description : String)
deriving Repr, DecidableEq

def Obstacle.reason : Obstacle → String
  | .noFrames => "continuation has no frames"
  | .noFunction => "frame has no AST"
  | .noPosition => "frame has no pc"
  | .frame description => "frame " ++ description ++ " cannot be resumed"

def Obstacle.message (o : Obstacle) : String := "cannot resume: " ++ o.reason

namespace Frame

/-- Hands a frame the result that it has been waiting for. -/
def seed (frame : Frame) (result : Option Value) : Frame :=
  match result, frame.pc with
  | some v, some pc => { frame with cache := frame.cache.insert pc v }
  | _, _ => frame

end Frame

namespace Continuation

/-- The first reason not to resume. -/
def obstacle? (k : Continuation) : MachineM (Option Obstacle) := do
  match k.currentFrame? with
  | none => return some .noFrames
  | some frame =>
    if frame.func?.isNone then return some .noFunction
    else if frame.pc.isNone then return some .noPosition
    else
      match k.chain.find? (fun f => !f.isResumable) with
      | some frame => return some (.frame (← Machine.convert (fun h => frame.describe? h)))
      | none => return none

/-- Resumes frames from the innermost to the outermost.  The result of each is handed to the next.
When one of them is stopped, the ones that had no turn yet are added behind its frames. -/
def resumeFrames (fuel : Nat) : List Frame → Option Value → MachineM Outcome
  | [], result => return .completed (result.getD .undefined)
  | frame :: rest, result => do
    match ← Machine.caught (Machine.runFrame fuel ({ frame with parent := none }.seed result)) with
    | .ok v => resumeFrames fuel rest (some v)
    | .error u =>
      let registries := (← get).registries
      return .ofUnwind registries (rest.foldl (fun u f => (u.shift registries f).2) u)

/-- A duplicate with frames of its own. -/
def duplicate (k : Continuation) : MachineM Continuation :=
  modifyGet (fun m =>
    let (k, heap) := k.copy m.heap
    (k, { m with heap }))

/-- Continues an interrupted computation. -/
def resume (fuel : Nat) (k : Continuation) : MachineM (Except Obstacle Outcome) := do
  match ← k.obstacle? with
  | some obstacle => return .error obstacle
  | none => return .ok (← Machine.withDebugSupport (resumeFrames fuel k.chain none))

end Continuation

end Resumption
