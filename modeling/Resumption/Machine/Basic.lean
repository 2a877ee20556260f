import Resumption.Config.Basic
import Resumption.Stack.Activation
import Resumption.Stack.Unwind
import Resumption.Value.Operators

/-!
# The machine

The state that scripts run on, and computations over it.  A computation ends with a result, or it
is stopped: by something that travels up the stack, or because its fuel has run out.  Either way
the machine is handed back as it stood at that moment.
-/

namespace Resumption

/-! ## Hooks -/

/-- Positions to halt at. -/
structure Breakpoints where
  points : List (String × Nat)

namespace Breakpoints

def empty : Breakpoints := ⟨[]⟩

def contains (b : Breakpoints) (ns : String) (i : Nat) : Bool := b.points.contains (ns, i)

def add (b : Breakpoints) (ns : String) (i : Nat) : Breakpoints :=
  if b.contains ns i then b else ⟨b.points ++ [(ns, i)]⟩

/-- Removes a position, and says whether it was there. -/
def remove (b : Breakpoints) (ns : String) (i : Nat) : Bool × Breakpoints :=
  (b.contains ns i, ⟨b.points.filter (fun p => p != (ns, i))⟩)

def isEmpty (b : Breakpoints) : Bool := b.points.isEmpty

end Breakpoints

/-- Halts once, at whatever comes next. -/
structure StepOnce where
  armed : Bool

def StepOnce.new : StepOnce := ⟨true⟩

def StepOnce.ask (s : StepOnce) : Bool × StepOnce := (s.armed, ⟨false⟩)

/-- A statement that is about to run. -/
structure Moment where
  ns : String
  index : Nat
  stmt : Script.Stmt

/-- Decides before each statement whether to halt. -/
inductive Hook where
  | breakpoints (b : Breakpoints)
  | stepOnce (s : StepOnce)
  /-- Any other decision.  It may depend on everything asked so far, latest first. -/
  | other (asked : List Moment) (decide : List Moment → Bool)

def Hook.ask (moment : Moment) : Hook → Bool × Hook
  | .breakpoints b => (b.contains moment.ns moment.index, .breakpoints b)
  | .stepOnce s =>
    let (halt, s) := s.ask
    (halt, .stepOnce s)
  | .other asked decide => (decide (moment :: asked), .other (moment :: asked) decide)

/-! ## State -/

/-- How things stood at one moment of a run. -/
structure Instant where
  heap : Heap
  output : List String
  /-- The activations under way, innermost first. -/
  live : List Activation

/-- What a run has been through.  It is kept for those who study runs: nothing that a script does
depends on it. -/
structure Chronicle where
  /-- The activations that wait for the machine, innermost first. -/
  waiting : List Activation
  /-- The moment at which a pause was raised last. -/
  raised : Option Instant
  /-- The number of `debugger` statements passed without a pause. -/
  passed : Nat
  /-- The number of exceptions that left a script function. -/
  escaped : Nat
  /-- The number of calls refused because too many were open. -/
  refused : Nat
  /-- How many calls were open after each that was opened or closed, latest first. -/
  depths : List Nat

def Chronicle.empty : Chronicle := ⟨[], none, 0, 0, 0, []⟩

structure Machine where
  heap : Heap
  config : Config
  /-- Pauses are taken right now. -/
  debugging : Bool
  /-- The instrumented array methods are in use right now. -/
  debugBuiltins : Bool
  /-- The instrumented array methods, once they have been compiled. -/
  debugMethods : Option (List (String × Value))
  registries : Array Registry
  /-- The registry in use. -/
  active : Nat
  /-- The number of open calls. -/
  depth : Nat
  /-- Lines written to the console. -/
  output : List String
  hook : Option Hook
  chronicle : Chronicle

/-- Why a computation did not end with a result. -/
inductive Stop where
  | unwind (u : Unwind)
  | exhausted

abbrev MachineM := EStateM Stop Machine

/-- How one function calls another: the function, the receiver and the arguments. -/
abbrev Invoke := Value → Value → List Value → MachineM Value

namespace Machine

/-- A conversion that has to end. -/
def demand {α : Type} (x : Option α) : MachineM α :=
  match x with
  | some a => pure a
  | none => throw .exhausted

def heapM : MachineM Heap := do return (← get).heap

/-- Asks the heap. -/
def ask {α : Type} (f : Heap → α) : MachineM α := do return f (← get).heap

/-- Asks the heap for something that may not end. -/
def convert {α : Type} (f : Heap → Option α) : MachineM α := do demand (f (← get).heap)

def modifyHeap (f : Heap → Heap) : MachineM Unit :=
  modify (fun m => { m with heap := f m.heap })

def text (v : Value) : MachineM String := convert (fun h => h.text? v)

def number (v : Value) : MachineM Float := convert (fun h => h.number? v)

def inspect (v : Value) : MachineM String := convert (fun h => h.inspect? v)

/-! ## New objects -/

def alloc (o : Object) : MachineM Address :=
  modifyGet (fun m =>
    let ⟨heap, config, debugging, debugBuiltins, debugMethods, registries, active, depth, output,
      hook, chronicle⟩ := m
    let (a, heap) := heap.alloc o
    (a, ⟨heap, config, debugging, debugBuiltins, debugMethods, registries, active, depth, output,
      hook, chronicle⟩))

def newObject : MachineM Address := alloc (.new .plain (some Intrinsic.objectProto))

/-- A record of bindings: it inherits nothing. -/
def newRecord : MachineM Address := alloc (.new .plain none)

def newArray (items : List Value) : MachineM Value := do
  return .object (← alloc (.new (.array items.toArray) (some Intrinsic.arrayProto)))

def newFunction (f : Callable) : MachineM Value := do
  return .object (← alloc (.new (.function f) (some Intrinsic.functionProto)))

def newError (kind : ErrorKind) (message : String) : MachineM Value := do
  let o := Object.new .error (some (Intrinsic.errorProto kind))
  return .object (← alloc (o.setOwn "message" (.str message)))

/-- Creates or overwrites an own value of an object. -/
def setOwn (a : Address) (key : String) (value : Value) : MachineM Unit := do
  if key == lengthKey && (← ask (fun h => (h.object a).isArray)) then
    let n ← number value
    modifyHeap (fun h => h.modify a (fun o => o.setLength n))
  else modifyHeap (fun h => h.modify a (fun o => o.setOwn key value))

/-! ## The chronicle -/

/-- Adds to the chronicle. -/
def chronicling (f : Machine → Chronicle → Chronicle) : MachineM Unit :=
  modify (fun m => { m with chronicle := f m m.chronicle })

/-- An activation starts to wait for the machine. -/
def suspend (act : Activation) (m : Machine) : Machine :=
  { m with chronicle := { m.chronicle with waiting := act :: m.chronicle.waiting } }

/-- The activation that waits goes on. -/
def release (m : Machine) : Machine :=
  { m with chronicle := { m.chronicle with waiting := m.chronicle.waiting.tail } }

/-- An exception leaves a script function. -/
def escape (m : Machine) : Machine :=
  { m with chronicle := { m.chronicle with escaped := m.chronicle.escaped + 1 } }

/-- So many calls are open now. -/
def atDepth (d : Nat) (m : Machine) : Machine :=
  { m with depth := d, chronicle := { m.chronicle with depths := d :: m.chronicle.depths } }

/-! ## Throwing -/

def throwValue {α : Type} (v : Value) : MachineM α := throw (.unwind (.ofSignal (.error v)))

def pauseAt {α : Type} (i : Nat) : MachineM α := do
  chronicling (fun m c => { c with raised := some ⟨m.heap, m.output, c.waiting⟩ })
  throw (.unwind (.ofSignal (.pause i)))

def fail {α : Type} (kind : ErrorKind) (message : String) : MachineM α := do
  throwValue (← newError kind message)

def typeError {α : Type} (message : String) : MachineM α := fail .type message

/-! ## Small state changes -/

def registry (id : Nat) : MachineM Registry := do return (← get).registries.getD id default

/-- Applies a change to the machine that is handed back, whether there is a result or not. -/
def afterwards {α : Type} (x : MachineM α) (f : Machine → Machine) : MachineM α := fun m =>
  match x m with
  | .ok a m => .ok a (f m)
  | .error e m => .error e (f m)

/-- Runs to the end, and hands over what stopped it as a value. -/
def caught {α : Type} (x : MachineM α) : MachineM (Except Unwind α) := fun m =>
  match x m with
  | .ok a m => .ok (.ok a) m
  | .error (.unwind u) m => .ok (.error u) m
  | .error .exhausted m => .error .exhausted m

/-- Opens a call. -/
def enter : MachineM Unit := do
  let m ← get
  if m.config.maxCallDepth ≤ m.depth then
    chronicling (fun _ c => { c with refused := c.refused + 1 })
    fail .range "Maximum call stack size exceeded"
  else modify (fun m => m.atDepth (m.depth + 1))

/-- Closes a call, however it ended. -/
def closing {α : Type} (x : MachineM α) : MachineM α :=
  afterwards x (fun m => m.atDepth (m.depth - 1))

def isDebugging : MachineM Bool := do return (← get).debugging

/-- Pauses at a `debugger` statement, if pauses are taken. -/
def debuggerAt (i : Nat) : MachineM Unit := do
  if ← isDebugging then pauseAt i
  else chronicling (fun _ c => { c with passed := c.passed + 1 })

/-- Asks the hook about a statement.  Nobody is asked unless pauses are taken. -/
def shouldHalt (moment : Moment) : MachineM Bool := do
  let m ← get
  if m.debugging then
    match m.hook with
    | some hook =>
      let (halt, hook) := hook.ask moment
      modify (fun m => { m with hook := some hook })
      return halt
    | none => return false
  else return false

def log (line : String) : MachineM Unit :=
  modify (fun m => { m with output := m.output ++ [line] })

end Machine

end Resumption
