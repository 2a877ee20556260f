import Resumption.Engine.Activation

/-!
# Constructs

What operations and statements do with their parts.  Both ways of running a function come down to
these: they differ in how they find a variable and in how they get to a part, and the parts are
given here as computations.
-/

namespace Resumption

open Script (PropKind UpdateOp LogicalOp BinaryOp)

namespace ActM

/-! ## Operations -/

/-- Stores what a node evaluates to. -/
def recorded (env : Env) (i : Nat) (x : ActM Value) : ActM Value := do
  let v ← x
  record env i v
  return v

/-- A method to call, and its receiver. -/
def methodOf (env : Env) (object : ActM Value) (key : ActM String) : ActM (Value × Value) := do
  let o ← object
  let k ← key
  return (← lift (Machine.getProperty env.invoke o k), o)

/-- A function to call that has no receiver. -/
def functionOf (callee : ActM Value) : ActM (Value × Value) := do
  return (← callee, .undefined)

/-- Calls a function whose operands are at hand; `callee` is how the text calls it. -/
def callAt (env : Env) (i : Nat) (callee : String) (f this : Value) (args : List Value) :
    ActM Value := do
  markPending env i
  starting i
  if ← lift (Machine.ask (fun h => h.isCallable f)) then lift (env.invoke f this args)
  else lift (Machine.typeError (callee ++ " is not a function"))

def constructAt (env : Env) (i : Nat) (callee : String) (f : Value) (args : List Value) :
    ActM Value := do
  markPending env i
  starting i
  if ← lift (Machine.ask (fun h => h.isCallable f)) then
    lift (Machine.construct env.invoke f args)
  else lift (Machine.typeError (callee ++ " is not a constructor"))

/-- The number one step on. -/
def stepped (op : UpdateOp) (x : Float) : Float :=
  match op with
  | .increment => x + 1
  | .decrement => x - 1

/-- Counts up or down what is read, and writes it back. -/
def updating (env : Env) (i : Nat) (op : UpdateOp) (before : Bool) (read : ActM Value)
    (write : Value → ActM Unit) : ActM Value := do
  let current ← read
  let old ← lift (Machine.number current)
  markPending env i
  starting i
  let new := stepped op old
  write (.num new)
  return .num (if before then new else old)

/-- Writes a value, or what an operator makes of it and of what is there. -/
def assigning (env : Env) (op : Option BinaryOp) (read value : ActM Value)
    (write : Value → ActM Unit) : ActM Value := do
  let v ← match op with
    | none => value
    | some op => do
      let current ← read
      let r ← value
      lift (Machine.binary env.invoke op current r)
  write v
  return v

/-- The left operand decides without the right one. -/
def decides (op : LogicalOp) (v : Value) : Bool :=
  match op with
  | .and => !v.truthy
  | .or => v.truthy

/-- Adds a property of an object literal. -/
def define (a : Address) (key : String) (v : Value) : PropKind → MachineM Unit
  | .init => Machine.setOwn a key v
  | .getter => Machine.modifyHeap (fun h => h.modify a (fun o => o.defineAccessor key (some v) none))
  | .setter => Machine.modifyHeap (fun h => h.modify a (fun o => o.defineAccessor key none (some v)))

/-! ## Loops -/

end ActM

/-- What the end of its body means for a loop: its own end, or another turn. -/
def Flow.endsLoop? : Flow → Option Flow
  | .brk => some .normal
  | .ret v => some (.ret v)
  | .normal | .cont => none

/-- What the end of its arms means for a `switch`. -/
def Flow.endSwitch : Flow → Flow
  | .brk => .normal
  | flow => flow

namespace ActM

variable {α : Type}

/-- Repeats turns until one has a result; the first may differ from the others. -/
def turning (first other : ActM (Option α)) : Nat → ActM α
  | 0 => throw .exhausted
  | fuel + 1 => do
    match ← first with
    | some a => return a
    | none => turning other other fuel

/-- A turn is over. -/
def endTurn : ActM (Option Flow) := do
  clearPc
  return none

/-- The rest of a turn from the body on. -/
def bodyThen (body : ActM Flow) (next : ActM (Option Flow)) : ActM (Option Flow) := do
  match (← body).endsLoop? with
  | some flow => return some flow
  | none => next

/-- The rest of a turn of a `for` from the update on. -/
def updateTurn (update : ActM Value) : ActM (Option Flow) := do
  let _ ← update
  endTurn

def forTurn (test : ActM Bool) (body : ActM Flow) (update : ActM Value) : ActM (Option Flow) := do
  if ← test then bodyThen body (updateTurn update) else return some .normal

def whileTurn (test : ActM Value) (body : ActM Flow) : ActM (Option Flow) := do
  if (← test).truthy then bodyThen body endTurn else return some .normal

/-- The rest of a turn of a `do` loop from the test on. -/
def testTurn (test : ActM Value) : ActM (Option Flow) := do
  if (← test).truthy then endTurn else return some .normal

def doTurn (body : ActM Flow) (test : ActM Value) : ActM (Option Flow) :=
  bodyThen body (testTurn test)

/-- The rest of a turn over keys from the body on. -/
def keyBody (keys : Value) (body : ActM Flow) : ActM (Option Flow) :=
  bodyThen body (do
    lift (KeyQueue.shift keys)
    endTurn)

/-- A turn over keys; the key stays in the queue until its turn is over. -/
def keyTurn (keys : Value) (assign : Value → ActM Unit) (body : ActM Flow) :
    ActM (Option Flow) := do
  match ← lift (KeyQueue.front? keys) with
  | none => return some .normal
  | some key =>
    assign key
    keyBody keys body

/-- The queue of keys for what is enumerated, stored under a position. -/
def keyQueue (env : Env) (i : Nat) (object : ActM Value) : ActM Value := do
  let object ← object
  mark env i
  let keys ← lift (KeyQueue.make object)
  record env i keys
  return keys

/-- Leaves a loop over keys: unless the function is left as well, the queue is forgotten. -/
def leaveKeys (env : Env) (i : Nat) : Flow → ActM Flow
  | .ret v => return .ret v
  | _ => do
    if env.records then forget i
    return .normal

/-- The value that a `switch` looks for, stored under a position. -/
def discriminating (env : Env) (i : Nat) (discriminant : ActM Value) : ActM Value := do
  let v ← discriminant
  mark env i
  record env i v
  return v

/-! ## Scopes -/

/-- The object that a `with` makes a scope of. -/
def scopeRecord (v : Value) : MachineM Address := do
  match v with
  | .object a => return a
  | .undefined | .null => Machine.typeError "Cannot convert undefined or null to object"
  | _ => Machine.newRecord

/-- Runs a body inside of one more link.  When it is stopped the chain stays as it is. -/
def inScope (link : Link) (saved : Chain) (body : ActM Flow) : ActM Flow := do
  setChain (link :: saved)
  let flow ← body
  setChain saved
  return flow

/-! ## Exceptions -/

/-- Runs a block.  What it throws goes to the handler; a pause does not. -/
def guarding (block : ActM Flow) (handler : Unwind → ActM (Except Unwind Flow)) :
    ActM (Except Unwind Flow) := do
  match ← caught block with
  | .ok flow => return .ok flow
  | .error u => if u.isPause then return .error u else handler u

/-- Runs the body of a `catch` with what was thrown. -/
def catching (env : Env) (i : Nat) (saved : Chain) (param : String) (thrown : Value)
    (body : ActM Flow) : ActM Flow := do
  mark env i
  let a ← lift (Machine.alloc ((Object.new .plain none).setOwn param thrown))
  inScope ⟨.handler, a⟩ saved body

/-- Runs a `finally`.  What comes behind it counts unless the `finally` says something else. -/
def finallyThen (i : Nat) (finalizer next : ActM Flow) : ActM Flow := do
  let flow ← finalizer
  forget i
  match flow with
  | .normal => next
  | abrupt => return abrupt

/-- The completion is a pause under way. -/
def isPaused : Except Unwind Flow → Bool
  | .ok _ => false
  | .error u => u.isPause

/-- Ends a `try`.  If there is a `finally` the result waits for it, stored under a position; a pause
does not wait. -/
def concluding (env : Env) (i : Nat) (saved : Chain) (present : Bool) (finalizer : ActM Flow)
    (result : Except Unwind Flow) : ActM Flow :=
  if !present || isPaused result then proceed result
  else do
    setChain saved
    let waiting ← lift (Completion.encode (.ofResult result))
    record env i waiting
    finallyThen i finalizer (proceed result)

/-! ## Pauses -/

/-- A `debugger` statement.  Without books there is nothing to come back to, so it does nothing. -/
def debugging (env : Env) (i : Nat) : ActM Flow := do
  if env.records then
    record env i .undefined
    mark env i
    lift (Machine.debuggerAt i)
  return .normal

end ActM

end Resumption
