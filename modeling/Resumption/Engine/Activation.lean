import Resumption.Machine.Native

/-!
# Running in an activation

What both ways of running a function have in common: computations inside of an activation and their
books, completions that wait for a `finally`, the queues of keys behind `for-in`, and the way into a
function and out of it.
-/

namespace Resumption

/-- The fixed part of an activation. -/
structure Env extends Site where
  invoke : Invoke
  /-- Bounds how often a loop may turn. -/
  fuel : Nat

/-- How a statement ended. -/
inductive Flow where
  | normal
  | ret (v : Value)
  | brk
  | cont

abbrev ActM := EStateM Stop (Activation × Machine)

namespace ActM

variable {α : Type}

/-- A computation of the machine, for which the activation waits. -/
def lift (x : MachineM α) : ActM α := fun (act, m) =>
  match x (m.suspend act) with
  | .ok a m => .ok a (act, m.release)
  | .error e m => .error e (act, m.release)

instance : MonadLift MachineM ActM := ⟨lift⟩

def activation : ActM Activation := do return (← get).1

def update (f : Activation → Activation) : ActM Unit := modify (fun (act, m) => (f act, m))

def chain : ActM Chain := do return (← activation).chain

def setChain (chain : Chain) : ActM Unit := update (fun act => { act with chain })

def push (kind : LinkKind) (record : Address) : ActM Unit :=
  update (fun act => { act with chain := ⟨kind, record⟩ :: act.chain })

def cached? (i : Nat) : ActM (Option Value) := do return (← activation).cache.get? i

def keepBooks (f : Cache → Nat → Cache × Nat) : ActM Unit := update (fun act => act.kept f)

/-- Stores the result of a node. -/
def record (env : Env) (i : Nat) (v : Value) : ActM Unit :=
  if env.records then keepBooks (fun cache last => (cache.insert i v, last)) else pure ()

/-- Forgets the result of a node. -/
def forget (i : Nat) : ActM Unit := keepBooks (fun cache last => (cache.erase i, last))

def mark (env : Env) (i : Nat) : ActM Unit :=
  if env.records then keepBooks (fun cache _ => (cache, i)) else pure ()

/-- Marks an operation that is about to run.  The result of an earlier turn is forgotten, so that it
cannot be taken for the one to come. -/
def markPending (env : Env) (i : Nat) : ActM Unit :=
  if env.records then keepBooks (fun cache _ => (cache.erase i, i)) else pure ()

/-- An operation starts. -/
def starting (i : Nat) : ActM Unit :=
  update (fun act => act.noted ⟨some i, act.last, act.cache⟩)

/-- The object of the arguments, made when it is first asked for. -/
def argumentsObject (env : Env) : ActM Value := do
  match (← activation).arguments with
  | some v => return v
  | none =>
    let v ← lift (Machine.newArray env.args)
    update (fun act => { act with arguments := some v })
    return v

/-- Runs to the end, and hands over what stopped it as a value. -/
def caught (x : ActM α) : ActM (Except Unwind α) := fun s =>
  match x s with
  | .ok a s => .ok (.ok a) s
  | .error (.unwind u) s => .ok (.error u) s
  | .error .exhausted s => .error .exhausted s

/-- Goes on as a computation ended. -/
def proceed : Except Unwind α → ActM α
  | .ok a => pure a
  | .error u => throw (.unwind u)

/-- Forgets the position to get back to: from now on the walk is on its own. -/
def clearPc : ActM Unit := update (fun act => { act with pc := none })

end ActM

/-! ## Completions that wait -/

/-- How a `try` ended, kept while its `finally` runs. -/
inductive Completion where
  | normal
  | ret (v : Value)
  | brk
  | cont
  | throwing (v : Value)

namespace Completion

def ofResult : Except Unwind Flow → Completion
  | .ok .normal => .normal
  | .ok (.ret v) => .ret v
  | .ok .brk => .brk
  | .ok .cont => .cont
  | .error u => .throwing (u.thrown?.getD .undefined)

def toResult : Completion → Except Unwind Flow
  | .normal => .ok .normal
  | .ret v => .ok (.ret v)
  | .brk => .ok .brk
  | .cont => .ok .cont
  | .throwing v => .error (.ofSignal (.error v))

/-- The completion as a word and a value. -/
def parts : Completion → String × Value
  | .normal => ("normal", .undefined)
  | .ret v => ("return", v)
  | .brk => ("break", .undefined)
  | .cont => ("continue", .undefined)
  | .throwing v => ("throw", v)

def ofParts? (word : String) (v : Value) : Option Completion :=
  match word with
  | "normal" => some .normal
  | "return" => some (.ret v)
  | "break" => some .brk
  | "continue" => some .cont
  | "throw" => some (.throwing v)
  | _ => none

/-- A completion among the results is an array of two elements. -/
def encode (c : Completion) : MachineM Value := Machine.newArray [.str c.parts.1, c.parts.2]

def decode? (h : Heap) (v : Value) : Option Completion :=
  match h.elements? v with
  | some items =>
    match items.toList with
    | [.str word, v] => ofParts? word v
    | _ => none
  | none => none

end Completion

/-! ## Key queues -/

namespace KeyQueue

/-- The keys of a value, in an array to be emptied. -/
def make (v : Value) : MachineM Value := do
  let keys ← Machine.ask (fun h => h.enumerate v)
  Machine.newArray (keys.map .str)

def front? (queue : Value) : MachineM (Option Value) :=
  Machine.ask (fun h => (h.elements? queue).bind (fun items => items[0]?))

def shift (queue : Value) : MachineM Unit := do
  match queue with
  | .object a => Machine.changeItems a (fun items => ((), items.drop 1)) ()
  | _ => return ()

end KeyQueue

/-! ## Entering and leaving functions -/

/-- The record of a function on entry: parameters, then variables, then its own name. -/
def entryRecord (params : List String) (args : List Value) (vars : List String)
    (self : Option (String × Value)) : Object :=
  let bind := fun (o : Object) (name : String) (v : Value) =>
    if o.hasOwn name then o else o.setOwn name v
  let o := (params.zipIdx).foldl (fun o (name, i) => o.setOwn name (Machine.arg args i))
    (Object.new .plain none)
  let o := vars.foldl (fun o name => bind o name .undefined) o
  match self with
  | some (name, v) => bind o name v
  | none => o

/-- The note of a function that is left before its end. -/
def frameInfo (env : Env) (act : Activation) : FrameInfo :=
  { this := env.this, args := env.args, chain := act.chain, cache := act.cache, last := act.last
    ns := env.ns, index := env.index, registry := env.registry }

/-- Runs the body of a function in an activation of its own.  If it is stopped, it leaves a note
when it keeps the books. -/
def runActivation (env : Env) (act : Activation) (body : ActM Flow) : MachineM Value := fun m =>
  match body (act, m) with
  | .ok (.ret v) (_, m) => .ok v m
  | .ok _ (_, m) => .ok .undefined m
  | .error (.unwind u) (act, m) =>
    let m := if u.isPause then m else m.escape
    if env.records then .error (.unwind (u.store (frameInfo env act))) m
    else .error (.unwind u) m
  | .error .exhausted (_, m) => .error .exhausted m

end Resumption
