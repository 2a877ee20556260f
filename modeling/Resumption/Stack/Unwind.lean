import Resumption.Stack.Frame

/-!
# Unwinding

What travels up the stack when a script throws or is paused.  Every function that keeps the books
adds a note of its state as it is left.  The notes become frames only when someone asks for them;
frames stand in an arena and are linked from callee to caller.
-/

namespace Resumption

inductive Signal where
  | error (value : Value)
  /-- A pause at a position. -/
  | pause (index : Nat)

/-- The state of a function at the moment it was left. -/
structure FrameInfo where
  this : Value
  args : List Value
  chain : Chain
  cache : Cache
  /-- The position last marked. -/
  last : Nat
  ns : String
  index : Nat
  registry : Nat

structure Unwind where
  signal : Signal
  /-- Notes that are no frames yet, oldest first. -/
  infos : List FrameInfo
  /-- The arena. -/
  frames : Array Frame
  /-- The innermost frame. -/
  top : Option Nat
  /-- The outermost frame. -/
  last : Option Nat

namespace Unwind

def ofSignal (signal : Signal) : Unwind := ⟨signal, [], #[], none, none⟩

def isPause (u : Unwind) : Bool :=
  match u.signal with
  | .pause _ => true
  | .error _ => false

/-- The value that was thrown, if this is no pause. -/
def thrown? (u : Unwind) : Option Value :=
  match u.signal with
  | .error v => some v
  | .pause _ => none

/-- Adds the note of one more function. -/
def store (u : Unwind) (info : FrameInfo) : Unwind := { u with infos := u.infos ++ [info] }

/-- Links a frame to the chain as its new outermost one. -/
def pushOutermost (u : Unwind) (frame : Frame) : Nat × Unwind :=
  let id := u.frames.size
  let frames := u.frames.push { frame with parent := none }
  match u.last with
  | none => (id, { u with frames, top := some id, last := some id })
  | some last =>
    let frames := frames.modify last (fun f => { f with parent := some id })
    (id, { u with frames, last := some id })

/-- Where a function goes on.  The innermost one goes on where the signal was raised.  Another one
waits for the operation it marked last, unless that has its result already: then it goes on behind
it. -/
def resumePoint (u : Unwind) (info : FrameInfo) (origin : Option NodeHandle) : Option Nat :=
  if u.top.isNone then
    match u.signal with
    | .pause i => some i
    | .error _ => some info.last
  else if info.cache.contains info.last then origin.map (fun o => o.tree.after info.last)
  else some info.last

/-- Turns one note into the new outermost frame. -/
def addFrame (registries : Array Registry) (u : Unwind) (info : FrameInfo) : Unwind :=
  let (scope, pending) := Chain.split info.chain
  let registry := registries.getD info.registry default
  let origin := match registry.tree info.ns info.index with
    | .ok tree => some ⟨tree, info.index⟩
    | .error _ => none
  let frame : Frame :=
    { scope, pending, cache := info.cache, pc := u.resumePoint info origin, this := info.this
      args := info.args, parent := none, origin, registry := info.registry }
  (u.pushOutermost frame).2

/-- Turns all notes into frames. -/
def recreate (registries : Array Registry) (u : Unwind) : Unwind :=
  u.infos.foldl (addFrame registries) { u with infos := [] }

/-- Adds a frame behind everything there is. -/
def shift (registries : Array Registry) (u : Unwind) (frame : Frame) : Nat × Unwind :=
  (u.recreate registries).pushOutermost frame

/-- Takes the outermost frame off the chain; it stays in the arena. -/
def unshift (registries : Array Registry) (u : Unwind) : Option Nat × Unwind :=
  let u := u.recreate registries
  match u.last with
  | none => (none, u)
  | some outermost =>
    match u.frames.findIdx? (fun f => f.parent == some outermost) with
    | some child =>
      let frames := u.frames.modify child (fun f => { f with parent := none })
      (some outermost, { u with frames, last := some child })
    | none => (some outermost, { u with top := none, last := none })

end Unwind

/-- Follows the links from a frame to its callers; no frame is visited twice. -/
def followParents (frames : Array Frame) : Nat → List Nat → Option Nat → List Nat
  | 0, _, _ => []
  | _, _, none => []
  | n + 1, seen, some id =>
    if seen.contains id then []
    else id :: followParents frames n (id :: seen) (frames[id]?.bind (fun f => f.parent))

/-- The frames, innermost first. -/
def Unwind.chain (u : Unwind) : List Frame :=
  (followParents u.frames (u.frames.size + 1) [] u.top).filterMap (fun id => u.frames[id]?)

/-- An interrupted computation that can be continued once. -/
structure Continuation where
  frames : Array Frame
  /-- The innermost frame. -/
  current : Option Nat
  /-- The value that was thrown, if the computation failed. -/
  error : Option Value

namespace Continuation

def ofUnwind (registries : Array Registry) (u : Unwind) : Continuation :=
  let u := u.recreate registries
  ⟨u.frames, u.top, u.thrown?⟩

def isError (k : Continuation) : Bool := k.error.isSome

def currentFrame? (k : Continuation) : Option Frame := k.current.bind (fun id => k.frames[id]?)

/-- The numbers of the frames, innermost first. -/
def order (k : Continuation) : List Nat :=
  followParents k.frames (k.frames.size + 1) [] k.current

/-- The frames, innermost first. -/
def chain (k : Continuation) : List Frame := k.order.filterMap (fun id => k.frames[id]?)

def copyFrames (h : Heap) : List Frame → List Frame × Heap
  | [] => ([], h)
  | f :: rest =>
    let (f, h) := f.copy h
    let (rest, h) := copyFrames h rest
    (f :: rest, h)

/-- Copies all frames. -/
def copy (h : Heap) (k : Continuation) : Continuation × Heap :=
  let (frames, h) := copyFrames h k.frames.toList
  ({ k with frames := frames.toArray }, h)

end Continuation

end Resumption
