import Resumption.Stack.Frame

/-!
# Activations

One call of a script function while it runs.  Both ways of running a function keep the same books:
the results of some nodes by position, and a marker of the position reached.  A function that is
taken up again also knows the position it has to get back to and the scopes it has to re-enter on
the way.
-/

namespace Resumption

/-- What stays the same throughout a call. -/
structure Site where
  this : Value
  args : List Value
  ns : String
  /-- The position of the function. -/
  index : Nat
  registry : Nat
  /-- Books are kept. -/
  records : Bool

/-- How the books of a call stand at one moment. -/
structure Entry where
  /-- The position of the operation that starts at this moment, if one does. -/
  starting : Option Nat
  last : Nat
  cache : Cache

structure Activation where
  site : Site
  chain : Chain
  cache : Cache
  /-- The position last marked. -/
  last : Nat
  /-- The object of the arguments, once it has been asked for. -/
  arguments : Option Value
  /-- Links to re-enter on the way back, outermost first. -/
  pending : List Link
  /-- The position to get back to. -/
  pc : Option Nat
  /-- How the books have stood so far.  It is kept for those who study runs: nothing that a script does
  depends on it. -/
  diary : Entry → Prop := fun _ => False

namespace Activation

/-- Adds an entry to the diary. -/
def noted (act : Activation) (e : Entry) : Activation :=
  { act with diary := fun x => x = e ∨ act.diary x }

/-- Changes the books; the diary shows how they stand then. -/
def kept (act : Activation) (f : Cache → Nat → Cache × Nat) : Activation :=
  let (cache, last) := f act.cache act.last
  { act with cache, last }.noted ⟨none, last, cache⟩

end Activation

end Resumption
