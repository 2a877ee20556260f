import Resumption.Index.Registry
import Resumption.Value.Chain
import Resumption.Value.Convert

/-!
# Frames

A frame is what is left of a function that was interrupted: its scopes, the results it has recorded
so far, and the position at which it goes on.
-/

namespace Resumption

/-- Results by position, in ascending order. -/
abbrev Cache := List (Nat × Value)

namespace Cache

def insert (i : Nat) (v : Value) : Cache → Cache
  | [] => [(i, v)]
  | (j, w) :: rest =>
    if i < j then (i, v) :: (j, w) :: rest
    else if i == j then (i, v) :: rest
    else (j, w) :: insert i v rest

def erase (i : Nat) : Cache → Cache
  | [] => []
  | (j, w) :: rest => if i == j then rest else (j, w) :: erase i rest

def get? (i : Nat) : Cache → Option Value
  | [] => none
  | (j, w) :: rest => if i == j then some w else get? i rest

def contains (i : Nat) (c : Cache) : Bool := (get? i c).isSome

end Cache

structure Frame where
  /-- The chain from the function's own record on. -/
  scope : Chain
  /-- The links inside of the function at the interruption, outermost first. -/
  pending : List Link
  cache : Cache
  /-- Where the function goes on. -/
  pc : Option Nat
  this : Value
  args : List Value
  /-- The frame of the caller, by its number in the arena. -/
  parent : Option Nat
  /-- The function, by tree and position. -/
  origin : Option NodeHandle
  registry : Nat

namespace Frame

def func? (f : Frame) : Option Script.Func := f.origin.bind NodeHandle.func?

/-- The node at which the function goes on. -/
def pcNode? (f : Frame) : Option Script.Node := do
  let origin ← f.origin
  origin.tree.node? (← f.pc)

def isResumable (f : Frame) : Bool := f.func?.isSome && f.pc.isSome

/-- The scope chain at the interruption. -/
def innermost (f : Frame) : Chain := f.pending.reverse ++ f.scope

/-- The function's own record. -/
def record (f : Frame) : Address := (f.scope.head?.map (fun link => link.record)).getD 0

/-- The value of a name as code at the interruption sees it. -/
def lookup? (h : Heap) (f : Frame) (name : String) : Option Value := do
  let record ← Chain.recordOf? h name f.innermost
  h.findData? name record

/-- The function's own variables. -/
def bindings (h : Heap) (f : Frame) : List (String × Value) := (h.object f.record).entries

/-- The name by which a frame is known. -/
def title (f : Frame) : String :=
  match f.origin with
  | none => "<unknown>"
  | some origin =>
    if origin.tree.isProgram && origin.index == origin.tree.base then "<program>"
    else (origin.func?.bind (fun g => g.name)).getD "<anonymous>"

/-- Where the frame stands, in words. -/
def whereabouts (f : Frame) : String :=
  match f.pc, f.pcNode? with
  | some pc, some node => node.kind ++ "@" ++ toString pc
  | some pc, none => "@" ++ toString pc
  | none, _ => "no pc"

/-- The frame in one line: its function, where it stands, and its variables. -/
def describe? (h : Heap) (f : Frame) : Option String := do
  let vars ← (f.bindings h).mapM (fun (k, v) => do return k ++ "=" ++ (← h.inspect? v))
  return f.title ++ " [" ++ f.whereabouts ++ "] \x7b" ++ ", ".intercalate vars ++ "\x7d"

/-! ## Copies -/

/-- A copy of a value that is an array; anything else stays. -/
def copyArray (h : Heap) (v : Value) : Value × Heap :=
  match v with
  | .object a =>
    match (h.object a).kind with
    | .array items =>
      let (b, h) := h.alloc (.new (.array items) (h.object a).proto)
      (.object b, h)
    | _ => (v, h)
  | _ => (v, h)

def copyCache (h : Heap) : Cache → Cache × Heap
  | [] => ([], h)
  | (i, v) :: rest =>
    let (v, h) := copyArray h v
    let (rest, h) := copyCache h rest
    ((i, v) :: rest, h)

/-- A record with the same values. -/
def copyRecord (h : Heap) (a : Address) : Address × Heap :=
  let copy := (h.object a).entries.foldl (fun o (k, v) => o.setOwn k v) (.new .plain none)
  h.alloc copy

/-- Copies the records of links; a `with` object is the script's own and stays shared. -/
def copyLinks (h : Heap) : List Link → List Link × Heap
  | [] => ([], h)
  | link :: rest =>
    let (record, h) := match link.kind with
      | .withObject => (link.record, h)
      | _ => copyRecord h link.record
    let (rest, h) := copyLinks h rest
    (⟨link.kind, record⟩ :: rest, h)

/-- A frame of its own: running it on leaves the first one as it is. -/
def copy (h : Heap) (f : Frame) : Frame × Heap :=
  let (cache, h) := copyCache h f.cache
  let (record, h) := copyRecord h f.record
  let (pending, h) := copyLinks h f.pending
  ({ f with scope := ⟨.function, record⟩ :: f.scope.drop 1, pending, cache }, h)

end Frame

end Resumption
