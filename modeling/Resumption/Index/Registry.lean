import Resumption.Index.Declarations
import Resumption.Index.Search

/-!
# The registry

The trees that have been handed out positions.  Each name space counts for itself: a new tree gets
the positions right behind the last tree of its name space, and keeps them.
-/

namespace Resumption

open Script

/-- Trees in the order of their registration. -/
structure Registry where
  trees : List IndexedTree

/-- No node stands at the position. -/
structure LookupError where
  ns : String
  index : Nat
deriving Repr, DecidableEq

def LookupError.message (e : LookupError) : String :=
  "no node registered at index " ++ toString e.index ++ " in namespace '" ++ e.ns ++ "'"

/-- A node, as the tree that owns it and its position there. -/
structure NodeHandle where
  tree : IndexedTree
  index : Nat

def NodeHandle.node? (h : NodeHandle) : Option Node := h.tree.node? h.index

def NodeHandle.func? (h : NodeHandle) : Option Func := h.tree.func? h.index

namespace Registry

/-- Sums start from the zero of the core library, whatever algebra is in scope. -/
local instance (priority := high) coreZero : Zero Nat := Zero.ofOfNat0

def empty : Registry := ⟨[]⟩

instance : Inhabited Registry := ⟨empty⟩

/-- The trees of one name space. -/
def treesOf (r : Registry) (ns : String) : List IndexedTree := r.trees.filter (fun t => t.ns == ns)

/-- The position the next tree of the name space will get. -/
def next (r : Registry) (ns : String) : Nat := ((r.treesOf ns).map IndexedTree.length).sum

/-- Registers a tree. -/
def assign (r : Registry) (root : Func) (ns : String) (isProgram : Bool) :
    IndexedTree × Registry :=
  let t := IndexedTree.ofFunc ns (r.next ns) root isProgram
  (t, ⟨r.trees ++ [t]⟩)

/-- The tree that owns a position.  The trees of a name space stand in the order of their bases, so it
can only be the last one whose base is not behind the position. -/
def tree (r : Registry) (ns : String) (i : Nat) : Except LookupError IndexedTree :=
  let trees := (r.treesOf ns).toArray
  match boundary (fun t => t.base ≤ i) trees with
  | 0 => .error ⟨ns, i⟩
  | k + 1 =>
    match trees[k]? with
    | some t => if t.owns i then .ok t else .error ⟨ns, i⟩
    | none => .error ⟨ns, i⟩

/-- The node at a position. -/
def resolve (r : Registry) (ns : String) (i : Nat) : Except LookupError NodeHandle := do
  let t ← r.tree ns i
  if (t.node? i).isSome then return ⟨t, i⟩ else .error ⟨ns, i⟩

end Registry

end Resumption
