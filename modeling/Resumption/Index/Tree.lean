import Resumption.Script.Node

/-!
# Indexed trees

A function tree whose nodes are numbered in pre-order from a base.  The table of subtree sizes is
all that is needed to do arithmetic on positions: the subtree at `i` occupies the positions from
`i` up to `after i`, and the next sibling stands right there.
-/

namespace Resumption

open Script

structure IndexedTree where
  ns : String
  /-- The position of the root. -/
  base : Nat
  root : Func
  /-- The root is a whole program rather than a function. -/
  isProgram : Bool
  /-- Subtree sizes in pre-order. -/
  sizes : Array Nat

namespace IndexedTree

def ofFunc (ns : String) (base : Nat) (root : Func) (isProgram : Bool) : IndexedTree :=
  ⟨ns, base, root, isProgram, (Node.func root).sizes.toArray⟩

variable (t : IndexedTree)

/-- The number of positions the tree occupies. -/
def length : Nat := t.sizes.size

def owns (i : Nat) : Bool := t.base ≤ i && i < t.base + t.length

/-- The size of the subtree at a position; zero outside of the tree. -/
def size (i : Nat) : Nat := if t.base ≤ i then t.sizes.getD (i - t.base) 0 else 0

/-- The first position behind the subtree at `i`. -/
def after (i : Nat) : Nat := i + max (t.size i) 1

/-- The first position behind that many siblings, the first of them at `i`. -/
def afterMany : Nat → Nat → Nat
  | 0, i => i
  | n + 1, i => afterMany n (t.after i)

/-- The position `target` lies in the subtree at `i`. -/
def contains (i target : Nat) : Bool := i ≤ target && target < t.after i

/-- Siblings with their positions, the first of them at `i`. -/
def place : Nat → List Node → List (Nat × Node)
  | _, [] => []
  | i, n :: rest => (i, n) :: place (t.after i) rest

theorem mem_of_mem_place {i j : Nat} {n : Node} {l : List Node} (h : (j, n) ∈ t.place i l) :
    n ∈ l := by
  induction l generalizing i with
  | nil => simp [place] at h
  | cons c l ih =>
      rcases List.mem_cons.1 h with h | h
      · cases h
        exact List.mem_cons_self
      · exact List.mem_cons_of_mem _ (ih h)

/-- The children of a node at a position, with theirs. -/
def children (n : Node) (i : Nat) : List (Nat × Node) := t.place (i + 1) n.children

/-- The positions of a node's children in order, and then the position behind it for ever. -/
def childAt (n : Node) (i k : Nat) : Nat :=
  match (t.children n i)[k]? with
  | some (j, _) => j
  | none => t.after i

/-- Descends from a node at a position to the node at another. -/
def seek (target : Nat) (n : Node) (i : Nat) : Option Node :=
  if i == target then some n
  else
    match _h : (t.children n i).find? (fun c => t.contains c.1 target) with
    | none => none
    | some (j, c) => seek target c j
termination_by n.weight
decreasing_by exact Node.weight_lt_of_mem_children (t.mem_of_mem_place (List.mem_of_find?_eq_some _h))

/-- The node at a position. -/
def node? (i : Nat) : Option Node := if t.owns i then t.seek i (.func t.root) t.base else none

/-- The function that the node at a position introduces. -/
def func? (i : Nat) : Option Func := (t.node? i).bind Node.func?

end IndexedTree

end Resumption
