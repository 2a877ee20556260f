import Resumption.Proofs.Match.Terms
import Resumption.Stack.Frame

/-!
# Nodes in their place

What a comparison has to know about a node before it runs it: where it stands, that nothing about it
stands in the way, and that the books may be kept about it and its parts.  The parts of a node are
in their places if the node is.
-/

namespace Resumption

open Script

/-- The result of a position may come and go. -/
def Vacant (K : Cache → Prop) (i : Nat) : Prop :=
  ∀ cache, K cache → (∀ v, K (cache.insert i v)) ∧ K (cache.erase i)

/-- The node is nothing but a name. -/
def Script.Node.isName : Node → Bool
  | .expr (.ident _) => true
  | _ => false

/-- A name stands at the position. -/
def IndexedTree.isName (t : IndexedTree) (i : Nat) : Bool := (t.node? i).any Node.isName

/-- Results of positions from `lo` up to `hi` may come and go.  Where no scopes are made nothing is
stored under a name, so that it can be looked up again. -/
def Room (s : Manner) (t : IndexedTree) (K : Cache → Prop) (lo hi : Nat) : Prop :=
  ∀ j, lo ≤ j → j < hi → (s.opens = false → t.isName j = false) → Vacant K j

theorem Room.mono {s : Manner} {t : IndexedTree} {K : Cache → Prop} {lo hi lo' hi' : Nat}
    (h : Room s t K lo hi) (hlo : lo ≤ lo') (hhi : hi' ≤ hi) : Room s t K lo' hi' :=
  fun j h₁ h₂ => h j (by omega) (by omega)

theorem Room.of_vacant {s : Manner} {t : IndexedTree} {K : Cache → Prop} {lo hi : Nat}
    (h : ∀ j, Vacant K j) : Room s t K lo hi :=
  fun j _ _ _ => h j

theorem Vacant.any (i : Nat) : Vacant (fun _ => True) i :=
  fun _ _ => ⟨fun _ => trivial, trivial⟩

/-- The hook is not expected to halt at positions from `lo` up to `hi`. -/
def Terms.Quiet (T : Terms) (lo hi : Nat) : Prop :=
  ∀ sparing, T.spared = some sparing → ∀ j, lo ≤ j → j < hi → sparing.quiet j

theorem Terms.Quiet.mono {T : Terms} {lo hi lo' hi' : Nat} (h : T.Quiet lo hi) (hlo : lo ≤ lo')
    (hhi : hi' ≤ hi) : T.Quiet lo' hi' :=
  fun sparing hspared j h₁ h₂ => h sparing hspared j (by omega) (by omega)

structure Placed (T : Terms) (s : Manner) (t : IndexedTree) (K : Cache → Prop) (i : Nat)
    (n : Node) : Prop where
  stands : t.At i n
  room : Room s t K i (t.after i)
  fair : T.Fair s n
  /-- Inside of functions nobody is expected to halt. -/
  quiet : s = .script → T.Quiet i (t.after i)

/-- Moreover, there are no calls in the node, or they may stand anywhere. -/
structure Calmly (T : Terms) (s : Manner) (t : IndexedTree) (K : Cache → Prop) (i : Nat)
    (n : Node) : Prop extends Placed T s t K i n where
  calm : T.Calm s n

variable {T : Terms} {s : Manner} {t : IndexedTree} {K : Cache → Prop} {i lo hi : Nat} {n : Node}
  {l : List Node} {P Q : Nat → Node → Prop}

namespace IndexedTree

/-- Siblings that stand in an interval are in their places. -/
theorem along_placed (hstand : t.AtAll i l) (hroom : Room s t K lo hi) (hlo : lo ≤ i)
    (hhi : t.afterMany l.length i ≤ hi) (hfair : ∀ c ∈ l, T.Fair s c)
    (hquiet : s = .script → T.Quiet lo hi) : t.Along (Placed T s t K) i l := by
  induction l generalizing i with
  | nil => trivial
  | cons n l ih =>
      have hstep := t.lt_after i
      have hrest := t.le_afterMany l.length (t.after i)
      rw [List.length_cons, afterMany_succ] at hhi
      refine ⟨⟨hstand.1, hroom.mono hlo (by omega), hfair n List.mem_cons_self,
        fun hs => (hquiet hs).mono hlo (by omega)⟩, ?_⟩
      exact ih hstand.2 (by omega) hhi fun c hc => hfair c (List.mem_cons_of_mem _ hc)

end IndexedTree

theorem Placed.vacant (h : Placed T s t K i n) (hn : n.isName = false) : Vacant K i :=
  h.room i (Nat.le_refl i) (t.lt_after i) fun _ => by rw [IndexedTree.isName, h.stands.node?]; exact hn

theorem Placed.vacant_of_opens (h : Placed T s t K i n) (hs : s.opens = true) : Vacant K i :=
  h.room i (Nat.le_refl i) (t.lt_after i) fun hclosed => by
    rw [hs] at hclosed
    cases hclosed

/-- The parts of a node that is no function. -/
theorem Placed.children (h : Placed T s t K i n) (hn : n.func? = none) :
    t.Along (Placed T s t K) (i + 1) n.children :=
  IndexedTree.along_placed h.stands.children h.room (Nat.le_succ i)
    (Nat.le_of_eq h.stands.after_eq.symm) (fun _ hc => h.fair.child hn hc) h.quiet

/-- The parts of a node that is no place for calls. -/
theorem Placed.calm_children (h : Placed T s t K i n) (hs : T.solo = true → s ≠ .free)
    (hn : n.func? = none) (hcall : n.seatsCall s = false) (hkept : n.seatsKept = false) :
    t.Along (Calmly T s t K) (i + 1) n.children :=
  (h.children hn).imp fun _ _ hc hplaced => ⟨hplaced, h.fair.calm hs hcall hkept hc⟩

/-- The parts of an expression that is no function. -/
theorem Calmly.children {e : Expr} (h : Calmly T s t K i (.expr e))
    (hn : (Node.expr e).func? = none) :
    t.Along (Calmly T s t K) (i + 1) (Node.childrenOfExpr e) :=
  (h.toPlaced.children hn).imp fun _ _ hc hplaced => ⟨hplaced, h.calm.child h.fair hc⟩

end Resumption
