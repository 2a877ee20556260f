import Mathlib.Logic.ExistsUnique
import Resumption.Proofs.Index.Position

/-!
# Positions number the nodes in pre-order

A tree may have equal nodes at different places, so a place is told apart by the way that leads to it
from the root, child by child.  The ways, taken in pre-order, are numbered by the positions of the tree
from its base on, and a position lies in the subtree at another exactly when the way to it begins with the
way to the other.

What is known about ways comes from one fact, `occurrences_split`: the places below a place stand in one
piece of the pre-order, and no place outside of that piece has a way that leads through it.
-/

namespace Resumption

open Script

namespace Script.Node

/-- The node at the end of a way: the number of a child, then the number of one of its children, and so
on. -/
def follow? : List Nat → Node → Option Node
  | [], n => some n
  | k :: way, n => n.children[k]?.bind (follow? way)

/-- The node and everything below it in pre-order, each with the way that leads to it. -/
def occurrences (n : Node) : List (List Nat × Node) :=
  ([], n) :: n.children.attach.zipIdx.flatMap (fun (⟨c, _⟩, k) =>
    c.occurrences.map (fun o => (k :: o.1, o.2)))
termination_by n.weight
decreasing_by exact weight_lt_of_mem_children ‹_›

/-- The occurrences below siblings, the first of which has the number. -/
def occurrencesFrom : Nat → List Node → List (List Nat × Node)
  | _, [] => []
  | k, c :: rest => c.occurrences.map (fun o => (k :: o.1, o.2)) ++ occurrencesFrom (k + 1) rest

variable {n c m : Node} {l : List Node} {k s : Nat} {way : List Nat} {o : List Nat × Node}

theorem occurrences_eq (n : Node) : n.occurrences = ([], n) :: occurrencesFrom 0 n.children := by
  have hgo : ∀ (k : Nat) (l : List { c // c ∈ n.children }),
      (l.zipIdx k).flatMap (fun x => x.1.1.occurrences.map (fun o => (x.2 :: o.1, o.2))) =
        occurrencesFrom k l.unattach := by
    intro k l
    induction l generalizing k with
    | nil => rfl
    | cons c l ih => simp [occurrencesFrom, ih]
  rw [occurrences]
  refine congrArg _ ((hgo 0 n.children.attach).trans ?_)
  rw [List.unattach_attach]

theorem occurrencesFrom_append (k : Nat) (l l' : List Node) :
    occurrencesFrom k (l ++ l') = occurrencesFrom k l ++ occurrencesFrom (k + l.length) l' := by
  induction l generalizing k with
  | nil => rfl
  | cons c l ih =>
      rw [List.cons_append, occurrencesFrom, occurrencesFrom, ih, List.append_assoc, List.length_cons,
        Nat.add_right_comm, Nat.add_assoc]

theorem preorder_eq (n : Node) : n.preorder = n :: n.children.flatMap preorder := by
  rw [preorder, List.flatMap_subtype (g := preorder) (fun _ _ => rfl), List.unattach_attach]

/-- Without the ways, the occurrences are the nodes in pre-order. -/
theorem map_snd_occurrences (n : Node) : n.occurrences.map Prod.snd = n.preorder := by
  have hgo : ∀ (k : Nat) (l : List Node),
      (∀ c ∈ l, c.occurrences.map Prod.snd = c.preorder) →
        (occurrencesFrom k l).map Prod.snd = l.flatMap preorder := by
    intro k l hl
    induction l generalizing k with
    | nil => rfl
    | cons c l ih =>
        obtain ⟨hc, hl⟩ := List.forall_mem_cons.1 hl
        rw [occurrencesFrom, List.map_append, ih (k + 1) hl, List.flatMap_cons, ← hc, List.map_map]
        rfl
  rw [occurrences_eq, preorder_eq, List.map_cons]
  exact congrArg _ (hgo 0 n.children fun c _ => map_snd_occurrences c)
termination_by n.weight
decreasing_by exact weight_lt_of_mem_children ‹_›

/-- The size of a subtree is the number of its nodes. -/
theorem length_preorder (n : Node) : n.preorder.length = n.size := by
  have hchildren : n.children.map (fun c => c.preorder.length) = n.children.map size :=
    List.map_congr_left fun c _ => length_preorder c
  rw [preorder_eq, List.length_cons, List.length_flatMap, hchildren, IndexedTree.size_eq_one_add,
    Nat.add_comm]
termination_by n.weight
decreasing_by exact weight_lt_of_mem_children ‹_›

theorem length_occurrences (n : Node) : n.occurrences.length = n.size := by
  rw [← length_preorder, ← map_snd_occurrences, List.length_map]

/-! ## Places and ways -/

/-- A way to a node among siblings begins with the number of one of them. -/
theorem mem_occurrencesFrom (h : o ∈ occurrencesFrom s l) :
    ∃ k c way, l[k]? = some c ∧ o.1 = (s + k) :: way ∧ (way, o.2) ∈ c.occurrences := by
  induction l generalizing s with
  | nil => cases h
  | cons c l ih =>
      rw [occurrencesFrom] at h
      rcases List.mem_append.1 h with h | h
      · obtain ⟨⟨way, m⟩, hmem, rfl⟩ := List.mem_map.1 h
        exact ⟨0, c, way, rfl, rfl, hmem⟩
      · obtain ⟨k, d, way, hget, hway, hmem⟩ := ih h
        refine ⟨k + 1, d, way, by simpa using hget, ?_, hmem⟩
        rw [hway, Nat.add_right_comm, Nat.add_assoc]

theorem follow?_of_mem_occurrences {n m : Node} {way : List Nat} (h : (way, m) ∈ n.occurrences) :
    n.follow? way = some m := by
  rw [occurrences_eq] at h
  rcases List.mem_cons.1 h with h | h
  · cases h
    rfl
  · obtain ⟨k, c, way, hget, rfl, hmem⟩ := mem_occurrencesFrom h
    have hc : c ∈ n.children := List.mem_of_getElem? hget
    rw [Nat.zero_add, Node.follow?, hget, Option.bind_some]
    exact follow?_of_mem_occurrences hmem
termination_by n.weight
decreasing_by exact weight_lt_of_mem_children hc

/-- A child has its elder siblings in front of it and its younger ones behind. -/
theorem exists_append_of_getElem? (h : l[k]? = some c) :
    ∃ elder younger, l = elder ++ c :: younger ∧ elder.length = k := by
  obtain ⟨hk, rfl⟩ := List.getElem?_eq_some_iff.1 h
  exact ⟨l.take k, l.drop (k + 1), by rw [List.getElem_cons_drop, List.take_append_drop],
    List.length_take_of_le (Nat.le_of_lt hk)⟩

/-- What stands below a node stands in one piece of the pre-order, and no way outside of that piece
leads through the node. -/
theorem occurrences_split (h : n.follow? way = some m) :
    ∃ front behind,
      n.occurrences = front ++ (m.occurrences.map (fun o => (way ++ o.1, o.2)) ++ behind) ∧
        ∀ o, o ∈ front ∨ o ∈ behind → ¬ way <+: o.1 := by
  induction way generalizing n with
  | nil =>
      obtain rfl : n = m := by simpa [follow?] using h
      exact ⟨[], [], by simp, by simp⟩
  | cons k way ih =>
      obtain ⟨c, hget, hc⟩ := Option.bind_eq_some_iff.1 h
      obtain ⟨front, behind, hsplit, hout⟩ := ih hc
      obtain ⟨elder, younger, hchildren, hk⟩ := exists_append_of_getElem? hget
      refine ⟨([], n) :: (occurrencesFrom 0 elder ++ front.map (fun o => (k :: o.1, o.2))),
        behind.map (fun o => (k :: o.1, o.2)) ++ occurrencesFrom (k + 1) younger, ?_, ?_⟩
      · rw [occurrences_eq, hchildren, occurrencesFrom_append, hk, Nat.zero_add, occurrencesFrom, hsplit]
        simp
      · -- A place is the root, below an elder sibling, below the child itself, or below a younger one.
        intro o ho
        simp only [List.mem_cons, List.mem_append] at ho
        rcases ho with (rfl | ho | ho) | (ho | ho)
        · simp
        · obtain ⟨k', d, way', hd, hway, -⟩ := mem_occurrencesFrom ho
          have hlt : k' < k := hk ▸ (List.getElem?_eq_some_iff.1 hd).1
          rw [hway, List.cons_prefix_cons]
          omega
        · obtain ⟨o, hfront, rfl⟩ := List.mem_map.1 ho
          simpa using hout o (.inl hfront)
        · obtain ⟨o, hbehind, rfl⟩ := List.mem_map.1 ho
          simpa using hout o (.inr hbehind)
        · obtain ⟨k', d, way', -, hway, -⟩ := mem_occurrencesFrom ho
          rw [hway, List.cons_prefix_cons]
          omega

/-- Only the node itself is reached without a step. -/
theorem eq_zero_of_occurrences (h : n.occurrences[k]? = some ([], m)) : k = 0 := by
  rw [occurrences_eq] at h
  cases k with
  | zero => rfl
  | succ k =>
      obtain ⟨j, c, way, -, hway, -⟩ := mem_occurrencesFrom (List.mem_of_getElem? h)
      cases hway

/-- The places whose ways lead through a place follow it in pre-order, as many as its subtree has
nodes. -/
theorem isPrefix_iff_of_occurrences {k k' : Nat} {o' : List Nat × Node}
    (h : n.occurrences[k]? = some o) (h' : n.occurrences[k']? = some o') :
    o.1 <+: o'.1 ↔ k ≤ k' ∧ k' < k + o.2.size := by
  obtain ⟨front, behind, hsplit, hout⟩ :=
    occurrences_split (follow?_of_mem_occurrences (List.mem_of_getElem? h))
  have hpiece : ∀ {k' o'}, n.occurrences[k']? = some o' →
      (o.1 <+: o'.1 ↔ front.length ≤ k' ∧ k' < front.length + o.2.size) := by
    intro k' o' h'
    rw [hsplit] at h'
    rcases Nat.lt_or_ge k' front.length with hlt | hge
    · rw [List.getElem?_append_left hlt] at h'
      have hno := hout o' (.inl (List.mem_of_getElem? h'))
      constructor
      · exact fun hyes => absurd hyes hno
      · omega
    · rw [List.getElem?_append_right hge] at h'
      rcases Nat.lt_or_ge (k' - front.length) o.2.size with hin | hbehind
      · rw [List.getElem?_append_left (by rwa [List.length_map, length_occurrences]),
          List.getElem?_map] at h'
        obtain ⟨o'', -, rfl⟩ := Option.map_eq_some_iff.1 h'
        simp only [List.prefix_append, true_iff]
        omega
      · rw [List.getElem?_append_right (by rwa [List.length_map, length_occurrences])] at h'
        have hno := hout o' (.inr (List.mem_of_getElem? h'))
        constructor
        · exact fun hyes => absurd hyes hno
        · omega
  -- The place itself comes first in its piece.
  have hfirst : k = front.length := by
    have hself := (hpiece h).1 List.prefix_rfl
    have hlt : k - front.length < o.2.occurrences.length := by
      rw [length_occurrences]
      omega
    have hget := h
    rw [hsplit, List.getElem?_append_right hself.1,
      List.getElem?_append_left (by rwa [List.length_map]), List.getElem?_map] at hget
    obtain ⟨⟨way, m⟩, hm, heq⟩ := Option.map_eq_some_iff.1 hget
    have hway : way = [] := by simpa using congrArg Prod.fst heq
    subst hway
    have hzero := eq_zero_of_occurrences hm
    omega
  rw [hpiece h', hfirst]

/-- Every way to a node has exactly one number. -/
theorem existsUnique_occurrence (h : n.follow? way = some m) :
    ∃! k : Nat, n.occurrences[k]? = some (way, m) := by
  obtain ⟨front, behind, hsplit, -⟩ := occurrences_split h
  have hget : n.occurrences[front.length]? = some (way, m) := by
    rw [hsplit, occurrences_eq m, List.getElem?_append_right (Nat.le_refl _), Nat.sub_self]
    simp
  refine ⟨front.length, hget, fun k hk => ?_⟩
  have hle := (isPrefix_iff_of_occurrences hget hk).1 List.prefix_rfl
  have hge := (isPrefix_iff_of_occurrences hk hget).1 List.prefix_rfl
  omega

end Script.Node

namespace IndexedTree

variable {t : IndexedTree} {i j k : Nat} {n m : Node} {o : List Nat × Node}

/-- The occurrences below a node stand at the positions from its own on. -/
theorem At.occurrence {i k : Nat} {n : Node} {o : List Nat × Node} (h : t.At i n)
    (hget : n.occurrences[k]? = some o) : t.At (i + k) o.2 := by
  have hgo : ∀ (l : List Node) (s i k : Nat), (∀ c ∈ l, ∀ i k o, t.At i c →
      c.occurrences[k]? = some o → t.At (i + k) o.2) → t.AtAll i l →
      ∀ o, (Node.occurrencesFrom s l)[k]? = some o → t.At (i + k) o.2 := by
    intro l
    induction l with
    | nil => exact fun s i k _ _ o hget => nomatch hget
    | cons c l ih =>
        intro s i k hbelow hat o hget
        obtain ⟨hc, hl⟩ := List.forall_mem_cons.1 hbelow
        rw [Node.occurrencesFrom] at hget
        rcases Nat.lt_or_ge k c.size with hlt | hge
        · rw [List.getElem?_append_left (by rwa [List.length_map, Node.length_occurrences]),
            List.getElem?_map] at hget
          obtain ⟨o, ho, rfl⟩ := Option.map_eq_some_iff.1 hget
          exact hc i k o hat.1 ho
        · rw [List.getElem?_append_right (by rwa [List.length_map, Node.length_occurrences]),
            List.length_map, Node.length_occurrences] at hget
          have hrest := ih (s + 1) (t.after i) (k - c.size) hl hat.2 o hget
          have hpos : t.after i + (k - c.size) = i + k := by
            rw [hat.1.after]
            omega
          rwa [hpos] at hrest
  rw [Node.occurrences_eq] at hget
  cases k with
  | zero =>
      obtain rfl : ([], n) = o := by simpa using hget
      exact h
  | succ k =>
      have hbelow := hgo n.children 0 (i + 1) k
        (fun c _ _ _ _ hat hget => hat.occurrence hget) h.children o (by simpa using hget)
      rwa [Nat.add_right_comm, Nat.add_assoc] at hbelow
termination_by n.weight
decreasing_by exact Node.weight_lt_of_mem_children ‹_›

/-- The way to the node at a position. -/
def way? (t : IndexedTree) (i : Nat) : Option (List Nat) :=
  if t.base ≤ i then (Node.func t.root).occurrences[i - t.base]?.map Prod.fst else none

/-- Nodes with their positions follow each other without gaps from the first position up to the last,
each of them taking as many positions as its subtree has nodes. -/
def Fills : Nat → List (Nat × Node) → Nat → Prop
  | i, [], last => i = last
  | i, (j, c) :: rest, last => j = i ∧ Fills (i + c.preorder.length) rest last

/-- The arithmetic on positions agrees with the pre-order of the tree. -/
structure Numbered (t : IndexedTree) : Prop where
  /-- There is a node at each position of the tree, and at no other one. -/
  isSome_node? : ∀ i, (t.node? i).isSome = true ↔
    t.base ≤ i ∧ i < t.base + (Node.func t.root).preorder.length
  /-- It is the one that pre-order has there. -/
  node? : ∀ i, t.base ≤ i → t.node? i = (Node.func t.root).preorder[i - t.base]?
  /-- The table shows the sizes of the subtrees. -/
  size : ∀ i n, t.node? i = some n → t.size i = n.preorder.length
  after : ∀ i n, t.node? i = some n → t.after i = i + n.preorder.length
  /-- All the children of a node are listed, with the positions at which they are found. -/
  children : ∀ i n, t.node? i = some n → (t.children n i).map Prod.snd = n.children ∧
    ∀ j c, (j, c) ∈ t.children n i → t.node? j = some c
  /-- Their subtrees fill the rest of the subtree of the node. -/
  fills : ∀ i n, t.node? i = some n → Fills (i + 1) (t.children n i) (t.after i)
  /-- The positions of the children are handed out one after the other, then the position behind. -/
  childAt : ∀ i n, t.node? i = some n →
    (∀ k c, n.children[k]? = some c → (t.children n i)[k]? = some (t.childAt n i k, c)) ∧
      ∀ k, n.children.length ≤ k → t.childAt n i k = t.after i
  /-- A way leads to the node at a position. -/
  follow? : ∀ i n, t.node? i = some n → ∃ way, t.way? i = some way ∧
    (Node.func t.root).follow? way = some n
  /-- Each way to a node leads to a position of its own. -/
  existsUnique_way : ∀ way, ((Node.func t.root).follow? way).isSome = true →
    ∃! i : Nat, t.way? i = some way
  /-- A position lies in the subtree at another if the way to it leads through the other. -/
  contains : ∀ i j way way', t.way? i = some way → t.way? j = some way' →
    (t.contains i j = true ↔ way <+: way')

/-! ## Children -/

theorem map_snd_place (t : IndexedTree) (i : Nat) (l : List Node) : (t.place i l).map Prod.snd = l := by
  induction l generalizing i with
  | nil => rfl
  | cons c l ih => rw [place, List.map_cons, ih]

theorem AtAll.fills {l : List Node} (h : t.AtAll i l) :
    Fills i (t.place i l) (t.afterMany l.length i) := by
  induction l generalizing i with
  | nil => rfl
  | cons c l ih =>
      refine ⟨rfl, ?_⟩
      rw [Node.length_preorder, ← h.1.after]
      exact ih h.2

theorem getElem?_children (t : IndexedTree) (n : Node) (i k : Nat) {c : Node}
    (h : n.children[k]? = some c) : (t.children n i)[k]? = some (t.childAt n i k, c) := by
  have hsnd : ((t.children n i)[k]?).map Prod.snd = some c := by
    rw [← List.getElem?_map, IndexedTree.children, map_snd_place, h]
  obtain ⟨⟨j, c⟩, hget, rfl⟩ := Option.map_eq_some_iff.1 hsnd
  rw [childAt, hget]

theorem childAt_of_le (t : IndexedTree) (n : Node) (i : Nat) (h : n.children.length ≤ k) :
    t.childAt n i k = t.after i := by
  have hlength : (t.children n i).length = n.children.length := by
    rw [← List.length_map (f := Prod.snd), IndexedTree.children, map_snd_place]
  rw [childAt, List.getElem?_eq_none (hlength ▸ h)]

/-! ## Trees of functions -/

section

variable {ns : String} {base : Nat} {root : Func} {isProgram : Bool}

theorem owns_ofFunc :
    (ofFunc ns base root isProgram).owns i = true ↔ base ≤ i ∧ i < base + (Node.func root).size := by
  rw [← contains_base_iff, contains_iff, (at_root ns base root isProgram).after]

/-- A node at a position stands there. -/
theorem at_of_node? (h : (ofFunc ns base root isProgram).node? i = some n) :
    (ofFunc ns base root isProgram).At i n := by
  have howns : (ofFunc ns base root isProgram).owns i = true := by
    rw [IndexedTree.node?] at h
    split at h
    · assumption
    · cases h
  obtain ⟨m, hm⟩ := exists_at_of_owns howns
  obtain rfl : m = n := Option.some.inj (hm.node?.symm.trans h)
  exact hm

/-- Pre-order and descent find the same node. -/
theorem node?_eq_preorder (h : base ≤ i) :
    (ofFunc ns base root isProgram).node? i = (Node.func root).preorder[i - base]? := by
  rw [← Node.map_snd_occurrences, List.getElem?_map]
  cases hget : (Node.func root).occurrences[i - base]? with
  | some o =>
      have hat := (at_root ns base root isProgram).occurrence hget
      rw [Nat.add_sub_cancel' h] at hat
      exact hat.node?
  | none =>
      rw [List.getElem?_eq_none_iff, Node.length_occurrences] at hget
      rw [IndexedTree.node?, if_neg]
      · rfl
      · rw [owns_ofFunc]
        omega

theorem isSome_node?_iff : ((ofFunc ns base root isProgram).node? i).isSome = true ↔
    base ≤ i ∧ i < base + (Node.func root).preorder.length := by
  rw [Node.length_preorder]
  constructor
  · intro h
    obtain ⟨n, hn⟩ := Option.isSome_iff_exists.1 h
    exact owns_ofFunc.1 (at_of_node? hn).owns
  · intro h
    obtain ⟨n, hn⟩ := exists_at_of_owns (owns_ofFunc.2 h)
    rw [hn.node?]
    rfl

theorem way?_eq_some {way : List Nat} :
    (ofFunc ns base root isProgram).way? i = some way ↔
      base ≤ i ∧ ∃ m, (Node.func root).occurrences[i - base]? = some (way, m) := by
  rw [way?]
  split
  · rename_i h
    simp only [ofFunc] at h
    simp [ofFunc, h]
  · rename_i h
    simp only [ofFunc] at h
    simp [h]

theorem exists_way (h : (ofFunc ns base root isProgram).node? i = some n) :
    ∃ way, (ofFunc ns base root isProgram).way? i = some way ∧
      (Node.func root).follow? way = some n := by
  have hle : base ≤ i := (owns_ofFunc.1 (at_of_node? h).owns).1
  rw [node?_eq_preorder hle, ← Node.map_snd_occurrences, List.getElem?_map] at h
  obtain ⟨⟨way, n⟩, hget, rfl⟩ := Option.map_eq_some_iff.1 h
  exact ⟨way, way?_eq_some.2 ⟨hle, n, hget⟩, Node.follow?_of_mem_occurrences (List.mem_of_getElem? hget)⟩

theorem existsUnique_way? {way : List Nat} (h : ((Node.func root).follow? way).isSome = true) :
    ∃! i, (ofFunc ns base root isProgram).way? i = some way := by
  obtain ⟨m, hm⟩ := Option.isSome_iff_exists.1 h
  obtain ⟨k, hk, hunique⟩ := Node.existsUnique_occurrence hm
  refine ⟨base + k, way?_eq_some.2 ⟨Nat.le_add_right _ _, m, ?_⟩, fun i hi => ?_⟩
  · rw [Nat.add_sub_cancel_left]
    exact hk
  · obtain ⟨hle, m', hget⟩ := way?_eq_some.1 hi
    have hfollow := Node.follow?_of_mem_occurrences (List.mem_of_getElem? hget)
    obtain rfl : m' = m := Option.some.inj (hfollow.symm.trans hm)
    have heq := hunique _ hget
    omega

theorem contains_iff_isPrefix {way way' : List Nat}
    (h : (ofFunc ns base root isProgram).way? i = some way)
    (h' : (ofFunc ns base root isProgram).way? j = some way') :
    (ofFunc ns base root isProgram).contains i j = true ↔ way <+: way' := by
  obtain ⟨hle, m, hget⟩ := way?_eq_some.1 h
  obtain ⟨hle', m', hget'⟩ := way?_eq_some.1 h'
  have hat := (at_root ns base root isProgram).occurrence hget
  rw [Nat.add_sub_cancel' hle] at hat
  rw [contains_iff, hat.after, Node.isPrefix_iff_of_occurrences hget hget']
  omega

end

/-- Positions are handed out in pre-order. -/
theorem ofFunc_numbered (ns : String) (base : Nat) (root : Func) (isProgram : Bool) :
    (ofFunc ns base root isProgram).Numbered where
  isSome_node? _ := isSome_node?_iff
  node? _ h := node?_eq_preorder h
  size i n h := by
    rw [(at_of_node? h).size, Node.length_preorder]
  after i n h := by
    rw [(at_of_node? h).after, Node.length_preorder]
  children i n h :=
    ⟨map_snd_place _ _ _, fun _ _ hmem => ((at_of_node? h).children.of_mem_place hmem).node?⟩
  fills i n h := by
    rw [(at_of_node? h).after_eq]
    exact (at_of_node? h).children.fills
  childAt i n _ := ⟨fun k _ hc => getElem?_children _ n i k hc, fun _ hk => childAt_of_le _ n i hk⟩
  follow? _ _ h := exists_way h
  existsUnique_way _ h := existsUnique_way? h
  contains _ _ _ _ h h' := contains_iff_isPrefix h h'

end IndexedTree

end Resumption
