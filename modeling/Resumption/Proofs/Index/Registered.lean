import Resumption.Proofs.Index.Position
import Resumption.Index.Registry

/-!
# Registered trees are found

The positions of a name space are handed out one tree behind the other, so the trees of a name space
stand in the order of their bases, without gaps.  Hence the search by halves finds the tree that owns a
position, from the moment it is registered and whatever is registered later.
-/

namespace Resumption

open Script

namespace IndexedTree

variable {t : IndexedTree} {i j k x : Nat} {l front behind : List IndexedTree}

/-- The trees stand one behind the other from a position up to another, and each of them has nodes. -/
def Tiled : Nat → List IndexedTree → Nat → Prop
  | i, [], j => i = j
  | i, t :: rest, j => t.base = i ∧ 0 < t.length ∧ Tiled (i + t.length) rest j

theorem Tiled.le (h : Tiled i l j) : i ≤ j := by
  induction l generalizing i with
  | nil => exact Nat.le_of_eq h
  | cons t l ih => exact Nat.le_of_add_right_le (ih h.2.2)

theorem Tiled.append (hfront : Tiled i front j) (hbehind : Tiled j behind k) :
    Tiled i (front ++ behind) k := by
  induction front generalizing i with
  | nil =>
      cases hfront
      exact hbehind
  | cons t front ih => exact ⟨hfront.1, hfront.2.1, ih hfront.2.2⟩

theorem Tiled.mem (h : Tiled i l j) (ht : t ∈ l) : i ≤ t.base ∧ 0 < t.length ∧ t.base + t.length ≤ j := by
  induction l generalizing i with
  | nil => cases ht
  | cons u l ih =>
      obtain ⟨hbase, hpos, hrest⟩ := h
      rcases List.mem_cons.1 ht with rfl | ht
      · exact ⟨Nat.le_of_eq hbase.symm, hpos, hbase ▸ hrest.le⟩
      · have hmem := ih hrest ht
        exact ⟨by omega, hmem.2⟩

/-- Every tree ends in front of the ones behind it. -/
theorem Tiled.pairwise (h : Tiled i l j) : l.Pairwise (fun t u => t.base + t.length ≤ u.base) := by
  induction l generalizing i with
  | nil => exact .nil
  | cons t l ih =>
      obtain ⟨rfl, -, hrest⟩ := h
      exact .cons (fun u hu => (hrest.mem hu).1) (ih hrest)

/-- A position belongs to one of the trees: those in front of it begin and end before the position, those
behind it begin after it. -/
theorem Tiled.split (h : Tiled i l j) (hi : i ≤ x) (hj : x < j) :
    ∃ front t behind, l = front ++ t :: behind ∧ t.owns x = true ∧
      (∀ u ∈ front, u.base ≤ x ∧ u.owns x = false) ∧ ∀ u ∈ behind, x < u.base := by
  induction l generalizing i with
  | nil =>
      cases h
      omega
  | cons t l ih =>
      obtain ⟨rfl, hpos, hrest⟩ := h
      by_cases hx : x < t.base + t.length
      · refine ⟨[], t, l, rfl, owns_iff.2 ⟨hi, hx⟩, by simp, fun u hu => ?_⟩
        exact Nat.lt_of_lt_of_le hx (hrest.mem hu).1
      · obtain ⟨front, u, behind, rfl, howns, hfront, hbehind⟩ := ih hrest (Nat.le_of_not_lt hx)
        refine ⟨t :: front, u, behind, rfl, howns, ?_, hbehind⟩
        refine List.forall_mem_cons.2 ⟨⟨hi, ?_⟩, hfront⟩
        rw [Bool.eq_false_iff, ne_eq, owns_iff]
        omega

end IndexedTree

open IndexedTree

namespace Registry

variable {r r' : Registry} {t : IndexedTree} {ns : String} {i : Nat}

/-- A registry that came about by registering trees. -/
inductive Built : Registry → Prop
  | empty : Built .empty
  | assign {r : Registry} (h : Built r) (root : Func) (ns : String) (isProgram : Bool) :
      Built (r.assign root ns isProgram).2

/-! ## What registering changes -/

theorem next_append (r : Registry) (t : IndexedTree) (ns : String) :
    Registry.next ⟨r.trees ++ [t]⟩ ns = r.next ns + if t.ns = ns then t.length else 0 := by
  by_cases h : t.ns = ns <;> simp [next, treesOf, h]

theorem treesOf_assign_self (r : Registry) (root : Func) (ns : String) (isProgram : Bool) :
    (r.assign root ns isProgram).2.treesOf ns = r.treesOf ns ++ [(r.assign root ns isProgram).1] := by
  simp [treesOf, assign, ofFunc]

theorem treesOf_assign_of_ne (r : Registry) (root : Func) {ns ns' : String} (isProgram : Bool)
    (h : ns' ≠ ns) : (r.assign root ns' isProgram).2.treesOf ns = r.treesOf ns := by
  simp [treesOf, assign, ofFunc, h]

/-- What a name space answers depends on its trees alone. -/
theorem tree_congr (h : r'.treesOf ns = r.treesOf ns) (i : Nat) : r'.tree ns i = r.tree ns i := by
  rw [tree, tree, h]

theorem length_pos (ns : String) (base : Nat) (root : Func) (isProgram : Bool) :
    0 < (ofFunc ns base root isProgram).length := by
  have hpos := (Node.func root).size_pos
  rwa [IndexedTree.length, ofFunc, List.size_toArray]

/-- The trees of a name space lie behind one another, up to the next position. -/
theorem Built.tiled (h : r.Built) (ns : String) : Tiled 0 (r.treesOf ns) (r.next ns) := by
  induction h with
  | empty => rfl
  | @assign r h root ns' isProgram ih =>
      by_cases hns : ns' = ns
      · subst hns
        rw [treesOf_assign_self, Registry.assign, next_append]
        refine ih.append ⟨rfl, length_pos _ _ _ _, ?_⟩
        simp [ofFunc, Tiled]
      · rw [treesOf_assign_of_ne r root isProgram hns, Registry.assign, next_append]
        simpa [ofFunc, hns] using ih

/-! ## Finding trees -/

/-- The search finds a tree that begins in front of the position if all trees behind it begin after
it. -/
theorem tree_eq_of_split {front behind : List IndexedTree} (hsplit : r.treesOf ns = front ++ t :: behind)
    (hfront : ∀ u ∈ front, u.base ≤ i) (ht : t.base ≤ i) (hbehind : ∀ u ∈ behind, i < u.base) :
    r.tree ns i = if t.owns i then .ok t else .error ⟨ns, i⟩ := by
  have hboundary : boundary (fun t => decide (t.base ≤ i)) (r.treesOf ns).toArray = front.length + 1 := by
    have hsplit' : r.treesOf ns = (front ++ [t]) ++ behind := by simp [hsplit]
    rw [hsplit', boundary_append, List.length_append, List.length_singleton]
    · simpa [or_imp, forall_and] using ⟨hfront, ht⟩
    · simpa using hbehind
  have hget : (r.treesOf ns).toArray[front.length]? = some t := by simp [hsplit]
  rw [tree]
  simp only [hboundary, hget]

/-- A position that has been handed out leads to the one tree that owns it. -/
theorem Built.tree_of_lt (h : r.Built) (hi : i < r.next ns) :
    ∃ t ∈ r.treesOf ns, t.owns i = true ∧ r.tree ns i = .ok t := by
  obtain ⟨front, t, behind, hsplit, howns, hfront, hbehind⟩ := (h.tiled ns).split (Nat.zero_le i) hi
  refine ⟨t, by simp [hsplit], howns, ?_⟩
  rw [tree_eq_of_split hsplit (fun u hu => (hfront u hu).1) (owns_iff.1 howns).1 hbehind, if_pos howns]

/-- Nothing stands at a position that has not been handed out. -/
theorem Built.tree_of_le (h : r.Built) (hi : r.next ns ≤ i) : r.tree ns i = .error ⟨ns, i⟩ := by
  have howns : ∀ t ∈ r.treesOf ns, t.base ≤ i ∧ t.owns i = false := by
    intro t ht
    have hmem := (h.tiled ns).mem ht
    rw [Bool.eq_false_iff, ne_eq, owns_iff]
    omega
  rcases List.eq_nil_or_concat (r.treesOf ns) with hnil | ⟨front, t, hsplit⟩
  · simp [tree, hnil, boundary, boundaryFrom]
  · rw [List.concat_eq_append] at hsplit
    have ht := howns t (by simp [hsplit])
    rw [tree_eq_of_split hsplit (fun u hu => (howns u (by simp [hsplit, hu])).1) ht.1 (by simp),
      ht.2, if_neg Bool.false_ne_true]

/-- A tree is found by the positions that it owns, and by no others. -/
theorem Built.tree_eq_ok_iff (h : r.Built) :
    r.tree ns i = .ok t ↔ t ∈ r.treesOf ns ∧ t.owns i = true := by
  constructor
  · intro ht
    by_cases hi : i < r.next ns
    · obtain ⟨u, hu, howns, hfound⟩ := h.tree_of_lt hi
      rw [hfound] at ht
      cases ht
      exact ⟨hu, howns⟩
    · rw [h.tree_of_le (Nat.le_of_not_lt hi)] at ht
      cases ht
  · rintro ⟨hmem, howns⟩
    have hends := (h.tiled ns).mem hmem
    have hlt := (owns_iff.1 howns).2
    obtain ⟨front, u, behind, hsplit, hu, hfront, hbehind⟩ :=
      (h.tiled ns).split (Nat.zero_le i) (Nat.lt_of_lt_of_le hlt hends.2.2)
    -- The tree that the search finds is the given one: no other one owns the position.
    have heq : t = u := by
      rw [hsplit, List.mem_append, List.mem_cons] at hmem
      rcases hmem with hmem | rfl | hmem
      · rw [(hfront t hmem).2] at howns
        cases howns
      · rfl
      · have hbase := hbehind t hmem
        have hle := (owns_iff.1 howns).1
        omega
    subst heq
    rw [tree_eq_of_split hsplit (fun u hu => (hfront u hu).1) (owns_iff.1 hu).1 hbehind, if_pos hu]

/-! ## Later registrations -/

/-- More trees have been registered. -/
structure Le (r r' : Registry) : Prop where
  trees : r.trees <+: r'.trees
  built : r.Built → r'.Built

theorem Le.refl (r : Registry) : r.Le r := ⟨List.prefix_refl _, id⟩

theorem Le.trans {r₁ r₂ r₃ : Registry} (h : r₁.Le r₂) (h' : r₂.Le r₃) : r₁.Le r₃ :=
  ⟨List.IsPrefix.trans h.trees h'.trees, fun hr => h'.built (h.built hr)⟩

theorem le_assign (r : Registry) (root : Func) (ns : String) (isProgram : Bool) :
    r.Le (r.assign root ns isProgram).2 :=
  ⟨List.prefix_append _ _, fun h => h.assign root ns isProgram⟩

theorem Le.treesOf (h : r.Le r') (ns : String) : r.treesOf ns <+: r'.treesOf ns :=
  h.trees.filter _

/-- What is found stays where it is. -/
theorem Le.tree (h : r.Le r') (hr : r.Built) (ht : r.tree ns i = .ok t) : r'.tree ns i = .ok t := by
  obtain ⟨hmem, howns⟩ := hr.tree_eq_ok_iff.1 ht
  exact (h.built hr).tree_eq_ok_iff.2 ⟨(h.treesOf ns).subset hmem, howns⟩

/-- A new tree is found by its positions. -/
theorem Built.tree_assign (h : r.Built) (root : Func) (ns : String) (isProgram : Bool)
    (hi : (r.assign root ns isProgram).1.owns i = true) :
    (r.assign root ns isProgram).2.tree ns i = .ok (r.assign root ns isProgram).1 := by
  refine (h.assign root ns isProgram).tree_eq_ok_iff.2 ⟨?_, hi⟩
  simp [treesOf_assign_self]

end Registry

end Resumption
