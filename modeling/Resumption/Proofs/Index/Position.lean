import Mathlib.Algebra.GroupWithZero.Nat
import Resumption.Index.Declarations

/-!
# Nodes at positions

`t.At i n` says that the node `n` of the tree `t` stands at the position `i`: the table of sizes
shows its subtree there, and a descent towards anything inside of that subtree passes through it.
The root stands at the base, and the children of a node stand one behind the other right after it.
Everything that arithmetic on positions is used for follows from these two facts.
-/

namespace Resumption

open Script

namespace IndexedTree

variable {t : IndexedTree} {i j k : Nat} {n : Node}

theorem contains_iff {target : Nat} : t.contains i target = true ↔ i ≤ target ∧ target < t.after i := by
  simp [contains]

theorem owns_iff : t.owns i = true ↔ t.base ≤ i ∧ i < t.base + t.length := by
  simp [owns]

theorem lt_after (t : IndexedTree) (i : Nat) : i < t.after i := by
  unfold after
  omega

/-- The node stands at the position. -/
structure At (t : IndexedTree) (i : Nat) (n : Node) : Prop where
  table : ∃ before behind,
    t.sizes.toList = before ++ (n.sizes ++ behind) ∧ i = t.base + before.length
  descent : ∀ target, t.contains i target = true →
    t.seek target (.func t.root) t.base = t.seek target n i

/-- The nodes stand one behind the other, the first of them at the position. -/
def AtAll (t : IndexedTree) : Nat → List Node → Prop
  | _, [] => True
  | i, n :: rest => t.At i n ∧ t.AtAll (t.after i) rest

@[simp] theorem atAll_nil (t : IndexedTree) (i : Nat) : t.AtAll i [] := trivial

@[simp] theorem atAll_cons (t : IndexedTree) (i : Nat) (n : Node) (rest : List Node) :
    t.AtAll i (n :: rest) ↔ t.At i n ∧ t.AtAll (t.after i) rest := Iff.rfl

@[simp] theorem afterMany_zero (t : IndexedTree) (i : Nat) : t.afterMany 0 i = i := rfl

theorem afterMany_succ (t : IndexedTree) (k i : Nat) :
    t.afterMany (k + 1) i = t.afterMany k (t.after i) := rfl

theorem afterMany_add (t : IndexedTree) (k l i : Nat) :
    t.afterMany (k + l) i = t.afterMany l (t.afterMany k i) := by
  induction k generalizing i with
  | zero => simp
  | succ k ih => rw [Nat.succ_add, afterMany_succ, afterMany_succ, ih]

theorem le_afterMany (t : IndexedTree) (k i : Nat) : i ≤ t.afterMany k i := by
  induction k generalizing i with
  | zero => simp
  | succ k ih =>
      have hstep := t.lt_after i
      have hrest := ih (t.after i)
      rw [afterMany_succ]
      omega

theorem atAll_append (t : IndexedTree) (i : Nat) (l l' : List Node) :
    t.AtAll i (l ++ l') ↔ t.AtAll i l ∧ t.AtAll (t.afterMany l.length i) l' := by
  induction l generalizing i with
  | nil => simp
  | cons n l ih => simp [ih, afterMany_succ, and_assoc]

/-! ## Properties of siblings -/

/-- Consecutive nodes have a property, the first of them at the position. -/
def Along (t : IndexedTree) (P : Nat → Node → Prop) : Nat → List Node → Prop
  | _, [] => True
  | i, n :: rest => P i n ∧ Along t P (t.after i) rest

section

variable {P Q : Nat → Node → Prop} {l : List Node}

@[simp] theorem along_nil : t.Along P i [] := trivial

@[simp] theorem along_cons : t.Along P i (n :: l) ↔ P i n ∧ t.Along P (t.after i) l := Iff.rfl

theorem along_append {l l' : List Node} :
    t.Along P i (l ++ l') ↔ t.Along P i l ∧ t.Along P (t.afterMany l.length i) l' := by
  induction l generalizing i with
  | nil => simp
  | cons n l ih => simp only [List.cons_append, along_cons, ih, List.length_cons, afterMany_succ, and_assoc]

theorem Along.imp (h : t.Along P i l) (himp : ∀ j n, n ∈ l → P j n → Q j n) : t.Along Q i l := by
  induction l generalizing i with
  | nil => trivial
  | cons n l ih =>
      exact ⟨himp _ _ List.mem_cons_self h.1,
        ih h.2 fun j c hc => himp j c (List.mem_cons_of_mem _ hc)⟩

theorem Along.of_mem_place {P : Nat → Node → Prop} (h : t.Along P i l) (hmem : (j, n) ∈ t.place i l) :
    P j n := by
  induction l generalizing i with
  | nil => cases hmem
  | cons c l ih =>
      rcases List.mem_cons.1 hmem with heq | hmem
      · cases heq
        exact h.1
      · exact ih h.2 hmem

/-- Siblings stand at a position or behind it. -/
theorem AtAll.along {lo : Nat} (h : t.AtAll i l) (hlo : lo ≤ i) :
    t.Along (fun j n => lo ≤ j ∧ t.At j n) i l := by
  induction l generalizing i with
  | nil => trivial
  | cons n l ih => exact ⟨⟨hlo, h.1⟩, ih h.2 (Nat.le_trans hlo (Nat.le_of_lt (t.lt_after i)))⟩

theorem AtAll.of_mem_place (h : t.AtAll i l) (hmem : (j, n) ∈ t.place i l) : t.At j n :=
  ((h.along (Nat.le_refl i)).of_mem_place hmem).2

end

/-! ## Sizes -/

theorem length_flatMap_sizes (l : List Node) :
    (l.flatMap Node.sizes).length = (l.map Node.size).sum := by
  induction l with
  | nil => rfl
  | cons c l ih => simp [Node.size, ih]

theorem size_eq_one_add (n : Node) : n.size = 1 + (n.children.map Node.size).sum := by
  rw [Node.size, Node.sizes_eq, List.length_cons, length_flatMap_sizes]
  omega

/-- A table of sizes begins with the size of the node it belongs to. -/
theorem getElem?_sizes_append (n : Node) (behind : List Nat) :
    (n.sizes ++ behind)[0]? = some n.size := by
  have hsizes := n.sizes_eq
  have hsize := size_eq_one_add n
  rw [hsizes, hsize, ← length_flatMap_sizes, List.cons_append, List.getElem?_cons_zero, Nat.add_comm]

/-- What the table of sizes shows is what arithmetic on positions uses. -/
theorem size_of_table {before behind : List Nat} (h : t.sizes.toList = before ++ (n.sizes ++ behind)) :
    t.size (t.base + before.length) = n.size := by
  have hget : t.sizes.toList[before.length]? = some n.size := by
    rw [h, List.getElem?_append_right (Nat.le_refl _), Nat.sub_self, getElem?_sizes_append]
  rw [IndexedTree.size, if_pos (Nat.le_add_right _ _), Nat.add_sub_cancel_left,
    Array.getD_eq_getD_getElem?, ← Array.getElem?_toList, hget]
  rfl

theorem At.size (h : t.At i n) : t.size i = n.size := by
  obtain ⟨before, behind, hsizes, rfl⟩ := h.table
  exact size_of_table hsizes

theorem At.after (h : t.At i n) : t.after i = i + n.size := by
  have hpos := n.size_pos
  rw [IndexedTree.after, h.size]
  omega

/-- The first of siblings, and the others right behind its subtree. -/
theorem AtAll.uncons {l : List Node} (h : t.AtAll i (n :: l)) :
    t.At i n ∧ t.after i = i + n.size ∧ t.AtAll (i + n.size) l :=
  ⟨h.1, h.1.after, h.1.after ▸ h.2⟩

theorem afterMany_eq_add {l : List Node} (h : t.AtAll i l) :
    t.afterMany l.length i = i + (l.map Node.size).sum := by
  induction l generalizing i with
  | nil => simp
  | cons n l ih =>
      rw [List.length_cons, afterMany_succ, ih h.2, h.1.after, List.map_cons, List.sum_cons]
      omega

/-! ## Descent -/

/-- The search among siblings passes over those in front of the position. -/
theorem find?_place {target : Nat} {front : List Node} {c : Node} {rest : List Node}
    (hfront : t.afterMany front.length i ≤ target)
    (hc : t.contains (t.afterMany front.length i) target = true) :
    (t.place i (front ++ c :: rest)).find? (fun x => t.contains x.1 target) =
      some (t.afterMany front.length i, c) := by
  induction front generalizing i with
  | nil =>
      rw [List.nil_append, place, List.find?_cons_of_pos]
      · rfl
      · simpa using hc
  | cons n front ih =>
      rw [List.cons_append, place, List.find?_cons_of_neg]
      · exact ih hfront hc
      · have hle : t.after i ≤ t.afterMany (n :: front).length i :=
          t.le_afterMany front.length (t.after i)
        simp only [contains_iff]
        omega

/-- A child stands right behind the siblings in front of it. -/
theorem At.child {front rest : List Node} {c : Node} (h : t.At i n)
    (hsplit : n.children = front ++ c :: rest) (hfront : t.AtAll (i + 1) front) :
    t.At (t.afterMany front.length (i + 1)) c := by
  obtain ⟨before, behind, hsizes, hi⟩ := h.table
  let front' := before ++ ((n.children.flatMap Node.sizes).length + 1) :: front.flatMap Node.sizes
  have htable : t.sizes.toList = front' ++ (c.sizes ++ (rest.flatMap Node.sizes ++ behind)) := by
    rw [hsizes, Node.sizes_eq n]
    simp [front', hsplit]
  have hpos : t.afterMany front.length (i + 1) = t.base + front'.length := by
    rw [afterMany_eq_add hfront, hi]
    simp only [front', List.length_append, List.length_cons, length_flatMap_sizes]
    omega
  refine ⟨⟨front', _, htable, hpos⟩, ?_⟩
  intro target htarget
  have hsize : t.size (t.afterMany front.length (i + 1)) = c.size := by
    rw [hpos]
    exact size_of_table htable
  have hinner := contains_iff.1 htarget
  have hcpos := c.size_pos
  rw [IndexedTree.after, hsize, afterMany_eq_add hfront] at hinner
  have hsum : n.size = 1 + (front.map Node.size).sum + c.size + (rest.map Node.size).sum := by
    rw [size_eq_one_add, hsplit]
    simp
    omega
  have houter : t.contains i target = true := by
    rw [contains_iff, h.after]
    omega
  have hfind : (t.children n i).find? (fun x => t.contains x.1 target) =
      some (t.afterMany front.length (i + 1), c) := by
    rw [IndexedTree.children, hsplit]
    exact find?_place (contains_iff.1 htarget).1 htarget
  have hne : ¬ (i == target) = true := by
    rw [beq_iff_eq]
    omega
  rw [h.descent target houter, seek, if_neg hne]
  split
  · rename_i hnone
    rw [hfind] at hnone
    cases hnone
  · rename_i hsome
    rw [hfind] at hsome
    cases hsome
    rfl

/-- The children of a node stand one behind the other, right behind the node. -/
theorem At.children (h : t.At i n) : t.AtAll (i + 1) n.children := by
  -- The siblings in front of the ones still to be placed are carried along.
  suffices hgo : ∀ front rest, n.children = front ++ rest → t.AtAll (i + 1) front →
      t.AtAll (t.afterMany front.length (i + 1)) rest from
    hgo [] n.children rfl trivial
  intro front rest
  induction rest generalizing front with
  | nil => exact fun _ _ => trivial
  | cons c rest ih =>
      intro hsplit hfront
      have hc : t.At (t.afterMany front.length (i + 1)) c := h.child hsplit hfront
      refine ⟨hc, ?_⟩
      have hnext := ih (front ++ [c]) (by simp [hsplit])
        ((atAll_append t _ _ _).2 ⟨hfront, hc, trivial⟩)
      rwa [List.length_append, afterMany_add] at hnext

/-- The interval of a node is its own position and the intervals of its children. -/
theorem At.after_eq (h : t.At i n) : t.after i = t.afterMany n.children.length (i + 1) := by
  rw [h.after, afterMany_eq_add h.children, size_eq_one_add]
  omega

theorem At.owns (h : t.At i n) : t.owns i = true := by
  obtain ⟨before, behind, hsizes, rfl⟩ := h.table
  have hlength : t.length = before.length + (n.size + behind.length) := by
    rw [length, ← Array.length_toList, hsizes]
    simp [Node.size]
  have hpos := n.size_pos
  simp [IndexedTree.owns, hlength]
  omega

theorem At.node? (h : t.At i n) : t.node? i = some n := by
  have hself : t.contains i i = true := contains_iff.2 ⟨Nat.le_refl i, t.lt_after i⟩
  rw [IndexedTree.node?, if_pos h.owns, h.descent i hself, seek, if_pos (by simp)]

theorem At.func? (h : t.At i n) : t.func? i = n.func? := by
  rw [IndexedTree.func?, h.node?]
  rfl

theorem At.unique {n' : Node} (h : t.At i n) (h' : t.At i n') : n = n' := by
  have heq := h.node?.symm.trans h'.node?
  exact Option.some.inj heq

/-- The root stands at the base. -/
theorem at_root (ns : String) (base : Nat) (root : Func) (isProgram : Bool) :
    (ofFunc ns base root isProgram).At base (.func root) where
  table := ⟨[], [], by simp [ofFunc], by simp [ofFunc]⟩
  descent := fun _ _ => rfl

/-! ## No gaps -/

/-- Siblings divide the positions from the first of them on among themselves. -/
theorem exists_contains_of_place {l : List Node} {target : Nat} (hle : i ≤ target)
    (hlt : target < t.afterMany l.length i) :
    ∃ j c, (j, c) ∈ t.place i l ∧ t.contains j target = true := by
  induction l generalizing i with
  | nil => exact absurd hlt (Nat.not_lt_of_le hle)
  | cons c l ih =>
      by_cases hc : target < t.after i
      · exact ⟨i, c, List.mem_cons_self, contains_iff.2 ⟨hle, hc⟩⟩
      · obtain ⟨j, d, hmem, hcontains⟩ := ih (Nat.le_of_not_lt hc) hlt
        exact ⟨j, d, List.mem_cons_of_mem _ hmem, hcontains⟩

/-- Every position inside of the interval of a node has a node of its own. -/
theorem At.exists_at {i target : Nat} {n : Node} (h : t.At i n) (htarget : t.contains i target = true) :
    ∃ m, t.At target m := by
  obtain ⟨hle, hlt⟩ := contains_iff.1 htarget
  rcases Nat.eq_or_lt_of_le hle with rfl | hinside
  · exact ⟨n, h⟩
  · rw [h.after_eq] at hlt
    obtain ⟨j, c, hmem, hcontains⟩ := exists_contains_of_place hinside hlt
    exact (h.children.of_mem_place hmem).exists_at hcontains
termination_by n.weight
decreasing_by exact Node.weight_lt_of_mem_children (t.mem_of_mem_place hmem)

/-- A tree owns the positions of the interval of its root. -/
theorem contains_base_iff (ns : String) (base : Nat) (root : Func) (isProgram : Bool) (target : Nat) :
    (ofFunc ns base root isProgram).contains base target = (ofFunc ns base root isProgram).owns target := by
  have hroot := at_root ns base root isProgram
  have hlength : (ofFunc ns base root isProgram).length = (Node.func root).size := by
    simp [length, ofFunc, Node.size]
  rw [Bool.eq_iff_iff, contains_iff, owns_iff, hroot.after, hlength]
  rfl

/-- The descent to a position that the tree owns does not fail. -/
theorem exists_at_of_owns {ns : String} {base : Nat} {root : Func} {isProgram : Bool} {target : Nat}
    (h : (ofFunc ns base root isProgram).owns target = true) :
    ∃ m, (ofFunc ns base root isProgram).At target m := by
  rw [← contains_base_iff] at h
  exact (at_root ns base root isProgram).exists_at h

/-! ## Nesting -/

/-- The intervals of siblings lie between the first of them and what comes behind the last. -/
theorem le_of_mem_place {l : List Node} (hmem : (j, n) ∈ t.place i l) :
    i ≤ j ∧ t.after j ≤ t.afterMany l.length i := by
  induction l generalizing i with
  | nil => cases hmem
  | cons c l ih =>
      rcases List.mem_cons.1 hmem with heq | hmem
      · cases heq
        exact ⟨Nat.le_refl j, t.le_afterMany l.length (t.after j)⟩
      · obtain ⟨hle, hafter⟩ := ih hmem
        exact ⟨Nat.le_trans (Nat.le_of_lt (t.lt_after i)) hle, hafter⟩

/-- A child lies inside of its parent, behind it. -/
theorem At.contains_child (h : t.At i n) {c : Node} (hmem : (j, c) ∈ t.children n i) :
    i < j ∧ t.contains i j = true := by
  obtain ⟨hle, hafter⟩ := le_of_mem_place hmem
  refine ⟨hle, contains_iff.2 ⟨Nat.le_of_lt hle, ?_⟩⟩
  rw [h.after_eq]
  exact Nat.lt_of_lt_of_le (t.lt_after j) hafter

theorem At.contains_trans {i j k : Nat} {n : Node} (h : t.At i n) (hij : t.contains i j = true)
    (hjk : t.contains j k = true) : t.contains i k = true := by
  obtain ⟨hle, hlt⟩ := contains_iff.1 hij
  rcases Nat.eq_or_lt_of_le hle with rfl | hinside
  · exact hjk
  · rw [h.after_eq] at hlt
    obtain ⟨p, c, hmem, hpj⟩ := exists_contains_of_place hinside hlt
    have hpk := contains_iff.1 ((h.children.of_mem_place hmem).contains_trans hpj hjk)
    have hplace : i + 1 ≤ p ∧ t.after p ≤ t.afterMany n.children.length (i + 1) := le_of_mem_place hmem
    rw [contains_iff, h.after_eq]
    omega
termination_by n.weight
decreasing_by exact Node.weight_lt_of_mem_children (t.mem_of_mem_place hmem)

/-- What stands in front of a sibling is inside of another one, which ends there. -/
theorem exists_contains_before {l : List Node} {c : Node} (hmem : (j, c) ∈ t.place i l) (hle : i ≤ k)
    (hlt : k < j) : ∃ p d, (p, d) ∈ t.place i l ∧ t.contains p k = true ∧ t.after p ≤ j := by
  induction l generalizing i with
  | nil => cases hmem
  | cons d l ih =>
      rcases List.mem_cons.1 hmem with heq | hmem
      · cases heq
        exact absurd hlt (Nat.not_lt_of_le hle)
      · by_cases hk : k < t.after i
        · exact ⟨i, d, List.mem_cons_self, contains_iff.2 ⟨hle, hk⟩, (le_of_mem_place hmem).1⟩
        · obtain ⟨p, e, hp, hcontains, hafter⟩ := ih hmem (Nat.le_of_not_lt hk)
          exact ⟨p, e, List.mem_cons_of_mem _ hp, hcontains, hafter⟩

/-- Nothing between a node and its child holds the child. -/
theorem At.not_contains_child (h : t.At i n) {c : Node} (hmem : (j, c) ∈ t.children n i) (hik : i < k)
    (hkj : k < j) : ¬ t.contains k j = true := by
  intro hcontains
  obtain ⟨p, d, hp, hpk, hafter⟩ := exists_contains_before hmem hik hkj
  have hpj := contains_iff.1 ((h.children.of_mem_place hp).contains_trans hpk hcontains)
  omega

end IndexedTree

end Resumption
