import Resumption.Proofs.Index.Registered

/-!
# The division of the positions

However trees are registered, those of a name space divide the positions that it has handed out among
themselves: every such position leads to one tree, and to a node of it, for good.  Other name spaces
do not notice.
-/

namespace Resumption

open Script IndexedTree

/-- A tree to be registered. -/
structure Registration where
  root : Func
  ns : String
  isProgram : Bool

/-- What a tree was registered as. -/
def IndexedTree.registration (t : IndexedTree) : Registration := ⟨t.root, t.ns, t.isProgram⟩

namespace Registry

variable {r r' : Registry} {t : IndexedTree} {ns : String} {i : Nat}

/-- Registers one tree after the other. -/
def register (r : Registry) (calls : List Registration) : Registry :=
  calls.foldl (fun r c => (r.assign c.root c.ns c.isProgram).2) r

/-- The trees of a name space divide the positions up to the next one among themselves, and whoever asks
for a position gets its tree and a node. -/
structure Divided (r : Registry) (ns : String) : Prop where
  nonempty : ∀ t ∈ r.treesOf ns, 0 < t.length
  increasing : (r.treesOf ns).Pairwise fun t u => t.base + t.length ≤ u.base
  disjoint : (r.treesOf ns).Pairwise fun t u => ∀ i, ¬ (t.owns i = true ∧ u.owns i = true)
  covered : ∀ i, (∃ t ∈ r.treesOf ns, t.owns i = true) ↔ i < r.next ns
  tree_isOk : ∀ i, (r.tree ns i).isOk = true ↔ i < r.next ns
  tree_eq_ok : ∀ i t, r.tree ns i = .ok t ↔ t ∈ r.treesOf ns ∧ t.owns i = true
  resolve_isOk : ∀ i, (r.resolve ns i).isOk = true ↔ i < r.next ns
  resolve_eq_ok : ∀ i h, r.resolve ns i = .ok h ↔ r.tree ns i = .ok h.tree ∧ h.index = i
  node : ∀ i h, r.resolve ns i = .ok h → h.node?.isSome = true

/-! ## Nodes of registered trees -/

theorem Built.eq_ofFunc (h : r.Built) (ht : t ∈ r.trees) :
    t = ofFunc t.ns t.base t.root t.isProgram := by
  induction h with
  | empty => cases ht
  | assign h root ns isProgram ih =>
      rcases List.mem_append.1 ht with ht | ht
      · exact ih ht
      · rw [List.mem_singleton.1 ht]
        rfl

theorem Built.isSome_node? (h : r.Built) (ht : r.tree ns i = .ok t) : (t.node? i).isSome = true := by
  obtain ⟨hmem, howns⟩ := h.tree_eq_ok_iff.1 ht
  have heq := h.eq_ofFunc (List.mem_filter.1 hmem).1
  rw [heq] at howns
  obtain ⟨m, hm⟩ := exists_at_of_owns howns
  rw [heq, hm.node?]
  rfl

/-- Where a tree is found, so is a node. -/
theorem Built.resolve_eq (h : r.Built) (ns : String) (i : Nat) :
    r.resolve ns i = (r.tree ns i).map fun t => ⟨t, i⟩ := by
  cases ht : r.tree ns i with
  | error e => simp [resolve, ht, Bind.bind, Except.bind, Except.map]
  | ok t => simp [resolve, ht, h.isSome_node? ht, Bind.bind, Except.bind, Except.map, Pure.pure, Except.pure]

theorem Built.tree_isOk (h : r.Built) : (r.tree ns i).isOk = true ↔ i < r.next ns := by
  rcases Nat.lt_or_ge i (r.next ns) with hi | hi
  · obtain ⟨t, -, -, ht⟩ := h.tree_of_lt hi
    simpa [ht, Except.isOk, Except.toBool] using hi
  · simpa [h.tree_of_le hi, Except.isOk, Except.toBool] using hi

theorem Built.resolve_isOk (h : r.Built) : (r.resolve ns i).isOk = true ↔ i < r.next ns := by
  rw [← h.tree_isOk, h.resolve_eq]
  cases r.tree ns i <;> rfl

theorem Built.resolve_eq_ok_iff (h : r.Built) (handle : NodeHandle) :
    r.resolve ns i = .ok handle ↔ r.tree ns i = .ok handle.tree ∧ handle.index = i := by
  rw [h.resolve_eq]
  cases r.tree ns i with
  | error e => simp [Except.map]
  | ok t =>
      obtain ⟨u, j⟩ := handle
      simp [Except.map, eq_comm]

/-- Positions of one tree are no positions of another. -/
theorem Built.disjoint (h : r.Built) (ns : String) :
    (r.treesOf ns).Pairwise fun t u => ∀ i, ¬ (t.owns i = true ∧ u.owns i = true) := by
  refine (h.tiled ns).pairwise.imp fun hends i hboth => ?_
  have ht := (owns_iff.1 hboth.1).2
  have hu := (owns_iff.1 hboth.2).1
  omega

theorem Built.exists_owns (h : r.Built) :
    (∃ t ∈ r.treesOf ns, t.owns i = true) ↔ i < r.next ns := by
  constructor
  · rintro ⟨t, ht, howns⟩
    exact Nat.lt_of_lt_of_le (owns_iff.1 howns).2 ((h.tiled ns).mem ht).2.2
  · intro hi
    obtain ⟨t, ht, howns, -⟩ := h.tree_of_lt hi
    exact ⟨t, ht, howns⟩

theorem Built.divided (h : r.Built) (ns : String) : r.Divided ns where
  nonempty _ ht := ((h.tiled ns).mem ht).2.1
  increasing := (h.tiled ns).pairwise
  disjoint := h.disjoint ns
  covered _ := h.exists_owns
  tree_isOk _ := h.tree_isOk
  tree_eq_ok _ _ := h.tree_eq_ok_iff
  resolve_isOk _ := h.resolve_isOk
  resolve_eq_ok _ handle := h.resolve_eq_ok_iff handle
  node i handle hresolve := by
    obtain ⟨ht, rfl⟩ := (h.resolve_eq_ok_iff handle).1 hresolve
    exact h.isSome_node? ht

/-! ## Histories -/

theorem le_register (r : Registry) (calls : List Registration) : r.Le (r.register calls) := by
  induction calls generalizing r with
  | nil => exact .refl r
  | cons c calls ih => exact (r.le_assign c.root c.ns c.isProgram).trans (ih _)

theorem built_register (calls : List Registration) : (empty.register calls).Built :=
  (le_register empty calls).built .empty

/-- A name space holds what has been registered in it, in that order. -/
theorem registration_treesOf_register (r : Registry) (calls : List Registration) (ns : String) :
    ((r.register calls).treesOf ns).map IndexedTree.registration =
      (r.treesOf ns).map IndexedTree.registration ++ calls.filter (fun c => c.ns == ns) := by
  induction calls generalizing r with
  | nil => simp [register]
  | cons c calls ih =>
      refine (ih (r.assign c.root c.ns c.isProgram).2).trans ?_
      by_cases hns : c.ns = ns
      · subst hns
        rw [treesOf_assign_self, List.map_append, List.append_assoc, List.filter_cons_of_pos (by simp)]
        rfl
      · rw [treesOf_assign_of_ne r c.root c.isProgram hns, List.filter_cons_of_neg (by simpa using hns)]

theorem treesOf_register_of_ne (r : Registry) {calls : List Registration} (h : ∀ c ∈ calls, c.ns ≠ ns) :
    (r.register calls).treesOf ns = r.treesOf ns := by
  induction calls generalizing r with
  | nil => rfl
  | cons c calls ih =>
      obtain ⟨hc, hcalls⟩ := List.forall_mem_cons.1 h
      exact (ih _ hcalls).trans (treesOf_assign_of_ne r c.root c.isProgram hc)

theorem resolve_congr (h : r'.tree ns i = r.tree ns i) : r'.resolve ns i = r.resolve ns i := by
  rw [resolve, resolve, h]

/-- After any history of registrations, the trees of every name space divide its positions.  Whatever is
registered afterwards, the answers for these positions stay the same, and all answers of the name spaces
in which nothing has been registered. -/
theorem register_divided (calls later : List Registration) (ns : String) :
    (empty.register calls).Divided ns ∧
    ((empty.register calls).treesOf ns).map IndexedTree.registration =
      calls.filter (fun c => c.ns == ns) ∧
    (∀ i < (empty.register calls).next ns,
      ((empty.register calls).register later).tree ns i = (empty.register calls).tree ns i ∧
      ((empty.register calls).register later).resolve ns i = (empty.register calls).resolve ns i) ∧
    ((∀ c ∈ later, c.ns ≠ ns) →
      ((empty.register calls).register later).next ns = (empty.register calls).next ns ∧
      ∀ i, ((empty.register calls).register later).tree ns i = (empty.register calls).tree ns i ∧
        ((empty.register calls).register later).resolve ns i =
          (empty.register calls).resolve ns i) := by
  have hbuilt := built_register calls
  refine ⟨hbuilt.divided ns, registration_treesOf_register empty calls ns, fun i hi => ?_, fun hns => ?_⟩
  · obtain ⟨t, -, -, ht⟩ := hbuilt.tree_of_lt hi
    have hlater := (le_register _ later).tree hbuilt ht
    exact ⟨hlater.trans ht.symm, resolve_congr (hlater.trans ht.symm)⟩
  · have htrees := treesOf_register_of_ne (empty.register calls) hns
    refine ⟨by rw [next, next, htrees], fun i => ?_⟩
    exact ⟨tree_congr htrees i, resolve_congr (tree_congr htrees i)⟩

end Registry

end Resumption
