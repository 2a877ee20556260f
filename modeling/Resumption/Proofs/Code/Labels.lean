import Resumption.Proofs.Code.Yields

/-!
# Labels

Statements under a label and jumps to labels are refused before a tree is registered.  The check counts
the nodes by itself, in pre-order, so the position in its answer is the one that the refused node would
have been registered under; and it looks at every node, so lowering never meets a label.
-/

namespace Resumption

open Script

/-- The node is a statement under a label or a jump to one. -/
inductive Script.Node.Labels : Node → String → Prop
  | statement (label : String) (body : Stmt) : Labels (.stmt (.labeled label body)) "labeled statement"
  | brk (label : String) : Labels (.stmt (.brk (some label))) "labeled break"
  | cont (label : String) : Labels (.stmt (.cont (some label))) "labeled continue"

/-- The first node of a tree that has to do with a label stands at the position. -/
def IndexedTree.FirstLabel (t : IndexedTree) (construct : String) (i : Nat) : Prop :=
  ∃ n, t.node? i = some n ∧ n.Labels construct ∧
    ∀ j < i, ∀ m, t.node? j = some m → ∀ construct', ¬ m.Labels construct'

namespace Code

variable {t : IndexedTree} {i base : Nat} {n c : Node} {construct : String}

theorem unsupported?_eq_some : unsupported? n = some construct ↔ n.Labels construct := by
  constructor
  · intro h
    unfold unsupported? at h
    split at h <;> cases h
    · exact .statement _ _
    · exact .brk _
    · exact .cont _
  · intro h
    cases h <;> rfl

theorem unsupported?_eq_none : unsupported? n = none ↔ ∀ construct, ¬ n.Labels construct := by
  simp only [Option.eq_none_iff_forall_ne_some, ne_eq, unsupported?_eq_some]

/-! ## The check -/

/-- The first of numbered elements for which something is found. -/
theorem findSome?_zipIdx {α β : Type} {f : α × Nat → Option β} {l : List α} {b : β} :
    (l.zipIdx base).findSome? f = some b ↔
      ∃ k a, l[k]? = some a ∧ f (a, base + k) = some b ∧
        ∀ j < k, ∀ a', l[j]? = some a' → f (a', base + j) = none := by
  induction l generalizing base with
  | nil => simp
  | cons a l ih =>
      rw [List.zipIdx_cons, List.findSome?_cons]
      cases ha : f (a, base) with
      | some b' =>
          constructor
          · intro h
            exact ⟨0, a, rfl, ha.trans h, fun j hj => absurd hj (Nat.not_lt_zero j)⟩
          · rintro ⟨k, a', hget, hb, hfirst⟩
            cases k with
            | zero =>
                cases hget
                exact ha.symm.trans hb
            | succ k =>
                have hnone := hfirst 0 k.succ_pos a rfl
                rw [Nat.add_zero, ha] at hnone
                cases hnone
      | none =>
          refine ih.trans ⟨?_, ?_⟩
          · rintro ⟨k, a', hget, hb, hfirst⟩
            rw [Nat.add_right_comm, Nat.add_assoc] at hb
            refine ⟨k + 1, a', hget, hb, fun j hj a'' hget' => ?_⟩
            cases j with
            | zero =>
                cases hget'
                exact ha
            | succ j =>
                have hnone := hfirst j (Nat.lt_of_succ_lt_succ hj) a'' hget'
                rwa [Nat.add_right_comm, Nat.add_assoc] at hnone
          · rintro ⟨k, a', hget, hb, hfirst⟩
            cases k with
            | zero =>
                cases hget
                rw [Nat.add_zero, ha] at hb
                cases hb
            | succ k =>
                rw [← Nat.add_assoc, Nat.add_right_comm] at hb
                refine ⟨k, a', hget, hb, fun j hj a'' hget' => ?_⟩
                rw [Nat.add_right_comm, Nat.add_assoc]
                exact hfirst (j + 1) (Nat.succ_lt_succ hj) a'' hget'

/-- The check answers with the first node that has to do with a label, counted from the base. -/
theorem firstUnsupported_eq_some {e : LoweringError} :
    firstUnsupported base n = some e ↔
      ∃ construct k m, e = .unsupported construct (base + k) ∧ n.preorder[k]? = some m ∧
        m.Labels construct ∧
          ∀ j < k, ∀ m', n.preorder[j]? = some m' → ∀ construct', ¬ m'.Labels construct' := by
  rw [firstUnsupported, findSome?_zipIdx]
  simp only [Option.map_eq_some_iff, Option.map_eq_none_iff, unsupported?_eq_some,
    unsupported?_eq_none]
  constructor
  · rintro ⟨k, m, hget, ⟨construct, hm, rfl⟩, hfirst⟩
    exact ⟨construct, k, m, rfl, hget, hm, hfirst⟩
  · rintro ⟨construct, k, m, rfl, hget, hm, hfirst⟩
    exact ⟨k, m, hget, ⟨construct, hm, rfl⟩, hfirst⟩

/-- Nothing is refused if nothing in the tree has to do with a label. -/
theorem firstUnsupported_eq_none :
    firstUnsupported base n = none ↔ ∀ m ∈ n.preorder, unsupported? m = none := by
  rw [firstUnsupported, List.findSome?_eq_none_iff]
  simp only [Option.map_eq_none_iff]
  constructor
  · intro h m hm
    obtain ⟨k, hk⟩ := List.getElem?_of_mem hm
    exact h (m, base + k) (List.mk_add_mem_zipIdx_iff_getElem?.2 hk)
  · exact fun h x hx => h x.1 (List.fst_mem_of_mem_zipIdx hx)

/-! ## What is refused -/

/-- The check names the first node with a label by the position that the registry would give it. -/
theorem firstUnsupported_eq_some_iff (ns : String) (f : Script.Func) (isProgram : Bool) :
    firstUnsupported base (.func f) = some (.unsupported construct i) ↔
      (IndexedTree.ofFunc ns base f isProgram).FirstLabel construct i := by
  have hnode : ∀ k, (IndexedTree.ofFunc ns base f isProgram).node? (base + k) =
      (Node.func f).preorder[k]? := by
    intro k
    rw [IndexedTree.node?_eq_preorder (Nat.le_add_right base k), Nat.add_sub_cancel_left]
  have hbase : ∀ {j m}, (IndexedTree.ofFunc ns base f isProgram).node? j = some m →
      ∃ k, j = base + k := by
    intro j m h
    exact Nat.exists_eq_add_of_le
      (IndexedTree.isSome_node?_iff.1 (Option.isSome_iff_exists.2 ⟨m, h⟩)).1
  rw [firstUnsupported_eq_some]
  constructor
  · rintro ⟨construct', k, n, heq, hget, hn, hfirst⟩
    cases heq
    refine ⟨n, (hnode k).trans hget, hn, fun j hj m hm => ?_⟩
    obtain ⟨k', rfl⟩ := hbase hm
    exact hfirst k' (Nat.lt_of_add_lt_add_left hj) m ((hnode k').symm.trans hm)
  · rintro ⟨n, hn, hlabels, hfirst⟩
    obtain ⟨k, rfl⟩ := hbase hn
    refine ⟨construct, k, n, rfl, (hnode k).symm.trans hn, hlabels, fun j hj m hm => ?_⟩
    exact hfirst (base + j) (Nat.add_lt_add_left hj base) m ((hnode j).trans hm)

/-- Whatever passes the check is lowered without meeting a label, and gets stuck only if something in it
writes to what is no variable and no property. -/
theorem lowerFunc_yields_of_check {f : Script.Func} (h : firstUnsupported base (.func f) = none)
    (t : IndexedTree) (outer : Scopes) (i : Nat) (self : Option String) :
    Yields (∃ n ∈ (Node.func f).preorder, ¬ n.HitsReference)
      (fun g => g.name = f.name ∧ (Piece.func g).Unescaped) (lowerFunc t outer i self f) := by
  have hf : (Node.func f).Passes (∃ n ∈ (Node.func f).preorder, ¬ n.HitsReference) := fun m hm =>
    ⟨firstUnsupported_eq_none.1 h m hm, or_iff_not_imp_left.2 fun hstrays => ⟨m, hm, hstrays⟩⟩
  exact lowerFunc_yields t outer i self f hf.children

/-- Only the check answers that something is unsupported. -/
theorem instrument_unsupported (f : Script.Func) (r : Registry) (ns : String) (inherited : List String)
    (isProgram : Bool) :
    (instrument f r ns inherited isProgram).1 = .error (.unsupported construct i) ↔
      firstUnsupported (r.next ns) (.func f) = some (.unsupported construct i) := by
  cases h : firstUnsupported (r.next ns) (.func f) with
  | some e => simp [instrument, h]
  | none =>
      have hlowered := (lowerFunc_yields_of_check h (r.assign f ns isProgram).1 (.ofInherited inherited)
        (r.next ns) none).ne_unsupported construct i
      rw [instrument_of_supported h]
      simpa using hlowered

/-- Exactly the trees with a label in them are refused as unsupported, nested functions and those that
run without bookkeeping included; the answer names the first node that has to do with a label, and the
position under which it would have been registered.  Whatever passes the check is lowered without meeting
a label. -/
theorem instrument_unsupported_iff (f : Script.Func) (r : Registry) (ns : String)
    (inherited : List String) (isProgram : Bool) :
    (∀ construct i, (instrument f r ns inherited isProgram).1 = .error (.unsupported construct i) ↔
      (r.assign f ns isProgram).1.FirstLabel construct i) ∧
    ((∃ construct i, (instrument f r ns inherited isProgram).1 = .error (.unsupported construct i)) ↔
      ∃ n ∈ (Node.func f).preorder, ∃ construct, n.Labels construct) ∧
    (firstUnsupported (r.next ns) (.func f) = none → ∀ (t : IndexedTree) (outer : Scopes) (i : Nat)
      (self : Option String) (construct : String) (j : Nat),
        lowerFunc t outer i self f ≠ .error (.unsupported construct j)) := by
  refine ⟨fun construct i => ?_, ?_, fun h t outer i self =>
    (lowerFunc_yields_of_check h t outer i self).ne_unsupported⟩
  · rw [instrument_unsupported]
    exact firstUnsupported_eq_some_iff ns f isProgram
  · simp only [instrument_unsupported]
    constructor
    · rintro ⟨construct, i, h⟩
      obtain ⟨construct', k, n, -, hget, hn, -⟩ := firstUnsupported_eq_some.1 h
      exact ⟨n, List.mem_of_getElem? hget, construct', hn⟩
    · rintro ⟨n, hmem, construct, hn⟩
      cases h : firstUnsupported (r.next ns) (.func f) with
      | some e =>
          obtain ⟨construct', k, -, rfl, -⟩ := firstUnsupported_eq_some.1 h
          exact ⟨construct', r.next ns + k, rfl⟩
      | none =>
          have hnone := firstUnsupported_eq_none.1 h n hmem
          exact absurd hn (unsupported?_eq_none.1 hnone construct)

end Code

end Resumption
