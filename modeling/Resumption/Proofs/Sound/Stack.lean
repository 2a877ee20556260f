import Resumption.Proofs.Resuming
import Resumption.Proofs.Sound.Path

/-!
# What is left of calls

Activations, the notes that they leave behind and the frames that are made of them, as far as they
refer to what is there.  A function that was left by a pause of its own has left a note with a way to
the statement that paused it: the scopes on this way are the links of its chain that are its own.
-/

namespace Resumption

open Script

variable {w w' : Realm}

/-! ## Results and chains -/

def Cache.In (w : Realm) (c : Cache) : Prop := ∀ e ∈ c, e.2.In w

namespace Cache

variable {c : Cache} {i k : Nat} {v : Value}

theorem In.mono (hw : w ≤ w') (h : In w c) : In w' c := fun e he => (h e he).mono hw

theorem In.insert (h : In w c) (i : Nat) (hv : v.In w) : In w (c.insert i v) := fun e he => by
  rcases mem_insert he with rfl | he
  · exact hv
  · exact h e he

theorem In.erase (h : In w c) (i : Nat) : In w (c.erase i) :=
  fun e he => h e ((erase_sublist i c).subset he)

theorem mem_of_get? (h : get? i c = some v) : (i, v) ∈ c := by
  induction c with
  | nil => cases h
  | cons e c ih =>
      obtain ⟨j, u⟩ := e
      rw [get?] at h
      split at h
      · rename_i heq
        cases h
        rw [beq_iff_eq.1 heq]
        exact List.mem_cons_self
      · exact List.mem_cons_of_mem _ (ih h)

theorem In.get? (h : In w c) (hv : get? i c = some v) : v.In w := h _ (mem_of_get? hv)

theorem contains_insert_self (i : Nat) (v : Value) (c : Cache) : (c.insert i v).contains i = true := by
  rw [contains, get?_insert_self]
  rfl

theorem contains_insert (h : c.contains k = true) (i : Nat) (v : Value) :
    (c.insert i v).contains k = true := by
  by_cases hki : k = i
  · rw [hki]
    exact contains_insert_self i v c
  · rw [contains, get?_insert_of_ne hki]
    exact h

theorem contains_erase (h : c.contains k = true) (hki : k ≠ i) : (c.erase i).contains k = true := by
  rw [contains, get?_erase_of_ne hki]
  exact h

end Cache

/-- Somewhere in the chain there is the record of a function; the links in front of it are of other
kinds. -/
def Chain.Anchored (c : Chain) : Prop :=
  ∃ inner a outer, c = inner ++ ⟨.function, a⟩ :: outer ∧ ∀ link ∈ inner, link.kind ≠ .function

theorem Chain.anchored_function (a : Address) (outer : Chain) :
    Chain.Anchored (⟨.function, a⟩ :: outer) :=
  ⟨[], a, outer, rfl, List.forall_mem_nil _⟩

theorem Chain.Anchored.cons {c : Chain} (h : Chain.Anchored c) (link : Link) :
    Chain.Anchored (link :: c) := by
  obtain ⟨inner, a, outer, rfl, hinner⟩ := h
  by_cases hkind : link.kind = .function
  · obtain ⟨kind, b⟩ := link
    cases hkind
    exact ⟨[], b, _, rfl, List.forall_mem_nil _⟩
  · exact ⟨link :: inner, a, outer, rfl, List.forall_mem_cons.2 ⟨hkind, hinner⟩⟩

/-! ## Activations -/

structure Activation.In (w : Realm) (act : Activation) : Prop where
  chain : Chain.In w act.chain
  anchored : Chain.Anchored act.chain
  cache : Cache.In w act.cache
  arguments : ∀ v, act.arguments = some v → v.In w
  pending : Chain.In w act.pending
  inner : ∀ link ∈ act.pending, link.kind ≠ .function

theorem Activation.In.mono (hw : w ≤ w') {act : Activation} (h : act.In w) : act.In w' where
  chain := h.chain.mono hw
  anchored := h.anchored
  cache := h.cache.mono hw
  arguments v hv := (h.arguments v hv).mono hw
  pending := h.pending.mono hw
  inner := h.inner

/-! ## Notes -/

structure FrameInfo.In (w : Realm) (info : FrameInfo) : Prop where
  this : info.this.In w
  args : Values.In w info.args
  chain : Chain.In w info.chain
  anchored : Chain.Anchored info.chain
  cache : Cache.In w info.cache

theorem FrameInfo.In.mono (hw : w ≤ w') {info : FrameInfo} (h : info.In w) : info.In w' where
  this := h.this.mono hw
  args := h.args.mono hw
  chain := h.chain.mono hw
  anchored := h.anchored
  cache := h.cache.mono hw

/-- The function that left the note paused at a statement of its own: from the beginning of its body
a way leads there, through as many scopes as there are links in front of the function's record. -/
inductive FrameInfo.Posed (w : Realm) (p : Nat) (info : FrameInfo) : Prop
  | mk {r : Registry} {t : IndexedTree} {f : Func} {target : Stmt} {inner outer : Chain}
      {a : Address} (kept : w.Keeps info.registry r) (tree : r.tree info.ns info.index = .ok t)
      (func : t.func? info.index = some f) (body : t.AtAll (info.index + 1) (Node.ofStmts f.body))
      (chain : info.chain = inner ++ ⟨.function, a⟩ :: outer)
      (own : ∀ link ∈ inner, link.kind ≠ .function)
      (way : t.WithinList info.cache p target (info.index + 1) f.body inner.length)

theorem FrameInfo.Posed.mono (hw : w ≤ w') {p : Nat} {info : FrameInfo} (h : info.Posed w p) :
    info.Posed w' p := by
  obtain ⟨kept, tree, func, body, chain, own, way⟩ := h
  exact ⟨kept.mono hw, tree, func, body, chain, own, way⟩

/-! ## What unwinds -/

/-- On its way up the stack an unwinding only gathers notes.  The first note of a pause is that of
the function that it was raised in. -/
structure Unwind.In (w : Realm) (u : Unwind) : Prop where
  thrown : ∀ v, u.thrown? = some v → v.In w
  infos : ∀ info ∈ u.infos, info.In w
  bare : u.frames = #[] ∧ u.top = none ∧ u.last = none
  posed : ∀ p, u.signal = .pause p → ∃ info rest, u.infos = info :: rest ∧ info.Posed w p

namespace Unwind

variable {u : Unwind}

theorem In.mono (hw : w ≤ w') (h : u.In w) : u.In w' where
  thrown v hv := (h.thrown v hv).mono hw
  infos info hinfo := (h.infos info hinfo).mono hw
  bare := h.bare
  posed p hp := by
    obtain ⟨info, rest, hinfos, hposed⟩ := h.posed p hp
    exact ⟨info, rest, hinfos, hposed.mono hw⟩

theorem in_error {v : Value} (hv : v.In w) : (ofSignal (.error v)).In w where
  thrown _ hu := by
    cases hu
    exact hv
  infos := List.forall_mem_nil _
  bare := ⟨rfl, rfl, rfl⟩
  posed := nofun

theorem In.store (h : u.In w) {info : FrameInfo} (hinfo : info.In w) : (u.store info).In w where
  thrown := h.thrown
  infos other hother := by
    rcases List.mem_append.1 hother with hother | hother
    · exact h.infos other hother
    · rw [List.mem_singleton.1 hother]
      exact hinfo
  bare := h.bare
  posed p hp := by
    obtain ⟨first, rest, hinfos, hposed⟩ := h.posed p hp
    exact ⟨first, rest ++ [info], by rw [Unwind.store, hinfos]; rfl, hposed⟩

/-- A function is left by a pause of its own. -/
theorem in_store_pause {info : FrameInfo} (hinfo : info.In w) {p : Nat} (hposed : info.Posed w p) :
    ((ofSignal (.pause p)).store info).In w where
  thrown := nofun
  infos other hother := by
    rw [List.mem_singleton.1 hother]
    exact hinfo
  bare := ⟨rfl, rfl, rfl⟩
  posed q hq := by
    cases hq
    exact ⟨info, [], rfl, hposed⟩

end Unwind

end Resumption
