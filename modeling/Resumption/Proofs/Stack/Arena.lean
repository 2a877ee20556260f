import Mathlib.Data.List.Infix
import Mathlib.Data.List.Perm.Subperm
import Resumption.Stack.Unwind

/-!
# The arena of an unwind is a list

The frames of an unwind lie in an arena that only grows and are found by following links.  To those
who use it an unwind is a row of frames: `recreate` and `shift` append to it, `unshift` takes its last
frame away.  A step of the unwind is a step of the row, so the links lead along the row after any
sequence of operations, and frames that were taken off never come back.
-/

namespace Resumption

/-- The frame by itself, without its caller. -/
def Frame.apart (f : Frame) : Frame := { f with parent := none }

/-- The frame that a note becomes; the innermost one goes on where the signal was raised. -/
def FrameInfo.frame (registries : Array Registry) (signal : Signal) (innermost : Bool)
    (info : FrameInfo) : Frame :=
  let origin : Option NodeHandle :=
    match (registries.getD info.registry default).tree info.ns info.index with
    | .ok tree => some ⟨tree, info.index⟩
    | .error _ => none
  let pc :=
    match innermost, signal with
    | true, .pause i => some i
    | true, .error _ => some info.last
    | false, _ =>
      if info.cache.contains info.last then origin.map (fun o => o.tree.after info.last)
      else some info.last
  { scope := (Chain.split info.chain).1, pending := (Chain.split info.chain).2, cache := info.cache
    pc, this := info.this, args := info.args, parent := none, origin, registry := info.registry }

/-! ## The row -/

/-- The frames with their numbers, innermost first. -/
structure Row where
  signal : Signal
  /-- Notes that are no frames yet, oldest first. -/
  queue : List FrameInfo
  frames : List (Nat × Frame)
  /-- The number that the next frame gets. -/
  next : Nat

namespace Row

def new (signal : Signal) : Row := ⟨signal, [], [], 0⟩

def ids (r : Row) : List Nat := r.frames.map Prod.fst

def append (r : Row) (f : Frame) : Row :=
  { r with frames := r.frames ++ [(r.next, f.apart)], next := r.next + 1 }

def appendNote (registries : Array Registry) (r : Row) (info : FrameInfo) : Row :=
  r.append (info.frame registries r.signal r.frames.isEmpty)

/-- One frame for every note, in the order of the queue. -/
def flush (registries : Array Registry) (r : Row) : Row :=
  r.queue.foldl (appendNote registries) { r with queue := [] }

end Row

/-! ## Operations -/

namespace Unwind

/-- What can be done with an unwind.  The registries are those of the moment. -/
inductive Operation where
  | store (info : FrameInfo)
  | recreate (registries : Array Registry)
  | shift (registries : Array Registry) (frame : Frame)
  | unshift (registries : Array Registry)

namespace Operation

/-- The operation on the arena, and the number that it hands back. -/
def perform (u : Unwind) : Operation → Option Nat × Unwind
  | store info => (none, u.store info)
  | recreate registries => (none, u.recreate registries)
  | shift registries frame =>
    let (id, u) := u.shift registries frame
    (some id, u)
  | unshift registries => u.unshift registries

/-- The operation on the row. -/
def apply (r : Row) : Operation → Option Nat × Row
  | store info => (none, { r with queue := r.queue ++ [info] })
  | recreate registries => (none, r.flush registries)
  | shift registries frame => (some (r.flush registries).next, (r.flush registries).append frame)
  | unshift registries =>
    ((r.flush registries).ids.getLast?,
      { r.flush registries with frames := (r.flush registries).frames.dropLast })

end Operation

/-- Operations one after the other, with the numbers that they hand back. -/
def performAll (u : Unwind) : List Operation → List (Option Nat) × Unwind
  | [] => ([], u)
  | op :: ops =>
    let (id, u) := op.perform u
    let (ids, u) := u.performAll ops
    (id :: ids, u)

end Unwind

def Row.applyAll (r : Row) : List Unwind.Operation → List (Option Nat) × Row
  | [] => ([], r)
  | op :: ops =>
    let (id, r) := op.apply r
    let (ids, r) := r.applyAll ops
    (id :: ids, r)

/-! ## The row in the arena -/

/-- The caller of each frame is the next one in the list, and the last one has none. -/
def Linked (frames : Array Frame) (ids : List Nat) : Prop :=
  ∀ k id, ids[k]? = some id → ∃ f, frames[id]? = some f ∧ f.parent = ids[k + 1]?

/-- The arena holds the row. -/
structure Unwind.Holds (u : Unwind) (r : Row) : Prop where
  signal : u.signal = r.signal
  queue : u.infos = r.queue
  size : u.frames.size = r.next
  top : u.top = r.ids.head?
  last : u.last = r.ids.getLast?
  linked : Linked u.frames r.ids
  nodup : r.ids.Nodup
  frames : ∀ p ∈ r.frames, (u.frames[p.1]?).map Frame.apart = some p.2
  /-- Frames that were taken off lead nowhere. -/
  detached : ∀ id f, u.frames[id]? = some f → id ∉ r.ids → f.parent = none

variable {u : Unwind} {r : Row} {frames : Array Frame} {ids : List Nat} {registries : Array Registry}

theorem Linked.lt_size (h : Linked frames ids) {id : Nat} (hid : id ∈ ids) : id < frames.size := by
  obtain ⟨k, hk⟩ := List.mem_iff_getElem?.1 hid
  obtain ⟨f, hf, -⟩ := h k id hk
  exact (Array.getElem?_eq_some_iff.1 hf).1

theorem Row.ids_append (r : Row) (f : Frame) : (r.append f).ids = r.ids ++ [r.next] := by
  simp [Row.ids, Row.append]

/-! ## New frames -/

namespace Unwind

/-- A new outermost frame: it lies behind all others, and the one before it leads to it. -/
theorem pushOutermost_eq (u : Unwind) (f : Frame) :
    u.pushOutermost f = (u.frames.size,
      { u with
        frames := match u.last with
          | none => u.frames.push f.apart
          | some last => (u.frames.push f.apart).modify last fun g =>
              { g with parent := some u.frames.size }
        top := match u.last with
          | none => some u.frames.size
          | some _ => u.top
        last := some u.frames.size }) := by
  rw [pushOutermost]
  cases u.last <;> rfl

@[simp] theorem signal_pushOutermost (u : Unwind) (f : Frame) :
    (u.pushOutermost f).2.signal = u.signal := by
  rw [pushOutermost_eq]

@[simp] theorem infos_pushOutermost (u : Unwind) (f : Frame) : (u.pushOutermost f).2.infos = u.infos := by
  rw [pushOutermost_eq]

theorem Holds.lt_next (h : u.Holds r) {id : Nat} (hid : id ∈ r.ids) : id < r.next :=
  h.size ▸ h.linked.lt_size hid

theorem Holds.next_not_mem (h : u.Holds r) : r.next ∉ r.ids :=
  fun hmem => Nat.lt_irrefl r.next (h.lt_next hmem)

/-- What is found in the arena once a frame has been added. -/
theorem Holds.getElem?_push (h : u.Holds r) (f : Frame) (id : Nat) :
    (u.pushOutermost f).2.frames[id]? =
      if id = r.next then some f.apart
      else if r.ids.getLast? = some id then (u.frames[id]?).map fun g =>
        { g with parent := some r.next }
      else u.frames[id]? := by
  have hlt : ∀ last, r.ids.getLast? = some last → last < r.next := fun last hlast =>
    h.lt_next (List.mem_of_getLast? hlast)
  have hpush : (u.frames.push f.apart)[id]? = if id = r.next then some f.apart else u.frames[id]? := by
    rw [Array.getElem?_push, h.size]
  rw [pushOutermost_eq, h.last, h.size]
  cases hlast : r.ids.getLast? with
  | none => simpa using hpush
  | some last =>
      have hne := Nat.ne_of_lt (hlt last hlast)
      dsimp only
      rw [Array.getElem?_modify, hpush]
      by_cases hid : last = id
      · subst hid
        simp [hne]
      · simp [hid]

theorem Holds.linked_push (h : u.Holds r) (f : Frame) :
    Linked (u.pushOutermost f).2.frames (r.append f).ids := by
  have hget := h.getElem?_push f
  intro k id hk
  rw [Row.ids_append] at hk ⊢
  rcases Nat.lt_trichotomy k r.ids.length with hlt | rfl | hgt
  · rw [List.getElem?_append_left hlt] at hk
    obtain ⟨g, hg, hparent⟩ := h.linked k id hk
    have hid : id ≠ r.next := Nat.ne_of_lt (h.lt_next (List.mem_of_getElem? hk))
    -- Of the old frames only the last one gets a caller.
    by_cases hlast : k + 1 = r.ids.length
    · have hend : r.ids.getLast? = some id := by
        rw [List.getLast?_eq_getElem?, ← hlast, Nat.add_sub_cancel, hk]
      refine ⟨{ g with parent := some r.next }, ?_, ?_⟩
      · rw [hget, if_neg hid, if_pos hend, hg]
        rfl
      · rw [hlast]
        simp
    · have hnot : r.ids.getLast? ≠ some id := by
        intro hend
        rw [List.getLast?_eq_getElem?, ← hk] at hend
        have := (List.getElem?_inj (by omega) h.nodup).1 hend
        omega
      refine ⟨g, ?_, ?_⟩
      · rw [hget, if_neg hid, if_neg hnot, hg]
      · rw [List.getElem?_append_left (by omega), hparent]
  · refine ⟨f.apart, ?_, by simp [Frame.apart]⟩
    have hid : id = r.next := by simpa using hk.symm
    rw [hget, if_pos hid]
  · rw [List.getElem?_eq_none (by simp; omega)] at hk
    cases hk

theorem Holds.push (h : u.Holds r) (f : Frame) :
    (u.pushOutermost f).1 = r.next ∧ (u.pushOutermost f).2.Holds (r.append f) := by
  have hget := h.getElem?_push f
  have hnext := h.next_not_mem
  refine ⟨by rw [pushOutermost_eq, h.size], ?_⟩
  constructor
  case signal => rw [pushOutermost_eq]; exact h.signal
  case queue => rw [pushOutermost_eq]; exact h.queue
  case size =>
    rw [pushOutermost_eq, h.last]
    cases r.ids.getLast? <;> simp [Row.append, h.size]
  case top =>
    rw [pushOutermost_eq, h.last, h.top, Row.ids_append, h.size]
    cases r.ids with
    | nil => rfl
    | cons id ids => rw [List.getLast?_cons]; rfl
  case last => rw [pushOutermost_eq, Row.ids_append, h.size]; simp
  case linked => exact h.linked_push f
  case nodup =>
    rw [Row.ids_append]
    exact List.nodup_append.2 ⟨h.nodup, by simp, by
      rintro a ha b hb rfl
      exact hnext (List.mem_singleton.1 hb ▸ ha)⟩
  case frames =>
    intro p hp
    rw [hget]
    rcases List.mem_append.1 hp with hp | hp
    · have hid : p.1 ≠ r.next := fun heq => hnext (heq ▸ List.mem_map_of_mem hp)
      have hframe := h.frames p hp
      rw [if_neg hid]
      split
      · rw [Option.map_map]
        exact hframe
      · exact hframe
    · cases List.mem_singleton.1 hp
      rw [if_pos rfl]
      rfl
  case detached =>
    intro id g hg hid
    rw [Row.ids_append, List.mem_append, not_or] at hid
    have hne : id ≠ r.next := fun heq => hid.2 (List.mem_singleton.2 heq)
    have hnot : r.ids.getLast? ≠ some id := fun hend => hid.1 (List.mem_of_getLast? hend)
    rw [hget, if_neg hne, if_neg hnot] at hg
    exact h.detached id g hg hid.1

/-! ## Operations on the row -/

theorem addFrame_eq (registries : Array Registry) (u : Unwind) (info : FrameInfo) :
    u.addFrame registries info =
      (u.pushOutermost (info.frame registries u.signal u.top.isNone)).2 := by
  unfold addFrame FrameInfo.frame resumePoint
  dsimp only
  cases u.top <;> cases u.signal <;> rfl

theorem signal_recreate (registries : Array Registry) (u : Unwind) :
    (u.recreate registries).signal = u.signal := by
  rw [Unwind.recreate]
  generalize u.infos = infos
  change _ = signal { u with infos := [] }
  generalize { u with infos := [] } = u
  induction infos generalizing u with
  | nil => rfl
  | cons info infos ih => rw [List.foldl_cons, ih, addFrame_eq, signal_pushOutermost]

/-- Frames added behind do not change what travels up the stack. -/
theorem signal_foldl_shift (registries : Array Registry) (frames : List Frame) (u : Unwind) :
    (frames.foldl (fun u f => (u.shift registries f).2) u).signal = u.signal := by
  induction frames generalizing u with
  | nil => rfl
  | cons f frames ih =>
      rw [List.foldl_cons, ih, Unwind.shift, signal_pushOutermost, signal_recreate]

theorem Holds.addFrame (h : u.Holds r) (info : FrameInfo) :
    (u.addFrame registries info).Holds (r.appendNote registries info) := by
  have hempty : u.top.isNone = r.frames.isEmpty := by
    rw [h.top, Row.ids]
    cases r.frames <;> rfl
  rw [addFrame_eq, h.signal, hempty]
  exact (h.push _).2

theorem Holds.recreate (h : u.Holds r) (registries : Array Registry) :
    (u.recreate registries).Holds (r.flush registries) := by
  have hnotes : ∀ (infos : List FrameInfo) (u : Unwind) (r : Row), u.Holds r →
      (infos.foldl (Unwind.addFrame registries) u).Holds (infos.foldl (Row.appendNote registries) r) := by
    intro infos
    induction infos with
    | nil => exact fun u r h => h
    | cons info infos ih => exact fun u r h => ih _ _ (h.addFrame info)
  rw [Unwind.recreate, Row.flush, h.queue]
  exact hnotes _ _ _ { h with queue := rfl }

/-- Only the frame before the last one leads to it. -/
theorem Holds.findIdx?_last (h : u.Holds r) {front : List Nat} {last : Nat}
    (hids : r.ids = front ++ [last]) :
    u.frames.findIdx? (fun f => f.parent == some last) = front.getLast? := by
  have hnodup := h.nodup
  have honly : ∀ id f, u.frames[id]? = some f → f.parent = some last → front.getLast? = some id := by
    intro id f hf hparent
    by_cases hid : id ∈ r.ids
    · obtain ⟨k, hk⟩ := List.mem_iff_getElem?.1 hid
      obtain ⟨g, hg, hnext⟩ := h.linked k id hk
      cases hf.symm.trans hg
      have hlast : r.ids[front.length]? = some last := by rw [hids]; simp
      rw [hparent, ← hlast] at hnext
      have hlen : front.length < r.ids.length := by rw [hids]; simp
      have hpos := (List.getElem?_inj hlen hnodup).1 hnext
      rw [List.getLast?_eq_getElem?, hpos, Nat.add_sub_cancel, ← hk, hids,
        List.getElem?_append_left (by omega)]
    · rw [h.detached id f hf hid] at hparent
      cases hparent
  cases hfront : front.getLast? with
  | none =>
      rw [Array.findIdx?_eq_none_iff]
      intro f hf
      obtain ⟨id, hid⟩ := Array.mem_iff_getElem?.1 hf
      rw [beq_eq_false_iff_ne]
      intro hparent
      rw [honly id f hid hparent] at hfront
      cases hfront
  | some child =>
      have hk : r.ids[front.length - 1]? = some child := by
        have hne : front ≠ [] := by
          rintro rfl
          cases hfront
        have hpos := List.length_pos_iff.2 hne
        rw [List.getLast?_eq_getElem?] at hfront
        rw [hids, List.getElem?_append_left (by omega), hfront]
      obtain ⟨f, hf, hparent⟩ := h.linked _ _ hk
      have hpos : 0 < front.length := List.length_pos_iff.2 (by rintro rfl; cases hfront)
      have hlast : f.parent = some last := by
        rw [hparent, Nat.sub_add_cancel hpos, hids]
        simp
      obtain ⟨hlt, hget⟩ := Array.getElem?_eq_some_iff.1 hf
      rw [Array.findIdx?_eq_some_iff_getElem]
      refine ⟨hlt, by rw [hget, hlast]; exact beq_self_eq_true _, fun j hj => ?_⟩
      intro hj'
      have := honly j _ (Array.getElem?_eq_getElem (Nat.lt_trans hj hlt)) (eq_of_beq hj')
      rw [hfront] at this
      cases this
      exact Nat.lt_irrefl _ hj

/-- The only frame is taken off. -/
theorem Holds.dropOnly {signal : Signal} {queue : List FrameInfo} {last next : Nat} {f : Frame}
    (h : u.Holds ⟨signal, queue, [(last, f)], next⟩) :
    Holds { u with top := none, last := none } ⟨signal, queue, [], next⟩ := by
  refine { h with
    top := rfl, last := rfl, linked := nofun, nodup := List.nodup_nil, frames := nofun
    detached := fun id g hg _ => ?_ }
  by_cases hid : id = last
  · obtain ⟨g', hg', hparent⟩ := h.linked 0 last rfl
    rw [hid] at hg
    cases hg'.symm.trans hg
    exact hparent
  · exact h.detached id g hg fun hmem => hid (List.mem_singleton.1 hmem)

/-- The last frame is taken off, and the one before it becomes the last one. -/
theorem Holds.dropLast {signal : Signal} {queue : List FrameInfo} {front : List (Nat × Frame)}
    {last next child : Nat} {f : Frame} (h : u.Holds ⟨signal, queue, front ++ [(last, f)], next⟩)
    (hchild : (front.map Prod.fst).getLast? = some child) :
    Holds { u with frames := u.frames.modify child Frame.apart, last := some child }
      ⟨signal, queue, front, next⟩ := by
  have hids : Row.ids ⟨signal, queue, front ++ [(last, f)], next⟩ = front.map Prod.fst ++ [last] := by
    simp [Row.ids]
  have hmem := List.mem_of_getLast? hchild
  have hnodup := h.nodup
  rw [hids] at hnodup
  obtain ⟨hfront, -, hapart⟩ := List.nodup_append.1 hnodup
  have hget : ∀ id, (u.frames.modify child Frame.apart)[id]? =
      if child = id then (u.frames[id]?).map Frame.apart else u.frames[id]? :=
    fun id => Array.getElem?_modify ..
  refine { h with
    size := by rw [Array.size_modify]; exact h.size
    top := ?_, last := hchild.symm, linked := ?_, nodup := hfront, frames := ?_, detached := ?_ }
  · rw [h.top, hids, List.head?_append_of_ne_nil _ (List.ne_nil_of_mem hmem)]
    rfl
  · intro k id hk
    change (front.map Prod.fst)[k]? = some id at hk
    have hlt : k < (front.map Prod.fst).length := (List.getElem?_eq_some_iff.1 hk).1
    obtain ⟨g, hg, hparent⟩ := h.linked k id (by rw [hids, List.getElem?_append_left hlt, hk])
    rw [hids] at hparent
    change ∃ f, (u.frames.modify child Frame.apart)[id]? = some f ∧
      f.parent = (front.map Prod.fst)[k + 1]?
    rw [List.getLast?_eq_getElem?] at hchild
    by_cases hid : child = id
    · have hk' := (List.getElem?_inj hlt hfront).1 (hk.trans (hid ▸ hchild.symm))
      refine ⟨g.apart, by rw [hget, if_pos hid, hg]; rfl, ?_⟩
      rw [List.getElem?_eq_none (by omega)]
      rfl
    · have hne : k + 1 ≠ (front.map Prod.fst).length := by
        intro hk'
        rw [← hk', Nat.add_sub_cancel, hk] at hchild
        exact hid (Option.some.inj hchild).symm
      refine ⟨g, by rw [hget, if_neg hid, hg], ?_⟩
      rw [hparent, List.getElem?_append_left (by omega)]
  · intro p hp
    have hframe := h.frames p (List.mem_append_left _ hp)
    change ((u.frames.modify child Frame.apart)[p.1]?).map Frame.apart = some p.2
    rw [hget]
    split
    · rw [Option.map_map]
      exact hframe
    · exact hframe
  · intro id g hg hid
    change (u.frames.modify child Frame.apart)[id]? = some g at hg
    have hne : child ≠ id := fun heq => hid (heq ▸ hmem)
    rw [hget, if_neg hne] at hg
    by_cases hlast : id = last
    · obtain ⟨g', hg', hparent⟩ := h.linked (front.map Prod.fst).length last (by rw [hids]; simp)
      rw [hlast] at hg
      cases hg'.symm.trans hg
      rw [hparent, hids]
      simp
    · refine h.detached id g hg ?_
      rw [hids, List.mem_append, List.mem_singleton, not_or]
      exact ⟨hid, hlast⟩

theorem Holds.unshift (h : u.Holds r) :
    (u.unshift registries).1 = (r.flush registries).ids.getLast? ∧
      (u.unshift registries).2.Holds
        { r.flush registries with frames := (r.flush registries).frames.dropLast } := by
  have h := h.recreate registries
  rw [Unwind.unshift]
  dsimp only
  generalize u.recreate registries = u at h ⊢
  generalize r.flush registries = r at h ⊢
  obtain ⟨signal, queue, frames, next⟩ := r
  rcases List.eq_nil_or_concat frames with rfl | ⟨front, ⟨last, f⟩, rfl⟩
  · have hnone : u.last = none := h.last
    rw [hnone]
    exact ⟨rfl, h⟩
  · rw [List.concat_eq_append] at h ⊢
    have hids : Row.ids ⟨signal, queue, front ++ [(last, f)], next⟩ = front.map Prod.fst ++ [last] := by
      simp [Row.ids]
    have hlast : u.last = some last := by rw [h.last, hids]; simp
    rw [hlast]
    dsimp only
    rw [h.findIdx?_last hids, hids, List.dropLast_concat, List.getLast?_concat]
    cases hchild : (front.map Prod.fst).getLast? with
    | none =>
        obtain rfl : front = [] := by simpa using hchild
        exact ⟨rfl, h.dropOnly⟩
    | some child => exact ⟨rfl, h.dropLast hchild⟩

/-- A step of the unwind is a step of the row. -/
theorem Holds.perform (h : u.Holds r) (op : Operation) :
    (op.perform u).1 = (op.apply r).1 ∧ (op.perform u).2.Holds (op.apply r).2 := by
  cases op with
  | store info => exact ⟨rfl, { h with queue := congrArg (· ++ [info]) h.queue }⟩
  | recreate registries => exact ⟨rfl, h.recreate registries⟩
  | shift registries frame =>
      have hpush := (h.recreate registries).push frame
      exact ⟨congrArg some hpush.1, hpush.2⟩
  | unshift registries => exact h.unshift

theorem Holds.performAll (h : u.Holds r) (ops : List Operation) :
    (u.performAll ops).1 = (r.applyAll ops).1 ∧ (u.performAll ops).2.Holds (r.applyAll ops).2 := by
  induction ops generalizing u r with
  | nil => exact ⟨rfl, h⟩
  | cons op ops ih =>
      obtain ⟨hid, hnext⟩ := h.perform op
      obtain ⟨hids, hlast⟩ := ih hnext
      exact ⟨congrArg₂ List.cons hid hids, hlast⟩

theorem holds_ofSignal (signal : Signal) : (ofSignal signal).Holds (.new signal) where
  signal := rfl
  queue := rfl
  size := rfl
  top := rfl
  last := rfl
  linked := nofun
  nodup := List.nodup_nil
  frames := nofun
  detached := nofun

end Unwind

/-! ## Frames that were taken off -/

namespace Row

/-- Numbers are given once: those that are not in the row are not given again. -/
structure Passes (r r' : Row) : Prop where
  next : r.next ≤ r'.next
  old : ∀ id ∈ r'.ids, id ∈ r.ids ∨ r.next ≤ id

theorem Passes.refl (r : Row) : r.Passes r := ⟨Nat.le_refl _, fun _ => .inl⟩

theorem Passes.trans {r₁ r₂ r₃ : Row} (h : r₁.Passes r₂) (h' : r₂.Passes r₃) : r₁.Passes r₃ :=
  ⟨Nat.le_trans h.next h'.next, fun id hid => (h'.old id hid).elim (h.old id) fun hnext =>
    .inr (Nat.le_trans h.next hnext)⟩

theorem passes_append (r : Row) (f : Frame) : r.Passes (r.append f) := by
  refine ⟨Nat.le_succ _, fun id hid => ?_⟩
  rw [ids_append, List.mem_append, List.mem_singleton] at hid
  exact hid.imp_right fun heq => Nat.le_of_eq heq.symm

theorem passes_flush (registries : Array Registry) (r : Row) : r.Passes (r.flush registries) := by
  have hnotes : ∀ (infos : List FrameInfo) (r : Row),
      r.Passes (infos.foldl (appendNote registries) r) := by
    intro infos
    induction infos with
    | nil => exact .refl
    | cons info infos ih => exact fun r => (r.passes_append _).trans (ih _)
  have hflush := hnotes r.queue { r with queue := [] }
  exact ⟨hflush.next, hflush.old⟩

theorem passes_apply (r : Row) (op : Unwind.Operation) : r.Passes (op.apply r).2 := by
  cases op with
  | store info => exact ⟨Nat.le_refl _, fun _ => .inl⟩
  | recreate registries => exact r.passes_flush registries
  | shift registries frame => exact (r.passes_flush registries).trans (passes_append _ _)
  | unshift registries =>
      refine (r.passes_flush registries).trans ⟨Nat.le_refl _, fun id hid => .inl ?_⟩
      obtain ⟨p, hp, rfl⟩ := List.mem_map.1 hid
      exact List.mem_map_of_mem (List.mem_of_mem_dropLast hp)

theorem passes_applyAll (r : Row) (ops : List Unwind.Operation) : r.Passes (r.applyAll ops).2 := by
  induction ops generalizing r with
  | nil => exact .refl r
  | cons op ops ih => exact (r.passes_apply op).trans (ih _)

end Row

/-! ## The frames of a continuation -/

/-- The walk along the links lists the row: it ends at the last frame, and before it could have been
cut short. -/
theorem Linked.followParents_eq (h : Linked frames ids) (hnodup : ids.Nodup) (front rest : List Nat)
    (hids : ids = front ++ rest) {n : Nat} (hn : rest.length < n) (seen : List Nat)
    (hseen : ∀ id ∈ seen, id ∈ front) : followParents frames n seen rest.head? = rest := by
  induction rest generalizing front n seen with
  | nil =>
      obtain ⟨n, rfl⟩ := Nat.exists_eq_succ_of_ne_zero (Nat.ne_zero_of_lt hn)
      rfl
  | cons id rest ih =>
      obtain ⟨n, rfl⟩ := Nat.exists_eq_succ_of_ne_zero (Nat.ne_zero_of_lt hn)
      have hnew : seen.contains id = false := by
        rw [List.contains_eq_mem, decide_eq_false_iff_not]
        intro hid
        rw [hids] at hnodup
        exact (List.nodup_append.1 hnodup).2.2 id (hseen id hid) id List.mem_cons_self rfl
      obtain ⟨f, hf, hparent⟩ := h front.length id (by rw [hids]; simp)
      have hnext : frames[id]?.bind (fun f => f.parent) = rest.head? := by
        rw [hf, Option.bind_some, hparent, hids, List.getElem?_append_right (Nat.le_succ _)]
        cases rest <;> simp
      have hrest := ih (front ++ [id]) (by rw [hids]; simp) (Nat.lt_of_succ_lt_succ hn) (id :: seen)
        (by
          intro j hj
          rcases List.mem_cons.1 hj with rfl | hj
          · simp
          · exact List.mem_append_left _ (hseen j hj))
      rw [List.head?_cons, followParents, hnew, hnext, hrest]
      rfl

namespace Unwind

theorem Holds.length_le (h : u.Holds r) : r.ids.length ≤ u.frames.size := by
  have hsub : r.ids ⊆ List.range u.frames.size := fun id hid =>
    List.mem_range.2 (h.linked.lt_size hid)
  simpa using (h.nodup.subperm hsub).length_le

theorem Holds.order (h : u.Holds r) (error : Option Value) :
    Continuation.order ⟨u.frames, u.top, error⟩ = r.ids := by
  rw [Continuation.order, h.top]
  exact h.linked.followParents_eq h.nodup [] _ rfl (Nat.lt_succ_of_le h.length_le) []
    (fun _ hid => absurd hid List.not_mem_nil)

theorem Holds.chain (h : u.Holds r) (error : Option Value) :
    (Continuation.chain ⟨u.frames, u.top, error⟩).map Frame.apart = r.frames.map Prod.snd := by
  rw [Continuation.chain, h.order, Row.ids, List.map_filterMap, List.filterMap_map]
  have hget := h.frames
  generalize r.frames = l at hget
  induction l with
  | nil => rfl
  | cons p l ih =>
      rw [List.filterMap_cons, List.map_cons, ih fun q hq => hget q (List.mem_cons_of_mem _ hq)]
      simp [hget p List.mem_cons_self]

/-- After any operations the arena holds the row that the same operations make, with the same numbers
handed back on the way.  A frame that was taken off is in no later row; without notes nothing is
recreated; and a continuation lists the row, frame by frame, on a walk that is never cut short. -/
theorem arena_holds_row (signal : Signal) (ops : List Operation) :
    let (ids, u) := (ofSignal signal).performAll ops
    let (ids', r) := (Row.new signal).applyAll ops
    ids = ids' ∧ u.Holds r ∧
      (∀ later, ∀ id < r.next, id ∉ r.ids → id ∉ (r.applyAll later).2.ids) ∧
      ∀ registries, (u.infos = [] → u.recreate registries = u) ∧
        let k := Continuation.ofUnwind registries u
        k.order = (r.flush registries).ids ∧ Linked k.frames k.order ∧ k.order.Nodup ∧
          k.order.length ≤ k.frames.size ∧
          k.chain.map Frame.apart = (r.flush registries).frames.map Prod.snd := by
  obtain ⟨hids, hholds⟩ := (holds_ofSignal signal).performAll ops
  refine ⟨hids, hholds, fun later id hlt hid hlater => ?_, fun registries => ⟨fun hnone => ?_, ?_⟩⟩
  · exact ((Row.passes_applyAll _ later).old id hlater).elim hid (Nat.not_le.2 hlt)
  · rw [Unwind.recreate, hnone]
    dsimp only [List.foldl_nil]
    rw [← hnone]
  · have hflushed := hholds.recreate registries
    have horder := hflushed.order (recreate registries ((ofSignal signal).performAll ops).2).thrown?
    refine ⟨horder, ?_, ?_, ?_, hflushed.chain _⟩
    · rw [Continuation.ofUnwind, horder]
      exact hflushed.linked
    · rw [Continuation.ofUnwind, horder]
      exact hflushed.nodup
    · rw [Continuation.ofUnwind, horder]
      exact hflushed.length_le

end Unwind

end Resumption
