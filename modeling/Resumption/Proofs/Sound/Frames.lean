import Resumption.Proofs.Sound.Machine
import Resumption.Proofs.Stack.Arena

/-!
# Frames in order

The frames that the notes of an unwinding become, and the continuations that hold them.  The frame of a
function that paused at a statement of its own knows the way there; this stays so whatever frames are
put behind it, and when the continuation is copied.
-/

namespace Resumption

open Script

variable {w w' : Realm}

/-! ## Frames -/

structure Frame.In (w : Realm) (f : Frame) : Prop where
  this : f.this.In w
  args : Values.In w f.args
  scope : Chain.In w f.scope
  headed : ∃ a outer, f.scope = ⟨.function, a⟩ :: outer
  pending : Chain.In w f.pending
  inner : ∀ link ∈ f.pending, link.kind ≠ .function
  cache : Cache.In w f.cache
  origin : ∀ o, f.origin = some o → ∃ r, w.Keeps f.registry r ∧ r.tree o.tree.ns o.index = .ok o.tree

/-- The frame goes on at a statement of its function, and from the beginning of the body a way leads
there through as many scopes as there are links to re-enter. -/
inductive Frame.Posed (p : Nat) (frame : Frame) : Prop
  | mk {o : NodeHandle} {f : Func} {target : Stmt} (origin : frame.origin = some o)
      (func : o.func? = some f) (pc : frame.pc = some p)
      (body : o.tree.AtAll (o.index + 1) (Node.ofStmts f.body))
      (way : o.tree.WithinList frame.cache p target (o.index + 1) f.body frame.pending.length)

namespace Frame

variable {f : Frame} {p : Nat}

theorem In.mono (hw : w ≤ w') (h : f.In w) : f.In w' where
  this := h.this.mono hw
  args := h.args.mono hw
  scope := h.scope.mono hw
  headed := h.headed
  pending := h.pending.mono hw
  inner := h.inner
  cache := h.cache.mono hw
  origin o ho := by
    obtain ⟨r, hkept, htree⟩ := h.origin o ho
    exact ⟨r, hkept.mono hw, htree⟩

theorem In.withParent (h : f.In w) (parent : Option Nat) : Frame.In w { f with parent } :=
  { h with }

theorem Posed.withParent (h : f.Posed p) (parent : Option Nat) : Frame.Posed p { f with parent } := by
  obtain ⟨origin, func, pc, body, way⟩ := h
  exact ⟨origin, func, pc, body, way⟩

theorem In.seed (h : f.In w) {result : Option Value} (hresult : ∀ v, result = some v → v.In w) :
    (f.seed result).In w := by
  unfold Frame.seed
  split
  · exact { h with cache := h.cache.insert _ (hresult _ rfl) }
  · exact h

end Frame

/-! ## From notes to frames -/

namespace FrameInfo

variable {info : FrameInfo} {rs : Array Registry} {signal : Signal} {innermost : Bool}

theorem frame_origin_eq_some {o : NodeHandle} : (info.frame rs signal innermost).origin = some o ↔
    (rs.getD info.registry default).tree info.ns info.index = .ok o.tree ∧ info.index = o.index := by
  obtain ⟨t, i⟩ := o
  unfold frame
  dsimp only
  split
  · rename_i t' htree
    rw [htree, Option.some_inj, NodeHandle.mk.injEq, Except.ok.injEq]
  · rename_i e htree
    rw [htree]
    exact iff_of_false (fun h => by cases h) fun h => by cases h.1

/-- The scopes inside of the function are the ones to re-enter. -/
theorem frame_scopes (rs : Array Registry) (signal : Signal) (innermost : Bool) {inner outer : Chain}
    {a : Address} (hchain : info.chain = inner ++ ⟨.function, a⟩ :: outer)
    (hinner : ∀ link ∈ inner, link.kind ≠ .function) :
    (info.frame rs signal innermost).scope = ⟨.function, a⟩ :: outer ∧
      (info.frame rs signal innermost).pending = inner.reverse := by
  have hsplit : Chain.split info.chain = (⟨.function, a⟩ :: outer, inner.reverse) := by
    rw [hchain, Chain.split_append hinner]
  exact ⟨congrArg Prod.fst hsplit, congrArg Prod.snd hsplit⟩

theorem In.frame (h : info.In w) (hbuilt : ∀ id, (w.registry id).Built) (signal : Signal)
    (innermost : Bool) : (info.frame w.registries signal innermost).In w := by
  obtain ⟨inner, a, outer, hchain, hinner⟩ := h.anchored
  obtain ⟨hscope, hpending⟩ := frame_scopes w.registries signal innermost hchain hinner
  have hin : ∀ link ∈ inner ++ ⟨.function, a⟩ :: outer, link.record < w.size := hchain ▸ h.chain
  exact {
    this := h.this
    args := h.args
    scope := hscope ▸ fun link hlink => hin link (List.mem_append_right _ hlink)
    headed := ⟨a, outer, hscope⟩
    pending := hpending ▸ fun link hlink => hin link (List.mem_append_left _ (List.mem_reverse.1 hlink))
    inner := hpending ▸ fun link hlink => hinner link (List.mem_reverse.1 hlink)
    cache := h.cache
    origin := fun o ho => by
      obtain ⟨htree, hindex⟩ := frame_origin_eq_some.1 ho
      have hns := beq_iff_eq.1 (List.mem_filter.1 ((hbuilt _).tree_eq_ok_iff.1 htree).1).2
      exact ⟨_, ⟨hbuilt _, .refl _⟩, hns ▸ hindex ▸ htree⟩ }

/-- The innermost frame of a pause stands where the pause was raised. -/
theorem Posed.frame {p : Nat} (h : info.Posed w p) :
    (info.frame w.registries (.pause p) true).Posed p := by
  obtain ⟨kept, tree, func, body, chain, own, way⟩ := h
  rename_i r t f target inner outer a
  obtain ⟨-, hpending⟩ := frame_scopes w.registries (.pause p) true chain own
  have horigin : (info.frame w.registries (.pause p) true).origin = some ⟨t, info.index⟩ :=
    frame_origin_eq_some.2 ⟨kept.tree tree, rfl⟩
  have hway : t.WithinList info.cache p target (info.index + 1) f.body
      (info.frame w.registries (.pause p) true).pending.length := by
    rw [hpending, List.length_reverse]
    exact way
  exact .mk horigin func rfl body hway

end FrameInfo

/-! ## The arena -/

namespace Unwind

variable {u : Unwind} {p : Nat} {f : Frame}

/-- What is thrown, the notes and all frames are in order. -/
structure Stocked (w : Realm) (u : Unwind) : Prop where
  thrown : ∀ v, u.thrown? = some v → v.In w
  infos : ∀ info ∈ u.infos, info.In w
  frames : ∀ f ∈ u.frames, f.In w
  bare : u.top = none → u.frames = #[] ∧ u.last = none

/-- The innermost frame is the first one, and it knows the way to where it goes on. -/
def Leads (p : Nat) (u : Unwind) : Prop :=
  u.top = some 0 ∧ u.last.isSome = true ∧ ∃ f, u.frames[0]? = some f ∧ f.Posed p

/-- The innermost frame of a pause is there, or the first note becomes this frame. -/
structure Arranged (w : Realm) (u : Unwind) : Prop extends u.Stocked w where
  posed : ∀ p, u.signal = .pause p →
    (u.top = none ∧ ∃ info rest, u.infos = info :: rest ∧ info.Posed w p) ∨ u.Leads p

theorem In.arranged (h : u.In w) : u.Arranged w where
  thrown := h.thrown
  infos := h.infos
  frames := by
    rw [h.bare.1]
    exact fun f hf => absurd hf (Array.not_mem_empty f)
  bare _ := ⟨h.bare.1, h.bare.2.2⟩
  posed p hp := .inl ⟨h.bare.2.1, h.posed p hp⟩

/-! ### One more frame -/

theorem top_pushOutermost (u : Unwind) (f : Frame) :
    (u.pushOutermost f).2.top = if u.last.isSome then u.top else some u.frames.size := by
  rw [pushOutermost_eq]
  cases u.last <;> rfl

theorem last_pushOutermost (u : Unwind) (f : Frame) :
    (u.pushOutermost f).2.last = some u.frames.size := by
  rw [pushOutermost_eq]

/-- The frames of before and the new one, each with a caller of its own. -/
theorem getElem?_pushOutermost (u : Unwind) (f : Frame) (i : Nat) :
    ∃ parent : Frame → Option Nat, (u.pushOutermost f).2.frames[i]? =
      ((u.frames.push f)[i]?).map fun g => { g with parent := parent g } := by
  rw [pushOutermost_eq]
  have hpush : (u.frames.push f.apart)[i]? = ((u.frames.push f)[i]?).map fun g =>
      { g with parent := if i = u.frames.size then none else g.parent } := by
    rw [Array.getElem?_push, Array.getElem?_push]
    split
    · rfl
    · cases u.frames[i]? <;> rfl
  cases hlast : u.last with
  | none => exact ⟨_, hpush⟩
  | some last =>
      dsimp only
      rw [Array.getElem?_modify, hpush]
      split
      · refine ⟨fun _ => some u.frames.size, ?_⟩
        rw [Option.map_map]
        rfl
      · exact ⟨_, rfl⟩

theorem Stocked.push (h : u.Stocked w) (hf : f.In w) : (u.pushOutermost f).2.Stocked w where
  thrown v hv := by
    rw [thrown?, signal_pushOutermost] at hv
    exact h.thrown v hv
  infos := infos_pushOutermost u f ▸ h.infos
  frames g hg := by
    obtain ⟨i, hi⟩ := Array.mem_iff_getElem?.1 hg
    obtain ⟨parent, hframes⟩ := u.getElem?_pushOutermost f i
    rw [hframes] at hi
    obtain ⟨g', hg', rfl⟩ := Option.map_eq_some_iff.1 hi
    refine Frame.In.withParent ?_ _
    rcases Array.mem_push.1 (Array.mem_of_getElem? hg') with hg' | rfl
    · exact h.frames g' hg'
    · exact hf
  bare htop := by
    rw [top_pushOutermost] at htop
    split at htop
    · rename_i hlast
      rw [(h.bare htop).2] at hlast
      cases hlast
    · cases htop

theorem Leads.push (h : u.Leads p) (f : Frame) : (u.pushOutermost f).2.Leads p := by
  obtain ⟨htop, hlast, g, hg, hposed⟩ := h
  obtain ⟨parent, hfirst⟩ := u.getElem?_pushOutermost f 0
  have hlt := (Array.getElem?_eq_some_iff.1 hg).1
  rw [Array.getElem?_push, if_neg (Nat.ne_of_lt hlt), hg] at hfirst
  refine ⟨?_, by rw [last_pushOutermost]; rfl, _, hfirst, hposed.withParent _⟩
  rw [top_pushOutermost, hlast]
  exact htop

/-- The first frame of all. -/
theorem Stocked.leads_push (h : u.Stocked w) (htop : u.top = none) (hf : f.Posed p) :
    (u.pushOutermost f).2.Leads p := by
  obtain ⟨hframes, hlast⟩ := h.bare htop
  obtain ⟨parent, hfirst⟩ := u.getElem?_pushOutermost f 0
  rw [hframes] at hfirst
  refine ⟨?_, by rw [last_pushOutermost]; rfl, _, hfirst, hf.withParent _⟩
  rw [top_pushOutermost, hlast, hframes]
  rfl

/-! ### All notes become frames -/

theorem Leads.addFrames (registries : Array Registry) (infos : List FrameInfo) (h : u.Leads p) :
    (infos.foldl (addFrame registries) u).Leads p := by
  induction infos generalizing u with
  | nil => exact h
  | cons info infos ih =>
      refine ih ?_
      rw [addFrame_eq]
      exact h.push _

/-- The innermost frame is there as soon as there are no more notes. -/
theorem Arranged.leads (h : u.Arranged w) (hp : u.signal = .pause p) :
    (u.recreate w.registries).Leads p := by
  rcases h.posed p hp with ⟨htop, info, rest, hinfos, hposed⟩ | hleads
  · have hbare : Stocked w { u with infos := [] } :=
      { h.toStocked with infos := List.forall_mem_nil _ }
    rw [Unwind.recreate, hinfos, List.foldl_cons]
    refine Leads.addFrames _ _ ?_
    rw [addFrame_eq]
    refine hbare.leads_push htop ?_
    rw [htop, hp]
    exact hposed.frame
  · exact Leads.addFrames _ _ hleads

section

variable (hbuilt : ∀ id, (w.registry id).Built)
include hbuilt

theorem Stocked.addFrames {infos : List FrameInfo} (hinfos : ∀ info ∈ infos, info.In w)
    (h : u.Stocked w) : (infos.foldl (addFrame w.registries) u).Stocked w := by
  induction infos generalizing u with
  | nil => exact h
  | cons info infos ih =>
      have hframe := (hinfos info List.mem_cons_self).frame hbuilt u.signal u.top.isNone
      refine ih (fun i hi => hinfos i (List.mem_cons_of_mem _ hi)) ?_
      rw [addFrame_eq]
      exact h.push hframe

theorem Stocked.recreate (h : u.Stocked w) : (u.recreate w.registries).Stocked w :=
  Stocked.addFrames hbuilt h.infos { h with infos := List.forall_mem_nil _ }

/-- A frame is added behind everything there is. -/
theorem Arranged.shift (h : u.Arranged w) (hf : f.In w) : (u.shift w.registries f).2.Arranged w where
  toStocked := (h.toStocked.recreate hbuilt).push hf
  posed p hp := by
    rw [Unwind.shift, signal_pushOutermost, signal_recreate] at hp
    exact .inr ((h.leads hp).push f)

theorem Arranged.shiftAll {frames : List Frame} (hframes : ∀ f ∈ frames, f.In w) (h : u.Arranged w) :
    (frames.foldl (fun u f => (u.shift w.registries f).2) u).Arranged w := by
  induction frames generalizing u with
  | nil => exact h
  | cons f frames ih =>
      exact ih (fun g hg => hframes g (List.mem_cons_of_mem _ hg))
        (h.shift hbuilt (hframes f List.mem_cons_self))

end

end Unwind

/-! ## Continuations -/

structure Continuation.In (w : Realm) (k : Continuation) : Prop where
  frames : ∀ f ∈ k.frames, f.In w
  error : ∀ v, k.error = some v → v.In w

/-- What is left of a computation that was paused goes on at a statement of its innermost function. -/
def Continuation.Posed (k : Continuation) : Prop :=
  k.error = none → ∃ frame p, k.currentFrame? = some frame ∧ frame.Posed p

namespace Continuation

variable {k : Continuation}

theorem In.mono (hw : w ≤ w') (h : k.In w) : k.In w' :=
  ⟨fun f hf => (h.frames f hf).mono hw, fun v hv => (h.error v hv).mono hw⟩

theorem In.chain (h : k.In w) : ∀ f ∈ k.chain, f.In w := by
  intro f hf
  obtain ⟨id, -, hid⟩ := List.mem_filterMap.1 hf
  exact h.frames f (Array.mem_of_getElem? hid)

theorem in_ofUnwind {u : Unwind} (hbuilt : ∀ id, (w.registry id).Built) (h : u.Stocked w) :
    (ofUnwind w.registries u).In w :=
  have hstocked := h.recreate hbuilt
  ⟨hstocked.frames, hstocked.thrown⟩

theorem posed_ofUnwind {u : Unwind} (h : u.Arranged w) :
    (ofUnwind w.registries u).Posed := by
  intro herror
  cases hsignal : u.signal with
  | error v =>
      change (u.recreate w.registries).thrown? = none at herror
      rw [Unwind.thrown?, Unwind.signal_recreate, hsignal] at herror
      cases herror
  | pause p =>
      obtain ⟨htop, -, f, hf, hposed⟩ := h.leads hsignal
      refine ⟨f, p, ?_, hposed⟩
      change (u.recreate w.registries).top.bind _ = some f
      rw [htop]
      exact hf

end Continuation

/-! ## Copies -/

namespace Frame

variable {h : Heap} {rs : Array Registry} {v : Value} {c : Cache} {a : Address} {links : List Link}
  {f : Frame}

/-- The end of a step of the copying: the heap is in order and has lost nothing. -/
structure Copied (rs : Array Registry) (h h' : Heap) : Prop where
  sound : h'.Sound rs
  grown : h.realm rs ≤ h'.realm rs

theorem Copied.trans {h₁ h₂ h₃ : Heap} (h : Copied rs h₁ h₂) (h' : Copied rs h₂ h₃) : Copied rs h₁ h₃ :=
  ⟨h'.sound, le_trans h.grown h'.grown⟩

theorem copied_alloc (hh : h.Sound rs) {o : Object} (ho : o.In (h.realm rs))
    (hproto : ∀ p, o.proto = some p → p < h.size) : Copied rs h (h.alloc o).2 :=
  ⟨hh.alloc ho hproto, h.realm_le_alloc rs o⟩

/-- The copy of an array inherits from what the array inherits from. -/
theorem copied_copyArray (hh : h.Sound rs) (hv : v.In (h.realm rs)) :
    Copied rs h (copyArray h v).2 ∧ (copyArray h v).1.In ((copyArray h v).2.realm rs) := by
  have hsame : Copied rs h h := ⟨hh, le_rfl⟩
  unfold copyArray
  split
  · rename_i a
    split
    · rename_i items hkind
      have hitems : (ObjectKind.array items).In (h.realm rs) := hkind ▸ (hh.object a).kind
      refine ⟨copied_alloc hh (.new hitems _) fun p hp => ?_, h.alloc_in rs _⟩
      exact Nat.lt_trans (hh.older a p hp) hv
    · exact ⟨hsame, hv⟩
  · exact ⟨hsame, hv⟩

theorem copied_copyCache (hh : h.Sound rs) (hc : Cache.In (h.realm rs) c) :
    Copied rs h (copyCache h c).2 ∧ Cache.In ((copyCache h c).2.realm rs) (copyCache h c).1 := by
  induction c generalizing h with
  | nil => exact ⟨⟨hh, le_rfl⟩, hc⟩
  | cons e c ih =>
      obtain ⟨i, v⟩ := e
      obtain ⟨hfirst, hv⟩ := copied_copyArray hh (hc _ List.mem_cons_self)
      obtain ⟨hrest, hcache⟩ := ih hfirst.sound
        (Cache.In.mono hfirst.grown fun e he => hc e (List.mem_cons_of_mem _ he))
      exact ⟨hfirst.trans hrest, List.forall_mem_cons.2 ⟨hv.mono hrest.grown, hcache⟩⟩

theorem contains_copyCache (h : Heap) (c : Cache) (i : Nat) :
    (copyCache h c).1.contains i = c.contains i := by
  induction c generalizing h with
  | nil => rfl
  | cons e c ih =>
      obtain ⟨j, v⟩ := e
      have hrest := ih (copyArray h v).2
      rw [Cache.contains] at hrest ⊢
      rw [copyCache, Cache.get?, Cache.contains, Cache.get?]
      split
      · rfl
      · exact hrest

theorem copied_copyRecord (hh : h.Sound rs) (a : Address) :
    Copied rs h (copyRecord h a).2 ∧ (copyRecord h a).1 < ((copyRecord h a).2.realm rs).size := by
  have hcopy : Object.Record (h.realm rs)
      ((h.object a).entries.foldl (fun o e => o.setOwn e.1 e.2) (.new .plain none)) :=
    List.foldlRecOn _ _ .new fun o ho e he => ho.setOwn e.1 ((hh.object a).entries he)
  exact ⟨copied_alloc hh hcopy.toIn hcopy.older, h.alloc_in rs _⟩

/-- Every link keeps its kind. -/
theorem copied_copyLinks (hh : h.Sound rs) (hlinks : Chain.In (h.realm rs) links) :
    Copied rs h (copyLinks h links).2 ∧ Chain.In ((copyLinks h links).2.realm rs) (copyLinks h links).1 ∧
      (copyLinks h links).1.map Link.kind = links.map Link.kind := by
  induction links generalizing h with
  | nil => exact ⟨⟨hh, le_rfl⟩, hlinks, rfl⟩
  | cons link links ih =>
      have hstep : ∃ r : Address × Heap, copyLinks h (link :: links) =
          (⟨link.kind, r.1⟩ :: (copyLinks r.2 links).1, (copyLinks r.2 links).2) ∧
            Copied rs h r.2 ∧ r.1 < (r.2.realm rs).size := by
        have hrecord := hlinks link List.mem_cons_self
        obtain ⟨kind, record⟩ := link
        cases kind with
        | withObject => exact ⟨(record, h), rfl, ⟨hh, le_rfl⟩, hrecord⟩
        | function | handler => exact ⟨copyRecord h record, rfl, copied_copyRecord hh record⟩
      obtain ⟨r, hcopy, hfirst, hrecord⟩ := hstep
      obtain ⟨hrest, hin, hkinds⟩ := ih hfirst.sound
        (Chain.In.mono hfirst.grown fun l hl => hlinks l (List.mem_cons_of_mem _ hl))
      rw [hcopy]
      exact ⟨hfirst.trans hrest, .cons (Nat.lt_of_lt_of_le hrecord hrest.grown.1) hin,
        congrArg (link.kind :: ·) hkinds⟩

theorem copied_copy (hh : h.Sound rs) (hf : f.In (h.realm rs)) :
    Copied rs h (f.copy h).2 ∧ (f.copy h).1.In ((f.copy h).2.realm rs) ∧
      ∀ p, f.Posed p → (f.copy h).1.Posed p := by
  obtain ⟨hcache, hcacheIn⟩ := copied_copyCache hh hf.cache
  obtain ⟨hrecord, hrecordIn⟩ := copied_copyRecord hcache.sound f.record
  have hgrown := le_trans hcache.grown hrecord.grown
  obtain ⟨hlinks, hlinksIn, hkinds⟩ := copied_copyLinks hrecord.sound (hf.pending.mono hgrown)
  have hcopied := (hcache.trans hrecord).trans hlinks
  refine ⟨hcopied, ?_, ?_⟩
  · obtain ⟨a, outer, hscope⟩ := hf.headed
    exact {
      this := hf.this.mono hcopied.grown
      args := hf.args.mono hcopied.grown
      scope := .cons (Nat.lt_of_lt_of_le hrecordIn hlinks.grown.1)
        (Chain.In.mono hcopied.grown fun link hlink => hf.scope link (List.mem_of_mem_drop hlink))
      headed := ⟨_, _, rfl⟩
      pending := hlinksIn
      inner := fun link hlink hkind => by
        have hmem := hkinds ▸ List.mem_map_of_mem (f := Link.kind) hlink
        obtain ⟨old, hold, heq⟩ := List.mem_map.1 hmem
        exact hf.inner old hold (heq.trans hkind)
      cache := hcacheIn.mono (le_trans hrecord.grown hlinks.grown)
      origin := fun o ho => by
        obtain ⟨r, hkept, htree⟩ := hf.origin o ho
        exact ⟨r, hkept.mono hcopied.grown, htree⟩ }
  · rintro p ⟨origin, func, pc, body, way⟩
    have hlength := congrArg List.length hkinds
    rw [List.length_map, List.length_map] at hlength
    exact .mk origin func pc body
      (hlength ▸ way.mono fun k hk => (contains_copyCache h f.cache k).trans hk)

end Frame

namespace Continuation

variable {h : Heap} {rs : Array Registry} {k : Continuation}

open Frame (Copied)

theorem copied_copyFrames {frames : List Frame} (hh : h.Sound rs)
    (hframes : ∀ f ∈ frames, f.In (h.realm rs)) :
    Copied rs h (copyFrames h frames).2 ∧
      (∀ f ∈ (copyFrames h frames).1, f.In ((copyFrames h frames).2.realm rs)) ∧
        ∀ (i : Nat) (f : Frame), frames[i]? = some f →
          ∃ f', (copyFrames h frames).1[i]? = some f' ∧ ∀ p, f.Posed p → f'.Posed p := by
  induction frames generalizing h with
  | nil => exact ⟨⟨hh, le_rfl⟩, List.forall_mem_nil _, nofun⟩
  | cons f frames ih =>
      obtain ⟨hfirst, hf, hposed⟩ := Frame.copied_copy hh (hframes f List.mem_cons_self)
      obtain ⟨hrest, hin, hothers⟩ := ih hfirst.sound fun g hg =>
        (hframes g (List.mem_cons_of_mem _ hg)).mono hfirst.grown
      refine ⟨hfirst.trans hrest, List.forall_mem_cons.2 ⟨hf.mono hrest.grown, hin⟩, fun i g hg => ?_⟩
      cases i with
      | zero =>
          cases hg
          exact ⟨_, rfl, hposed⟩
      | succ i => exact hothers i g hg

/-- A copy has frames of its own that go on where the others do. -/
theorem copied_copy (hh : h.Sound rs) (hk : k.In (h.realm rs)) :
    Copied rs h (k.copy h).2 ∧ (k.copy h).1.In ((k.copy h).2.realm rs) ∧
      (k.Posed → (k.copy h).1.Posed) := by
  obtain ⟨hcopied, hin, hframes⟩ := copied_copyFrames hh fun f hf =>
    hk.frames f (Array.mem_toList_iff.1 hf)
  refine ⟨hcopied, ⟨fun f hf => hin f (List.mem_toArray.1 hf), fun v hv =>
    (hk.error v hv).mono hcopied.grown⟩, fun hposed herror => ?_⟩
  obtain ⟨frame, p, hframe, hposed⟩ := hposed herror
  obtain ⟨id, hid, hframe⟩ := Option.bind_eq_some_iff.1 hframe
  obtain ⟨copy, hcopy, hlater⟩ := hframes id frame (Array.getElem?_toList.trans hframe)
  refine ⟨copy, p, ?_, hlater p hposed⟩
  change k.current.bind (fun id => (copyFrames h k.frames.toList).1.toArray[id]?) = some copy
  rw [hid]
  exact (List.getElem?_toArray ..).trans hcopy

end Continuation

end Resumption
