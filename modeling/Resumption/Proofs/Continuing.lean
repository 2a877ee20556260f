import Resumption.Proofs.Match.Returning

/-!
# Frames that are resumed to the end

A pause that leaves several functions becomes a continuation with a frame of each.  When the continuation
is resumed the frames are taken up one after the other, and those that had no turn when there is another
pause are behind its frames in the next continuation.  So frames that come to a result are a run that comes
to it, however often it has to be resumed.
-/

namespace Resumption

variable {m m' m₀ m₁ : Machine} {registries : Array Registry} {u : Unwind} {r : Row} {fuel : Nat}

/-! ## The continuation of a pause -/

namespace Row

theorem queue_flush (r : Row) : (r.flush registries).queue = [] := by
  have hnotes : ∀ (infos : List FrameInfo) (r : Row),
      (infos.foldl (appendNote registries) r).queue = r.queue := by
    intro infos
    induction infos with
    | nil => exact fun _ => rfl
    | cons info infos ih => exact fun r => ih _
  exact hnotes r.queue { r with queue := [] }

theorem flush_eq_self (h : r.queue = []) : r.flush registries = r := by
  obtain ⟨signal, queue, frames, next⟩ := r
  cases h
  rfl

/-- Notes become frames that wait, behind the frames that there are. -/
theorem frames_foldl (infos : List FrameInfo) (hne : r.frames ≠ []) :
    (infos.foldl (appendNote registries) r).frames.map Prod.snd =
      r.frames.map Prod.snd ++ infos.map (FrameInfo.frame registries r.signal false) := by
  induction infos generalizing r with
  | nil => simp
  | cons info infos ih =>
      have hinner : r.frames.isEmpty = false := by simpa using hne
      rw [List.foldl_cons, ih (by simp [appendNote, append])]
      simp [appendNote, append, hinner, Frame.apart, FrameInfo.frame]

end Row

namespace Unwind

/-- A pause that has left notes, as a row. -/
theorem Noted.holds (h : u.Noted) (registries : Array Registry) :
    ∃ r, u.Holds r ∧ (r.flush registries).frames.map Prod.snd = u.trail registries := by
  obtain ⟨i, infos, rfl⟩ := h
  refine ⟨{ Row.new (.pause i) with queue := infos }, { holds_ofSignal (.pause i) with queue := rfl }, ?_⟩
  cases infos with
  | nil => rfl
  | cons info infos =>
      rw [Row.flush, List.foldl_cons, Row.frames_foldl infos (by simp [Row.appendNote, Row.append])]
      rfl

theorem map_apart_trail (u : Unwind) (registries : Array Registry) :
    (u.trail registries).map Frame.apart = u.trail registries := by
  rw [trail]
  cases u.infos with
  | nil => rfl
  | cons info infos => simp [FrameInfo.frame, Frame.apart, Function.comp_def]

/-- Frames are added behind those of an unwind. -/
theorem Holds.shift (h : u.Holds r) (rest : List Frame) :
    ∃ r', (rest.foldl (fun u f => (u.shift registries f).2) u).Holds r' ∧
      (r'.flush registries).frames.map Prod.snd =
        (r.flush registries).frames.map Prod.snd ++ rest.map Frame.apart := by
  induction rest generalizing u r with
  | nil => exact ⟨r, h, by simp⟩
  | cons frame rest ih =>
      obtain ⟨r', hr', hframes⟩ := ih ((h.recreate registries).push frame).2
      refine ⟨r', hr', hframes.trans ?_⟩
      rw [Row.flush_eq_self (r := (r.flush registries).append frame) r.queue_flush]
      simp [Row.append]

/-- The innermost frame of a continuation is the first one in its list. -/
theorem Holds.currentFrame? (h : u.Holds r) (error : Option Value) :
    Continuation.currentFrame? ⟨u.frames, u.top, error⟩ =
      (Continuation.chain ⟨u.frames, u.top, error⟩).head? := by
  rw [Continuation.chain, h.order, Continuation.currentFrame?, h.top]
  cases hids : r.ids with
  | nil => rfl
  | cons id ids =>
      have hlt := h.linked.lt_size (hids ▸ List.mem_cons_self : id ∈ r.ids)
      simp [Array.getElem?_eq_getElem hlt]

end Unwind

namespace Continuation

/-- The continuation is to take up the frames. -/
structure Lists (k : Continuation) (frames : List Frame) : Prop where
  current : k.currentFrame? = k.chain.head?
  chain : k.chain.map Frame.apart = frames.map Frame.apart

/-- A pause becomes a continuation, with the frames that had no turn behind its own. -/
theorem exists_lists (h : u.Noted) (registries : Array Registry) (rest : List Frame) :
    ∃ k : Continuation, k.Lists (u.trail registries ++ rest) ∧
      Outcome.ofUnwind registries (rest.foldl (fun u f => (u.shift registries f).2) u) = .paused k := by
  obtain ⟨r, hr, hframes⟩ := h.holds registries
  obtain ⟨r', hr', hframes'⟩ : ∃ r', (rest.foldl (fun u f => (u.shift registries f).2) u).Holds r' ∧ _ :=
    hr.shift rest
  have hsignal := u.signal_foldl_shift registries rest
  generalize rest.foldl (fun u f => (u.shift registries f).2) u = u' at hr' hsignal ⊢
  have hflushed := hr'.recreate registries
  refine ⟨ofUnwind registries u', ⟨hflushed.currentFrame? _, ?_⟩, ?_⟩
  · rw [ofUnwind, hflushed.chain, hframes', hframes, List.map_append, u.map_apart_trail]
  · obtain ⟨i, infos, rfl⟩ := h
    rw [Outcome.ofUnwind, Unwind.thrown?, hsignal]
    rfl

theorem resumeFrames_apart (fuel : Nat) (frames : List Frame) (x : Option Value) :
    resumeFrames fuel (frames.map Frame.apart) x = resumeFrames fuel frames x := by
  induction frames generalizing x with
  | nil => rfl
  | cons frame frames ih =>
      rw [List.map_cons, resumeFrames, resumeFrames]
      simp only [ih, List.foldl_map]
      rfl

variable {k : Continuation} {frames : List Frame} {frame : Frame}

theorem Lists.obstacle? (h : k.Lists (frame :: frames)) (m : Machine)
    (hresumable : ∀ f ∈ frame :: frames, f.isResumable = true) : k.obstacle? m = .ok none m := by
  obtain ⟨hcurrent, hchain⟩ := h
  cases hfirst : k.chain with
  | nil => simp [hfirst] at hchain
  | cons first rest =>
      have hall : ∀ f ∈ k.chain, f.isResumable = true := by
        intro f hf
        obtain ⟨f', hf', hsame⟩ := List.mem_map.1 (hchain ▸ List.mem_map_of_mem hf)
        exact (congrArg Frame.isResumable hsame).symm.trans (hresumable f' hf')
      have hnone : k.chain.find? (fun f => !f.isResumable) = none := by
        rw [List.find?_eq_none]
        intro f hf
        simp [hall f hf]
      have hready := hall first (hfirst ▸ List.mem_cons_self)
      rw [Frame.isResumable, Bool.and_eq_true] at hready
      unfold Continuation.obstacle?
      rw [hcurrent, hnone, hfirst]
      simp [Option.isNone_eq_false_iff.2 hready.1, Option.isNone_eq_false_iff.2 hready.2]
      rfl

/-- The frames are taken up on a machine that is set up again, and then it is put back. -/
theorem resume_of_ok {o : Outcome} (hobstacle : k.obstacle? m = .ok none m)
    (hmethods : m.config.debugBuiltins = true → m.debugMethods.isSome = true)
    (h : resumeFrames fuel k.chain none m.awake = .ok o m₁) :
    k.resume fuel m = .ok (.ok o) (m₁.restore m) := by
  have hsupport : Machine.withDebugSupport (resumeFrames fuel k.chain none) m = .ok o (m₁.restore m) := by
    refine (Machine.bind_of_ok (Machine.prepareDebugMethods_idle hmethods)).trans ?_
    change Machine.afterwards _ _ m.awake = _
    rw [Machine.afterwards, h]
    rfl
  refine (Machine.bind_of_ok hobstacle).trans ?_
  exact Machine.bind_of_ok hsupport

end Continuation

/-! ## Frames that come to a result -/

/-- The machine is set up the way its configuration asks for, and it has its array methods. -/
structure Machine.Geared (m : Machine) : Prop where
  debugging : m.debugging = m.config.debuggingEnabled
  debugBuiltins : m.debugBuiltins = m.config.debugBuiltins
  methods : m.config.debugBuiltins = true → m.debugMethods.isSome = true

namespace Machine.Geared

theorem stays (h : m.Geared) (hstays : m.Stays m') : m'.Geared where
  debugging := by rw [hstays.debugging, hstays.config, h.debugging]
  debugBuiltins := by rw [hstays.debugBuiltins, hstays.config, h.debugBuiltins]
  methods hwanted := hstays.methods (h.methods (hstays.config ▸ hwanted))

/-- It is the same when it has been put back and set up again. -/
theorem awake_restore (h : m.Geared) (m₀ : Machine) : (m.restore m₀).awake = m := by
  change { m with debugging := m.config.debuggingEnabled, debugBuiltins := m.config.debugBuiltins } = m
  rw [← h.debugging, ← h.debugBuiltins]

end Machine.Geared

namespace Comes

variable {Q : Value → Machine → Prop} {frames rest : List Frame} {x : Option Value}

theorem resumable (h : Comes fuel Q frames x m) : ∀ f ∈ frames, f.isResumable = true := by
  induction h with
  | done h => exact List.forall_mem_nil _
  | returned resumable apart run h ih => exact List.forall_mem_cons.2 ⟨resumable, ih⟩
  | paused resumable apart run noted h ih =>
      exact List.forall_mem_cons.2 ⟨resumable, fun f hf => ih f (List.mem_append_right _ hf)⟩

theorem ne_nil (h : Comes fuel Q frames none m) : frames ≠ [] := by
  rintro rfl
  cases h

end Comes

/-- However often it has to be resumed, a run comes to a result. -/
def Outcome.Completes (fuel : Nat) (Q : Value → Machine → Prop) (m₀ : Machine) (o : Outcome) (m : Machine) :
    Prop :=
  ∃ n v m₂, Machine.Continued fuel o (m.restore m₀) n (.completed v) (m₂.restore m₀) ∧ Q v m₂

section

variable {Q : Value → Machine → Prop} {frames rest : List Frame} {x : Option Value} {frame : Frame} {v : Value}

theorem Frame.apart_eq (h : frame.parent = none) : frame.apart = frame := by
  rw [apart, ← h]

theorem Continuation.resumeFrames_ok (hparent : frame.parent = none)
    (run : Machine.runFrame fuel (frame.seed x) m = .ok v m₁) :
    resumeFrames fuel (frame :: rest) x m = resumeFrames fuel rest (some v) m₁ := by
  have hcaught : Machine.caught (Machine.runFrame fuel (frame.apart.seed x)) m = .ok (.ok v) m₁ := by
    rw [Frame.apart_eq hparent, Machine.caught, run]
  rw [resumeFrames]
  exact Machine.bind_of_ok hcaught

theorem Continuation.resumeFrames_unwind (hparent : frame.parent = none)
    (run : Machine.runFrame fuel (frame.seed x) m = .error (.unwind u) m₁) :
    resumeFrames fuel (frame :: rest) x m =
      .ok (.ofUnwind m₁.registries (rest.foldl (fun u f => (u.shift m₁.registries f).2) u)) m₁ := by
  have hcaught : Machine.caught (Machine.runFrame fuel (frame.apart.seed x)) m = .ok (.error u) m₁ := by
    rw [Frame.apart_eq hparent, Machine.caught, run]
  rw [resumeFrames]
  exact Machine.bind_of_ok hcaught

/-- What a pause has left is resumed to the end. -/
theorem Comes.paused_completes {k : Continuation} (hcomes : Comes fuel Q frames none m) (hm : m.Geared)
    (hk : k.Lists frames) {o : Outcome} (h : Continuation.resumeFrames fuel frames none m = .ok o m₁)
    (hcompletes : o.Completes fuel Q m₀ m₁) : (Outcome.paused k).Completes fuel Q m₀ m := by
  obtain ⟨n, v, m₂, hcontinued, hQ⟩ := hcompletes
  obtain ⟨frame, frames, rfl⟩ := List.exists_cons_of_ne_nil hcomes.ne_nil
  refine ⟨n + 1, v, m₂, .resumed ?_ hcontinued, hQ⟩
  refine Continuation.resume_of_ok (hk.obstacle? _ hcomes.resumable) hm.methods ?_
  rw [hm.awake_restore, ← Continuation.resumeFrames_apart, hk.chain, Continuation.resumeFrames_apart, h]

/-- Frames that come to a result are resumed to the end. -/
theorem Comes.completes (h : Comes fuel Q frames x m) (hm : m.Geared) (m₀ : Machine) :
    ∃ o m₁, Continuation.resumeFrames fuel frames x m = .ok o m₁ ∧ o.Completes fuel Q m₀ m₁ := by
  induction h with
  | done h => exact ⟨_, _, rfl, 0, _, _, .here _ _, h⟩
  | @returned frame rest x v m m₁ resumable apart run h ih =>
      have hstays := Machine.runFrame_obeyed (P := .standing) fuel (frame.seed x) m
      rw [run] at hstays
      rw [Continuation.resumeFrames_ok apart run]
      exact ih (hm.stays hstays)
  | @paused frame rest x u m m₁ resumable apart run noted h ih =>
      have hstays := Machine.runFrame_obeyed (P := .standing) fuel (frame.seed x) m
      rw [run] at hstays
      have hgeared : m₁.Geared := hm.stays hstays.1
      obtain ⟨o, m₂, hrun, hcompletes⟩ := ih hgeared
      obtain ⟨k, hk, hpaused⟩ := Continuation.exists_lists noted m₁.registries rest
      rw [Continuation.resumeFrames_unwind apart run, hpaused]
      exact ⟨_, _, rfl, h.paused_completes hgeared hk hrun hcompletes⟩

end

/-- A call that is paused, and is resumed as often as it is paused, comes to the result that it has on the
other side. -/
theorem Fulfils.completes {T : Terms} {w : World} {v : Value} {mid : Machine} (h : Fulfils T fuel u w m v mid)
    (hm : m.Geared) (m₀ : Machine) :
    (Outcome.ofUnwind m.registries u).Completes fuel
      (fun v₁ m₁ => v₁ = v ∧ ∃ w₁, w.Reaches w₁ ∧ m₁.Match T w₁ mid ∧ v.Shown w₁) m₀ m := by
  have hcomes := h.comes m (.refl m) (Nat.le_refl _) h.limit []
    (fun v₁ m₁ => v₁ = v ∧ ∃ w₁, w.Reaches w₁ ∧ m₁.Match T w₁ mid ∧ v.Shown w₁)
    fun w₂ m₂ hw₂ hm₂ hv _ => .done ⟨rfl, w₂, hw₂, hm₂, hv⟩
  rw [← h.registries] at hcomes
  obtain ⟨o, m₁, hrun, hcompletes⟩ := hcomes.completes hm m₀
  obtain ⟨k, hk, hpaused⟩ := Continuation.exists_lists h.noted m.registries []
  rw [List.foldl_nil] at hpaused
  rw [hpaused]
  exact hcomes.paused_completes hm hk hrun hcompletes

end Resumption
