import Resumption.Proofs.Resuming
import Resumption.Proofs.Stack.Arena

/-!
# Functions that wait are resumed

A pause leaves one frame of every function that it leaves.  They are taken up from the innermost to the
outermost, each with the result of the one before it.  So a function that was paused, be it by itself or
in a call, has the result in the end that it has in a run without pauses.
-/

namespace Resumption

open Script

variable {T : Terms} {S : Stance} {w w' : World} {t : IndexedTree} {f : Func} {site : Site}
  {act : Activation} {m m' m₁ m₂ mid : Machine} {u : Unwind} {v : Value} {p fuel : Nat}

/-! ## The frames of a pause -/

/-- The frames that the notes become, innermost first. -/
def Unwind.trail (registries : Array Registry) (u : Unwind) : List Frame :=
  match u.infos with
  | [] => []
  | info :: infos =>
    info.frame registries u.signal true :: infos.map (FrameInfo.frame registries u.signal false)

theorem Unwind.trail_store (registries : Array Registry) (u : Unwind) (info : FrameInfo) :
    (u.store info).trail registries =
      u.trail registries ++ [info.frame registries u.signal u.infos.isEmpty] := by
  unfold trail store
  cases u.infos with
  | nil => rfl
  | cons first infos => simp

/-- A pause that has left notes, and nothing else. -/
def Unwind.Noted (u : Unwind) : Prop := ∃ i infos, u = { ofSignal (.pause i) with infos }

theorem Unwind.ofSignal_infos (signal : Signal) : (ofSignal signal).infos = [] := rfl

theorem Unwind.noted_pause (i : Nat) : (ofSignal (.pause i)).Noted := ⟨i, [], rfl⟩

theorem Unwind.Noted.store (h : u.Noted) (info : FrameInfo) : (u.store info).Noted := by
  obtain ⟨i, infos, rfl⟩ := h
  exact ⟨i, infos ++ [info], rfl⟩

theorem Unwind.Noted.isPause (h : u.Noted) : u.isPause = true := by
  obtain ⟨i, infos, rfl⟩ := h
  rfl

/-- The note of a function becomes the frame with which it is taken up. -/
theorem FrameInfo.frame_eq {env : Env} {registries : Array Registry} {signal : Signal} {innermost : Bool}
    (h : (registries.getD env.registry default).tree env.ns env.index = .ok t)
    (hp : innermost = true ∧ signal = .pause p ∨
      innermost = false ∧ act.last = p ∧ act.cache.contains p = false) :
    (frameInfo env act).frame registries signal innermost = env.toSite.frame t act p := by
  unfold FrameInfo.frame frameInfo Site.frame
  dsimp only
  rw [h]
  rcases hp with ⟨rfl, rfl⟩ | ⟨rfl, rfl, hmissing⟩
  · rfl
  · simp [hmissing]

theorem Site.frame_seed (site : Site) (t : IndexedTree) (act : Activation) (p : Nat) (x : Option Value) :
    (site.frame t act p).seed x = site.frame t { act with cache := act.cache.seed p x } p := by
  cases x <;> rfl

/-! ## Frames one after the other -/

/-- The frames are taken up from the first to the last, each with the result of the one before it, and as
often as they are paused.  In the end there is a result. -/
inductive Comes (fuel : Nat) (Q : Value → Machine → Prop) : List Frame → Option Value → Machine → Prop
  | done {v : Value} {m : Machine} (h : Q v m) : Comes fuel Q [] (some v) m
  | returned {frame : Frame} {rest : List Frame} {x : Option Value} {v : Value} {m m₁ : Machine}
      (resumable : frame.isResumable = true) (apart : frame.parent = none)
      (run : Machine.runFrame fuel (frame.seed x) m = .ok v m₁) (h : Comes fuel Q rest (some v) m₁) :
      Comes fuel Q (frame :: rest) x m
  | paused {frame : Frame} {rest : List Frame} {x : Option Value} {u : Unwind} {m m₁ : Machine}
      (resumable : frame.isResumable = true) (apart : frame.parent = none)
      (run : Machine.runFrame fuel (frame.seed x) m = .error (.unwind u) m₁) (noted : u.Noted)
      (h : Comes fuel Q (u.trail m₁.registries ++ rest) none m₁) : Comes fuel Q (frame :: rest) x m

/-- The machine is as it was, but for the calls that are open. -/
def Machine.Resting (m m₁ : Machine) : Prop :=
  ∃ depth waiting depths,
    m₁ = { m with depth, chronicle := { m.chronicle with waiting, depths } }

namespace Machine.Resting

theorem refl (m : Machine) : m.Resting m := ⟨_, _, _, rfl⟩

theorem trans (h : m.Resting m₁) (h' : m₁.Resting m₂) : m.Resting m₂ := by
  obtain ⟨depth, waiting, depths, rfl⟩ := h
  obtain ⟨depth', waiting', depths', rfl⟩ := h'
  exact ⟨depth', waiting', depths', rfl⟩

theorem atDepth (m : Machine) (d : Nat) : m.Resting (m.atDepth d) := ⟨_, m.chronicle.waiting, _, rfl⟩

theorem config (h : m.Resting m₁) : m₁.config = m.config := by
  obtain ⟨depth, waiting, depths, rfl⟩ := h
  rfl

theorem registries (h : m.Resting m₁) : m₁.registries = m.registries := by
  obtain ⟨depth, waiting, depths, rfl⟩ := h
  rfl

/-- Fewer calls are open on the left. -/
theorem «match» (hsolo : T.solo = true) (h : m.Resting m₁) (hm : m.Match T w mid)
    (hdepth : m₁.depth ≤ mid.depth) : m₁.Match T w mid := by
  obtain ⟨depth, waiting, depths, rfl⟩ := h
  refine { hm with depth := ⟨hdepth, fun h => ?_⟩, faults := fun h => ?_ }
  · rw [hsolo] at h
    cases h
  · rw [hsolo] at h
    cases h

end Machine.Resting

/-- When the frames of a pause are taken up, there is the result in the end that there is on the right.
Nothing is said of frames behind them. -/
structure Fulfils (T : Terms) (fuel : Nat) (u : Unwind) (w : World) (m : Machine) (v : Value)
    (mid : Machine) : Prop where
  noted : u.Noted
  registries : m.registries = T.registries
  depth : m.depth ≤ mid.depth
  limit : m.depth < m.config.maxCallDepth
  comes : ∀ m₁, m.Resting m₁ → m₁.depth ≤ m.depth → m₁.depth < m₁.config.maxCallDepth →
    ∀ rest Q, (∀ w₂ m₂, w.Reaches w₂ → m₂.Match T w₂ mid → v.Shown w₂ → m₁.Stays m₂ →
      Comes fuel Q rest (some v) m₂) → Comes fuel Q (u.trail T.registries ++ rest) none m₁

theorem Fulfils.reach (h : Fulfils T fuel u w' m v mid) (hw : w.Reaches w') : Fulfils T fuel u w m v mid :=
  { h with
    comes := fun m₁ hm₁ hdepth hlt rest Q hrest => h.comes m₁ hm₁ hdepth hlt rest Q fun w₂ m₂ hw₂ =>
      hrest w₂ m₂ (hw.trans hw₂) }

theorem Fulfils.resting {m₀ : Machine} (h : Fulfils T fuel u w m₀ v mid) (hm : m₀.Resting m)
    (hdepth : m.depth ≤ m₀.depth) : Fulfils T fuel u w m v mid :=
  ⟨h.noted, hm.registries.trans h.registries, Nat.le_trans hdepth h.depth,
    hm.config ▸ Nat.lt_of_le_of_lt hdepth h.limit, fun m₁ hm₁ hdepth₁ => h.comes m₁ (hm.trans hm₁) (Nat.le_trans hdepth₁ hdepth)⟩

/-- What becomes of the frames of a run when it has ended, with more of them behind. -/
def Settles (T : Terms) (fuel : Nat) (w : World) (v : Value) (mid : Machine) :
    EStateM.Result Stop Machine Value → Prop
  | .ok v₁ m => v₁ = v ∧ ∃ w₂, w.Reaches w₂ ∧ m.Match T w₂ mid ∧ v.Shown w₂
  | .error (.unwind u) m => u.infos ≠ [] ∧ Fulfils T fuel u w m v mid
  | .error .exhausted _ => False

/-- A frame is taken up, and what it comes to is settled. -/
theorem Comes.of_settles {frame : Frame} {rest : List Frame} {x : Option Value} {Q : Value → Machine → Prop}
    (resumable : frame.isResumable = true) (hapart : frame.parent = none)
    (hlt : m₁.depth < m₁.config.maxCallDepth)
    (h : Settles T fuel w v mid (Machine.runFrame fuel (frame.seed x) m₁))
    (hrest : ∀ w₂ m₂, w.Reaches w₂ → m₂.Match T w₂ mid → v.Shown w₂ → m₁.Stays m₂ →
      Comes fuel Q rest (some v) m₂) : Comes fuel Q (frame :: rest) x m₁ := by
  have hstays := Machine.runFrame_obeyed (P := .standing) fuel (frame.seed x) m₁
  match hrun : Machine.runFrame fuel (frame.seed x) m₁, h, hstays with
  | .ok v₁ m₂, h, hstays =>
      obtain ⟨rfl, w₂, hw₂, hm₂, hv⟩ := h
      exact .returned resumable hapart hrun (hrest w₂ m₂ hw₂ hm₂ hv hstays)
  | .error (.unwind u) m₂, h, hstays =>
      obtain ⟨-, hreturns⟩ := h
      have hstays : m₁.Stays m₂ := hstays.1
      refine .paused resumable hapart hrun hreturns.noted ?_
      rw [hreturns.registries]
      refine hreturns.comes m₂ (.refl m₂) (Nat.le_refl _) ?_ rest Q fun w₃ m₃ hw₃ hm₃ hv hstays₃ =>
        hrest w₃ m₃ hw₃ hm₃ hv (hstays.trans hstays₃)
      rw [hstays.depth, hstays.config]
      exact hlt
  | .error .exhausted _, h, _ => exact h.elim

/-! ## A function that pursues another one -/

/-- The activation has been paused at a position that its function gets back to. -/
theorem Site.resumed_seeded (site : Site) {inner outer : Chain} {a : Address}
    (hchain : act.chain = inner ++ ⟨.function, a⟩ :: outer)
    (hinner : ∀ link ∈ inner, link.kind ≠ .function) (p : Nat) (x : Option Value) :
    act.Resumed (⟨.function, a⟩ :: outer) p x
      (site.returning { act with cache := act.cache.seed p x } p) where
  chain := by rw [returning, hchain, Chain.split_append hinner]
  pending := by rw [returning, hchain, Chain.split_append hinner, List.reverse_reverse]
  pc := rfl
  cache := rfl

/-- A function that has come to an end without faults. -/
theorem Excused.faults {env : Env} {r : ActResult Flow} (h : Excused T S r)
    (hended : Machine.closed (env.leave r) = .ok v mid) : 0 < mid.faults := by
  obtain ⟨-, -, hfaults⟩ := h
  match r, hended, hfaults with
  | .ok .normal _, hended, hfaults => cases hended; exact hfaults
  | .ok (.ret v) _, hended, hfaults => cases hended; exact hfaults
  | .ok .brk _, hended, hfaults => cases hended; exact hfaults
  | .ok .cont _, hended, hfaults => cases hended; exact hfaults
  | .error (.unwind u) (act, m), hended, _ =>
      rw [Env.leave_unwind] at hended
      cases hended
  | .error .exhausted _, hended, _ => cases hended

/-- Whoever waits in an activation can be taken up when what they wait for is there: a frame of the
activation is run. -/
theorem Comes.of_resumed {a : Address} {inner outer : Chain} {x : Option Value} {rest : List Frame} {Q : Value → Machine → Prop}
    (hsolo : T.solo = true) (hsite : site.Stands T t f)
    (hchain : act.chain = inner ++ ⟨.function, a⟩ :: outer)
    (hinner : ∀ link ∈ inner, link.kind ≠ .function) (hm : m.Match T w m')
    (hlt : m.depth < m.config.maxCallDepth) (hdepth : m.depth + 1 ≤ m'.depth)
    (hsettles : ∀ act₁ m₁, m₁.Match T w m' → m₁.depth = m.depth + 1 → m₁.config = m.config →
      act.Resumed (⟨.function, a⟩ :: outer) p x act₁ → Settles T fuel w v mid
        (Machine.closed ((site.again fuel).leave
          (Stepper.execList (site.again fuel) t (site.index + 1) f.body (act₁, m₁)))))
    (hrest : ∀ w₂ m₂, w.Reaches w₂ → m₂.Match T w₂ mid → v.Shown w₂ → m.Stays m₂ →
      Comes fuel Q rest (some v) m₂) : Comes fuel Q (site.frame t act p :: rest) x m := by
  have hfunc : (site.frame t act p).func? = some f := hsite.func
  refine .of_settles (by rw [Frame.isResumable, hfunc]; rfl) rfl hlt ?_ hrest
  rw [Site.frame_seed, Machine.runFrame_eq hsite hlt]
  exact hsettles _ _ ((Machine.Resting.atDepth m _).match hsolo hm hdepth) rfl rfl
    (site.resumed_seeded hchain hinner p x)

open Machine in
/-- A function pursues another one that ends without faults: it comes to the same result, or it is paused
and comes to it when it is taken up. -/
theorem Pursues.settles {a : Address} {outer : Chain} {lo hi : Nat} {env env' : Env} {r r' : ActResult Flow}
    {s : Activation × Machine} (hsolo : T.solo = true) (hspared : T.spared = none)
    (hsite : site.Stands T t f)
    (h : Pursues T (Fulfils T fuel) S (⟨.function, a⟩ :: outer) lo hi
      (Stepper.execList (site.again fuel) t (site.index + 1) f.body) Flowing r' w r)
    (henv : env.toSite = site) (hfirst : env.Match T w env')
    (hagain : (site.again fuel).Match T w env') (hended : closed (env'.leave r') = .ok v mid)
    (hfaults : mid.faults = 0) (hopen : 0 < s.2.depth) (hdepth : s.2.depth ≤ mid.depth + 1)
    (hlimit : s.2.depth ≤ s.2.config.maxCallDepth)
    (hobeys : Policy.standing.activation.Ends s r) : Settles T fuel w v mid (closed (env.leave r)) := by
  induction h generalizing env s with
  | @ends w r h =>
      have hends := closed_ends (hfirst.leave_ends h)
      rw [hended] at hends
      revert hends
      generalize closed (env.leave r) = r
      rintro (⟨w₁, hw₁, hm, rfl, hv⟩ | _ | _ | _ | hstrays)
      · exact ⟨rfl, w₁, hw₁.reaches, hm, hv⟩
      · exact absurd hstrays (T.not_strays hspared _)
  | excused h => exact absurd hfaults (Nat.ne_of_gt (h.faults hended))
  | @paused w w₁ u act m p x mid₁ hw h rest ih =>
      obtain ⟨inner, hchain, hinner⟩ := h.scopes
      have hrecords : env.records = true := henv ▸ hsite.records
      rw [Env.leave_unwind, h.awaits.isPause, Env.note, if_pos hrecords]
      have hstays : s.2.Stays m := hobeys.1
      have hsame : m.depth = s.2.depth := hstays.depth
      have hat : m.Resting (m.atDepth (m.depth - 1)) := .atDepth m _
      have hleft : m.depth - 1 < m.config.maxCallDepth := by
        rw [hstays.config, hsame]
        omega
      have hregistered := hsite.registered
      rw [← henv] at hregistered
      -- The machine is as it was, and so the frame can be taken up.
      have htaken : ∀ w₂ m₂, w₁.Reaches w₂ → m₂.Match T w₂ mid₁ → (∀ y, x = some y → y.Shown w₂) →
          m₂.depth < m₂.config.maxCallDepth → m₂.depth + 1 ≤ m.depth → m.depth ≤ mid₁.depth →
          ∀ rest' Q, (∀ w₃ m₃, w₂.Reaches w₃ → m₃.Match T w₃ mid → v.Shown w₃ → m₂.Stays m₃ →
            Comes fuel Q rest' (some v) m₃) → Comes fuel Q (site.frame t act p :: rest') x m₂ := by
        intro w₂ m₂ hw₂ hm₂ hx hlt hless hmore rest' Q hrest
        have hreaches := hw.reaches.trans hw₂
        refine Comes.of_resumed hsolo hsite hchain hinner hm₂ hlt (by omega)
          (fun act₁ m₃ hm₃ hdepth₃ hconfig₃ hresumed => ?_) hrest
        refine ih w₂ act₁ m₃ hw₂ hm₃ hx hresumed (show (site.again fuel).toSite = site from rfl)
          (hagain.reach hreaches) (hagain.reach hreaches) (by rw [hdepth₃]; omega)
          (show m₃.depth ≤ _ by omega) (by rw [hdepth₃, hconfig₃]; exact hlt) (Stepper.execList_obeyed (call_obeys fuel) _ _ (act₁, m₃))
      refine ⟨by simp [Unwind.store], ?_⟩
      cases x with
      | none =>
          have hmatch : m.Match T w₁.paused mid₁ := h.awaited
          have hu : u = .ofSignal (.pause p) := h.awaits
          subst hu
          refine ⟨(Unwind.noted_pause p).store _, hmatch.registries, ?_, hleft, ?_⟩
          · change m.depth - 1 ≤ _
            omega
          · intro m₁ hm₁ hdepth₁ hlt rest' Q hrest
            change m₁.depth ≤ m.depth - 1 at hdepth₁
            have hless : m₁.depth + 1 ≤ m.depth := by omega
            have hmore := hmatch.depth.1
            have hframe : (frameInfo env act).frame T.registries
                (Unwind.ofSignal (.pause p)).signal true = site.frame t act p :=
              henv ▸ FrameInfo.frame_eq hregistered (.inl ⟨rfl, rfl⟩)
            rw [Unwind.trail_store, Unwind.ofSignal_infos, List.isEmpty_nil, hframe]
            refine htaken w₁.paused m₁ w₁.reaches_paused
              ((hat.trans hm₁).match hsolo hmatch (by omega)) (fun _ h => by cases h) hlt hless hmore rest' Q ?_
            exact fun w₃ m₃ hw₃ => hrest w₃ m₃ (hw.reaches.trans (w₁.reaches_paused.trans hw₃))
      | some y =>
          have hreturns : Fulfils T fuel u w₁ m y mid₁ := h.awaited
          obtain ⟨-, hnotes, hlast, hmissing⟩ := h.awaits
          refine ⟨hreturns.noted.store _, hreturns.registries, ?_, hleft, ?_⟩
          · change m.depth - 1 ≤ _
            omega
          · intro m₁ hm₁ hdepth₁ hlt rest' Q hrest
            change m₁.depth ≤ m.depth - 1 at hdepth₁
            have hless : m₁.depth + 1 ≤ m.depth := by omega
            rw [Unwind.trail_store, FrameInfo.frame_eq hregistered
              (.inr ⟨by simpa using hnotes, hlast, hmissing⟩), henv, List.append_assoc]
            refine hreturns.comes m₁ (hat.trans hm₁) (by omega) hlt _ Q fun w₂ m₂ hw₂ hm₂ hy hstays₂ => ?_
            have hdepth₂ := hstays₂.depth
            refine htaken w₂ m₂ hw₂ hm₂ (fun _ heq => by cases heq; exact hy) ?_ (by omega)
              hreturns.depth rest' Q fun w₃ m₃ hw₃ hm₃ hv hstays₃ =>
                hrest w₃ m₃ (hw.reaches.trans (hw₂.trans hw₃)) hm₃ hv (hstays₂.trans hstays₃)
            rw [hdepth₂, hstays₂.config]
            exact hlt

end Resumption
