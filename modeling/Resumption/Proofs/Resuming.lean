import Resumption.Proofs.Conduct.Standing
import Resumption.Proofs.Engines

/-!
# A function alone is resumed

When a function is paused that nobody waits for, one frame is left of it.  Resuming it walks the function's
body back to the position of the pause, on a machine that is as it was left.  So a run that pursues
another one, and is resumed as often as it is paused, catches up with it in the end.
-/

namespace Resumption

open Script

variable {T : Terms} {S : Stance} {w w' : World} {t : IndexedTree} {f : Func} {site : Site}
  {act : Activation} {m m' m₀ : Machine} {p fuel : Nat}

/-! ## One frame -/

/-- The scopes inside of a function are split off. -/
theorem Chain.split_append {inner outer : Chain} {a : Address}
    (hinner : ∀ link ∈ inner, link.kind ≠ .function) :
    Chain.split (inner ++ ⟨.function, a⟩ :: outer) = (⟨.function, a⟩ :: outer, inner.reverse) := by
  induction inner with
  | nil => cases outer <;> rfl
  | cons link inner ih =>
      have hkind : (link.kind == .function) = false := by
        have hne := hinner link List.mem_cons_self
        cases hkind : link.kind with
        | function => exact absurd hkind hne
        | handler => rfl
        | withObject => rfl
      have hrest := ih fun l hl => hinner l (List.mem_cons_of_mem _ hl)
      obtain ⟨next, more, hmore⟩ : ∃ next more, inner ++ ⟨.function, a⟩ :: outer = next :: more := by
        cases inner <;> exact ⟨_, _, rfl⟩
      rw [List.cons_append, hmore, split, hkind, if_neg Bool.false_ne_true, ← hmore, hrest,
        List.reverse_cons]
      exact fun h => by cases h

/-- The function of an activation, found in its tree and keeping books. -/
structure Site.Stands (T : Terms) (t : IndexedTree) (f : Func) (site : Site) : Prop where
  ns : site.ns = t.ns
  func : t.func? site.index = some f
  registered : (T.registries.getD site.registry default).tree site.ns site.index = .ok t
  records : site.records = true

/-- The frame that is left of a function that was paused at a position. -/
def Site.frame (site : Site) (t : IndexedTree) (act : Activation) (p : Nat) : Frame where
  scope := (Chain.split act.chain).1
  pending := (Chain.split act.chain).2
  cache := act.cache
  pc := some p
  this := site.this
  args := site.args
  parent := none
  origin := some ⟨t, site.index⟩
  registry := site.registry

/-- The function in an activation that is taken up again. -/
def Site.again (site : Site) (fuel : Nat) : Env :=
  { site with invoke := Machine.call fuel, fuel }

/-- The activation with which a function is taken up. -/
def Site.returning (site : Site) (act : Activation) (p : Nat) : Activation where
  site := site
  chain := (Chain.split act.chain).1
  cache := act.cache
  last := p
  arguments := none
  pending := (Chain.split act.chain).2
  pc := some p

theorem Site.resumed_returning (site : Site) {inner outer : Chain} {a : Address}
    (hchain : act.chain = inner ++ ⟨.function, a⟩ :: outer)
    (hinner : ∀ link ∈ inner, link.kind ≠ .function) (p : Nat) :
    act.Resumed (⟨.function, a⟩ :: outer) p none (site.returning act p) where
  chain := by rw [returning, hchain, Chain.split_append hinner]
  pending := by rw [returning, hchain, Chain.split_append hinner, List.reverse_reverse]
  pc := rfl
  cache := rfl

/-- The continuation that consists of one frame. -/
def Continuation.single (frame : Frame) : Continuation := ⟨#[frame], some 0, none⟩

/-- The position at which a continuation was paused. -/
def Continuation.position? (k : Continuation) : Option Nat :=
  k.currentFrame?.bind (fun frame => frame.pc)

theorem Continuation.chain_single {frame : Frame} (h : frame.parent = none) :
    (single frame).chain = [frame] := by
  have horder : (single frame).order = [0] := by
    simp [order, single, followParents, h]
  rw [chain, horder]
  rfl

/-- A pause that has left one function. -/
theorem Outcome.ofUnwind_pause {registries : Array Registry} {env : Env}
    (h : (registries.getD env.registry default).tree env.ns env.index = .ok t) :
    Outcome.ofUnwind registries ((Unwind.ofSignal (.pause p)).store (frameInfo env act)) =
      .paused (.single (env.toSite.frame t act p)) := by
  have hframe : Unwind.addFrame registries (Unwind.ofSignal (.pause p)) (frameInfo env act) =
      (Unwind.pushOutermost (Unwind.ofSignal (.pause p)) (env.toSite.frame t act p)).2 := by
    unfold Unwind.addFrame frameInfo
    dsimp only
    rw [h]
    rfl
  have hrecreate : Unwind.recreate registries ((Unwind.ofSignal (.pause p)).store (frameInfo env act)) =
      (Unwind.pushOutermost (Unwind.ofSignal (.pause p)) (env.toSite.frame t act p)).2 := hframe
  rw [Outcome.ofUnwind, Continuation.ofUnwind, hrecreate]
  rfl

/-- Frames behind do not matter for where a frame goes on. -/
theorem Unwind.pc_pushOutermost {u : Unwind} {id : Nat} (frame : Frame) (hlast : u.last ≠ none)
    (h : u.frames[id]?.bind (fun frame => frame.pc) = some p) :
    (u.pushOutermost frame).2.top = u.top ∧ (u.pushOutermost frame).2.last ≠ none ∧
      (u.pushOutermost frame).2.frames[id]?.bind (fun frame => frame.pc) = some p := by
  obtain ⟨last, hlast⟩ := Option.ne_none_iff_exists'.1 hlast
  obtain ⟨old, hold, hpc⟩ := Option.bind_eq_some_iff.1 h
  have hlt : id < u.frames.size := (Array.getElem?_eq_some_iff.1 hold).1
  have hpush : (u.frames.push { frame with parent := none })[id]? = some old := by
    rw [Array.getElem?_push_lt hlt, ← hold, Array.getElem?_eq_getElem hlt]
  rw [pushOutermost, hlast]
  refine ⟨rfl, nofun, ?_⟩
  dsimp only
  rw [Array.getElem?_modify, hpush]
  split <;> exact hpc

/-- However many functions a pause has left, the innermost frame stands where it was raised. -/
theorem Continuation.position?_ofUnwind {registries : Array Registry} {infos : List FrameInfo}
    (hne : infos ≠ []) :
    (ofUnwind registries { Unwind.ofSignal (.pause p) with infos }).position? = some p := by
  have hgo : ∀ (infos : List FrameInfo) (u : Unwind) (id : Nat), u.top = some id → u.last ≠ none →
      u.frames[id]?.bind (fun frame => frame.pc) = some p →
      let v := infos.foldl (Unwind.addFrame registries) u
      v.top = some id ∧ v.frames[id]?.bind (fun frame => frame.pc) = some p := by
    intro infos
    induction infos with
    | nil => exact fun u id htop _ hpc => ⟨htop, hpc⟩
    | cons info infos ih =>
        intro u id htop hlast hpc
        obtain ⟨htop', hlast', hpc'⟩ := Unwind.pc_pushOutermost _ hlast hpc
        exact ih _ id (htop'.trans htop) hlast' hpc'
  cases infos with
  | nil => exact absurd rfl hne
  | cons info infos =>
      obtain ⟨htop, hpc⟩ := hgo infos (Unwind.addFrame registries (Unwind.ofSignal (.pause p)) info) 0
        rfl nofun rfl
      have hframes : ofUnwind registries { Unwind.ofSignal (.pause p) with infos := info :: infos } =
          let v := infos.foldl (Unwind.addFrame registries)
            (Unwind.addFrame registries (Unwind.ofSignal (.pause p)) info)
          ⟨v.frames, v.top, v.thrown?⟩ := rfl
      rw [hframes, position?, currentFrame?]
      dsimp only
      rw [htop]
      exact hpc

/-! ## The machine in the meantime -/

namespace Machine

/-- The machine is set up the way its configuration asks for. -/
def awake (m : Machine) : Machine :=
  { m with debugging := m.config.debuggingEnabled, debugBuiltins := m.config.debugBuiltins }

/-- The call is closed and the run is over; then the machine is set up again, and a call is opened. -/
def reopened (m m₀ : Machine) : Machine :=
  let m := ((m.atDepth (m.depth - 1)).restore m₀).awake
  m.atDepth (m.depth + 1)

/-- All that is left of having been away is an entry in the chronicle. -/
theorem Underway.reopened_eq (h : m.Underway) (m₀ : Machine) : m.reopened m₀ = { m with
    chronicle := { m.chronicle with depths := m.depth :: (m.depth - 1) :: m.chronicle.depths } } := by
  have hdepth : m.depth - 1 + 1 = m.depth := Nat.sub_add_cancel h.open_pos
  obtain ⟨heap, config, debugging, debugBuiltins, methods, registries, active, depth, output, hook,
    chronicle⟩ := m
  simp only [reopened, atDepth, restore, awake] at hdepth ⊢
  rw [hdepth]
  congr 1
  · exact h.debugging.symm
  · exact h.debugBuiltins.symm

theorem Underway.reopened (h : m.Underway) (m₀ : Machine) : (m.reopened m₀).Underway := by
  rw [h.reopened_eq]
  exact { h with }

theorem Match.reopened (hm : m.Match T w m') (h : m.Underway) (m₀ : Machine) :
    (m.reopened m₀).Match T w m' := by
  rw [h.reopened_eq]
  exact { hm with }

theorem runFrame_eq (hsite : site.Stands T t f) (hlt : m.depth < m.config.maxCallDepth) :
    runFrame fuel (site.frame t act p) m =
      closed ((site.again fuel).leave
        (Stepper.execList (site.again fuel) t (site.index + 1) f.body
          (site.returning act p, m.atDepth (m.depth + 1)))) := by
  obtain ⟨hns, hfunc, -, hrecords⟩ := hsite
  obtain ⟨this, args, ns, index, registry, records⟩ := site
  cases hns
  cases hrecords
  have horigin : NodeHandle.func? ⟨t, index⟩ = some f := hfunc
  let site : Site := ⟨this, args, t.ns, index, registry, true⟩
  have hrun : runFrame fuel (site.frame t act p) = (enter >>= fun _ =>
      closing (runActivation (site.again fuel) (site.returning act p)
        (Stepper.execList (site.again fuel) t (index + 1) f.body))) := by
    unfold runFrame Site.frame
    dsimp only
    rw [horigin]
    rfl
  rw [hrun, enter_of_lt hlt, closing_eq, runActivation_eq_leave]

theorem conclude_ok {ε : Type} {r : EStateM.Result Stop Machine Value} {o : Outcome} :
    conclude m₀ (.ok : Outcome → Except ε Outcome) r = .ok (.ok o) m ↔ conclude m₀ id r = .ok o m := by
  rcases r with ⟨v, m₁⟩ | ⟨u | _, m₁⟩
  · simp [conclude]
  · simp [conclude]
  · simp [conclude]

end Machine

/-- Array methods are made once. -/
theorem Machine.prepareDebugMethods_idle
    (hmethods : m.config.debugBuiltins = true → m.debugMethods.isSome = true) :
    prepareDebugMethods m = .ok () m := by
  have hidle : (m.config.debugBuiltins && m.debugMethods.isNone) = false := by
    cases hwanted : m.config.debugBuiltins with
    | false => rfl
    | true => simpa [Option.isNone_eq_false_iff] using hmethods hwanted
  change (if (m.config.debugBuiltins && m.debugMethods.isNone) = true then _ else _ : MachineM Unit) m = _
  rw [hidle]
  rfl

/-- A continuation of one frame is resumed: the frame is taken up. -/
theorem Continuation.resume_single {frame : Frame} (hparent : frame.parent = none)
    (hfunc : frame.func? = some f) (hpc : frame.pc = some p)
    (hmethods : m.config.debugBuiltins = true → m.debugMethods.isSome = true) :
    (single frame).resume fuel m = Machine.conclude m .ok (Machine.runFrame fuel frame m.awake) := by
  have hobstacle : (single frame).obstacle? m = .ok none m := by
    have hcurrent : (single frame).currentFrame? = some frame := rfl
    have hresumable : frame.isResumable = true := by rw [Frame.isResumable, hfunc, hpc]; rfl
    unfold obstacle?
    rw [hcurrent, chain_single hparent]
    simp only [hfunc, hpc, List.find?, hresumable]
    rfl
  have hframes : resumeFrames fuel [frame] none = Machine.settle (Machine.runFrame fuel frame) := by
    have hseed : ({ frame with parent := none } : Frame).seed none = frame := by
      rw [← hparent]
      rfl
    rw [resumeFrames, hseed, Machine.settle]
    rfl
  have hsupport : Machine.withDebugSupport (resumeFrames fuel [frame] none) m =
      Machine.conclude m id (Machine.runFrame fuel frame m.awake) := by
    rw [hframes, ← Machine.settle_eq]
    exact Machine.bind_of_ok (Machine.prepareDebugMethods_idle hmethods)
  refine (Machine.bind_of_ok hobstacle).trans ?_
  rw [chain_single hparent]
  change EStateM.bind (Machine.withDebugSupport _) (fun o => pure (Except.ok o)) m = _
  rw [EStateM.bind, hsupport]
  rcases Machine.runFrame fuel frame m.awake with ⟨v, m₁⟩ | ⟨u | _, m₁⟩ <;> rfl

/-! ## Runs that are resumed -/

/-- A run has come to the end that a call comes to, on a machine like the one that the call leaves. -/
inductive Outcome.Meets : Outcome → Machine → EStateM.Result Stop Machine Value → Machine → Prop
  | completed (v : Value) {m m' : Machine} (h : m.Alike m') : Meets (.completed v) m (.ok v m') m'
  | failed {v : Value} {u : Unwind} (k : Continuation) {m m' : Machine} (hu : u.thrown? = some v)
      (h : m.Alike m') : Meets (.failed v k) m (.error (.unwind u) m') m'

/-- Two runs that have come to the same end. -/
theorem Outcome.Meets.agrees {o₁ o₂ : Outcome} {m₁ m₂ m₁' m₂' : Machine}
    {r' : EStateM.Result Stop Machine Value} (h₁ : o₁.Meets m₁ r' m₁') (h₂ : o₂.Meets m₂ r' m₂') :
    o₁.Agrees o₂ ∧ m₁.Alike m₂ ∧ m₁' = m₂' := by
  cases h₁ with
  | completed v h₁ =>
      cases h₂ with
      | completed _ h₂ => exact ⟨.completed v, h₁.trans h₂.symm, rfl⟩
  | failed k hu₁ h₁ =>
      cases h₂ with
      | failed k' hu₂ h₂ =>
          rw [hu₁] at hu₂
          cases hu₂
          exact ⟨.failed _ k k', h₁.trans h₂.symm, rfl⟩

namespace Machine

/-- The run has come to an outcome, and when it has been resumed so many times, to another one. -/
inductive Continued (fuel : Nat) : Outcome → Machine → Nat → Outcome → Machine → Prop
  | here (o : Outcome) (m : Machine) : Continued fuel o m 0 o m
  | resumed {k : Continuation} {m m₁ m₂ : Machine} {o o₂ : Outcome} {n : Nat}
      (once : k.resume fuel m = .ok (.ok o) m₁) (rest : Continued fuel o m₁ n o₂ m₂) :
      Continued fuel (.paused k) m (n + 1) o₂ m₂

/-- A new machine without instrumented array methods, for programs that call none. -/
def unequipped : Machine :=
  new { Config.default with debugBuiltins := false }

/-- The program has been accepted, and what there is then passes a check. -/
def arrives {α : Type} (check : α → Machine → Bool) : EStateM.Result Stop Machine (Code.Lowered α) → Bool
  | .ok (.ok a) m => check a m
  | _ => false

theorem exists_of_arrives {α : Type} {check : α → Machine → Bool}
    {r : EStateM.Result Stop Machine (Code.Lowered α)} (h : arrives check r = true) :
    ∃ a m, r = .ok (.ok a) m ∧ check a m = true := by
  unfold arrives at h
  split at h
  · exact ⟨_, _, rfl, h⟩
  · cases h

/-- A run is resumed so many times, and what there is then passes a check. -/
def resumes (fuel : Nat) (check : Outcome → Machine → Bool) : Nat → Outcome → Machine → Bool
  | 0, o, m => check o m
  | n + 1, .paused k, m =>
    match k.resume fuel m with
    | .ok (.ok o) m => resumes fuel check n o m
    | _ => false
  | _ + 1, _, _ => false

theorem exists_of_resumes {check : Outcome → Machine → Bool} {n : Nat} {o : Outcome} {m : Machine}
    (h : resumes fuel check n o m = true) :
    ∃ o' m', Continued fuel o m n o' m' ∧ check o' m' = true := by
  induction n generalizing o m with
  | zero => exact ⟨o, m, .here o m, h⟩
  | succ n ih =>
      cases o with
      | paused k =>
          rw [resumes] at h
          split at h
          · rename_i hresume
            obtain ⟨o', m', hcontinued, hcheck⟩ := ih h
            exact ⟨o', m', .resumed hresume hcontinued, hcheck⟩
          · cases h
      | completed v => cases h
      | failed error k => cases h

/-- The run is over, and this is the text that it returns. -/
def comesTo (s : String) : Outcome → Bool
  | .completed (.str s') => s' == s
  | _ => false

theorem eq_of_comesTo {s : String} {o : Outcome} (h : comesTo s o = true) : o = .completed (.str s) := by
  unfold comesTo at h
  split at h
  · rw [eq_of_beq h]
  · cases h

/-- The run comes to the end of a call on the other side when it has been resumed often enough, unless it
is halted on the way where nobody is expected to halt. -/
inductive CatchesUp (T : Terms) (fuel : Nat) (w : World) (o : Outcome) (m : Machine)
    (r' : EStateM.Result Stop Machine Value) : Prop
  | meets {n : Nat} {o₂ : Outcome} {m₂ m' : Machine} (run : Continued fuel o m n o₂ m₂)
      (h : o₂.Meets m₂ r' m')
      (passed : T.mode = .recording → T.spared = none → m'.chronicle.passed = w.lag + n)
  | strays {n : Nat} {k : Continuation} {m₂ : Machine} {sparing : Sparing} {i : Nat}
      (run : Continued fuel o m n (.paused k) m₂) (position : k.position? = some i)
      (spared : T.spared = some sparing) (h : sparing.Breaks i)

theorem CatchesUp.of_le {w₁ : World} (hw : w ≤ w₁) {o : Outcome} {r' : EStateM.Result Stop Machine Value}
    (h : CatchesUp T fuel w₁ o m r') : CatchesUp T fuel w o m r' := by
  cases h with
  | meets run h passed => exact .meets run h (hw.lag ▸ passed)
  | strays run position spared h => exact .strays run position spared h

theorem CatchesUp.resumed {w₁ : World} {k : Continuation} {m₁ : Machine} {o : Outcome}
    {r' : EStateM.Result Stop Machine Value} (hlag : w₁.lag = w.lag)
    (once : k.resume fuel m = .ok (.ok o) m₁) (h : CatchesUp T fuel w₁.paused o m₁ r') :
    CatchesUp T fuel w (.paused k) m r' := by
  cases h with
  | meets run h passed =>
      refine .meets (.resumed once run) h fun hmode hspared => ?_
      rw [passed hmode hspared, ← hlag]
      exact Nat.add_right_comm w₁.lag 1 _
  | strays run position spared h => exact .strays (.resumed once run) position spared h

/-- Calls that end alike: what becomes of the first of them meets the other. -/
theorem meets_of_ends {r r' : EStateM.Result Stop Machine Value} (htogether : T.pauses ≠ .together)
    (h : Ends T (tie T) w (Same fun w v => v.Shown w) r r')
    (hends : ∀ m', r' ≠ .error .exhausted m') (m₀ : Machine) :
    (∃ o m m', conclude m₀ id r = .ok o m ∧ o.Meets m r' m' ∧
      (T.mode = .recording → T.spared = none →
        m'.chronicle.passed = m.chronicle.passed + w.lag) ∧
      (T.pauses ≠ .nowhere → m.chronicle.passed = 0)) ∨
    ∃ u m, T.Strays u ∧ r = .error (.unwind u) m := by
  cases h with
  | @ok v m v' m' h =>
      obtain ⟨w₁, hw₁, hm, rfl, -⟩ := h
      exact .inl ⟨_, _, _, rfl, .completed _ ⟨hm.heap.alike, hm.output⟩,
        fun hmode hspared => by rw [← hw₁.lag]; exact hm.passed hmode hspared, hm.unpassed⟩
  | @thrown u u' m m' v hu h =>
      obtain ⟨w₁, hw₁, hm, -⟩ := h
      cases hu with
      | paused hpauses _ => exact absurd hpauses htogether
      | thrown hu hu' _ =>
          have hfailed : Outcome.ofUnwind m.registries u = .failed v (.ofUnwind m.registries u) := by
            rw [Outcome.ofUnwind, hu]
          exact .inl ⟨_, _, _, congrArg (EStateM.Result.ok · _) hfailed,
            .failed _ hu' ⟨hm.heap.alike, hm.output⟩,
            fun hmode hspared => by rw [← hw₁.lag]; exact hm.passed hmode hspared, hm.unpassed⟩
  | exhausted => exact absurd rfl (hends _)
  | loose h => exact absurd rfl (hends _)
  | strayed h => exact .inr ⟨_, _, h, rfl⟩

theorem CatchesUp.of_ends {r r' : EStateM.Result Stop Machine Value} (hpauses : T.pauses = .left)
    (h : Ends T (tie T) w (Same fun w v => v.Shown w) r r')
    (hends : ∀ m', r' ≠ .error .exhausted m') (m₀ : Machine)
    (hnotes : ∀ u m, T.Strays u → r = .error (.unwind u) m → u.infos ≠ []) :
    ∃ o m, conclude m₀ id r = .ok o m ∧ CatchesUp T fuel w o m r' := by
  obtain ⟨o, m, m', hrun, hmeets, hpassed, hunpassed⟩ | ⟨u, m, hstrays, rfl⟩ :=
    meets_of_ends (by rw [hpauses]; nofun) h hends m₀
  · refine ⟨o, m, hrun, .meets (.here o m) hmeets fun hmode hspared => ?_⟩
    rw [hpassed hmode hspared, hunpassed (by rw [hpauses]; nofun)]
    omega
  · have hne := hnotes u m hstrays rfl
    obtain ⟨sparing, hspared, i, infos, rfl, hi⟩ := hstrays
    exact ⟨_, _, rfl, .strays (.here _ _) (Continuation.position?_ofUnwind hne) hspared hi⟩

end Machine

/-- A function that keeps the books leaves a note. -/
theorem Env.infos_of_leave {env : Env} (henv : env.records = true) {r : ActResult Flow} {u : Unwind}
    (h : Machine.closed (env.leave r) = .error (.unwind u) m) : u.infos ≠ [] := by
  match r, h with
  | .ok .normal _, h => cases h
  | .ok (.ret v) _, h => cases h
  | .ok .brk _, h => cases h
  | .ok .cont _, h => cases h
  | .error .exhausted _, h => cases h
  | .error (.unwind u) (act, m), h =>
      rw [leave_unwind, note, if_pos henv] at h
      cases h
      simp [Unwind.store]

/-- A function that has come to an end is left. -/
theorem Env.leave_ne_exhausted (env : Env) {r : ActResult Flow} (h : ∀ s, r ≠ .error .exhausted s)
    (m : Machine) : Machine.closed (env.leave r) ≠ .error .exhausted m := by
  intro hexhausted
  match r, h, hexhausted with
  | .ok .normal _, _, hexhausted => cases hexhausted
  | .ok (.ret v) _, _, hexhausted => cases hexhausted
  | .ok .brk _, _, hexhausted => cases hexhausted
  | .ok .cont _, _, hexhausted => cases hexhausted
  | .error .exhausted s, h, _ => exact h s rfl
  | .error (.unwind u) (act, m), _, hexhausted =>
      rw [leave_unwind] at hexhausted
      cases hexhausted

open Machine in
/-- A function that pursues another one, and is taken up as often as it is paused, catches up with it. -/
theorem Pursues.catchesUp {a : Address} {outer : Chain} {lo hi : Nat} {env env' : Env} {r r' : ActResult Flow}
    {s : Activation × Machine} (hsolo : T.solo = false) (hpauses : T.pauses = .left)
    (hsite : site.Stands T t f)
    (h : Pursues T (fun _ _ _ _ _ => False) S (⟨.function, a⟩ :: outer) lo hi
      (Stepper.execList (site.again fuel) t (site.index + 1) f.body) Flowing r' w r)
    (henv : env.toSite = site) (hfirst : env.Match T w env')
    (hagain : (site.again fuel).Match T w env') (hstart : s.2.Underway)
    (hobeys : Policy.standing.activation.Ends s r) (hends : ∀ s', r' ≠ .error .exhausted s')
    (m₀ : Machine) :
    ∃ o m, conclude m₀ id (closed (env.leave r)) = .ok o m ∧
      CatchesUp T fuel w o m (closed (env'.leave r')) := by
  induction h generalizing env s m₀ with
  | @ends w r h =>
      exact CatchesUp.of_ends hpauses (closed_ends (hfirst.leave_ends h)) (env'.leave_ne_exhausted hends) m₀
        fun _ _ _ => Env.infos_of_leave (henv ▸ hsite.records)
  | excused h =>
      rw [h.1] at hsolo
      cases hsolo
  | @paused w w₁ u act m p v mid hw h rest ih =>
      cases v with
      | some v => exact h.awaited.elim
      | none =>
          have hmatch : m.Match T w₁.paused mid := h.awaited
          have hu : u = .ofSignal (.pause p) := h.awaits
          obtain ⟨inner, hchain, hinner⟩ := h.scopes
          have hunder : m.Underway := hstart.stays hobeys.1
          have hreaches := hw.reaches.trans w₁.reaches_paused
          obtain ⟨o, m₂, hrun, hcatches⟩ := ih w₁.paused (site.returning act p) (m.reopened m₀)
            w₁.reaches_paused (hmatch.reopened hunder m₀) nofun
            (site.resumed_returning hchain hinner p) (show (site.again fuel).toSite = site from rfl)
            (hagain.reach hreaches) (hagain.reach hreaches) (hunder.reopened m₀)
            (Stepper.execList_obeyed (call_obeys fuel) _ _ (site.returning act p, m.reopened m₀))
            ((m.atDepth (m.depth - 1)).restore m₀)
          refine ⟨.paused (.single (site.frame t act p)), (m.atDepth (m.depth - 1)).restore m₀, ?_,
            hcatches.resumed hw.lag ?_⟩
          · have hrecords : env.records = true := henv ▸ hsite.records
            have hregistered : (m.registries.getD env.registry default).tree env.ns env.index = .ok t := by
              rw [hmatch.registries, henv]
              exact hsite.registered
            rw [Env.leave_unwind, hu, Env.note, if_pos hrecords]
            exact congrArg (EStateM.Result.ok · _) ((Outcome.ofUnwind_pause hregistered).trans (by rw [henv]))
          · have hlt : m.depth - 1 < m.config.maxCallDepth :=
              Nat.lt_of_lt_of_le (Nat.sub_lt hunder.open_pos Nat.one_pos) hunder.open_le
            have hfunc : (site.frame t act p).func? = some f := hsite.func
            have hmethods : ((m.atDepth (m.depth - 1)).restore m₀).config.debugBuiltins = true →
                ((m.atDepth (m.depth - 1)).restore m₀).debugMethods.isSome = true := hunder.methods
            rw [Continuation.resume_single rfl hfunc rfl hmethods, runFrame_eq hsite hlt]
            exact conclude_ok.2 hrun

/-- A call is refused on both sides, or it is opened on both. -/
theorem Machine.CatchesUp.opened {x x' : MachineM Value} (hsolo : T.solo = false)
    (hpauses : T.pauses = .left) (hm : m.Match T w m')
    (hends : ∀ m₁, (enter >>= fun _ => closing x') m' ≠ .error .exhausted m₁)
    (h : m.depth < m.config.maxCallDepth →
      (∀ m₁, closed (x' (m'.atDepth (m'.depth + 1))) ≠ .error .exhausted m₁) → ∃ o m₁,
      conclude m₀ id (closed (x (m.atDepth (m.depth + 1)))) = .ok o m₁ ∧
        CatchesUp T fuel w o m₁ (closed (x' (m'.atDepth (m'.depth + 1))))) :
    ∃ o m₁, conclude m₀ id ((enter >>= fun _ => closing x) m) = .ok o m₁ ∧
      CatchesUp T fuel w o m₁ ((enter >>= fun _ => closing x') m') := by
  have hdepth := hm.depth.2 hsolo
  by_cases hfull : m.config.maxCallDepth ≤ m.depth
  · rw [enter_of_full hfull, enter_of_full (by rwa [hm.limit, hdepth])]
    have hrefused : ∀ m : Machine, (do
        chronicling (fun _ c => { c with refused := c.refused + 1 })
        fail .range "Maximum call stack size exceeded" : MachineM Value) m =
          fail .range "Maximum call stack size exceeded"
            { m with chronicle := { m.chronicle with refused := m.chronicle.refused + 1 } } :=
      fun _ => rfl
    rw [hrefused, hrefused]
    refine CatchesUp.of_ends hpauses (fail_sim _ _ _ _ hm.refused) (fun _ h => by cases h) m₀
      fun u m₁ hstrays hfails => ?_
    cases hfails
    cases hstrays.isPause
  · have hlt := Nat.not_le.1 hfull
    have hlt' : m'.depth < m'.config.maxCallDepth := by rwa [hm.limit, hdepth]
    rw [enter_of_lt hlt', closing_eq] at hends
    rw [enter_of_lt hlt, enter_of_lt hlt', closing_eq, closing_eq]
    exact h hlt hends

end Resumption
