import Resumption.Proofs.Conduct.Run
import Resumption.Proofs.Stack.Arena

/-!
# What a pause hands back

The waiting activations are a stack: one that waits for the machine is put on top and taken off
again.  A pause that leaves a run, whatever it has crossed on its way, finds the heap and the output
as they were when it was raised, and it carries one note for every activation that was under way and
kept the books, innermost first.
-/

namespace Resumption

open Conduct

/-- The note that an activation leaves. -/
def Activation.note (act : Activation) : FrameInfo :=
  { this := act.site.this, args := act.site.args, chain := act.chain, cache := act.cache
    last := act.last, ns := act.site.ns, index := act.site.index, registry := act.site.registry }

/-- The notes of those that keep the books. -/
def notes (live : List Activation) : List FrameInfo :=
  (live.filter (fun act => act.site.records)).map Activation.note

theorem notes_concat (live : List Activation) (act : Activation) :
    notes (live ++ [act]) = notes live ++ if act.site.records then [act.note] else [] := by
  cases hrecords : act.site.records with
  | true => simp [notes, hrecords]
  | false => simp [notes, hrecords]

theorem frameInfo_eq_note {env : Env} {act : Activation} (hsite : act.site = env.toSite) :
    frameInfo env act = act.note := by
  rw [Activation.note, hsite]
  rfl

/-- Waiting activations come and go in the manner of a stack.  A pause was raised with the heap and
the output as they stand; the activations above the ones that wait have left their notes. -/
def Machine.conduct : Conduct Machine where
  keeps m m' := m'.chronicle.waiting = m.chronicle.waiting
  paused m m' u := ∃ live,
    m'.chronicle.raised = some ⟨m'.heap, m'.output, live ++ m.chronicle.waiting⟩ ∧
      u.infos = notes live
  refl _ := rfl
  trans h₁ h₂ := h₂.trans h₁
  paused_trans h hp := by
    obtain ⟨live, hraised, hinfos⟩ := hp
    exact ⟨live, by rw [hraised, h], hinfos⟩

/-- An activation keeps its site.  A pause that leaves it finds it as it was when the pause was
raised, below those that have left their notes. -/
def Activation.conduct : Conduct (Activation × Machine) where
  keeps s s' := s'.2.chronicle.waiting = s.2.chronicle.waiting ∧ s'.1.site = s.1.site
  paused s s' u := ∃ live,
    s'.2.chronicle.raised =
        some ⟨s'.2.heap, s'.2.output, live ++ s'.1 :: s.2.chronicle.waiting⟩ ∧
      u.infos = notes live
  refl _ := ⟨rfl, rfl⟩
  trans h₁ h₂ := ⟨h₂.1.trans h₁.1, h₂.2.trans h₁.2⟩
  paused_trans h hp := by
    obtain ⟨live, hraised, hinfos⟩ := hp
    exact ⟨live, by rw [hraised, h.1], hinfos⟩

/-- The activation waits on top of the others and is itself again when the machine comes back. -/
theorem lift_captures {α : Type} {x : MachineM α} (hx : Machine.conduct.Obeyed x) :
    Activation.conduct.Obeyed (ActM.lift x) := by
  intro (act, m)
  have hends := hx (m.suspend act)
  rw [ActM.lift]
  match x (m.suspend act), hends with
  | .ok a m', hends =>
      have hwaiting : m'.chronicle.waiting = act :: m.chronicle.waiting := hends
      exact ⟨congrArg List.tail hwaiting, rfl⟩
  | .error (.unwind u) m', hends =>
      have hwaiting : m'.chronicle.waiting = act :: m.chronicle.waiting := hends.1
      exact ⟨⟨congrArg List.tail hwaiting, rfl⟩, hends.2⟩
  | .error .exhausted m', _ => trivial

/-- A function that is left by a pause adds its note behind the notes of its callees. -/
theorem runActivation_captures {env : Env} {act : Activation} {body : ActM Flow}
    (hbody : Activation.conduct.Obeyed body) (hsite : act.site = env.toSite) :
    Machine.conduct.Obeyed (runActivation env act body) := by
  intro m
  have hends := hbody (act, m)
  rw [runActivation]
  match body (act, m), hends with
  | .ok (.ret _) _, hends => exact hends.1
  | .ok .normal _, hends => exact hends.1
  | .ok .brk _, hends => exact hends.1
  | .ok .cont _, hends => exact hends.1
  | .error .exhausted _, _ => trivial
  | .error (.unwind u) (act', m'), hends =>
      obtain ⟨⟨hwaiting, hsite'⟩, hpaused⟩ := hends
      replace hsite' : act'.site = env.toSite := hsite'.trans hsite
      dsimp only
      cases hu : u.isPause with
      | false =>
          have hleft : (u.store (frameInfo env act')).isPause = false := hu
          cases hrecords : env.records with
          | true => exact ⟨hwaiting, fun h => absurd (hleft.symm.trans h) Bool.false_ne_true⟩
          | false => exact ⟨hwaiting, fun h => absurd (hu.symm.trans h) Bool.false_ne_true⟩
      | true =>
          obtain ⟨live, hraised, hinfos⟩ := hpaused hu
          have hraised' : m'.chronicle.raised =
              some ⟨m'.heap, m'.output, (live ++ [act']) ++ m.chronicle.waiting⟩ := by
            rw [hraised, List.append_assoc]
            rfl
          have hnotes := notes_concat live act'
          rw [hsite'] at hnotes
          cases hrecords : env.records with
          | true =>
              refine ⟨hwaiting, fun _ => ⟨live ++ [act'], hraised', ?_⟩⟩
              rw [hnotes, hrecords, Unwind.store, hinfos, frameInfo_eq_note hsite']
              rfl
          | false =>
              refine ⟨hwaiting, fun _ => ⟨live ++ [act'], hraised', ?_⟩⟩
              rw [hnotes, hrecords, hinfos]
              exact (List.append_nil _).symm

/-- What follows a computation leaves everything that counts as it is. -/
theorem afterwards_captures {α : Type} {x : MachineM α} {f : Machine → Machine}
    (hx : Machine.conduct.Obeyed x)
    (hf : ∀ m, (f m).chronicle.waiting = m.chronicle.waiting ∧
      (f m).chronicle.raised = m.chronicle.raised ∧ (f m).heap = m.heap ∧
        (f m).output = m.output) :
    Machine.conduct.Obeyed (Machine.afterwards x f) := by
  intro m
  have hends := hx m
  rw [Machine.afterwards]
  match x m, hends with
  | .ok _ m', hends => exact (hf m').1.trans hends
  | .error (.unwind u) m', hends =>
      refine ⟨(hf m').1.trans hends.1, fun hu => ?_⟩
      obtain ⟨live, hraised, hinfos⟩ := hends.2 hu
      refine ⟨live, ?_, hinfos⟩
      rw [(hf m').2.1, (hf m').2.2.1, (hf m').2.2.2, hraised]
  | .error .exhausted _, _ => trivial

theorem opened_captures {α : Type} {x : MachineM α} {m : Machine} (hx : Machine.conduct.Obeyed x) :
    Machine.conduct.Ends m (Machine.closing x (m.atDepth (m.depth + 1))) := by
  have hclosing : Machine.conduct.Obeyed (Machine.closing x) :=
    afterwards_captures hx fun _ => ⟨rfl, rfl, rfl, rfl⟩
  have hwaiting : Machine.conduct.keeps m (m.atDepth (m.depth + 1)) := rfl
  exact .of_keeps hwaiting (hclosing _)

/-- The policy of the stack of waiting activations. -/
def Policy.stack : Policy where
  machine := Machine.conduct
  activation := Activation.conduct
  quietly h := h.waiting
  pauseAt _ _ := ⟨rfl, fun _ => ⟨[], rfl, rfl⟩⟩
  opened hx _ := opened_captures hx
  update _ _ _ hsite := ⟨rfl, hsite⟩
  lift := lift_captures
  run := runActivation_captures

namespace Machine

/-! ## The ways into a machine -/

theorem withRegistry_obeyed {α : Type} {x : MachineM α} (id : Nat) (hx : Policy.stack.machine.Obeyed x) :
    Policy.stack.machine.Obeyed (withRegistry id x) :=
  .bind .get fun _ => .bind (.modifyGet fun _ => rfl) fun _ =>
    afterwards_captures hx fun _ => ⟨rfl, rfl, rfl, rfl⟩

/-- What is handed back with a pause is what there was at the instant it was raised: the heap, the
output, and a note of every activation then under way that keeps the books. -/
def Captured (m m' : Machine) (u : Unwind) : Prop :=
  ∃ instant live, m'.chronicle.raised = some instant ∧ m'.heap = instant.heap ∧
    m'.output = instant.output ∧ instant.live = live ++ m.chronicle.waiting ∧
      u.infos = notes live

theorem captured_of_obeyed {α : Type} {x : MachineM α} {m m' : Machine} {u : Unwind}
    (hx : Policy.stack.machine.Obeyed x) (hrun : x m = .error (.unwind u) m') (hu : u.isPause = true) :
    Captured m m' u := by
  have hends := hx m
  rw [hrun] at hends
  obtain ⟨live, hraised, hinfos⟩ := hends.2 hu
  exact ⟨_, live, hraised, rfl, rfl, rfl, hinfos⟩

/-- A continuation made of what was captured, and of the frames among the given ones that had no
turn yet. -/
def Delivered (frames : List Frame) (m m' : Machine) (k : Continuation) : Prop :=
  ∃ u rest, rest <:+ frames ∧ Captured m m' u ∧
    k = .ofUnwind m'.registries
      (rest.foldl (fun u f => (u.shift m'.registries f).2) u)

theorem Delivered.of_keeps {frames : List Frame} {m m₁ m' : Machine} {k : Continuation}
    (h : Delivered frames m₁ m' k) (hkeeps : Policy.stack.machine.keeps m m₁) : Delivered frames m m' k := by
  obtain ⟨u, rest, hrest, ⟨instant, live, hraised, hheap, houtput, hlive, hinfos⟩, hk⟩ := h
  refine ⟨u, rest, hrest, ⟨instant, live, hraised, hheap, houtput, ?_, hinfos⟩, hk⟩
  rw [hlive]
  exact congrArg (live ++ ·) hkeeps

/-- A run that ends in a pause delivers. -/
def Delivers (frames : List Frame) (x : MachineM Outcome) : Prop :=
  ∀ m m' k, x m = .ok (.paused k) m' → Delivered frames m m' k

theorem ofUnwind_eq_paused {registries : Array Registry} {u : Unwind} {k : Continuation}
    (h : Outcome.ofUnwind registries u = .paused k) :
    u.isPause = true ∧ k = .ofUnwind registries u := by
  unfold Outcome.ofUnwind Unwind.thrown? at h
  unfold Unwind.isPause
  cases hsignal : u.signal with
  | error v =>
      rw [hsignal] at h
      cases h
  | pause i =>
      rw [hsignal] at h
      cases h
      exact ⟨rfl, rfl⟩

theorem settle_delivers {x : MachineM Value} (hx : Policy.stack.machine.Obeyed x) : Delivers [] (settle x) := by
  intro m m' k hrun
  change EStateM.bind (caught x) _ m = _ at hrun
  rw [EStateM.bind, caught] at hrun
  match hxm : x m with
  | .ok v m'' =>
      rw [hxm] at hrun
      cases hrun
  | .error .exhausted m'' =>
      rw [hxm] at hrun
      cases hrun
  | .error (.unwind u) m'' =>
      rw [hxm] at hrun
      injection hrun with hpaused hm
      subst hm
      obtain ⟨hu, rfl⟩ := ofUnwind_eq_paused hpaused
      exact ⟨u, [], List.suffix_refl _, captured_of_obeyed hx hxm hu, rfl⟩

theorem withDebugSupport_delivers {frames : List Frame} {x : MachineM Outcome}
    (hx : Delivers frames x) : Delivers frames (withDebugSupport x) := by
  intro m m' k hrun
  have hprepared := prepareDebugMethods_obeyed withRegistry_obeyed m
  change EStateM.bind prepareDebugMethods _ m = _ at hrun
  rw [EStateM.bind] at hrun
  match hprepare : prepareDebugMethods m with
  | .error e m₁ =>
      rw [hprepare] at hrun
      cases hrun
  | .ok () m₁ =>
      rw [hprepare] at hrun hprepared
      let m₂ : Machine :=
        { m₁ with debugging := m₁.config.debuggingEnabled
                  debugBuiltins := m₁.config.debugBuiltins }
      change afterwards x (fun m => { m with debugging := _, debugBuiltins := _ }) m₂ = _ at hrun
      rw [afterwards] at hrun
      match hxm : x m₂ with
      | .error e m₃ =>
          rw [hxm] at hrun
          cases hrun
      | .ok o m₃ =>
          rw [hxm] at hrun
          cases hrun
          have hdelivered : Delivered frames m₂ m₃ k := hx m₂ m₃ k hxm
          exact Delivered.of_keeps hdelivered hprepared

/-- Frames are taken up one after the other.  The first that pauses takes the ones behind it along. -/
theorem resumeFrames_delivers (fuel : Nat) (frames : List Frame) (result : Option Value) :
    Delivers frames (Continuation.resumeFrames fuel frames result) := by
  intro m m' k hrun
  induction frames generalizing m result with
  | nil => cases hrun
  | cons frame rest ih =>
      have hframe : Policy.stack.machine.Obeyed
          (runFrame fuel ({ frame with parent := none }.seed result)) := runFrame_obeyed fuel _
      have hends := hframe m
      change EStateM.bind (caught _) _ m = _ at hrun
      rw [EStateM.bind, caught] at hrun
      match hxm : runFrame fuel ({ frame with parent := none }.seed result) m with
      | .ok v m₁ =>
          rw [hxm] at hrun hends
          obtain ⟨u, rest', hrest, hrest'⟩ := (ih (some v) m₁ hrun).of_keeps hends
          exact ⟨u, rest', hrest.trans (List.suffix_cons _ _), hrest'⟩
      | .error .exhausted m₁ =>
          rw [hxm] at hrun
          cases hrun
      | .error (.unwind u) m₁ =>
          rw [hxm] at hrun
          injection hrun with hpaused hm
          subst hm
          obtain ⟨hu, rfl⟩ := ofUnwind_eq_paused hpaused
          rw [Unwind.isPause, Unwind.signal_foldl_shift] at hu
          exact ⟨u, rest, List.suffix_cons _ _, captured_of_obeyed hframe hxm hu, rfl⟩

theorem resume_delivers {fuel : Nat} {k k' : Continuation} {m m' : Machine}
    (hrun : k.resume fuel m = .ok (.ok (.paused k')) m') : Delivered k.chain m m' k' := by
  have hends : Policy.stack.machine.Ends m (k.obstacle? m) := obstacle?_obeyed k m
  change EStateM.bind k.obstacle? _ m = _ at hrun
  rw [EStateM.bind] at hrun
  match hobstacle : k.obstacle? m with
  | .error e m₁ =>
      rw [hobstacle] at hrun
      cases hrun
  | .ok (some _) m₁ =>
      rw [hobstacle] at hrun
      cases hrun
  | .ok none m₁ =>
      rw [hobstacle] at hrun hends
      change EStateM.bind (withDebugSupport _) _ m₁ = _ at hrun
      rw [EStateM.bind] at hrun
      match hxm : withDebugSupport (Continuation.resumeFrames fuel k.chain none) m₁ with
      | .error e m₂ =>
          rw [hxm] at hrun
          cases hrun
      | .ok o m₂ =>
          rw [hxm] at hrun
          cases hrun
          have hdelivered := withDebugSupport_delivers (resumeFrames_delivers fuel k.chain none)
          exact (hdelivered m₁ m' k' hxm).of_keeps hends

theorem runCode_delivers (fuel : Nat) (code : Code.Func) (chain : Chain) (registry : Nat)
    (args : List Value) : Delivers [] (runCode fuel code chain registry args) :=
  withDebugSupport_delivers (settle_delivers
    (.bind (newFunction_obeyed _) fun f => call_obeys fuel f .undefined args))

theorem runProgram_delivers {fuel : Nat} {p : Script.Program} {registry : Nat} {m m' : Machine}
    {k : Continuation} (hrun : runProgram fuel p registry m = .ok (.ok (.paused k)) m') :
    Delivered [] m m' k := by
  have hends : Policy.stack.machine.Ends m (compileProgram p registry m) :=
    Obeyed.bind .get (fun _ => withRegistry_obeyed registry (instrument_obeyed _ _ _ _)) m
  unfold runProgram at hrun
  change EStateM.bind (compileProgram p registry) _ m = _ at hrun
  rw [EStateM.bind] at hrun
  match hcompile : compileProgram p registry m with
  | .error e m₁ =>
      rw [hcompile] at hrun
      cases hrun
  | .ok (.error e) m₁ =>
      rw [hcompile] at hrun
      cases hrun
  | .ok (.ok code) m₁ =>
      rw [hcompile] at hrun hends
      change EStateM.bind (runCode fuel code [] registry []) _ m₁ = _ at hrun
      rw [EStateM.bind] at hrun
      match hxm : runCode fuel code [] registry [] m₁ with
      | .error e m₂ =>
          rw [hxm] at hrun
          cases hrun
      | .ok o m₂ =>
          rw [hxm] at hrun
          cases hrun
          exact (runCode_delivers fuel code [] registry [] m₁ m' k hxm).of_keeps hends

theorem interpret_delivers (fuel : Nat) (p : Script.Program) (registry : Nat) (mode : Mode) :
    Delivers [] (interpret fuel p registry mode) := by
  refine withDebugSupport_delivers (settle_delivers ?_)
  refine .bind .get fun _ => .bind (.modifyGet fun _ => rfl) fun tree => ?_
  exact .bind (newFunction_obeyed _) fun f => call_obeys fuel f .undefined []

/-- A pause unwinds without side effects and captures exactly the activations under way, whether it
leaves a call, a frame that is taken up again, a program, a walk or a resumption. -/
theorem pause_captures_the_instant :
    (∀ fuel f this args m m' u, call fuel f this args m = .error (.unwind u) m' →
      u.isPause = true → Captured m m' u) ∧
    (∀ fuel frame m m' u, runFrame fuel frame m = .error (.unwind u) m' →
      u.isPause = true → Captured m m' u) ∧
    (∀ fuel f this args m m' k, runClosure fuel f this args m = .ok (.paused k) m' →
      Delivered [] m m' k) ∧
    (∀ fuel p registry m m' k, runProgram fuel p registry m = .ok (.ok (.paused k)) m' →
      Delivered [] m m' k) ∧
    (∀ fuel p registry mode m m' k, interpret fuel p registry mode m = .ok (.paused k) m' →
      Delivered [] m m' k) ∧
    ∀ fuel (k : Continuation) m m' k', k.resume fuel m = .ok (.ok (.paused k')) m' →
      Delivered k.chain m m' k' := by
  refine ⟨?_, ?_, ?_, ?_, ?_, ?_⟩
  · intro fuel f this args m m' u hrun hu
    exact captured_of_obeyed (call_obeys fuel f this args) hrun hu
  · intro fuel frame m m' u hrun hu
    exact captured_of_obeyed (runFrame_obeyed fuel frame) hrun hu
  · intro fuel f this args m m' k hrun
    have hdelivers := withDebugSupport_delivers (settle_delivers (call_obeys fuel f this args))
    exact hdelivers m m' k hrun
  · intro fuel p registry m m' k hrun
    exact runProgram_delivers hrun
  · intro fuel p registry mode m m' k hrun
    exact interpret_delivers fuel p registry mode m m' k hrun
  · intro fuel k m m' k' hrun
    exact resume_delivers hrun

/-- A machine with one function: `try { debugger; } finally { throw "late"; }`. -/
def pausingInTry : Machine :=
  let body : List Code.Stmt := [.attempt 1 [.debugger 2] none (some [.throwing (.str "late")])]
  let code : Code.Func := ⟨none, "default", 0, [], [], none, [], body, false⟩
  { heap := ⟨#[.new (.function (.instrumented ⟨code, [], 0⟩)) none]⟩, config := .default
    debugging := true, debugBuiltins := false, debugMethods := none, registries := #[]
    active := 0, depth := 0, output := ["early"], hook := none, chronicle := .empty }

theorem pause_captures_the_instant_in_try : ∃ m' u,
    call 1 (.object 0) .undefined [] pausingInTry = .error (.unwind u) m' ∧ u.isPause = true ∧
      u.infos.length = 1 ∧ m'.output = ["early"] ∧ Captured pausingInTry m' u :=
  ⟨_, _, rfl, rfl, rfl, rfl,
    pause_captures_the_instant.1 1 (.object 0) .undefined [] pausingInTry _ _ rfl rfl⟩

end Machine

end Resumption
