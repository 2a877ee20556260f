import Resumption.Proofs.Match.Chases

/-!
# Exceptions and what waits for them

A `try` goes on with the end of its block, whatever it is, but for pauses: they pass.  A completion that
waits for a `finally` is stored, and it is still there if the `finally` is paused and taken up.
-/

namespace Resumption

variable {α β : Type} {T : Terms} {D : Unwind → World → Machine → Value → Machine → Prop}
  {S : Stance} {c : Chain} {lo hi lo₁ hi₁ i : Nat} {w w' : World} {env env' env₂ : Env}
  {P : World → Activation × Machine → Activation × Machine → Prop}

/-- The fixed parts of an activation on the left, at first and once it has been taken up, go together
with the one on the right. -/
structure Env.Pursued (T : Terms) (S : Stance) (w : World) (env env₂ env' : Env) : Prop where
  first : env.Match T w env'
  again : S.Pausing T → env₂.Match T w env'
  fuel : T.Fuels env₂.fuel env'.fuel
  records : ¬ S.args → env.records = true
  records₂ : S.Pausing T → env₂.records = true

theorem Env.Pursued.reach (hw : w.Reaches w') (h : Env.Pursued T S w env env₂ env') :
    Env.Pursued T S w' env env₂ env' :=
  { h with
    first := h.first.reach hw
    again := fun hpausing => (h.again hpausing).reach hw }

/-! ## Ends that are at hand -/

/-- Ends of a part that go together. -/
inductive Settled (T : Terms) (w : World) : Except Unwind Flow → Except Unwind Flow → Prop
  | ok {flow : Flow} (h : flow.Shown w) : Settled T w (.ok flow) (.ok flow)
  | thrown {u u' : Unwind} {v : Value} (hu : u.thrown? = some v) (hu' : u'.thrown? = some v)
      (hsame : T.pauses = .together → u' = u) (hv : v.Shown w) : Settled T w (.error u) (.error u')

namespace Settled

variable {e e' : Except Unwind Flow}

theorem mono (hw : w.roles <+: w'.roles) (h : Settled T w e e') : Settled T w' e e' := by
  cases h with
  | ok h => exact .ok (h.mono hw)
  | thrown hu hu' hsame hv => exact .thrown hu hu' hsame (hv.mono hw)

/-- They wait in the same form. -/
theorem ofResult_eq (h : Settled T w e e') : Completion.ofResult e' = Completion.ofResult e := by
  cases h with
  | ok h => rfl
  | thrown hu hu' hsame hv => rw [Completion.ofResult, Completion.ofResult, hu, hu']

/-- What has waited is as good. -/
theorem waited (hT : T.pauses ≠ .together) (h : Settled T w e e') :
    Settled T w (Completion.ofResult e).toResult e' := by
  cases h with
  | @ok flow h => cases flow <;> exact .ok h
  | thrown hu hu' hsame hv =>
      rw [Completion.ofResult, hu]
      exact .thrown rfl hu' (fun h => absurd h hT) hv

theorem isPaused_right (h : Settled T w e e') : ActM.isPaused e' = false := by
  cases h with
  | ok h => rfl
  | thrown hu hu' hsame hv => exact ActM.isPause_of_thrown? hu'

theorem isPaused_left (h : Settled T w e e') : ActM.isPaused e = false := by
  cases h with
  | ok h => rfl
  | thrown hu hu' hsame hv => exact ActM.isPause_of_thrown? hu

theorem proceed_sim (h : Settled T w e e') :
    ASim T S w (ActM.proceed e) (ActM.proceed e') Flowing := by
  cases h with
  | ok h => exact .pure ⟨rfl, h⟩
  | thrown hu hu' hsame hv =>
      exact fun s s' hs => .thrown (.thrown hu hu' hsame) ⟨w, w.le_refl, ⟨hs.1.adrift, hs.2⟩, hv⟩

end Settled

/-- Going on with an end that is no pause lets nothing happen. -/
theorem ActM.proceed_counts {e : Except Unwind Flow} (h : ActM.isPaused e = false) :
    T.Counts (ActM.proceed e) := by
  intro _
  cases e with
  | ok flow => exact .pure flow
  | error u => exact .throw_error h

/-! ## Going on with any end -/

/-- Goes on with the end of a computation, whatever it is. -/
def settle (f : Except Unwind α → ActM β) : ActResult α → ActResult β
  | .ok a s => f (.ok a) s
  | .error (.unwind u) s => f (.error u) s
  | .error .exhausted s => .error .exhausted s

theorem caught_bind_apply (x : ActM α) (f : Except Unwind α → ActM β) (s : Activation × Machine) :
    (ActM.caught x >>= f) s = settle f (x s) := by
  rw [bind_apply, ActM.caught]
  cases x s with
  | ok _ _ => rfl
  | error stop _ => cases stop <;> rfl

/-- A pause is not caught. -/
def Passes (f : Except Unwind α → ActM β) : Prop :=
  ∀ u, u.isPause = true → f (.error u) = throw (.unwind u)

theorem Excused.settle {r' : ActResult α} {f' : Except Unwind α → ActM β} (h : Excused T S r')
    (hS : T.solo = true → ¬ S.doomed) (hpass : Passes f') (hf : ∀ a, T.Counts (f' (.ok a)))
    (hf' : ∀ u, u.isPause = false → T.Counts (f' (.error u))) : Excused T S (settle f' r') := by
  obtain ⟨hsolo, hpauses, hfaults⟩ := h
  match r', hfaults with
  | .ok a s', hfaults => exact .of_ends hsolo hpauses hfaults (hf a hsolo s')
  | .error (.unwind u) s', hfaults =>
      cases hu : u.isPause with
      | true =>
          rw [Resumption.settle, hpass u hu]
          exact ⟨hsolo, hpauses, hfaults⟩
      | false =>
          have hfaults : 0 < s'.2.faults := by
            rcases hfaults with hpause | hdoomed | hfaults
            · rw [hu] at hpause
              cases hpause
            · exact absurd hdoomed (hS hsolo)
            · exact hfaults
          exact .of_ends hsolo hpauses hfaults (hf' u hu hsolo s')
  | .error .exhausted _, _ => exact ⟨hsolo, hpauses, trivial⟩

namespace ChasesFrom

variable {x y part x' again : ActM Flow} {f g f' : Except Unwind Flow → ActM Flow}

/-- What comes after a part goes on with its end. -/
theorem caught (hx : ChasesFrom T D P S c lo₁ hi₁ w x y part x' Flowing) (hlo : lo ≤ lo₁)
    (hhi : hi₁ ≤ hi) (hagain : Reenters T S c [] lo₁ hi₁ w again (settle g) part)
    (hdoomed : T.solo = true → ¬ S.doomed) (hpass : Passes f ∧ Passes g ∧ Passes f')
    (hcounts : ∀ e, ActM.isPaused e = false → T.Counts (f' e))
    (hok : ∀ w₁, w.Reaches w₁ → ∀ flow, flow.Shown w₁ →
      Chases T D S c lo hi w₁ (f (.ok flow)) (g (.ok flow)) again (f' (.ok flow)) Flowing)
    (hthrown : ∀ w₁, w.Reaches w₁ → ∀ u u', Settled T w₁ (.error u) (.error u') →
      ChasesFrom T D (Activation.tie T S).thrown S c lo hi w₁ (f (.error u)) (g (.error u)) again
        (f' (.error u')) Flowing) :
    ChasesFrom T D P S c lo hi w (ActM.caught x >>= f) (ActM.caught y >>= g) again
      (ActM.caught x' >>= f') Flowing := by
  have hcarries : ∀ (k : Except Unwind Flow → ActM Flow) w', Passes k →
      (∀ w₁, w' ≤ w₁ → ∀ flow, flow.Shown w₁ →
        Follows T D S c lo hi w₁ (k (.ok flow)) again (f' (.ok flow)) Flowing) →
      (∀ w₁, w' ≤ w₁ → ∀ u u', Settled T w₁ (.error u) (.error u') →
        FollowsFrom T D (Activation.tie T S).thrown S c lo hi w₁ (k (.error u)) again
          (f' (.error u')) Flowing) →
      ∀ r', Carries T D S S c lo hi again Flowing Flowing r' (settle f') w' (settle k) := by
    refine fun k w' hk hok hthrown r' => ⟨fun u s hu => by rw [settle, hk u hu]; rfl, ?_⟩
    rintro r (⟨w₁, hw₁, hs, rfl, hflow⟩ | ⟨hu, w₁, hw₁, hs, hv⟩ | _ | hloose | hstrays)
    · exact (hok w₁ hw₁ _ hflow _ _ hs).of_le hw₁
    · cases hu with
      | thrown hu hu' hsame =>
          exact (hthrown w₁ hw₁ _ _ (.thrown hu hu' hsame hv) _ _ hs).of_le hw₁
      | paused hpauses hu =>
          rw [settle, settle, hk _ hu, hpass.2.2 _ hu]
          exact .ends (.thrown (.paused hpauses hu) ⟨w₁, hw₁, hs, hv⟩)
    · exact .ends .exhausted
    · exact .ends (.loose hloose)
    · rw [settle, hk _ hstrays.isPause]
      exact .ends (.strayed hstrays)
  have hresumed : S.Pausing T → ∀ w', w.Reaches w' → ∀ r',
      Carries T D S S c lo hi again Flowing Flowing r' (settle f') w' (settle g) :=
    fun hpausing w' hw' => hcarries g w' hpass.2.1
      (fun w₁ hw₁ flow hflow =>
        (hok w₁ (hw'.trans hw₁.reaches) flow hflow w₁ (.refl w₁)).2 hpausing)
      fun w₁ hw₁ u u' hu => (hthrown w₁ (hw'.trans hw₁.reaches) u u' hu w₁ (.refl w₁)).2 hpausing
  refine hx.through [] (caught_bind_apply x f) (caught_bind_apply y g)
    (caught_bind_apply x' f') hlo hhi (fun _ => id) Iff.rfl (fun _ hl => absurd hl List.not_mem_nil)
    (fun r' h => h.settle hdoomed hpass.2.2 (fun a => hcounts _ rfl) fun u hu => hcounts _ hu) hagain
    (fun w' hw' => hcarries f w' hpass.1 (fun w₁ hw₁ flow hflow =>
        (hok w₁ (hw'.trans hw₁.reaches) flow hflow).first)
      fun w₁ hw₁ u u' hu => (hthrown w₁ (hw'.trans hw₁.reaches) u u' hu).first)
    hresumed hresumed

end ChasesFrom

/-! ## Completions that wait -/

namespace ActM

/-- What comes after a `finally`. -/
def afterFinally (i : Nat) (next : ActM Flow) (flow : Flow) : ActM Flow := do
  forget i
  match flow with
  | .normal => next
  | abrupt => return abrupt

theorem finallyThen_eq (i : Nat) (finalizer next : ActM Flow) :
    finallyThen i finalizer next = finalizer >>= afterFinally i next :=
  rfl

theorem afterFinally_sim {next next' : ActM Flow} {flow : Flow} (hi : Vacant S.books i)
    (hnext : ASim T S w next next' Flowing) (hflow : flow.Shown w) :
    ASim T S w (afterFinally i next flow) (afterFinally i next' flow) Flowing := by
  refine both_sim (forget_books hi) (forget_books (.any i)) (fun _ => rfl) ?_
  cases flow with
  | normal => exact hnext
  | ret v => exact .pure ⟨rfl, hflow⟩
  | brk => exact .pure ⟨rfl, hflow⟩
  | cont => exact .pure ⟨rfl, hflow⟩

/-- Keeps a completion, and runs the `finally` that it waits for. -/
def waitingFor (env : Env) (i : Nat) (saved : Chain) (finalizer : ActM Flow)
    (result : Except Unwind Flow) : ActM Flow := do
  setChain saved
  let waiting ← lift (Completion.encode (.ofResult result))
  record env i waiting
  finallyThen i finalizer (proceed result)

theorem concluding_eq (env : Env) (i : Nat) (saved : Chain) (present : Bool) (finalizer : ActM Flow)
    (result : Except Unwind Flow) : concluding env i saved present finalizer result =
      if !present || isPaused result then proceed result
      else waitingFor env i saved finalizer result :=
  rfl

theorem concluding_passes (env : Env) (i : Nat) (saved : Chain) (present : Bool)
    (finalizer : ActM Flow) : Passes (concluding env i saved present finalizer) := by
  intro u hu
  rw [concluding_eq, isPaused, hu, Bool.or_true, if_pos rfl]
  rfl

end ActM

namespace ChasesFrom

open ActM

variable {x y part x' again : ActM Flow}

theorem waitingFor {e e' : Except Unwind Flow} (hS : S.chain = some c) (hvacant : Vacant S.books i)
    (henvs : Env.Pursued T S w env env₂ env') (he : Settled T w e e')
    (hlo : lo ≤ lo₁) (hhi : hi₁ ≤ hi)
    (hfinal : ∀ w₁, w.Reaches w₁ → ∀ v,
      Chases T D (S.storing i v) c lo₁ hi₁ w₁ x y part x' Flowing)
    (hagain : ∀ w₁, w.Reaches w₁ → ∀ a,
      w₁.role? a = some (.fixed (waitingObject (Completion.ofResult e))) →
      Reenters T (S.storing i (.object a)) c [] lo₁ hi₁ w₁ again
        (andThen (afterFinally i (proceed (Completion.ofResult e).toResult))) part) :
    ChasesFrom T D (Activation.tie T S).thrown S c lo hi w (ActM.waitingFor env i c x e)
      (ActM.waitingFor env₂ i c y e) again (ActM.waitingFor env' i c x' e') Flowing := by
  unfold ActM.waitingFor
  rw [he.ofResult_eq]
  have hset : ∀ w', SimFrom T (Activation.tie T S).thrown (Activation.tie T S) w' (setChain c)
      (setChain c) Equal := by
    intro w'
    have hset := setChain_sim (T := T) (S := S.adrift) (w := w') c
    rwa [show S.adrift.within c = S from within_eq hS] at hset
  refine .after (fun w' _ => hset w') (fun _ w' _ => hset w') (fun _ _ _ hs => hs)
    fun w₁ hw₁ _ _ _ => ?_
  refine .after (fun w' _ => lift_sim (encode_sim _)) (fun _ w' _ => lift_sim (encode_sim _))
    (fun _ _ _ hs => hs) fun w₂ hw₂ v v' hv => ?_
  obtain ⟨rfl, a, rfl, ha⟩ := hv
  have hreach₂ := hw₁.trans hw₂
  refine .after
    (fun w' hw' => record_storing (henvs.first.reach (hreach₂.trans hw')) hvacant henvs.records)
    (fun hpausing w' hw' => record_storing ((henvs.again hpausing).reach (hreach₂.trans hw')) hvacant
      fun _ => henvs.records₂ hpausing)
    (fun _ _ _ hs => (S.storing_entails i _).thrown hs) fun w₃ hw₃ _ _ _ => ?_
  have hreach := hreach₂.trans hw₃
  have hrest : ∀ {e₁ : Except Unwind Flow} w', w₃.Reaches w' → (Settled T w' e e' → Settled T w' e₁ e') →
      ∀ flow flow', Flowing w' flow flow' → ASim T S w' (afterFinally i (proceed e₁) flow)
        (afterFinally i (proceed e') flow') Flowing := by
    rintro e₁ w' hw' he₁ flow _ ⟨rfl, hflow⟩
    exact afterFinally_sim hvacant (he₁ (he.mono (hreach.trans hw').roles)).proceed_sim hflow
  simp only [finallyThen_eq]
  -- The completion goes on as it is, or, if the run has been taken up, as it was stored.
  refine (hfinal w₃ hreach (.object a)).bind_sim (S.storing_entails i _) hlo hhi
    (hagain w₃ hreach a (World.role?_mono hw₃.roles ha)) (fun flow hsolo => ?_)
    (fun w' hw' => hrest w' hw' id)
    (fun hpausing w' hw' => hrest w' hw' (Settled.waited (by simp [hpausing.1])))
    (fun _ w' hw' => hrest w' hw' id)
  refine (forget_obeyed i).bind fun _ => ?_
  cases flow with
  | normal => exact proceed_counts he.isPaused_right hsolo
  | ret v => exact .pure _
  | brk => exact .pure _
  | cont => exact .pure _

end ChasesFrom

section

open ActM

variable {x y x' again : ActM Flow}

/-- The `finally` of a statement, if there is one, chases, and its statement is taken up in it. -/
def Finalizes (T : Terms) (D : Unwind → World → Machine → Value → Machine → Prop) (S : Stance)
    (c : Chain) (lo hi : Nat) (w : World) (i : Nat) (x y again x' : ActM Flow) : Prop :=
  ∃ lo₁ hi₁ part, lo ≤ lo₁ ∧ hi₁ ≤ hi ∧
    (∀ w₁, w.Reaches w₁ → ∀ v, Chases T D (S.storing i v) c lo₁ hi₁ w₁ x y part x' Flowing) ∧
    ∀ w₁, w.Reaches w₁ → ∀ a completion, w₁.role? a = some (.fixed (waitingObject completion)) →
      Reenters T (S.storing i (.object a)) c [] lo₁ hi₁ w₁ again
        (andThen (afterFinally i (proceed completion.toResult))) part

theorem Finalizes.mono (hw : w.Reaches w') (h : Finalizes T D S c lo hi w i x y again x') :
    Finalizes T D S c lo hi w' i x y again x' := by
  obtain ⟨lo₁, hi₁, part, hlo, hhi, hfinal, hagain⟩ := h
  exact ⟨lo₁, hi₁, part, hlo, hhi, fun w₁ hw₁ => hfinal w₁ (hw.trans hw₁),
    fun w₁ hw₁ => hagain w₁ (hw.trans hw₁)⟩

theorem Finalizes.waitingFor {e e' : Except Unwind Flow} (hS : S.chain = some c)
    (hvacant : Vacant S.books i) (henvs : Env.Pursued T S w env env₂ env')
    (h : Finalizes T D S c lo hi w i x y again x') (he : Settled T w e e') :
    ChasesFrom T D (Activation.tie T S).thrown S c lo hi w (ActM.waitingFor env i c x e)
      (ActM.waitingFor env₂ i c y e) again (ActM.waitingFor env' i c x' e') Flowing := by
  obtain ⟨lo₁, hi₁, part, hlo, hhi, hfinal, hagain⟩ := h
  exact .waitingFor hS hvacant henvs he hlo hhi hfinal fun w₁ hw₁ a ha => hagain w₁ hw₁ a _ ha

end

namespace ChasesFrom

open ActM

variable {x y part x' again : ActM Flow}

variable {present : Bool}

theorem concluding_ok {flow : Flow} (hS : S.chain = some c) (hvacant : Vacant S.books i)
    (henvs : Env.Pursued T S w env env₂ env') (hflow : flow.Shown w)
    (h : present = true → Finalizes T D S c lo hi w i x y again x') :
    Chases T D S c lo hi w (concluding env i c present x (.ok flow))
      (concluding env₂ i c present y (.ok flow)) again (concluding env' i c present x' (.ok flow))
      Flowing := by
  simp only [concluding_eq]
  cases present with
  | true => exact ((h rfl).waitingFor hS hvacant henvs (.ok hflow)).of_adrift
  | false =>
      exact .of_sim (fun _ hw' => (Settled.ok (hflow.mono hw'.roles)).proceed_sim)
        fun _ _ hw' => (Settled.ok (hflow.mono hw'.roles)).proceed_sim

theorem concluding_thrown {u u' : Unwind} (hS : S.chain = some c) (hvacant : Vacant S.books i)
    (henvs : Env.Pursued T S w env env₂ env') (hu : Settled T w (.error u) (.error u'))
    (h : present = true → Finalizes T D S c lo hi w i x y again x') :
    ChasesFrom T D (Activation.tie T S).thrown S c lo hi w (concluding env i c present x (.error u))
      (concluding env₂ i c present y (.error u)) again (concluding env' i c present x' (.error u'))
      Flowing := by
  simp only [concluding_eq, hu.isPaused_left, hu.isPaused_right]
  cases present with
  | true => exact (h rfl).waitingFor hS hvacant henvs hu
  | false =>
      have hproceed : ∀ w', w.Reaches w' → SimFrom T (Activation.tie T S).thrown (Activation.tie T S) w'
          (proceed (.error u)) (proceed (.error u')) Flowing := by
        intro w' hw' s s' hs
        cases hu with
        | thrown hu hu' hsame hv =>
            exact .thrown (.thrown hu hu' hsame) ⟨w', w'.le_refl, hs, hv.mono hw'.roles⟩
      exact .of_sim hproceed fun _ => hproceed

/-! ## Handlers -/

theorem catching {param : String} {v : Value} (hS : S.chain = some c)
    (henvs : Env.Pursued T S w env env₂ env') (hv : v.Shown w) (hlo : lo ≤ lo₁) (hhi : hi₁ ≤ hi)
    (hbody : ∀ w₁, w.Reaches w₁ → ∀ a, w₁.role? a = some (.scope [param] true) →
      Chases T D (S.within (⟨.handler, a⟩ :: c)) (⟨.handler, a⟩ :: c) lo₁ hi₁ w₁ x y part x' Flowing)
    (hagain : ∀ w₁, w.Reaches w₁ → ∀ a, Reenters T (S.within (⟨.handler, a⟩ :: c)) c [⟨.handler, a⟩]
      lo₁ hi₁ w₁ again (andThen (leaving c)) part) :
    ChasesFrom T D (Activation.tie T S).thrown S c lo hi w (ActM.catching env i c param v x)
      (ActM.catching env₂ i c param v y) again (ActM.catching env' i c param v x') Flowing := by
  have hmake : ∀ {env : Env} {w' : World}, w.Reaches w' → env.Match T w' env' →
      ASim T S.adrift w' (mark env i >>= fun _ =>
          lift (Machine.alloc ((Object.new .plain none).setOwn param v)))
        (mark env' i >>= fun _ => lift (Machine.alloc ((Object.new .plain none).setOwn param v)))
        (Same fun w a => w.role? a = some (.scope [param] true)) :=
    fun hw' henv => both_sim (mark_books _ i) (mark_books env' i) (fun hT => mark_even henv hT i)
      (lift_sim (alloc_handler param (hv.mono hw'.roles)))
  unfold ActM.catching
  simp only [← bind_assoc]
  refine .after (fun w' hw' => hmake hw' (henvs.first.reach hw'))
    (fun hpausing w' hw' => hmake hw' ((henvs.again hpausing).reach hw')) (fun _ _ _ hs => hs)
    fun w₁ hw₁ a a' ha => ?_
  obtain ⟨rfl, ha⟩ := ha
  exact .inScope hS (by simp) hlo hhi (hbody w₁ hw₁ _ ha) (hagain w₁ hw₁ _)

end ChasesFrom

end Resumption
