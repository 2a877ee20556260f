import Resumption.Proofs.Match.Exceptions
import Resumption.Proofs.Match.Halting

/-!
# Statements that chase

Each statement chases if its parts do.  On the left it may be walked, or be what it was lowered to; when
the run has been taken up it is walked in any case.  Here the parts on the left are left open, so both
ways come down to the same.
-/

namespace Resumption

open Script

variable {T : Terms} {D : Unwind → World → Machine → Value → Machine → Prop} {s : Manner}
  {t : IndexedTree} {S : Stance} {w w' : World} {c : Chain} {env env' env₂ : Env} {i lo hi : Nat}

/-- A function runs on the left somehow; once it has been taken up its tree is walked, as it is on the
right. -/
structure Chased (T : Terms) (s : Manner) (t : IndexedTree) (S : Stance) (w : World) (c : Chain)
    (env env₂ env' : Env) : Prop where
  scene : Scene T S w c env env'
  fuel : T.Fuels env₂.fuel env'.fuel
  records : ¬ S.args → env.records = true
  free : s = .free → env.records = false
  bare : s = .top ∨ s = .apart ∨ s = .script ∧ T.solo = true → ¬ S.args
  dooms : T.solo = true → T.pauses = .left ∧ (S.doomed ↔ s.opens = false)
  walked : S.Pausing T → Walked T s t S w c env₂ env'

namespace Chased

theorem reach (hw : w.Reaches w') (h : Chased T s t S w c env env₂ env') :
    Chased T s t S w' c env env₂ env' :=
  { h with
    scene := h.scene.reach hw
    walked := fun hpausing => (h.walked hpausing).reach hw }

theorem envs (h : Chased T s t S w c env env₂ env') : Env.Pursued T S w env env₂ env' where
  first := h.scene.envs
  again hpausing := (h.walked hpausing).envs
  fuel := h.fuel
  records := h.records
  records₂ hpausing := by
    by_cases hs : s = .free
    · exact absurd ((h.walked hpausing).free hs).2.1 hpausing.2
    · exact ((h.walked hpausing).kept hs).1

/-- Where scopes may be made exceptions may be caught. -/
theorem catches (h : Chased T s t S w c env env₂ env') (hopens : s.opens = true) :
    T.solo = true → ¬ S.doomed := by
  intro hsolo hdoomed
  have hnone := (h.dooms hsolo).2.1 hdoomed
  rw [hopens] at hnone
  cases hnone

theorem counts (h : Chased T s t S w c env env₂ env') (hsolo : T.solo = true) :
    env'.invoke.Obeys .tally :=
  h.scene.envs.counts hsolo

end Chased

namespace Stepper

open ActM

/-- An expression chases. -/
abbrev EvalChases (T : Terms) (D : Unwind → World → Machine → Value → Machine → Prop) (t : IndexedTree)
    (S : Stance) (w : World) (c : Chain) (env₂ env' : Env) (i : Nat) (e : Expr) (x : ActM Value) : Prop :=
  Chases T D S c i (t.after i) w x (eval env₂ t i e) (eval env₂ t i e) (eval env' t i e) Valued

/-- A statement chases. -/
abbrev ExecChases (T : Terms) (D : Unwind → World → Machine → Value → Machine → Prop) (t : IndexedTree)
    (S : Stance) (w : World) (c : Chain) (env₂ env' : Env) (i : Nat) (stmt : Stmt) (x : ActM Flow) : Prop :=
  Chases T D S c i (t.after i) w x (exec env₂ t i stmt) (exec env₂ t i stmt) (exec env' t i stmt) Flowing

/-! ## In front of a statement -/

theorem executing_fresh {act : Activation} {m : Machine} {stmt : Stmt} {body : Option Nat → ActM Flow}
    (hpc : act.pc = none) (hhook : m.hook = none) :
    executing env t i stmt body (act, m) = body none (act, m) := by
  rw [executing_apply (resumeState_fresh t i m hpc), found, bind_apply,
    haltCheck_unhooked env t i stmt act hhook]
  rfl

variable {stmt : Stmt} {x : ActM Flow} {B : Env → Option Nat → ActM Flow}

/-- On the left is what the statement was lowered to. -/
theorem lowered (h : Chased T s t S w c env env₂ env') (hplaced : Placed T s t S.books i (.stmt stmt))
    (hform : ∀ env, exec env t i stmt = executing env t i stmt (B env))
    (hbody : Chases T D S c i (t.after i) w x (B env₂ none) (exec env₂ t i stmt) (B env' none) Flowing) :
    ExecChases T D t S w c env₂ env' i stmt x := by
  have hright : ∀ w s s', (Activation.tie T S).holds w s s' →
      exec env' t i stmt s' = B env' none s' := fun w s s' hs => by
    rw [hform]
    exact executing_fresh hs.1.pc.2 hs.2.unhooked
  refine ChasesFrom.congr (y := exec env₂ t i stmt) (fun w₁ hw₁ => ⟨(hbody w₁ hw₁).1, fun hpausing => ?_⟩)
    (fun _ _ _ _ => rfl) (fun _ _ _ _ _ => rfl) hright
  have hagain := hform env₂ ▸ hbody
  have hfollows := executing_follows ((h.walked hpausing).reach hw₁) hplaced
    ((hagain w₁ hw₁).2 hpausing) fun _ w' hw' => (hagain w' (hw₁.trans hw')).2 hpausing
  rw [hform]
  exact hfollows

/-- On the left the statement is walked. -/
theorem walked (hwalked : Walked T s t S w c env env') (h : Chased T s t S w c env env₂ env')
    (hplaced : Placed T s t S.books i (.stmt stmt))
    (hform : ∀ env, exec env t i stmt = executing env t i stmt (B env))
    (hbody : Chases T D S c i (t.after i) w (B env none) (B env₂ none) (exec env₂ t i stmt)
      (B env' none) Flowing) :
    ExecChases T D t S w c env₂ env' i stmt (exec env t i stmt) := by
  have hresumed := lowered h hplaced hform hbody
  have hright : ∀ w s s', (Activation.tie T S).holds w s s' →
      exec env' t i stmt s' = B env' none s' := fun w s s' hs => by
    rw [hform]
    exact executing_fresh hs.1.pc.2 hs.2.unhooked
  refine fun w₁ hw₁ => ⟨?_, (hresumed w₁ hw₁).2⟩
  intro s s' hs
  have hagain := hform env₂ ▸ hbody
  have hfollows := executing_follows (hwalked.reach hw₁) hplaced
    (hagain w₁ hw₁).1 fun hpausing w' hw' => (hagain w' (hw₁.trans hw')).2 hpausing
  rw [hright _ _ _ hs, hform env, hform env₂]
  exact hfollows s s' hs

/-- A statement without parts. -/
theorem done_chases {again : ActM Flow} {flow : Flow} (hflow : ∀ w', w.Reaches w' → flow.Shown w') :
    Chases T D S c lo hi w (pure flow) (pure flow) again (pure flow) Flowing :=
  .of_sim (fun w' hw' => Sim.pure ⟨rfl, hflow w' hw'⟩) fun _ w' hw' => Sim.pure ⟨rfl, hflow w' hw'⟩

/-! ## Parts -/

/-- A statement is taken up in a part in which it does nothing else. -/
theorem reenters_exec {β : Type} {part : ActM β} {G : ActResult β → ActResult Flow} {lo hi : Nat}
    {body : Option Nat → ActM Flow} (hform : exec env₂ t i stmt = executing env₂ t i stmt body) (hlo : i < lo) (hhi : hi ≤ t.after i)
    (h : ∀ p, lo ≤ p → p < hi → ∀ s, body (some p) s = G (part s)) :
    Reenters T S c [] lo hi w (exec env₂ t i stmt) G part := by
  refine .here fun _ _ act m _ p _ _ hp hp' hpc _ _ => ?_
  rw [hform, executing_inside hpc (Nat.lt_of_lt_of_le hlo hp) (Nat.lt_of_lt_of_le hp' hhi)]
  exact h p hp hp' (act, m)

/-! ## Statements one after the other -/

/-- What comes after a statement that has ended as usual. -/
def ifNormal (next : ActM Flow) : Flow → ActM Flow
  | .normal => next
  | abrupt => return abrupt

theorem execList_eq (env : Env) (t : IndexedTree) (i : Nat) (stmt : Stmt) (rest : List Stmt) :
    execList env t i (stmt :: rest) = exec env t i stmt >>= ifNormal (execList env t (t.after i) rest) := by
  rw [execList]
  rfl

theorem ifNormal_chases {xs ys again xs' : ActM Flow} {flow : Flow} (hflow : flow.Shown w)
    (hxs : Chases T D S c lo hi w xs ys again xs' Flowing) :
    Chases T D S c lo hi w (ifNormal xs flow) (ifNormal ys flow) again (ifNormal xs' flow) Flowing := by
  cases flow with
  | normal => exact hxs
  | _ => exact done_chases fun w' hw' => hflow.mono hw'.roles

theorem ifNormal_counts {next : ActM Flow} (h : T.Counts next) (flow : Flow) :
    T.Counts (ifNormal next flow) := by
  intro hsolo
  cases flow with
  | normal => exact h hsolo
  | _ => exact .pure _

theorem execList_chases {rest : List Stmt} {xs : ActM Flow} (h : Chased T s t S w c env env₂ env')
    (hhi : t.after i ≤ hi) (hx : ExecChases T D t S w c env₂ env' i stmt x)
    (hxs : Chases T D S c (t.after i) hi w xs (execList env₂ t (t.after i) rest)
      (execList env₂ t (t.after i) rest) (execList env' t (t.after i) rest) Flowing) :
    Chases T D S c i hi w (x >>= ifNormal xs) (execList env₂ t i (stmt :: rest))
      (execList env₂ t i (stmt :: rest)) (execList env' t i (stmt :: rest)) Flowing := by
  have hlt := t.lt_after i
  have hpassed : Reenters T S c [] (t.after i) hi w (execList env₂ t i (stmt :: rest)) id
      (execList env₂ t (t.after i) rest) :=
    .here fun _ _ _ _ _ _ _ _ hp _ hpc _ _ => execList_passed hpc hp
  simp only [execList_eq] at hpassed ⊢
  refine hx.bind (Nat.le_refl i) hhi (.here fun _ _ _ _ _ _ _ _ _ _ _ _ _ => bind_apply _ _ _)
    (ifNormal_counts fun hsolo => execList_obeyed (h.counts hsolo) _ rest) fun w₁ hw₁ flow _ hflow => ?_
  obtain ⟨rfl, hflow⟩ := hflow
  exact ifNormal_chases hflow ((hxs.mono hw₁).widen (Nat.le_of_lt hlt) (Nat.le_refl hi)
    (hpassed.mono hw₁))

theorem block_chases {body : List Stmt} (hx : Chases T D S c (i + 1) (t.after i) w x
      (execList env₂ t (i + 1) body) (execList env₂ t (i + 1) body) (execList env' t (i + 1) body)
      Flowing) :
    Chases T D S c i (t.after i) w x (execList env₂ t (i + 1) body) (exec env₂ t i (.block body))
      (execList env' t (i + 1) body) Flowing :=
  hx.widen (Nat.le_succ i) (Nat.le_refl _) (reenters_exec rfl (Nat.lt_succ_self i)
    (Nat.le_refl _) fun _ _ _ _ => rfl)

/-! ## Statements with an expression -/

section
variable {e : Expr} {xe : ActM Value}

/-- A value that is found without pauses, in every later world. -/
abbrev Evaluates (T : Terms) (t : IndexedTree) (S : Stance) (w : World) (env' : Env) (i : Nat) (e : Expr)
    (x : ActM Value) : Prop :=
  ∀ w', w.Reaches w' → ASim T S w' x (eval env' t i e) Valued

theorem evaluates_again (h : Chased T s t S w c env env₂ env')
    (hcalm : Calmly T s t S.books i (.expr e)) :
    S.Pausing T → Evaluates T t S w env' i e (eval env₂ t i e) :=
  fun hpausing _ hw' => eval_sim ((h.walked hpausing).reach hw') i e hcalm

theorem expr_chases (hplaced : Placed T s t S.books i (.stmt (.expr e)))
    (hx : EvalChases T D t S w c env₂ env' (i + 1) e xe) :
    Chases T D S c i (t.after i) w (xe >>= fun _ => pure .normal)
      (eval env₂ t (i + 1) e >>= fun _ => pure .normal) (exec env₂ t i (.expr e))
      (eval env' t (i + 1) e >>= fun _ => pure .normal) Flowing := by
  have hafter : t.after i = t.after (i + 1) := hplaced.stands.after_eq
  refine hx.bind (Nat.le_succ i) (Nat.le_of_eq hafter.symm) (reenters_exec rfl (Nat.lt_succ_self i)
    (Nat.le_of_eq hafter.symm) fun _ _ _ => bind_apply _ _)
    (fun _ _ => .pure _) fun w₁ _ _ _ _ => done_chases fun _ _ => trivial

theorem throwing_chases (hplaced : Placed T s t S.books i (.stmt (.throwing e)))
    (hx : EvalChases T D t S w c env₂ env' (i + 1) e xe) :
    Chases T D S c i (t.after i) w (xe >>= fun v => lift (Machine.throwValue v))
      (eval env₂ t (i + 1) e >>= fun v => lift (Machine.throwValue v)) (exec env₂ t i (.throwing e))
      (eval env' t (i + 1) e >>= fun v => lift (Machine.throwValue v)) Flowing := by
  have hafter : t.after i = t.after (i + 1) := hplaced.stands.after_eq
  refine hx.bind (Nat.le_succ i) (Nat.le_of_eq hafter.symm) (reenters_exec rfl (Nat.lt_succ_self i)
    (Nat.le_of_eq hafter.symm) fun _ _ _ => bind_apply _ _)
    (fun v _ => Policy.tally.lift (Machine.throwValue_obeyed v)) fun w₁ _ v v' hv => ?_
  obtain ⟨rfl, hv⟩ := hv
  have hthrow : ∀ w', w₁.Reaches w' → ASim T S w' (lift (Machine.throwValue v' : MachineM Flow))
      (lift (Machine.throwValue v' : MachineM Flow)) Flowing :=
    fun w' hw' => lift_sim (Machine.throwValue_sim (hv.mono hw'.roles))
  exact .of_sim hthrow fun _ => hthrow

/-- Where exceptions are not caught nothing more is said of a run that throws one. -/
theorem doomed_chases {x y again : ActM Flow} (hsolo : T.solo = true) (hpauses : T.pauses = .left)
    (hdoomed : S.doomed) (xe : ActM Value) :
    Chases T D S c lo hi w x y again (xe >>= fun v => lift (Machine.throwValue v)) Flowing := by
  have hexcused : ∀ s', Excused T S
      ((xe >>= fun v => lift (Machine.throwValue v : MachineM Flow)) s') := by
    intro s'
    rw [bind_apply]
    refine ⟨hsolo, hpauses, ?_⟩
    cases xe s' with
    | ok v s₁ => exact .inr (.inl hdoomed)
    | error stop s₁ =>
        cases stop with
        | unwind u => exact .inr (.inl hdoomed)
        | exhausted => trivial
  exact fun _ _ => ⟨fun _ s' _ => .excused (hexcused s'), fun _ _ s' _ => .excused (hexcused s')⟩

theorem ret_chases {value : Option Expr} (hplaced : Placed T s t S.books i (.stmt (.ret value)))
    (hx : ∀ e, value = some e → EvalChases T D t S w c env₂ env' (i + 1) e xe)
    (hnone : value = none → xe = pure .undefined) :
    Chases T D S c i (t.after i) w (xe >>= fun v => pure (.ret v))
      (evalOptional env₂ t (i + 1) value >>= fun v => pure (.ret v)) (exec env₂ t i (.ret value))
      (evalOptional env' t (i + 1) value >>= fun v => pure (.ret v)) Flowing := by
  cases value with
  | none =>
      rw [hnone rfl]
      simp only [evalOptional, pure_bind]
      exact done_chases fun _ _ => trivial
  | some e =>
      have hafter : t.after i = t.after (i + 1) := hplaced.stands.after_eq
      refine (hx e rfl).bind (Nat.le_succ i) (Nat.le_of_eq hafter.symm) (reenters_exec rfl
        (Nat.lt_succ_self i) (Nat.le_of_eq hafter.symm) fun _ _ _ => bind_apply _ _)
        (fun _ _ => .pure _) fun w₁ _ v v' hv => ?_
      obtain ⟨rfl, hv⟩ := hv
      exact done_chases fun w' hw' => hv.mono hw'.roles

/-! ## Branches -/

/-- Branches on a value. -/
def ifTruthy (y z : ActM Flow) (v : Value) : ActM Flow := if v.truthy then y else z

theorem branch_chases {cons : Stmt} {alt : Option Stmt} {y z : ActM Flow}
    (h : Chased T s t S w c env env₂ env')
    (hplaced : Placed T s t S.books i (.stmt (.branch e cons alt)))
    (hx : EvalChases T D t S w c env₂ env' (i + 1) e xe)
    (hy : ExecChases T D t S w c env₂ env' (t.after (i + 1)) cons y)
    (hz : ∀ stmt, alt = some stmt →
      ExecChases T D t S w c env₂ env' (t.after (t.after (i + 1))) stmt z)
    (hnone : alt = none → z = pure .normal) :
    Chases T D S c i (t.after i) w (xe >>= ifTruthy y z)
      (eval env₂ t (i + 1) e >>= ifTruthy (exec env₂ t (t.after (i + 1)) cons)
        (execOptional env₂ t (t.after (t.after (i + 1))) alt))
      (exec env₂ t i (.branch e cons alt))
      (eval env' t (i + 1) e >>= ifTruthy (exec env' t (t.after (i + 1)) cons)
        (execOptional env' t (t.after (t.after (i + 1))) alt)) Flowing := by
  have hlt := t.lt_after (i + 1)
  have hlt₂ := t.lt_after (t.after (i + 1))
  have hafter : t.after i = if alt.isSome then t.after (t.after (t.after (i + 1)))
      else t.after (t.after (i + 1)) := by
    rw [hplaced.stands.after_eq]
    cases alt <;> rfl
  have hlt₃ : t.after (t.after (i + 1)) ≤ t.after i := by
    rw [hafter]
    split
    · exact Nat.le_of_lt (t.lt_after _)
    · exact Nat.le_refl _
  refine hx.bind (Nat.le_succ i) (by omega) (reenters_exec rfl (Nat.lt_succ_self i) (by omega)
    fun _ _ hp s => ?_)
    (fun v hsolo => ?_) fun w₁ hw₁ v v' hv => ?_
  · rw [entering_of_lt hp, entering_of_lt (by omega), Bool.and_false]
    exact bind_apply _ _ _
  · rw [ifTruthy]
    split
    · exact exec_obeyed (h.counts hsolo) _ cons
    · exact execOptional_obeyed (h.counts hsolo) _ alt
  · rw [hv.1, ifTruthy, ifTruthy, ifTruthy]
    split
    · refine (hy.mono hw₁).widen (by omega) (by omega) (reenters_exec rfl (by omega) (by omega)
        fun _ hp hp' s => ?_)
      rw [entering_of_mem hp hp']
      rfl
    · cases alt with
      | none =>
          rw [hnone rfl]
          exact done_chases fun _ _ => trivial
      | some alt =>
          refine ((hz alt rfl).mono hw₁).widen (by omega) (Nat.le_of_eq hafter.symm)
            (reenters_exec rfl (by omega) (Nat.le_of_eq hafter.symm) fun _ hp hp' s => ?_)
          rw [entering_of_le hp, entering_of_mem hp hp']
          rfl

end

end Stepper

end Resumption
