import Resumption.Proofs.Match.Statements

/-!
# Switches chase

A `switch` that was paused in the body of a case is taken up in this body, without looking for the case
again.  The value that it looked for is stored anyway.
-/

namespace Resumption.Stepper

open Script ActM

variable {T : Terms} {D : Unwind → World → Machine → Value → Machine → Prop} {s : Manner}
  {t : IndexedTree} {S : Stance} {w w' : World} {c : Chain} {env env' env₂ : Env} {i lo hi : Nat}

/-- Where the body of a case stands. -/
def armAt (t : IndexedTree) (i : Nat) (arm : Case) : Nat :=
  if arm.test.isSome then t.after (i + 1) else i + 1

/-- The bodies of cases. -/
def armsOf (env : Env) (t : IndexedTree) : Nat → List Case → List (ActM Flow)
  | _, [] => []
  | i, arm :: rest => execArm env t i arm :: armsOf env t (t.after i) rest

/-- Runs bodies from a number on. -/
def fallThrough : Nat → List (ActM Flow) → ActM Flow
  | _, [] => return .normal
  | 0, x :: xs => x >>= ifNormal (fallThrough 0 xs)
  | k + 1, _ :: xs => fallThrough k xs

theorem execArms_eq (env : Env) (t : IndexedTree) (k i : Nat) (cases : List Case) :
    execArms env t k i cases = fallThrough k (armsOf env t i cases) := by
  induction cases generalizing k i with
  | nil => cases k <;> rfl
  | cons arm rest ih =>
      cases k with
      | zero =>
          rw [execArms, armsOf, fallThrough, ← ih]
          rfl
      | succ k => exact ih k (t.after i)

/-- Each of the bodies chases. -/
def ArmsChase (T : Terms) (D : Unwind → World → Machine → Value → Machine → Prop) (t : IndexedTree)
    (S : Stance) (w : World) (c : Chain) (env₂ env' : Env) : Nat → List Case → List (ActM Flow) → Prop
  | _, [], [] => True
  | i, arm :: rest, x :: xs =>
    Chases T D S c (armAt t i arm) (t.after i) w x (execArm env₂ t i arm) (execArm env₂ t i arm)
      (execArm env' t i arm) Flowing ∧ ArmsChase T D t S w c env₂ env' (t.after i) rest xs
  | _, _, _ => False

theorem ArmsChase.mono {cases : List Case} {xs : List (ActM Flow)} (hw : w.Reaches w')
    (h : ArmsChase T D t S w c env₂ env' i cases xs) : ArmsChase T D t S w' c env₂ env' i cases xs := by
  induction cases generalizing i xs with
  | nil => cases xs <;> exact h
  | cons arm rest ih =>
      cases xs with
      | nil => exact h
      | cons x xs => exact ⟨ChasesFrom.mono hw h.1, ih h.2⟩

/-- Runs the bodies from the case that was found. -/
def runArms (xs : List (ActM Flow)) : Option Nat → ActM Flow
  | none => return .normal
  | some k => fallThrough k xs >>= fun flow => return flow.endSwitch

/-- After a body come the ones behind it. -/
def afterArm (xs : List (ActM Flow)) (flow : Flow) : ActM Flow :=
  ifNormal (fallThrough 0 xs) flow >>= fun flow => return flow.endSwitch

theorem fallThrough_obeyed {P : Policy} (hinvoke : env.invoke.Obeys P) (k i : Nat) (cases : List Case) :
    P.activation.Obeyed (fallThrough k (armsOf env t i cases)) := by
  rw [← execArms_eq]
  exact execArms_obeyed hinvoke k i cases

theorem fallThrough_chases {again : ActM Flow} {cases : List Case} {xs : List (ActM Flow)} (k : Nat)
    (hcounts : T.solo = true → env'.invoke.Obeys .tally)
    (hxs : ArmsChase T D t S w c env₂ env' i cases xs)
    (hagain : ∀ front arm rest j, cases = front ++ arm :: rest → j = t.afterMany front.length i →
      lo ≤ armAt t j arm ∧ t.after j ≤ hi ∧ Reenters T S c [] (armAt t j arm) (t.after j) w again
        (andThen (afterArm (armsOf env₂ t (t.after j) rest))) (execArm env₂ t j arm)) :
    Chases T D S c lo hi w (fallThrough k xs >>= fun flow => pure flow.endSwitch)
      (fallThrough k (armsOf env₂ t i cases) >>= fun flow => pure flow.endSwitch) again
      (fallThrough k (armsOf env' t i cases) >>= fun flow => pure flow.endSwitch) Flowing := by
  induction cases generalizing k i xs with
  | nil =>
      cases xs with
      | cons x xs => exact hxs.elim
      | nil => cases k <;> exact done_chases fun _ _ => trivial
  | cons arm rest ih =>
      cases xs with
      | nil => exact hxs.elim
      | cons x xs =>
          obtain ⟨hx, hxs⟩ := hxs
          have hrest := fun k => ih k hxs fun front arm' rest' j hcases hj =>
            hagain (arm :: front) arm' rest' j (by rw [hcases]; rfl) hj
          cases k with
          | succ k => exact hrest k
          | zero =>
              obtain ⟨hlo, hhi, hhere⟩ := hagain [] arm rest i rfl rfl
              rw [armsOf, armsOf, fallThrough, fallThrough, fallThrough]
              simp only [bind_assoc]
              refine hx.bind hlo hhi hhere (fun flow hsolo => ?_) fun w₁ hw₁ flow flow' hflow => ?_
              · exact (ifNormal_counts (fun hsolo => fallThrough_obeyed (hcounts hsolo) 0 _ rest) flow
                  hsolo).bind fun _ => .pure _
              · obtain ⟨rfl, hflow⟩ := hflow
                cases flow' with
                | normal => exact (hrest 0).mono hw₁
                | ret v => exact done_chases fun w' hw' => hflow.mono hw'.roles
                | brk => exact done_chases fun _ _ => trivial
                | cont => exact done_chases fun _ _ => trivial

theorem resumedCase?_of_mem {front rest : List Case} {arm : Case} {p k i j : Nat}
    (hj : j = t.afterMany front.length i) (hlo : j ≤ p) (hhi : p < t.after j) :
    resumedCase? t (some p) k i (front ++ arm :: rest) = some (k + front.length, j, arm) := by
  induction front generalizing k i with
  | nil =>
      cases hj
      exact if_pos (entering_of_mem hlo hhi)
  | cons first front ih =>
      have hle := t.le_afterMany front.length (t.after i)
      rw [List.length_cons, IndexedTree.afterMany_succ] at hj
      rw [List.cons_append, resumedCase?, entering_of_le (by omega), if_neg Bool.false_ne_true,
        ih hj, List.length_cons, Nat.add_assoc, Nat.add_comm 1]

theorem resumedCase?_none (t : IndexedTree) (k i : Nat) (cases : List Case) :
    resumedCase? t none k i cases = none := by
  induction cases generalizing k i with
  | nil => rfl
  | cons arm rest ih => exact ih (k + 1) (t.after i)

theorem fallThrough_append (front rest : List Case) (i : Nat) :
    fallThrough front.length (armsOf env t i (front ++ rest)) =
      fallThrough 0 (armsOf env t (t.afterMany front.length i) rest) := by
  induction front generalizing i with
  | nil => rfl
  | cons arm front ih => exact ih (t.after i)

/-- The value that a `switch` looks for, before it is stored. -/
def discriminantOf (env : Env) (i : Nat) (discriminant : ActM Value) : ActM Value := do
  let v ← discriminant
  mark env i
  return v

theorem discriminating_bind (env : Env) (i : Nat) (discriminant : ActM Value) (f : Value → ActM Flow) :
    discriminating env i discriminant >>= f = discriminantOf env i discriminant >>= fun v =>
      record env i v >>= fun _ => f v := by
  simp only [discriminating, discriminantOf, bind_assoc, pure_bind]

theorem discriminantOf_sim {x x' : ActM Value} (henv : env.Match T w env') (i : Nat)
    (hx : ASim T S w x x' Valued) :
    ASim T S w (discriminantOf env i x) (discriminantOf env' i x') Valued :=
  .bind hx fun _ _ _ hv => both_sim (mark_books env i) (mark_books env' i)
    (fun hT => mark_even henv hT i) (.pure ⟨rfl, hv⟩)

theorem exec_switch_inside {front rest : List Case} {arm : Case} {e : Expr} {act : Activation}
    {m : Machine} {p j : Nat} {v : Value} (hlt : i < t.after (i + 1))
    (hj : j = t.afterMany front.length (t.after (i + 1))) (hpc : act.pc = some p)
    (hlo : armAt t j arm ≤ p) (hhi : p < t.after j) (hi : p < t.after i)
    (hstored : act.cache.get? (i + 1) = some v) :
    exec env t i (.switch e (front ++ arm :: rest)) (act, m) =
      andThen (afterArm (armsOf env t (t.after j) rest)) (execArm env t j arm (act, m)) := by
  have hle := t.le_afterMany front.length (t.after (i + 1))
  have harm : j < armAt t j arm := by
    have := t.lt_after (j + 1)
    unfold armAt
    split <;> omega
  refine (executing_inside hpc (by omega) hi).trans ?_
  have hresumed : resumedCase? t (some p) 0 (t.after (i + 1)) (front ++ arm :: rest) =
      some (0 + front.length, j, arm) := resumedCase?_of_mem hj (by omega) hhi
  have hdirect : directCase? t (some p) (some (0 + front.length, j, arm)) = some front.length := by
    have hbehind : (arm.test.isNone || !entering t (some p) (j + 1)) = true := by
      unfold armAt at hlo
      cases htest : arm.test with
      | none => rfl
      | some e =>
          rw [htest] at hlo
          rw [entering_of_le hlo]
          rfl
    rw [directCase?, if_pos hbehind, Nat.zero_add]
  have hvalue : switchValue env (i + 1) true (eval env t (i + 1) e) (act, m) = .ok v (act, m) := by
    change EStateM.Result.ok ((act.cache.get? (i + 1)).getD .undefined) (act, m) = _
    rw [hstored]
    rfl
  rw [hresumed, Option.isSome_some, bind_apply, hvalue]
  change (startingCase? env t (some p) v (t.after (i + 1)) (front ++ arm :: rest) >>= _) (act, m) = _
  rw [startingCase?, hresumed]
  simp only [hdirect]
  change (execArms env t front.length (t.after (i + 1)) (front ++ arm :: rest) >>= _) (act, m) = _
  rw [execArms_eq, fallThrough_append, ← hj, armsOf, fallThrough, bind_assoc, bind_apply]
  rfl

theorem switch_chases {e : Expr} {cases : List Case} {xe : ActM Value}
    {xhit : Value → ActM (Option Nat)} {xs : List (ActM Flow)} (h : Chased T s t S w c env env₂ env')
    (hplaced : Placed T s t S.books i (.stmt (.switch e cases))) (hvacant : Vacant S.books (i + 1))
    (hx : Evaluates T t S w env' (i + 1) e xe)
    (hx₂ : S.Pausing T → Evaluates T t S w env' (i + 1) e (eval env₂ t (i + 1) e))
    (hhit : ∀ v u w', w.Reaches w' → ASim T (S.storing (i + 1) v) w' (xhit u)
      (matching? env' t u 0 0 (t.after (i + 1)) cases) Equal)
    (hhit₂ : S.Pausing T → ∀ v u w', w.Reaches w' → ASim T (S.storing (i + 1) v) w'
      (matching? env₂ t u 0 0 (t.after (i + 1)) cases)
      (matching? env' t u 0 0 (t.after (i + 1)) cases) Equal)
    (hxs : ∀ v, ArmsChase T D t (S.storing (i + 1) v) w c env₂ env' (t.after (i + 1)) cases xs) :
    Chases T D S c i (t.after i) w
      (discriminating env (i + 1) xe >>= fun v => xhit v >>= fun hit =>
        runArms xs (hit.or (defaultCase? cases)))
      (discriminating env₂ (i + 1) (eval env₂ t (i + 1) e) >>= fun v =>
        matching? env₂ t v 0 0 (t.after (i + 1)) cases >>= fun hit =>
          runArms (armsOf env₂ t (t.after (i + 1)) cases) (hit.or (defaultCase? cases)))
      (exec env₂ t i (.switch e cases))
      (discriminating env' (i + 1) (eval env' t (i + 1) e) >>= fun v =>
        matching? env' t v 0 0 (t.after (i + 1)) cases >>= fun hit =>
          runArms (armsOf env' t (t.after (i + 1)) cases) (hit.or (defaultCase? cases)))
      Flowing := by
  have hlt := t.lt_after (i + 1)
  have hafter : t.after i = t.afterMany cases.length (t.after (i + 1)) := by
    rw [hplaced.stands.after_eq]
    simp [Node.children, Node.childrenOfStmt, IndexedTree.afterMany_succ]
  simp only [discriminating_bind]
  refine .after (fun w' hw' => discriminantOf_sim (h.envs.first.reach hw') _ (hx w' hw'))
    (fun hpausing w' hw' => discriminantOf_sim ((h.envs.again hpausing).reach hw') _
      (hx₂ hpausing w' hw')) (fun _ _ _ hs => hs) fun w₁ hw₁ v v' hv => ?_
  obtain ⟨rfl, hv⟩ := hv
  have henvs := h.envs.reach hw₁
  refine .after (fun w' hw' => record_storing (henvs.first.reach hw') hvacant henvs.records)
    (fun hpausing w' hw' => record_storing ((henvs.again hpausing).reach hw') hvacant
      fun _ => henvs.records₂ hpausing)
    (fun _ _ _ hs => (S.storing_entails (i + 1) _).thrown hs) fun w₂ hw₂ _ _ _ => ?_
  have hreach := hw₁.trans hw₂
  suffices hstored : ChasesFrom T D _ (S.storing (i + 1) v') _ _ _ _ _ _ _ _ _ from
    hstored.weaken (S.storing_entails _ _)
  refine .after (fun w' hw' => hhit v' v' w' (hreach.trans hw'))
    (fun hpausing w' hw' => hhit₂ hpausing v' v' w' (hreach.trans hw')) (fun _ _ _ hs => hs)
    fun w₃ hw₃ hit hit' heq => ?_
  rw [heq.1]
  generalize hit.or (defaultCase? cases) = found
  cases found with
  | none => exact done_chases fun _ _ => trivial
  | some k =>
      refine fallThrough_chases k h.counts ((hxs v').mono (hreach.trans hw₃))
        fun front arm rest j hcases hj => ?_
      subst hcases
      have hle := t.le_afterMany front.length (t.after (i + 1))
      have hhi : t.after j ≤ t.after i := by
        rw [hafter, List.length_append, IndexedTree.afterMany_add, ← hj]
        exact t.le_afterMany rest.length (t.after j)
      have harm : j < armAt t j arm := by
        have := t.lt_after (j + 1)
        unfold armAt
        split <;> omega
      refine ⟨by omega, hhi, .here fun hpausing _ act m _ p _ _ hp hp' hpc _ hbooks => ?_⟩
      exact exec_switch_inside (by omega) hj hpc hp hp' (by omega) (hbooks.2 hpausing.2)

end Resumption.Stepper
