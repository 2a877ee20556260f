import Resumption.Proofs.Match.Statements

/-!
# Loops that chase

A loop that was paused in its body is taken up there, and then it goes on with further turns.  The keys of
a `for-in` are stored for that.
-/

namespace Resumption.Stepper

open Script ActM

variable {T : Terms} {D : Unwind → World → Machine → Value → Machine → Prop} {s : Manner}
  {t : IndexedTree} {S : Stance} {w w' : World} {c : Chain} {env env' env₂ : Env} {i lo hi : Nat}
  {e : Expr} {xe : ActM Value} {y : ActM Flow} {body : Stmt}

/-- The loop is left. -/
theorem leave_chases {again : ActM (Option Flow)} :
    Chases T D S c lo hi w (pure (some .normal)) (pure (some .normal)) again (pure (some .normal))
      Turning := by
  have hleave : ∀ w', ASim T S w' (pure (some .normal)) (pure (some .normal)) Turning :=
    fun w' => .pure ⟨rfl, fun flow hflow => by cases hflow; trivial⟩
  exact .of_sim (fun w' _ => hleave w') fun _ w' _ => hleave w'

theorem whileLoop_chases (h : Chased T s t S w c env env₂ env')
    (hplaced : Placed T s t S.books i (.stmt (.whileLoop e body)))
    (hcalm : Calmly T s t S.books (i + 1) (.expr e)) (hx : Evaluates T t S w env' (i + 1) e xe)
    (hy : ExecChases T D t S w c env₂ env' (t.after (i + 1)) body y) :
    Chases T D S c i (t.after i) w (turning (whileTurn xe y) (whileTurn xe y) env.fuel)
      (turning (whileTurn (eval env₂ t (i + 1) e) (exec env₂ t (t.after (i + 1)) body))
        (whileTurn (eval env₂ t (i + 1) e) (exec env₂ t (t.after (i + 1)) body)) env₂.fuel)
      (exec env₂ t i (.whileLoop e body))
      (turning (whileTurn (eval env' t (i + 1) e) (exec env' t (t.after (i + 1)) body))
        (whileTurn (eval env' t (i + 1) e) (exec env' t (t.after (i + 1)) body)) env'.fuel)
      Flowing := by
  have hlt := t.lt_after (i + 1)
  have hafter : t.after i = t.after (t.after (i + 1)) := hplaced.stands.after_eq
  have hturn : Chases T D S c (t.after (i + 1)) (t.after (t.after (i + 1))) w (whileTurn xe y)
      (whileTurn (eval env₂ t (i + 1) e) (exec env₂ t (t.after (i + 1)) body))
      (bodyThen (exec env₂ t (t.after (i + 1)) body) endTurn)
      (whileTurn (eval env' t (i + 1) e) (exec env' t (t.after (i + 1)) body)) Turning := by
    refine .after hx (evaluates_again h hcalm) (fun _ _ _ hs => hs) fun w₁ hw₁ v v' hv => ?_
    rw [hv.1]
    split
    · exact (hy.mono hw₁).bodyThen (fun _ => endTurn_obeyed) (fun _ _ => endTurn_sim)
        fun _ _ _ => endTurn_sim
    · exact leave_chases
  refine (ChasesFrom.turning hturn hturn (fun hsolo => whileTurn_obeyed (eval_obeyed (h.counts hsolo) _ e)
    (exec_obeyed (h.counts hsolo) _ body)) h.scene.envs.fuel h.fuel).widen (by omega)
    (Nat.le_of_eq hafter.symm) (reenters_exec rfl (by omega) (Nat.le_of_eq hafter.symm)
      fun _ hp hp' s => ?_)
  rw [entering_of_mem hp hp']
  rfl

theorem doLoop_chases (h : Chased T s t S w c env env₂ env')
    (hplaced : Placed T s t S.books i (.stmt (.doLoop body e)))
    (hcalm : Calmly T s t S.books (t.after (i + 1)) (.expr e))
    (hx : Evaluates T t S w env' (t.after (i + 1)) e xe)
    (hy : ExecChases T D t S w c env₂ env' (i + 1) body y) :
    Chases T D S c i (t.after i) w (turning (doTurn y xe) (doTurn y xe) env.fuel)
      (turning (doTurn (exec env₂ t (i + 1) body) (eval env₂ t (t.after (i + 1)) e))
        (doTurn (exec env₂ t (i + 1) body) (eval env₂ t (t.after (i + 1)) e)) env₂.fuel)
      (exec env₂ t i (.doLoop body e))
      (turning (doTurn (exec env' t (i + 1) body) (eval env' t (t.after (i + 1)) e))
        (doTurn (exec env' t (i + 1) body) (eval env' t (t.after (i + 1)) e)) env'.fuel)
      Flowing := by
  have hlt := t.lt_after (t.after (i + 1))
  have hafter : t.after i = t.after (t.after (i + 1)) := hplaced.stands.after_eq
  have htest : ∀ {x : ActM Value}, Evaluates T t S w env' (t.after (i + 1)) e x → ∀ w', w.Reaches w' →
      ASim T S w' (testTurn x) (testTurn (eval env' t (t.after (i + 1)) e)) Turning := by
    intro x hx w' hw'
    refine .bind (hx w' hw') fun w₁ _ v _ => ?_
    split
    · exact endTurn_sim
    · exact .pure ⟨rfl, fun flow hflow => by cases hflow; trivial⟩
  have hturn : Chases T D S c (i + 1) (t.after (i + 1)) w (doTurn y xe)
      (doTurn (exec env₂ t (i + 1) body) (eval env₂ t (t.after (i + 1)) e))
      (doTurn (exec env₂ t (i + 1) body) (eval env₂ t (t.after (i + 1)) e))
      (doTurn (exec env' t (i + 1) body) (eval env' t (t.after (i + 1)) e)) Turning :=
    hy.bodyThen (fun hsolo => testTurn_obeyed (eval_obeyed (h.counts hsolo) _ e)) (htest hx)
      fun hpausing => htest (evaluates_again h hcalm hpausing)
  refine (ChasesFrom.turning hturn hturn (fun hsolo => doTurn_obeyed (exec_obeyed (h.counts hsolo) _ body)
    (eval_obeyed (h.counts hsolo) _ e)) h.scene.envs.fuel h.fuel).widen (Nat.le_succ i) (by omega)
    (reenters_exec rfl (Nat.lt_succ_self i) (by omega) fun _ _ hp' s => ?_)
  rw [entering_of_lt hp']
  rfl

/-! ### Loops with an update -/

/-- Where the parts of a `for` stand. -/
structure ForParts (t : IndexedTree) (i testAt updateAt bodyAt : Nat) (init : ForInit)
    (test update : Option Expr) : Prop where
  test_at : testAt = t.afterMany init.count (i + 1)
  update_at : updateAt = if test.isSome then t.after testAt else testAt
  body_at : bodyAt = if update.isSome then t.after updateAt else updateAt

variable {testAt updateAt bodyAt : Nat} {init : ForInit} {test update : Option Expr}

theorem ForParts.le (h : ForParts t i testAt updateAt bodyAt init test update) :
    i < testAt ∧ testAt ≤ updateAt ∧ updateAt ≤ bodyAt := by
  have hinit := t.le_afterMany init.count (i + 1)
  have htest := t.lt_after testAt
  have hupdate := t.lt_after updateAt
  refine ⟨by rw [h.test_at]; omega, ?_, ?_⟩
  · rw [h.update_at]
    split <;> omega
  · rw [h.body_at]
    split <;> omega

theorem ForParts.after_eq (h : ForParts t i testAt updateAt bodyAt init test update)
    (hplaced : Placed T s t S.books i (.stmt (.forLoop init test update body))) :
    t.after i = t.after bodyAt := by
  have hcount : ∀ (e : Option Expr) j, t.afterMany (Node.ofExpr? e).length j =
      if e.isSome then t.after j else j := fun e j => by cases e <;> rfl
  have hinit : ∀ k, t.after i = t.afterMany (init.count + k) (i + 1) →
      t.after i = t.afterMany k testAt := fun k hk => by rw [hk, IndexedTree.afterMany_add, h.test_at]
  have hall := hplaced.stands.after_eq
  rw [hinit ((Node.ofExpr? test).length + ((Node.ofExpr? update).length + 1)) (by
    rw [hall]
    cases init <;> simp [Node.children, Node.childrenOfStmt, ForInit.count, Nat.add_comm,
      Nat.add_left_comm]),
    IndexedTree.afterMany_add, hcount, ← h.update_at, IndexedTree.afterMany_add, hcount, ← h.body_at]
  rfl

/-- The phase of a `for` that is taken up in front of its test. -/
theorem ForParts.ofEntry_init (h : ForParts t i testAt updateAt bodyAt init test update) {p : Nat}
    (hp : p < testAt) : Phase.ofEntry t (some p) test update testAt updateAt bodyAt = .init := by
  obtain ⟨-, htest, hupdate⟩ := h.le
  rw [Phase.ofEntry, entering_of_lt (by omega), entering_of_lt (by omega), entering_of_lt hp]
  simp

theorem forLoop_chases {xinit : ActM Unit} {xtest : ActM Bool} {xupdate : ActM Value}
    (h : Chased T s t S w c env env₂ env')
    (hplaced : Placed T s t S.books i (.stmt (.forLoop init test update body)))
    (hparts : ForParts t i testAt updateAt bodyAt init test update)
    (hinit : Chases T D S c (i + 1) testAt w xinit (enterLoop env₂ t (i + 1) init)
      (enterLoop env₂ t (i + 1) init) (enterLoop env' t (i + 1) init) Equal)
    (htest : ∀ w', w.Reaches w' → ASim T S w' xtest (testLoop env' t testAt test) Equal)
    (htest₂ : S.Pausing T → ∀ w', w.Reaches w' →
      ASim T S w' (testLoop env₂ t testAt test) (testLoop env' t testAt test) Equal)
    (hupdate : ∀ w', w.Reaches w' → ASim T S w' xupdate (evalOptional env' t updateAt update) Valued)
    (hupdate₂ : S.Pausing T → ∀ w', w.Reaches w' →
      ASim T S w' (evalOptional env₂ t updateAt update) (evalOptional env' t updateAt update) Valued)
    (hy : ExecChases T D t S w c env₂ env' bodyAt body y) :
    Chases T D S c i (t.after i) w
      (xinit >>= fun _ => turning (forTurn xtest y xupdate) (forTurn xtest y xupdate) env.fuel)
      (enterLoop env₂ t (i + 1) init >>= fun _ =>
        turning (forTurn (testLoop env₂ t testAt test) (exec env₂ t bodyAt body)
            (evalOptional env₂ t updateAt update))
          (forTurn (testLoop env₂ t testAt test) (exec env₂ t bodyAt body)
            (evalOptional env₂ t updateAt update)) env₂.fuel)
      (exec env₂ t i (.forLoop init test update body))
      (enterLoop env' t (i + 1) init >>= fun _ =>
        turning (forTurn (testLoop env' t testAt test) (exec env' t bodyAt body)
            (evalOptional env' t updateAt update))
          (forTurn (testLoop env' t testAt test) (exec env' t bodyAt body)
            (evalOptional env' t updateAt update)) env'.fuel)
      Flowing := by
  obtain ⟨hlt, hle, hle₂⟩ := hparts.le
  have hlt₂ := t.lt_after bodyAt
  have hafter := hparts.after_eq hplaced
  have hnext : ∀ {x : ActM Value}, (∀ w', w.Reaches w' →
      ASim T S w' x (evalOptional env' t updateAt update) Valued) → ∀ w', w.Reaches w' →
      ASim T S w' (updateTurn x) (updateTurn (evalOptional env' t updateAt update)) Turning :=
    fun hx w' hw' => .bind (hx w' hw') fun _ _ _ _ => endTurn_sim
  have hturn : Chases T D S c bodyAt (t.after bodyAt) w (forTurn xtest y xupdate)
      (forTurn (testLoop env₂ t testAt test) (exec env₂ t bodyAt body)
        (evalOptional env₂ t updateAt update))
      (bodyThen (exec env₂ t bodyAt body) (updateTurn (evalOptional env₂ t updateAt update)))
      (forTurn (testLoop env' t testAt test) (exec env' t bodyAt body)
        (evalOptional env' t updateAt update)) Turning := by
    refine .after htest htest₂ (fun _ _ _ hs => hs) fun w₁ hw₁ goes goes' hgoes => ?_
    rw [hgoes.1]
    split
    · exact (hy.mono hw₁).bodyThen
        (fun hsolo => updateTurn_obeyed (evalOptional_obeyed (h.counts hsolo) _ update))
        (fun w' hw' => hnext hupdate w' (hw₁.trans hw'))
        fun hpausing w' hw' => hnext (hupdate₂ hpausing) w' (hw₁.trans hw')
    · exact leave_chases
  have hcounts : T.Counts (forTurn (testLoop env' t testAt test) (exec env' t bodyAt body)
      (evalOptional env' t updateAt update)) := fun hsolo =>
    forTurn_obeyed (testLoop_obeyed (h.counts hsolo) _ test) (exec_obeyed (h.counts hsolo) _ body)
      (evalOptional_obeyed (h.counts hsolo) _ update)
  refine hinit.bind (Nat.le_succ i) (by omega) (reenters_exec rfl (Nat.lt_succ_self i) (by omega)
    fun p _ hp s => ?_) (fun _ hsolo => turning_obeyed (hcounts hsolo) (hcounts hsolo) _)
    fun w₁ hw₁ _ _ _ => ?_
  · have hphase := hparts.ofEntry_init hp
    cases hparts.test_at
    cases hparts.update_at
    cases hparts.body_at
    rw [hphase]
    exact bind_apply _ _ _
  · refine (ChasesFrom.turning (hturn.mono hw₁) (hturn.mono hw₁) hcounts h.scene.envs.fuel h.fuel).widen
      (by omega) (Nat.le_of_eq hafter.symm) (reenters_exec rfl (by omega) (Nat.le_of_eq hafter.symm)
        fun p hp hp' s => ?_)
    have hphase : Phase.ofEntry t (some p) test update testAt updateAt bodyAt = .body := by
      rw [Phase.ofEntry, if_pos (entering_of_mem hp hp')]
    cases hparts.test_at
    cases hparts.update_at
    cases hparts.body_at
    rw [hphase]
    rfl

/-! ### Loops over keys -/

/-- The keys of what is enumerated, before they are stored. -/
def queueOf (env : Env) (i : Nat) (object : ActM Value) : ActM Value := do
  let object ← object
  mark env i
  lift (KeyQueue.make object)

theorem keyQueue_bind (env : Env) (i : Nat) (object : ActM Value) (f : Value → ActM Flow) :
    keyQueue env i object >>= f = queueOf env i object >>= fun keys => record env i keys >>= fun _ =>
      f keys := by
  simp only [keyQueue, queueOf, bind_assoc, pure_bind]

theorem queueOf_sim {object object' : ActM Value} (henv : env.Match T w env') (i : Nat)
    (hobject : ASim T S w object object' Valued) :
    ASim T S w (queueOf env i object) (queueOf env' i object') Valued :=
  .bind hobject fun _ _ _ _ => both_sim (mark_books env i) (mark_books env' i)
    (fun hT => mark_even henv hT i) (lift_sim make_sim)

theorem keyTurn_chases {assign assign₂ assign' : Value → ActM Unit} {keys : Value}
    (hkeys : keys.Shown w)
    (hassign : ∀ w', w.Reaches w' → ∀ key, key.Shown w' →
      ASim T S w' (assign key) (assign' key) Equal)
    (hassign₂ : S.Pausing T → ∀ w', w.Reaches w' → ∀ key, key.Shown w' →
      ASim T S w' (assign₂ key) (assign' key) Equal)
    (hy : ExecChases T D t S w c env₂ env' i body y) :
    Chases T D S c i (t.after i) w (keyTurn keys assign y) (keyTurn keys assign₂ (exec env₂ t i body))
      (keyBody keys (exec env₂ t i body)) (keyTurn keys assign' (exec env' t i body)) Turning := by
  have hfront : ∀ w', w.Reaches w' → ASim T S w' (lift (KeyQueue.front? keys))
      (lift (KeyQueue.front? keys)) (Same fun w key => ∀ v, key = some v → v.Shown w) :=
    fun w' hw' => lift_sim (front?_sim (hkeys.mono hw'.roles))
  have hnext : ∀ w', w.Reaches w' → ASim T S w' (lift (KeyQueue.shift keys) >>= fun _ => endTurn)
      (lift (KeyQueue.shift keys) >>= fun _ => endTurn) Turning :=
    fun w' hw' => .bind (lift_sim (shift_sim (hkeys.mono hw'.roles))) fun _ _ _ _ => endTurn_sim
  have hshift : T.Counts (lift (KeyQueue.shift keys) >>= fun _ => endTurn) := fun _ => by
    refine (Policy.tally.lift ?_).bind fun _ => endTurn_obeyed
    unfold KeyQueue.shift
    split
    · exact Machine.changeItems_obeyed _ _ _
    · exact .pure _
  refine .after hfront (fun _ => hfront) (fun _ _ _ hs => hs) fun w₁ hw₁ key key' hkey => ?_
  obtain ⟨rfl, hkey⟩ := hkey
  cases key' with
  | none => exact leave_chases
  | some key =>
      have hshown : ∀ w', w₁.Reaches w' → key.Shown w' := fun w' hw' => (hkey key rfl).mono hw'.roles
      refine .after (fun w' hw' => hassign w' (hw₁.trans hw') key (hshown w' hw'))
        (fun hpausing w' hw' => hassign₂ hpausing w' (hw₁.trans hw') key (hshown w' hw'))
        (fun _ _ _ hs => hs) fun w₂ hw₂ _ _ _ => ?_
      have hreach := hw₁.trans hw₂
      exact (hy.mono hreach).bodyThen hshift (fun w' hw' => hnext w' (hreach.trans hw'))
        fun _ w' hw' => hnext w' (hreach.trans hw')

theorem forIn_chases {left : ForTarget} {right : Expr} {xassign : Value → ActM Unit} {rightAt : Nat}
    (h : Chased T s t S w c env env₂ env')
    (hplaced : Placed T s t S.books i (.stmt (.forIn left right body)))
    (hright : rightAt = if left.isExpr then t.after (i + 1) else i + 1)
    (hvacant : Vacant S.books rightAt) (hx : Evaluates T t S w env' rightAt right xe)
    (hx₂ : S.Pausing T → Evaluates T t S w env' rightAt right (eval env₂ t rightAt right))
    (hassign : ∀ v w', w.Reaches w' → ∀ key, key.Shown w' →
      ASim T (S.storing rightAt v) w' (xassign key) (assignKey env' t (i + 1) left key) Equal)
    (hassign₂ : S.Pausing T → ∀ v w', w.Reaches w' → ∀ key, key.Shown w' →
      ASim T (S.storing rightAt v) w' (assignKey env₂ t (i + 1) left key)
        (assignKey env' t (i + 1) left key) Equal)
    (hy : ∀ v, ExecChases T D t (S.storing rightAt v) w c env₂ env' (t.after rightAt) body y) :
    Chases T D S c i (t.after i) w
      (keyQueue env rightAt xe >>= fun keys =>
        turning (keyTurn keys xassign y) (keyTurn keys xassign y) env.fuel >>= leaveKeys env rightAt)
      (keyQueue env₂ rightAt (eval env₂ t rightAt right) >>= fun keys =>
        turning (keyTurn keys (assignKey env₂ t (i + 1) left) (exec env₂ t (t.after rightAt) body))
          (keyTurn keys (assignKey env₂ t (i + 1) left) (exec env₂ t (t.after rightAt) body))
          env₂.fuel >>= leaveKeys env₂ rightAt)
      (exec env₂ t i (.forIn left right body))
      (keyQueue env' rightAt (eval env' t rightAt right) >>= fun keys =>
        turning (keyTurn keys (assignKey env' t (i + 1) left) (exec env' t (t.after rightAt) body))
          (keyTurn keys (assignKey env' t (i + 1) left) (exec env' t (t.after rightAt) body))
          env'.fuel >>= leaveKeys env' rightAt)
      Flowing := by
  have hlt := t.lt_after rightAt
  have hlt₂ := t.lt_after (t.after rightAt)
  have hle : i < rightAt := by
    have := t.lt_after (i + 1)
    rw [hright]
    split <;> omega
  have hafter : t.after i = t.after (t.after rightAt) := by
    rw [hplaced.stands.after_eq, hright]
    cases left <;> rfl
  simp only [keyQueue_bind]
  refine .after (fun w' hw' => queueOf_sim (h.envs.first.reach hw') rightAt (hx w' hw'))
    (fun hpausing w' hw' => queueOf_sim ((h.envs.again hpausing).reach hw') rightAt
      (hx₂ hpausing w' hw')) (fun _ _ _ hs => hs) fun w₁ hw₁ keys keys' hkeys => ?_
  obtain ⟨rfl, hkeys⟩ := hkeys
  have henvs := h.envs.reach hw₁
  refine .after (fun w' hw' => record_storing (henvs.first.reach hw') hvacant henvs.records)
    (fun hpausing w' hw' => record_storing ((henvs.again hpausing).reach hw') hvacant
      fun _ => henvs.records₂ hpausing)
    (fun _ _ _ hs => (S.storing_entails rightAt _).thrown hs) fun w₂ hw₂ _ _ _ => ?_
  have hreach := hw₁.trans hw₂
  have hcounts : T.Counts (exec env' t (t.after rightAt) body) :=
    fun hsolo => exec_obeyed (h.counts hsolo) _ body
  have hturn := keyTurn_chases (D := D) (S := S.storing rightAt keys') (c := c) (hkeys.mono hw₂.roles)
    (fun w' hw' => hassign keys' w' (hreach.trans hw'))
    (fun hpausing w' hw' => hassign₂ hpausing keys' w' (hreach.trans hw')) ((hy keys').mono hreach)
  have hturns : T.Counts (keyTurn keys' (assignKey env' t (i + 1) left)
      (exec env' t (t.after rightAt) body)) := fun hsolo =>
    keyTurn_obeyed (assignKey_obeyed (h.counts hsolo) (i + 1) left) (hcounts hsolo)
  refine (ChasesFrom.turning hturn hturn hturns h.scene.envs.fuel h.fuel).bind_sim
    (S.storing_entails rightAt keys') (g := leaveKeys env₂ rightAt) (by omega) (Nat.le_of_eq hafter.symm)
    (.here fun hpausing _ act m _ p _ _ hp hp' hpc _ hbooks => ?_) (fun flow _ => leaveKeys_obeyed _ _ flow)
    (fun w' hw' flow flow' hflow => ?_) (fun hpausing w' hw' flow flow' hflow => ?_)
    fun hpausing w' hw' flow flow' hflow => ?_
  · have hstored : storedKeys? t (some p) rightAt (t.after rightAt) (act, m) =
        .ok (some keys') (act, m) := by
      rw [storedKeys?, if_pos (entering_of_mem hp hp'), ← hbooks.2 hpausing.2]
      rfl
    refine (executing_inside hpc (by omega) (by omega)).trans ?_
    cases hright
    rw [bind_apply, hstored]
    exact bind_apply _ _ _
  · rw [hflow.1]
    exact leaveKeys_sim (h.envs.first.reach (hreach.trans hw')) hvacant hflow.2
  · rw [hflow.1]
    exact leaveKeys_sim ((h.envs.again hpausing).reach (hreach.trans hw')) hvacant hflow.2
  · rw [hflow.1]
    exact leaveKeys_sim ((h.envs.again hpausing).reach (hreach.trans hw')) hvacant hflow.2

end Resumption.Stepper
