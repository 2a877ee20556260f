import Resumption.Proofs.Match.Statements

/-!
# Declarations, scopes and exceptions chase

A `with` or a handler that was paused is taken up in the scope that it had made.  A `try` that was paused
in its `finally` finds the completion that waits for it.
-/

namespace Resumption.Stepper

open Script ActM

variable {T : Terms} {D : Unwind → World → Machine → Value → Machine → Prop} {s : Manner}
  {t : IndexedTree} {S : Stance} {w w' : World} {c : Chain} {env env' env₂ : Env} {i lo hi : Nat}

/-! ## Pauses by themselves -/

/-- An activation that has recorded a `debugger` statement. -/
def atDebugger (act : Activation) (i : Nat) : Activation :=
  (act.kept fun cache last => (cache.insert i .undefined, last)).kept fun cache _ => (cache, i)

theorem cache_atDebugger (act : Activation) (i : Nat) :
    (atDebugger act i).cache = act.cache.insert i .undefined := rfl

/-- What a `debugger` statement comes to where pauses are taken. -/
theorem debugging_pauses (hrecords : env.records = true) (act : Activation) {m : Machine}
    (hm : m.debugging = true) : ∃ raised, debugging env i (act, m) =
      .error (.unwind (.ofSignal (.pause i)))
        (atDebugger act i,
          { m with chronicle := { m.chronicle with raised } }) := by
  refine ⟨some ⟨m.heap, m.output,
    atDebugger act i :: m.chronicle.waiting⟩, ?_⟩
  have hraise : ∀ act : Activation, lift (Machine.debuggerAt i) (act, m) =
      .error (.unwind (.ofSignal (.pause i))) (act, { m with chronicle := { m.chronicle with
        raised := some ⟨m.heap, m.output, act :: m.chronicle.waiting⟩ } }) := by
    intro act
    rw [lift, debuggerAt_pauses (m := m.suspend act) i hm]
    rfl
  unfold debugging record mark
  rw [if_pos hrecords, if_pos hrecords, if_pos hrecords]
  change (lift (Machine.debuggerAt i) >>= fun _ => pure Flow.normal)
    (atDebugger act i, m) = _
  rw [bind_apply, hraise]
  rfl

/-- What it comes to where they are not. -/
theorem debugging_passes (hrecords : env.records = true) {act : Activation} {m : Machine}
    (hm : m.debugging = false) : debugging env i (act, m) =
      .ok .normal (atDebugger act i,
        { m with chronicle := { m.chronicle with passed := m.chronicle.passed + 1 } }) := by
  have hpass : ∀ act : Activation, lift (Machine.debuggerAt i) (act, m) =
      .ok () (act, { m with chronicle := { m.chronicle with passed := m.chronicle.passed + 1 } }) := by
    intro act
    rw [lift, debuggerAt_passed (m := m.suspend act) i hm]
    rfl
  unfold debugging record mark
  rw [if_pos hrecords, if_pos hrecords, if_pos hrecords]
  change (lift (Machine.debuggerAt i) >>= fun _ => pure Flow.normal)
    (atDebugger act i, m) = _
  rw [bind_apply, hpass]
  rfl

/-- The left pauses where the right passes by. -/
theorem debugging_follows (hpausing : S.Pausing T) (hrecords : env.records = true)
    (hwalked : Walked T s t S w c env₂ env') (hvacant : Vacant S.books i) :
    Follows T D S c i (t.after i) w (debugging env i) (exec env₂ t i .debugger) (debugging env' i)
      Flowing := by
  rintro ⟨act, m⟩ ⟨act', m'⟩ ⟨hact, hm⟩
  have hon : m.debugging = true := by rw [hm.debugging.1, hpausing.1]; rfl
  have hoff : m'.debugging = false := by rw [hm.debugging.2, hpausing.1]; rfl
  have hrecords' : env'.records = true := by
    rw [hwalked.records]
    by_cases hs : s = .free
    · exact absurd (hwalked.free hs).2.1 hpausing.2
    · exact (hwalked.kept hs).1
  obtain ⟨raised, hleft⟩ := debugging_pauses (i := i) hrecords act hon
  rw [hleft, debugging_passes hrecords' hoff]
  obtain ⟨hchain, hchain'⟩ := hact.chain c hwalked.chain
  have hinserted : S.books (act.cache.insert i .undefined) := (hvacant _ hact.books).1 .undefined
  have hpassing : Awaited T D (.ofSignal (.pause i)) w { m with chronicle := { m.chronicle with raised } }
      { m' with chronicle := { m'.chronicle with passed := m'.chronicle.passed + 1 } } none :=
    { hm with
      heap := hm.heap.paused
      shown := fun methods hmethods p hp => (hm.shown methods hmethods p hp).mono w.reaches_paused.roles
      passed := fun hmode hspared => by
        have hpassed : m'.chronicle.passed = m.chronicle.passed + w.lag := hm.passed hmode hspared
        change m'.chronicle.passed + 1 = m.chronicle.passed + (w.lag + 1)
        omega }
  refine .paused w.le_refl (show Paused T D S c i (t.after i) w _ _ _ i none _ from
    { pausing := hpausing
      awaited := hpassing
      awaits := rfl
      inside := ⟨Nat.le_refl i, t.lt_after i⟩
      scopes := ⟨[], hchain, fun _ hl => absurd hl List.not_mem_nil⟩
      books := ⟨hinserted, fun v => (hvacant _ hinserted).1 v⟩ })
    fun w₂ act₁ m₁ hw₂ hm₁ _ hresumed => ?_
  · have hdone : (Stmt.debugger.isDebugger && (act₁.cache.get? i).isSome) = true := by
      rw [hresumed.cache, cache_atDebugger, Cache.seed, Cache.get?_insert_self]
      rfl
    have hpassed : exec env₂ t i .debugger (act₁, m₁) = .ok .normal ({ act₁ with pc := none }, m₁) :=
      executing_passed hresumed.pc hdone
    rw [hpassed]
    refine .ends (.ok ⟨w₂, w₂.le_refl, ⟨⟨fun c' hc' => ?_, ⟨rfl, hact.pc.2⟩, ?_, fun hargs => ?_,
      fun hT => ?_⟩, hm₁⟩, rfl, trivial⟩)
    · rw [hwalked.chain] at hc'
      cases hc'
      exact ⟨hresumed.chain, hchain'⟩
    · dsimp only
      rw [hresumed.cache]
      exact hinserted
    · exact absurd hargs hpausing.2
    · rw [hpausing.1] at hT
      cases hT

theorem debugging_chases (h : Chased T s t S w c env env₂ env')
    (hplaced : Placed T s t S.books i (.stmt .debugger)) :
    Chases T D S c i (t.after i) w (debugging env i) (debugging env₂ i) (exec env₂ t i .debugger)
      (debugging env' i) Flowing := by
  by_cases hpauses : T.pauses = .left ∧ env.records = true
  · obtain ⟨hpauses, hrecords⟩ := hpauses
    have hbare : ¬ S.args := by
      have hs : s ≠ .free := fun hs => by
        rw [h.free hs] at hrecords
        cases hrecords
      obtain ⟨hsolo, hown⟩ | htop := hplaced.fair.admits.resolve_left hs hpauses
      · cases s with
        | free => exact absurd rfl hs
        | script => exact h.bare (.inr (.inr ⟨rfl, hsolo⟩))
        | own => exact absurd hown Bool.noConfusion
        | apart => exact absurd hown Bool.noConfusion
        | top => exact h.bare (.inl rfl)
      · exact h.bare (.inl htop)
    have hpausing : S.Pausing T := ⟨hpauses, hbare⟩
    have hwalked := h.walked hpausing
    exact fun w' hw' => ⟨debugging_follows hpausing hrecords (hwalked.reach hw') (hplaced.vacant rfl),
      fun _ => debugging_follows hpausing (h.envs.records₂ hpausing) (hwalked.reach hw') (hplaced.vacant rfl)⟩
  · have hquiet : T.pauses = .left → env.records = false := fun hT => by
      cases hrecords : env.records with
      | false => rfl
      | true => exact absurd ⟨hT, hrecords⟩ hpauses
    refine .of_sim (fun w' hw' => debugging_sim (h.envs.first.reach hw') (hplaced.vacant rfl) hquiet)
      fun hpausing => ?_
    have hrecords := hquiet hpausing.1
    rw [h.records hpausing.2] at hrecords
    cases hrecords

/-! ## Declarations -/

/-- Declares a name and keeps the books about it. -/
def declaring (env : Env) (i : Nat) (value : ActM Value) (assign : Value → ActM Unit) : ActM Unit := do
  let v ← value
  assign v
  record env i v
  mark env i

theorem declare_fresh {name : String} {init : Expr} {act : Activation} {m : Machine}
    (hpc : act.pc = none) : declare env t i ⟨name, some init⟩ (act, m) =
      declaring env i (eval env t (i + 1) init) (assignName env name) (act, m) := by
  unfold declare
  simp only
  rw [bind_apply, resumeState_fresh t i m hpc]
  rfl

theorem declare_inside {name : String} {init : Expr} {act : Activation} {m : Machine} {p : Nat}
    (hpc : act.pc = some p) (hlo : i < p) (hhi : p < t.after i) :
    declare env t i ⟨name, some init⟩ (act, m) =
      declaring env i (eval env t (i + 1) init) (assignName env name) (act, m) := by
  unfold declare
  simp only
  rw [bind_apply, resumeState_inside hpc hlo hhi]
  rfl

theorem declare_passed {d : Declarator} {act : Activation} {m : Machine} {p : Nat}
    (hpc : act.pc = some p) (h : t.after i ≤ p) : declare env t i d (act, m) = .ok () (act, m) := by
  obtain ⟨name, init⟩ := d
  cases init with
  | none => rfl
  | some init =>
      unfold declare
      simp only
      rw [bind_apply, resumeState_finished hpc h]
      rfl

theorem declare_chases {name : String} {init : Expr} {xe : ActM Value} {xassign : Value → ActM Unit}
    (h : Chased T s t S w c env env₂ env')
    (hplaced : Placed T s t S.books i (.declarator ⟨name, some init⟩))
    (hx : EvalChases T D t S w c env₂ env' (i + 1) init xe)
    (hassign : ∀ w', w.Reaches w' → ∀ v, v.Shown w' → (∀ x, init = .num x → v = .num x) →
      ASim T S w' (xassign v) (assignName env' name v) Equal) :
    Chases T D S c i (t.after i) w (declaring env i xe xassign) (declare env₂ t i ⟨name, some init⟩)
      (declare env₂ t i ⟨name, some init⟩) (declare env' t i ⟨name, some init⟩) Equal := by
  have hafter : t.after i = t.after (i + 1) := hplaced.stands.after_eq
  have hrest : ∀ {env : Env} {assign : Value → ActM Unit} {w' : World}, env.Match T w' env' →
      (∀ v, v.Shown w' → (∀ x, init = .num x → v = .num x) →
        ASim T S w' (assign v) (assignName env' name v) Equal) →
      ∀ v v', Valued w' v v' ∧ (∀ x, init = .num x → v' = .num x) → ASim T S w'
        (assign v >>= fun _ => record env i v >>= fun _ => mark env i)
        (assignName env' name v' >>= fun _ => record env' i v' >>= fun _ => mark env' i) Equal := by
    intro env assign w' henv hassign v v' hv
    obtain ⟨⟨rfl, hv⟩, hnum⟩ := hv
    refine .bind (hassign v' hv hnum) fun w₁ hw₁ _ _ => ?_
    refine both_sim (record_books (hplaced.vacant rfl) env v') (record_books (.any i) env' v')
      (fun hT => record_even henv hT i v') ?_
    have hmarked : ASim T S w₁ (mark env i >>= fun _ => pure ()) (mark env' i >>= fun _ => pure ())
        Equal :=
      both_sim (mark_books env i) (mark_books env' i) (fun hT => mark_even henv hT i)
        (.pure ⟨rfl, trivial⟩)
    simpa using hmarked
  suffices hdeclaring : Chases T D S c i (t.after i) w (declaring env i xe xassign)
      (declaring env₂ i (eval env₂ t (i + 1) init) (assignName env₂ name))
      (declare env₂ t i ⟨name, some init⟩)
      (declaring env' i (eval env' t (i + 1) init) (assignName env' name)) Equal from
    hdeclaring.congr (fun _ _ _ _ => rfl) (fun _ _ s s' hs => declare_fresh hs.1.pc.1)
      fun _ s s' hs => declare_fresh hs.1.pc.2
  have hcounted := hx.and (Q := fun v => ∀ x, init = .num x → v = .num x) fun _ _ s' v _ hs hv x hx =>
    eval_num hs.1.pc.2 (hx ▸ hv)
  refine hcounted.bind (Nat.le_succ i) (Nat.le_of_eq hafter.symm)
    (.here fun _ _ _ _ _ p _ _ hp hp' hpc _ _ => ?_) (fun v hsolo => ?_) fun w₁ hw₁ v v' hv => ?_
  · rw [declare_inside hpc (by omega) (by omega)]
    exact bind_apply _ _ _
  · exact (assignName_obeyed (h.counts hsolo) name _).bind fun _ =>
      (record_obeyed env' i _).bind fun _ => mark_obeyed env' i
  · have hmono : ∀ w', w₁.Reaches w' → Valued w' v v' ∧ ∀ x, init = .num x → v' = .num x :=
      fun w' hw' => ⟨⟨hv.1.1, hv.1.2.mono hw'.roles⟩, hv.2⟩
    refine .of_sim (fun w' hw' => ?_) fun hpausing w' hw' => ?_
    · exact hrest (h.envs.first.reach (hw₁.trans hw')) (hassign w' (hw₁.trans hw')) v v' (hmono w' hw')
    · have hwalked := (h.walked hpausing).reach (hw₁.trans hw')
      refine hrest hwalked.envs (fun v hv hnum => ?_) v v' (hmono w' hw')
      exact assignName_sim hwalked.toScene name hv
        ((hplaced.fair.declares rfl).suits hwalked.sound (fun _ => hnum) name rfl)

theorem declareAll_chases {d : Declarator} {rest : List Declarator} {x xs : ActM Unit}
    (h : Chased T s t S w c env env₂ env') (hhi : t.after i ≤ hi)
    (hx : Chases T D S c i (t.after i) w x (declare env₂ t i d) (declare env₂ t i d)
      (declare env' t i d) Equal)
    (hxs : Chases T D S c (t.after i) hi w xs (declareAll env₂ t (t.after i) rest)
      (declareAll env₂ t (t.after i) rest) (declareAll env' t (t.after i) rest) Equal) :
    Chases T D S c i hi w (x >>= fun _ => xs) (declareAll env₂ t i (d :: rest))
      (declareAll env₂ t i (d :: rest)) (declareAll env' t i (d :: rest)) Equal := by
  have hlt := t.lt_after i
  refine hx.bind (Nat.le_refl i) hhi (.here fun _ _ _ _ _ _ _ _ _ _ _ _ _ => bind_apply _ _ _)
    (fun _ hsolo => declareAll_obeyed (h.counts hsolo) _ rest) fun w₁ hw₁ _ _ _ => ?_
  refine (hxs.mono hw₁).widen (Nat.le_of_lt hlt) (Nat.le_refl hi)
    (.here fun _ _ act m _ p _ _ hp _ hpc _ _ => ?_)
  change (declare env₂ t i d >>= fun _ => declareAll env₂ t (t.after i) rest) (act, m) = _
  rw [bind_apply, declare_passed hpc hp]
  rfl

theorem var_chases {decls : List Declarator} {xs : ActM Unit}
    (hplaced : Placed T s t S.books i (.stmt (.var decls)))
    (hxs : Chases T D S c (i + 1) (t.afterMany decls.length (i + 1)) w xs
      (declareAll env₂ t (i + 1) decls) (declareAll env₂ t (i + 1) decls)
      (declareAll env' t (i + 1) decls) Equal) :
    Chases T D S c i (t.after i) w (xs >>= fun _ => pure .normal)
      (declareAll env₂ t (i + 1) decls >>= fun _ => pure .normal) (exec env₂ t i (.var decls))
      (declareAll env' t (i + 1) decls >>= fun _ => pure .normal) Flowing := by
  have hafter : t.after i = t.afterMany decls.length (i + 1) := by
    rw [hplaced.stands.after_eq]
    simp [Node.children, Node.childrenOfStmt]
  exact hxs.bind (Nat.le_succ i) (Nat.le_of_eq hafter.symm) (reenters_exec rfl (Nat.lt_succ_self i)
    (Nat.le_of_eq hafter.symm) fun _ _ _ _ => bind_apply _ _ _) (fun _ _ => .pure _)
    fun w₁ _ _ _ _ => done_chases fun _ _ => trivial

/-! ## Scopes -/

/-- The next link to re-enter is there. -/
theorem reenter_popped {fresh : ActM Link} {link : Link} {rest : List Link} {act : Activation}
    {m : Machine} (hpending : act.pending = link :: rest) :
    reenter true fresh (act, m) = .ok link ({ act with pending := rest }, m) := by
  obtain ⟨site, chain, cache, last, arguments, pending, pc⟩ := act
  cases hpending
  rfl

theorem withScope_chases {object : Expr} {body : Stmt} {xe : ActM Value} {y : ActM Flow}
    (h : Chased T s t S w c env env₂ env')
    (hplaced : Placed T s t S.books i (.stmt (.withScope object body)))
    (hx : Evaluates T t S w env' (i + 1) object xe)
    (hx₂ : S.Pausing T → Evaluates T t S w env' (i + 1) object (eval env₂ t (i + 1) object))
    (hy : ∀ w₁, w.Reaches w₁ → ∀ a, w₁.role? a = some .shown →
      ExecChases T D t (S.within (⟨.withObject, a⟩ :: c)) w₁ (⟨.withObject, a⟩ :: c) env₂ env'
        (t.after (i + 1)) body y) :
    Chases T D S c i (t.after i) w
      (xe >>= fun v => lift (scopeRecord v) >>= fun a => chain >>= fun saved =>
        inScope ⟨.withObject, a⟩ saved y)
      (eval env₂ t (i + 1) object >>= fun v => lift (scopeRecord v) >>= fun a => chain >>= fun saved =>
        inScope ⟨.withObject, a⟩ saved (exec env₂ t (t.after (i + 1)) body))
      (exec env₂ t i (.withScope object body))
      (eval env' t (i + 1) object >>= fun v => lift (scopeRecord v) >>= fun a => chain >>= fun saved =>
        inScope ⟨.withObject, a⟩ saved (exec env' t (t.after (i + 1)) body)) Flowing := by
  have hlt := t.lt_after (i + 1)
  have hafter : t.after i = t.after (t.after (i + 1)) := hplaced.stands.after_eq
  refine .after hx hx₂ (fun _ _ _ hs => hs) fun w₁ hw₁ v v' hv => ?_
  obtain ⟨rfl, hv⟩ := hv
  have hrecord : ∀ w', w₁.Reaches w' → ASim T S w' (lift (scopeRecord v')) (lift (scopeRecord v'))
      (Same fun w a => w.role? a = some .shown) :=
    fun w' hw' => lift_sim (scopeRecord_sim (hv.mono hw'.roles))
  refine .after hrecord (fun _ => hrecord) (fun _ _ _ hs => hs) fun w₂ hw₂ a a' ha => ?_
  obtain ⟨rfl, ha⟩ := ha
  have hchain : ∀ w', w₂.Reaches w' → ASim T S w' chain chain (Same fun _ c' => c' = c) :=
    fun w' _ => chain_sim h.scene.chain
  refine .after hchain (fun _ => hchain) (fun _ _ _ hs => hs) fun w₃ hw₃ saved saved' hsaved => ?_
  obtain ⟨rfl, rfl⟩ := hsaved
  have hreach := hw₁.trans (hw₂.trans hw₃)
  refine (ChasesFrom.inScope h.scene.chain (by simp) (by omega) (Nat.le_of_eq hafter.symm)
    (hy w₃ hreach a' (World.role?_mono hw₃.roles ha)) ?_).of_adrift
  intro _ w₄ act m _ p pending _ _ hp hp' hpc hact hpending _
  refine (executing_inside hpc (by omega) (by omega)).trans ?_
  rw [bind_apply, entering_of_mem hp hp', reenter_popped hpending]
  change (inScope ⟨.withObject, a'⟩ act.chain _) ({ act with pending }, m) = _
  rw [hact, inScope_eq, bind_apply]
  rfl

/-! ## Exceptions -/

/-- What a `try` does with the end of its block. -/
def guardThen (handler : Unwind → ActM (Except Unwind Flow)) (conclude : Except Unwind Flow → ActM Flow) :
    Except Unwind Flow → ActM Flow
  | .ok flow => conclude (.ok flow)
  | .error u => if u.isPause then conclude (.error u) else handler u >>= conclude

theorem guarding_bind (block : ActM Flow) (handler : Unwind → ActM (Except Unwind Flow))
    (conclude : Except Unwind Flow → ActM Flow) :
    guarding block handler >>= conclude = caught block >>= guardThen handler conclude := by
  unfold guarding
  rw [bind_assoc]
  refine congrArg (caught block >>= ·) (funext fun e => ?_)
  cases e with
  | ok flow => exact pure_bind _ _
  | error u =>
      simp only [guardThen]
      split
      · exact pure_bind _ _
      · rfl

theorem guardThen_passes {handler : Unwind → ActM (Except Unwind Flow)}
    {conclude : Except Unwind Flow → ActM Flow} (h : Passes conclude) :
    Passes (guardThen handler conclude) :=
  fun u hu => by rw [guardThen, if_pos hu, h u hu]

/-- A completion that waits is found again. -/
theorem decode?_waiting {h : Heap} {a : Address} {completion : Completion}
    (ha : h.object a = waitingObject completion) :
    Completion.decode? h (.object a) = some completion := by
  have hitems : h.elements? (.object a) = some [Value.str completion.parts.1, completion.parts.2].toArray := by
    change (h.object a).elements? = _
    rw [ha]
    rfl
  rw [Completion.decode?, hitems]
  cases completion <;> rfl

theorem storedCompletion?_waiting {act : Activation} {m : Machine} {a : Address}
    {completion : Completion} (hstored : act.cache.get? i = some (.object a))
    (ha : m.heap.object a = waitingObject completion) :
    storedCompletion? i (act, m) = .ok (some completion) (act, m) := by
  change EStateM.Result.ok ((act.cache.get? i).bind (Completion.decode? m.heap)) (act, m) = _
  rw [hstored, Option.bind_some, decode?_waiting ha]

/-- Where the parts of a `try` stand. -/
structure TryParts (t : IndexedTree) (i catchAt finallyAt : Nat) (block : List Stmt)
    (handler : Option Handler) : Prop where
  catch_at : catchAt = t.afterMany block.length (i + 1)
  finally_at : finallyAt = if handler.isSome then t.after catchAt else catchAt

section
variable {catchAt finallyAt : Nat} {block : List Stmt} {handler : Option Handler}
  {finalizer : Option (List Stmt)}

theorem TryParts.le (h : TryParts t i catchAt finallyAt block handler) :
    i < catchAt ∧ catchAt ≤ finallyAt := by
  have hle := t.le_afterMany block.length (i + 1)
  have hlt := t.lt_after catchAt
  refine ⟨by rw [h.catch_at]; omega, ?_⟩
  rw [h.finally_at]
  split <;> omega

theorem TryParts.after_eq (h : TryParts t i catchAt finallyAt block handler)
    (hplaced : Placed T s t S.books i (.stmt (.attempt block handler finalizer))) :
    t.after i = t.afterMany (finalizer.getD []).length finallyAt := by
  have hlength : (Node.stmt (.attempt block handler finalizer)).children.length =
      block.length + (handler.toList.length + (finalizer.getD []).length) := by
    simp [Node.children, Node.childrenOfStmt, Node.ofStmts]
  rw [hplaced.stands.after_eq, hlength, IndexedTree.afterMany_add, ← h.catch_at,
    IndexedTree.afterMany_add, h.finally_at]
  cases handler <;> rfl

/-- A `try` that was paused in its block. -/
theorem exec_attempt_block (h : TryParts t i catchAt finallyAt block handler) {act : Activation}
    {m : Machine} {p : Nat} (hpc : act.pc = some p) (hlo : i < p) (hhi : p < catchAt)
    (hi : p < t.after i) :
    exec env t i (.attempt block handler finalizer) (act, m) =
      settle (guardThen (fun u => execHandler env t act.chain u catchAt handler)
          (concluding env i act.chain finalizer.isSome (execFinally env t finallyAt finalizer)))
        (execList env t (i + 1) block (act, m)) := by
  have hle := h.le.2
  refine (executing_inside hpc hlo hi).trans ?_
  cases h.catch_at
  cases h.finally_at
  have hreached : reached (some p) (if handler.isSome then t.after (t.afterMany block.length (i + 1))
      else t.afterMany block.length (i + 1)) = false := decide_eq_false (by omega)
  rw [hreached, entering_of_lt hhi, Bool.and_false, Bool.and_false]
  change (guarding (execList env t (i + 1) block) _ >>= _) (act, m) = _
  rw [guarding_bind, caught_bind_apply]

/-- A handler that is taken up by way of its scope. -/
def reentered (env : Env) (t : IndexedTree) (saved : Chain) (i : Nat) (clause : Handler) : ActM Flow := do
  let link ← reenter true (do return ⟨.handler, ← lift Machine.newRecord⟩)
  inScope link saved (execHandlerBody env t (i + 1) (some clause))

theorem reentered_apply {param : String} {body : List Stmt} {link : Link} {rest : List Link}
    {act : Activation} {m : Machine} (hpending : act.pending = link :: rest) :
    reentered env t c i ⟨param, body⟩ (act, m) = andThen (leaving c)
      (execList env t (i + 1) body ({ act with chain := link :: c, pending := rest }, m)) := by
  rw [reentered, bind_apply, reenter_popped hpending]
  change inScope link c (execList env t (i + 1) body) ({ act with pending := rest }, m) = _
  rw [inScope_eq, bind_apply]
  rfl

/-- A `try` that was paused in its handler. -/
theorem exec_attempt_handler {clause : Handler} (h : TryParts t i catchAt finallyAt block (some clause))
    {act : Activation} {m : Machine} {p : Nat} (hpc : act.pc = some p) (hlo : catchAt < p)
    (hhi : p < t.after catchAt) (hi : p < t.after i) :
    exec env t i (.attempt block (some clause) finalizer) (act, m) =
      settle (concluding env i act.chain finalizer.isSome (execFinally env t finallyAt finalizer))
        (reentered env t act.chain catchAt clause (act, m)) := by
  have hlt := h.le.1
  refine (executing_inside hpc (by omega) hi).trans ?_
  cases h.catch_at
  cases h.finally_at
  have hreached : reached (some p) (t.after (t.afterMany block.length (i + 1))) = false :=
    decide_eq_false (by omega)
  have hmade : ∃ link s, reenter true (do return ⟨.handler, ← lift Machine.newRecord⟩) (act, m) =
      .ok link s := by
    obtain ⟨site, chain, cache, last, arguments, pending, pc⟩ := act
    cases pending <;> exact ⟨_, _, rfl⟩
  obtain ⟨link, s, hmade⟩ := hmade
  rw [if_pos (show (some clause).isSome = true from rfl), hreached,
    entering_of_mem (Nat.le_of_lt hlo) hhi, Bool.and_false]
  change (reenter true _ >>= fun link => caught (inScope link act.chain _) >>= _) (act, m) = _
  rw [bind_apply, reentered, bind_apply, hmade]
  exact caught_bind_apply _ _ s

/-- A `try` that was paused in its `finally`. -/
theorem exec_attempt_finally {body : List Stmt} (h : TryParts t i catchAt finallyAt block handler)
    {act : Activation} {m : Machine} {p : Nat} {a : Address} {completion : Completion}
    (hpc : act.pc = some p) (hlo : finallyAt ≤ p) (hi : p < t.after i)
    (hstored : act.cache.get? i = some (.object a)) (ha : m.heap.object a = waitingObject completion) :
    exec env t i (.attempt block handler (some body)) (act, m) =
      andThen (afterFinally i (proceed completion.toResult)) (execList env t finallyAt body (act, m)) := by
  obtain ⟨hlt, hle⟩ := h.le
  refine (executing_inside hpc (by omega) hi).trans ?_
  cases h.catch_at
  cases h.finally_at
  have hreached : reached (some p) (if handler.isSome then t.after (t.afterMany block.length (i + 1))
      else t.afterMany block.length (i + 1)) = true := decide_eq_true hlo
  rw [hreached]
  change (storedCompletion? i >>= _) (act, m) = _
  rw [bind_apply, storedCompletion?_waiting hstored ha]
  exact bind_apply _ _ _

/-- What a `try` does with an exception. -/
theorem handler_chases {xfin : ActM Flow} {xhandler : Unwind → ActM (Except Unwind Flow)}
    (h : Chased T s t S w c env env₂ env') (hdoomed : T.solo = true → ¬ S.doomed)
    (hvacant : Vacant S.books i) (hparts : TryParts t i catchAt finallyAt block handler) (hhi : finallyAt ≤ t.after i)
    (hfinalizes : finalizer.isSome = true → Finalizes T D S c i (t.after i) w i xfin
      (execFinally env₂ t finallyAt finalizer) (exec env₂ t i (.attempt block handler finalizer))
      (execFinally env' t finallyAt finalizer))
    (hnone : handler = none → ∀ u, xhandler u = pure (.error u))
    (hsome : ∀ param body, handler = some ⟨param, body⟩ → ∃ xbody,
      (∀ u, xhandler u =
        caught (catching env catchAt c param (u.thrown?.getD .undefined) xbody)) ∧
      ∀ w₁, w.Reaches w₁ → ∀ a, w₁.role? a = some (.scope [param] true) →
        Chases T D (S.within (⟨.handler, a⟩ :: c)) (⟨.handler, a⟩ :: c) (catchAt + 1) (t.after catchAt)
          w₁ xbody (execList env₂ t (catchAt + 1) body) (execList env₂ t (catchAt + 1) body)
          (execList env' t (catchAt + 1) body) Flowing) {u u' : Unwind}
    (hu : Settled T w (.error u) (.error u')) :
    ChasesFrom T D (Activation.tie T S).thrown S c i (t.after i) w
      (xhandler u >>= concluding env i c finalizer.isSome xfin)
      (execHandler env₂ t c u catchAt handler >>=
        concluding env₂ i c finalizer.isSome (execFinally env₂ t finallyAt finalizer))
      (exec env₂ t i (.attempt block handler finalizer))
      (execHandler env' t c u' catchAt handler >>=
        concluding env' i c finalizer.isSome (execFinally env' t finallyAt finalizer)) Flowing := by
  have hlt := hparts.le.1
  cases handler with
  | none =>
      rw [hnone rfl, execHandler, execHandler]
      simp only [pure_bind]
      exact .concluding_thrown h.scene.chain hvacant h.envs hu hfinalizes
  | some clause =>
      obtain ⟨param, body⟩ := clause
      obtain ⟨xbody, hx, hbody⟩ := hsome param body rfl
      have hcatch : finallyAt = t.after catchAt := hparts.finally_at
      obtain ⟨v, huv, huv', hv⟩ : ∃ v, u.thrown?.getD .undefined = v ∧
          u'.thrown?.getD .undefined = v ∧ v.Shown w := by
        cases hu with
        | thrown hu hu' _ hv => exact ⟨_, by rw [hu]; rfl, by rw [hu']; rfl, hv⟩
      rw [hx, execHandler, execHandler, execCatch, execCatch, huv, huv']
      -- The handler is entered by way of its scope, and then its end is concluded.
      have hcatching : ChasesFrom T D (Activation.tie T S).thrown S c (catchAt + 1) (t.after catchAt) w
          (catching env catchAt c param v xbody)
          (catching env₂ catchAt c param v (execList env₂ t (catchAt + 1) body))
          (reentered env₂ t c catchAt ⟨param, body⟩)
          (catching env' catchAt c param v (execList env' t (catchAt + 1) body)) Flowing :=
        .catching h.scene.chain h.envs hv (Nat.le_refl _) (Nat.le_refl _) hbody
          fun w₁ _ a _ w₂ act m _ p pending _ _ _ _ _ _ hpending _ => reentered_apply hpending
      refine hcatching.caught (by omega) (by omega) (.here fun _ w₂ act m _ p _ _ hp hp' hpc hact _ => ?_)
        hdoomed ⟨concluding_passes _ _ _ _ _, concluding_passes _ _ _ _ _, concluding_passes _ _ _ _ _⟩
        (fun e he hsolo => ?_)
        (fun w₁ hw₁ flow hflow => .concluding_ok h.scene.chain hvacant (h.reach hw₁).envs hflow
          fun hpresent => (hfinalizes hpresent).mono hw₁)
        fun w₁ hw₁ u u' hu => .concluding_thrown h.scene.chain hvacant (h.reach hw₁).envs hu
          fun hpresent => (hfinalizes hpresent).mono hw₁
      · rw [exec_attempt_handler hparts hpc (by omega) hp' (by omega), hact]
      · have hsettles : Settles .tally (pure e : ActM (Except Unwind Flow)) := proceed_counts he hsolo
        simpa only [pure_bind] using
          concluding_obeyed hsettles (execFinally_obeyed (h.counts hsolo) finallyAt finalizer)

theorem attempt_chases {xblock xfin : ActM Flow} (xhandler : Chain → Unwind → ActM (Except Unwind Flow))
    (h : Chased T s t S w c env env₂ env') (hdoomed : T.solo = true → ¬ S.doomed)
    (hplaced : Placed T s t S.books i (.stmt (.attempt block handler finalizer)))
    (hparts : TryParts t i catchAt finallyAt block handler)
    (hblock : Chases T D S c (i + 1) catchAt w xblock (execList env₂ t (i + 1) block)
      (execList env₂ t (i + 1) block) (execList env' t (i + 1) block) Flowing)
    (hnone : handler = none → ∀ u, xhandler c u = pure (.error u))
    (hsome : ∀ param body, handler = some ⟨param, body⟩ → ∃ xbody,
      (∀ u, xhandler c u =
        caught (catching env catchAt c param (u.thrown?.getD .undefined) xbody)) ∧
      ∀ w₁, w.Reaches w₁ → ∀ a, w₁.role? a = some (.scope [param] true) →
        Chases T D (S.within (⟨.handler, a⟩ :: c)) (⟨.handler, a⟩ :: c) (catchAt + 1) (t.after catchAt)
          w₁ xbody (execList env₂ t (catchAt + 1) body) (execList env₂ t (catchAt + 1) body)
          (execList env' t (catchAt + 1) body) Flowing)
    (hfin : ∀ body, finalizer = some body → ∀ v, Chases T D (S.storing i v) c finallyAt (t.after i) w xfin
      (execList env₂ t finallyAt body) (execList env₂ t finallyAt body) (execList env' t finallyAt body)
      Flowing) :
    Chases T D S c i (t.after i) w
      (chain >>= fun saved => guarding xblock (xhandler saved) >>=
        concluding env i saved finalizer.isSome xfin)
      (chain >>= fun saved => guarding (execList env₂ t (i + 1) block)
          (fun u => execHandler env₂ t saved u catchAt handler) >>=
        concluding env₂ i saved finalizer.isSome (execFinally env₂ t finallyAt finalizer))
      (exec env₂ t i (.attempt block handler finalizer))
      (chain >>= fun saved => guarding (execList env' t (i + 1) block)
          (fun u => execHandler env' t saved u catchAt handler) >>=
        concluding env' i saved finalizer.isSome (execFinally env' t finallyAt finalizer)) Flowing := by
  obtain ⟨hlt, hle⟩ := hparts.le
  have hafter := hparts.after_eq hplaced
  have hle₂ := t.le_afterMany (finalizer.getD []).length finallyAt
  have hfinalizes : finalizer.isSome = true → Finalizes T D S c i (t.after i) w i xfin
      (execFinally env₂ t finallyAt finalizer) (exec env₂ t i (.attempt block handler finalizer))
      (execFinally env' t finallyAt finalizer) := by
    intro hpresent
    obtain ⟨body, rfl⟩ := Option.isSome_iff_exists.1 hpresent
    refine ⟨finallyAt, t.after i, execList env₂ t finallyAt body, by omega, Nat.le_refl _,
      fun w₁ hw₁ v => (hfin body rfl v).mono hw₁, fun w₁ _ a completion ha =>
        .here fun hpausing w₂ act m mid p hw₂ hm hp hp' hpc _ hbooks => ?_⟩
    exact exec_attempt_finally hparts hpc hp hp' (hbooks.2 hpausing.2)
      (hm.heap.suits a _ (World.role?_mono hw₂.roles ha))
  refine .after (fun w' _ => chain_sim h.scene.chain) (fun _ w' _ => chain_sim h.scene.chain)
    (fun _ _ _ hs => hs) fun w₁ hw₁ saved saved' hsaved => ?_
  obtain ⟨rfl, rfl⟩ := hsaved
  simp only [guarding_bind]
  refine (hblock.mono hw₁).caught (Nat.le_succ i) (by omega)
    (.here fun _ w₂ act m _ p _ _ hp hp' hpc hact _ => ?_) hdoomed
    ⟨guardThen_passes (concluding_passes _ _ _ _ _), guardThen_passes (concluding_passes _ _ _ _ _),
      guardThen_passes (concluding_passes _ _ _ _ _)⟩ (fun e he hsolo => ?_)
    (fun w₂ hw₂ flow hflow => .concluding_ok h.scene.chain (hplaced.vacant rfl)
      (h.reach (hw₁.trans hw₂)).envs hflow fun hpresent => (hfinalizes hpresent).mono (hw₁.trans hw₂))
    fun w₂ hw₂ u u' hu => ?_
  · rw [exec_attempt_block hparts hpc (by omega) hp' (by omega), hact]
  · have hfinally : Policy.tally.activation.Obeyed (execFinally env' t finallyAt finalizer) :=
      execFinally_obeyed (h.counts hsolo) finallyAt finalizer
    cases e with
    | ok flow =>
        have hsettles : Settles .tally (pure (.ok flow) : ActM (Except Unwind Flow)) := .pure flow
        simpa only [pure_bind, guardThen] using concluding_obeyed hsettles hfinally
    | error u =>
        rw [guardThen, if_neg (by simpa [isPaused] using he)]
        exact concluding_obeyed (execHandler_settles (h.counts hsolo) saved' u he catchAt handler) hfinally
  · have hreach := hw₁.trans hw₂
    have hpass : ∀ {α : Type} {x y : α}, (if u.isPause then x else y) = y := fun {_ _ _} => if_neg (by
      simpa [isPaused] using hu.isPaused_left)
    have hpass' : ∀ {α : Type} {x y : α}, (if u'.isPause then x else y) = y := fun {_ _ _} => if_neg (by
      simpa [isPaused] using hu.isPaused_right)
    simp only [guardThen, hpass, hpass']
    exact handler_chases (h.reach hreach) hdoomed (hplaced.vacant rfl) hparts (by omega)
      (fun hpresent => (hfinalizes hpresent).mono hreach) hnone
      (fun param body heq => by
        obtain ⟨xbody, hx, hbody⟩ := hsome param body heq
        exact ⟨xbody, hx, fun w₃ hw₃ => hbody w₃ (hreach.trans hw₃)⟩) hu

end

end Resumption.Stepper
