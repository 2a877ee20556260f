import Resumption.Proofs.Match.Attempts
import Resumption.Proofs.Match.Loops
import Resumption.Proofs.Match.Switches

/-!
# Statements that are walked on both sides

The same tree is walked on the left and on the right.  Each statement is as far as its parts are: what
is known of them is put together by the lemma about its kind.
-/

namespace Resumption

open Script

variable {T : Terms} {D : Unwind → World → Machine → Value → Machine → Prop} {s : Manner}
  {t : IndexedTree} {S : Stance} {w w' : World} {c : Chain} {env env' env₂ : Env} {i lo hi : Nat}

/-! ## Inside of statements -/

/-- One more scope, which closures may hold on to. -/
theorem Scene.within (h : Scene T S w c env env') {link : Link} (hlink : link.Sound w) :
    Scene T (S.within (link :: c)) w (link :: c) env env' :=
  { h with
    chain := rfl
    live := fun l hl => (List.mem_cons.1 hl).elim (fun heq => heq ▸ hlink.live) (h.live l) }

/-- One more result is stored. -/
theorem Scene.storing (h : Scene T S w c env env') (i : Nat) (v : Value) :
    Scene T (S.storing i v) w c env env' :=
  { h with }

theorem Chain.Sound.cons {link : Link} (hlink : link.Sound w) (h : Chain.Sound w c) :
    Chain.Sound w (link :: c) :=
  fun l hl => (List.mem_cons.1 hl).elim (fun heq => heq ▸ hlink) (h l)

namespace Walked

theorem within (h : Walked T s t S w c env env') (hopens : s.opens = true) {link : Link}
    (hlink : link.Sound w) : Walked T s t (S.within (link :: c)) w (link :: c) env env' :=
  { h with
    toScene := h.toScene.within hlink
    sound := fun hs => (h.sound hs).cons hlink
    alone := fun hs => by
      rw [hopens] at hs
      cases hs }

theorem storing (h : Walked T s t S w c env env') (i : Nat) (v : Value) :
    Walked T s t (S.storing i v) w c env env' :=
  { h with
    toScene := h.toScene.storing i v
    halts := fun hspared => ⟨(h.halts hspared).1, (h.halts hspared).2.1,
      fun htop cache hcache => (h.halts hspared).2.2 htop cache hcache.1⟩
    sorted := fun hsolo cache hcache => h.sorted hsolo cache hcache.1
    anew := fun hsolo hs cache hcache => h.anew hsolo hs cache hcache.1 }

end Walked

namespace Chased

theorem within (h : Chased T s t S w c env env₂ env') (hopens : s.opens = true) {link : Link}
    (hlink : link.Sound w) : Chased T s t (S.within (link :: c)) w (link :: c) env env₂ env' :=
  { h with
    scene := h.scene.within hlink
    walked := fun hpausing => (h.walked hpausing).within hopens hlink }

theorem storing (h : Chased T s t S w c env env₂ env') (i : Nat) (v : Value) :
    Chased T s t (S.storing i v) w c env env₂ env' :=
  { h with
    scene := h.scene.storing i v
    walked := fun hpausing => (h.walked hpausing).storing i v }

end Chased

/-- A part that stands behind a position has room for itself when a result is stored there. -/
theorem IndexedTree.Along.storing {l : List Node} {j : Nat} {v : Value}
    (h : t.Along (Placed T s t S.books) j l) (hi : i < j) :
    t.Along (Placed T s t (S.storing i v).books) j l := by
  induction l generalizing j with
  | nil => trivial
  | cons n l ih => exact ⟨h.1.storing (.inl hi), ih h.2 (Nat.lt_trans hi (t.lt_after j))⟩

/-- A function is walked on the left, and it is walked when it has been taken up. -/
structure Rewalked (T : Terms) (s : Manner) (t : IndexedTree) (S : Stance) (w : World) (c : Chain)
    (env env₂ env' : Env) : Prop extends Chased T s t S w c env env₂ env' where
  left : Walked T s t S w c env env'

namespace Rewalked

theorem reach (hw : w.Reaches w') (h : Rewalked T s t S w c env env₂ env') :
    Rewalked T s t S w' c env env₂ env' :=
  ⟨h.toChased.reach hw, h.left.reach hw⟩

theorem within (h : Rewalked T s t S w c env env₂ env') (hopens : s.opens = true) {link : Link}
    (hlink : link.Sound w) : Rewalked T s t (S.within (link :: c)) w (link :: c) env env₂ env' :=
  ⟨h.toChased.within hopens hlink, h.left.within hopens hlink⟩

theorem storing (h : Rewalked T s t S w c env env₂ env') (i : Nat) (v : Value) :
    Rewalked T s t (S.storing i v) w c env env₂ env' :=
  ⟨h.toChased.storing i v, h.left.storing i v⟩

theorem not_free (h : Rewalked T s t S w c env env₂ env') : T.solo = true → s ≠ .free := by
  rintro hsolo rfl
  rw [(h.left.free rfl).2.2] at hsolo
  cases hsolo

end Rewalked

/-- The parts of a statement that is no place for calls. -/
theorem Placed.parts {stmt : Stmt} (h : Placed T s t S.books i (.stmt stmt))
    (hs : T.solo = true → s ≠ .free) (hn : (Node.stmt stmt).func? = none)
    (hcall : (Node.stmt stmt).seatsCall s = false) (hkept : (Node.stmt stmt).seatsKept = false) :
    t.Along (Calmly T s t S.books) (i + 1) (Node.childrenOfStmt stmt) :=
  h.calm_children hs hn hcall hkept

/-- The parts of a `for`. -/
theorem Placed.forParts {init : ForInit} {test update : Option Expr} {body : Stmt}
    {testAt updateAt bodyAt : Nat} (h : Placed T s t S.books i (.stmt (.forLoop init test update body)))
    (hs : T.solo = true → s ≠ .free)
    (hat : Stepper.ForParts t i testAt updateAt bodyAt init test update) :
    t.Along (Placed T s t S.books) (i + 1) init.nodes ∧
      (∀ e, init = .expr e → Calmly T s t S.books (i + 1) (.expr e)) ∧
      t.Along (Calmly T s t S.books) testAt (Node.ofExpr? test) ∧
      t.Along (Calmly T s t S.books) updateAt (Node.ofExpr? update) ∧
      Placed T s t S.books bodyAt (.stmt body) := by
  have hparts := h.parts hs rfl rfl rfl
  have hnodes : Node.childrenOfStmt (.forLoop init test update body) =
      init.nodes ++ Node.ofExpr? test ++ Node.ofExpr? update ++ [.stmt body] := by
    cases init <;> rfl
  have hcount : init.nodes.length = init.count := by
    cases init <;> simp [ForInit.nodes, ForInit.count]
  have hstep : ∀ (e? : Option Expr) j, t.afterMany (Node.ofExpr? e?).length j =
      if e?.isSome then t.after j else j := by
    intro e? j
    cases e? <;> rfl
  rw [hnodes, IndexedTree.along_append, IndexedTree.along_append, IndexedTree.along_append] at hparts
  obtain ⟨⟨⟨hinit, htest⟩, hupdate⟩, hbody, -⟩ := hparts
  simp only [hcount, List.length_append, IndexedTree.afterMany_add, hstep, ← hat.test_at,
    ← hat.update_at, ← hat.body_at] at htest hupdate hbody
  refine ⟨hinit.imp fun _ _ _ hc => hc.toPlaced, fun e heq => ?_, htest, hupdate, hbody.toPlaced⟩
  subst heq
  exact hinit.1

/-- The parts of a `for` over keys.  The keys are stored under the position of what is enumerated. -/
theorem Placed.forInParts {left : ForTarget} {right : Expr} {body : Stmt} {rightAt : Nat}
    (h : Placed T s t S.books i (.stmt (.forIn left right body))) (hs : T.solo = true → s ≠ .free)
    (hat : rightAt = if left.isExpr then t.after (i + 1) else i + 1) :
    Calmly T s t S.books rightAt (.expr right) ∧
      (∀ v e, left = .expr e → Calmly T s t (S.storing rightAt v).books (i + 1) (.expr e)) ∧
      ∀ v, Placed T s t (S.storing rightAt v).books (t.after rightAt) (.stmt body) := by
  have hparts := h.parts hs rfl rfl rfl
  have hbehind := t.lt_after rightAt
  cases left with
  | var name =>
      subst hat
      exact ⟨hparts.1, fun _ _ heq => (nomatch heq),
        fun v => hparts.2.1.toPlaced.storing (.inl hbehind)⟩
  | expr e =>
      subst hat
      refine ⟨hparts.2.1, fun v _ heq => ?_, fun v => hparts.2.2.1.toPlaced.storing (.inl hbehind)⟩
      cases heq
      exact ⟨hparts.1.toPlaced.storing (.inr (Nat.le_refl _)), hparts.1.calm⟩

/-- The parts of a `try`.  What waits for the `finally` is stored under its own position. -/
theorem Placed.tryParts {block : List Stmt} {handler : Option Handler} {finalizer : Option (List Stmt)}
    {catchAt finallyAt : Nat} (h : Placed T s t S.books i (.stmt (.attempt block handler finalizer)))
    (hat : Stepper.TryParts t i catchAt finallyAt block handler) :
    t.Along (Placed T s t S.books) (i + 1) (Node.ofStmts block) ∧
      t.Along (Placed T s t S.books) catchAt (handler.toList.map .handler) ∧
      ∀ v, t.Along (Placed T s t (S.storing i v).books) finallyAt (Node.ofStmts (finalizer.getD [])) := by
  have hparts := h.children rfl
  have hle := hat.le
  have hstep : ∀ j, t.afterMany handler.toList.length j = if handler.isSome then t.after j else j := by
    intro j
    cases handler <;> rfl
  rw [show (Node.stmt (.attempt block handler finalizer)).children =
    Node.ofStmts block ++ handler.toList.map .handler ++ Node.ofStmts (finalizer.getD []) from rfl,
    IndexedTree.along_append, IndexedTree.along_append] at hparts
  obtain ⟨⟨hblock, hhandler⟩, hfinally⟩ := hparts
  simp only [Node.ofStmts, List.length_append, IndexedTree.afterMany_add, List.length_map, hstep,
    ← hat.catch_at, ← hat.finally_at] at hhandler hfinally
  exact ⟨hblock, hhandler, fun v => hfinally.storing (by omega)⟩

/-- The parts of a `switch`.  What it looks for is stored under the position of the discriminant. -/
theorem Placed.switchParts {e : Expr} {cases : List Case}
    (h : Placed T s t S.books i (.stmt (.switch e cases))) (hs : T.solo = true → s ≠ .free) :
    Calmly T s t S.books (i + 1) (.expr e) ∧
      ∀ v, t.Along (Placed T s t (S.storing (i + 1) v).books) (t.after (i + 1)) (cases.map .case) :=
  ⟨(h.parts hs rfl rfl rfl).1, fun _ =>
    IndexedTree.Along.storing (h.children rfl).2 (t.lt_after (i + 1))⟩

/-- The body of a case. -/
theorem Placed.armParts {test : Option Expr} {body : List Stmt}
    (h : Placed T s t S.books i (.case ⟨test, body⟩)) :
    t.after i = t.afterMany body.length (Stepper.armAt t i ⟨test, body⟩) ∧
      t.Along (Placed T s t S.books) (Stepper.armAt t i ⟨test, body⟩) (Node.ofStmts body) := by
  have hparts := h.children rfl
  have harmAt : t.afterMany (Node.ofExpr? test).length (i + 1) = Stepper.armAt t i ⟨test, body⟩ := by
    cases test <;> rfl
  rw [show (Node.case ⟨test, body⟩).children = Node.ofExpr? test ++ Node.ofStmts body from rfl,
    IndexedTree.along_append, harmAt] at hparts
  refine ⟨?_, hparts.2⟩
  rw [h.stands.after_eq, ← harmAt, ← IndexedTree.afterMany_add]
  simp [Node.children, Node.ofStmts]

namespace Stepper

open ActM

/-! ## Parts that run alike -/

/-- Every expression of the function chases, constructions apart where calls stand alone. -/
def Seated (T : Terms) (D : Unwind → World → Machine → Value → Machine → Prop) (s : Manner)
    (t : IndexedTree) (env env₂ env' : Env) : Prop :=
  ∀ {S w c i e}, Rewalked T s t S w c env env₂ env' → Placed T s t S.books i (.expr e) →
    (T.solo = true → e.isConstruct = false) → EvalChases T D t S w c env₂ env' i e (eval env t i e)

/-- An expression without calls runs alike. -/
theorem calm_chases {e : Expr} (h : Rewalked T s t S w c env env₂ env')
    (hplaced : Calmly T s t S.books i (.expr e)) :
    EvalChases T D t S w c env₂ env' i e (eval env t i e) :=
  .of_sim (fun _ hw' => eval_sim (h.left.reach hw') i e hplaced)
    fun hpausing _ hw' => eval_sim ((h.walked hpausing).reach hw') i e hplaced

/-- Where calls may stand anywhere, expressions run alike. -/
theorem Seated.of_free (hsolo : T.solo = false) : Seated T D s t env env₂ env' :=
  fun h hplaced _ => calm_chases h ⟨hplaced, fun h => by simp [hsolo] at h⟩

theorem testLoop_sim (h : Walked T s t S w c env env') {test : Option Expr}
    (hplaced : t.Along (Calmly T s t S.books) i (Node.ofExpr? test)) :
    ASim T S w (testLoop env t i test) (testLoop env' t i test) Equal := by
  cases test with
  | none => exact .pure ⟨rfl, trivial⟩
  | some e => exact .bind (eval_sim h i e hplaced.1) fun _ _ _ _ => .pure ⟨rfl, trivial⟩

theorem evalOptional_sim (h : Walked T s t S w c env env') {e? : Option Expr}
    (hplaced : t.Along (Calmly T s t S.books) i (Node.ofExpr? e?)) :
    ASim T S w (evalOptional env t i e?) (evalOptional env' t i e?) Valued := by
  cases e? with
  | none => exact .pure ⟨rfl, trivial⟩
  | some e => exact eval_sim h i e hplaced.1

theorem assignKey_sim (h : Walked T s t S w c env env') (hopens : s.opens = true) {left : ForTarget}
    (hplaced : ∀ e, left = .expr e → Calmly T s t S.books i (.expr e)) {key : Value}
    (hkey : key.Shown w) :
    ASim T S w (assignKey env t i left key) (assignKey env' t i left key) Equal := by
  cases left with
  | var name => exact assignName_sim h.toScene name hkey (.inl (h.sound hopens))
  | expr e =>
      exact .bind (evalSpot_sim h i e (hplaced e rfl)) fun w₁ hw₁ spot hspot =>
        writeSpot_sim (h.toScene.mono hw₁) hspot (hkey.mono hw₁.roles)
          fun _ _ => .inl ((h.mono hw₁).sound hopens)

/-- The tests of cases. -/
theorem matching?_sim (h : Walked T s t S w c env env') (hs : T.solo = true → s ≠ .free) (v : Value)
    (k : Nat) {cases : List Case} (hplaced : t.Along (Placed T s t S.books) i (cases.map .case)) :
    ASim T S w (matching? env t v 0 k i cases) (matching? env' t v 0 k i cases) Equal := by
  induction cases generalizing w k i with
  | nil => exact .pure ⟨rfl, trivial⟩
  | cons arm rest ih =>
      obtain ⟨harm, hrest⟩ := hplaced
      have htest : ASim T S w (testCase env t v true (i + 1) arm.test)
          (testCase env' t v true (i + 1) arm.test) Equal := by
        have hparts := harm.calm_children hs rfl rfl rfl
        obtain ⟨test, body⟩ := arm
        cases test with
        | none => exact .pure ⟨rfl, trivial⟩
        | some e => exact .bind (eval_sim h (i + 1) e hparts.1) fun _ _ _ _ => .pure ⟨rfl, trivial⟩
      refine .bind htest fun w₁ hw₁ hit _ => ?_
      split
      · exact .pure ⟨rfl, trivial⟩
      · exact ih (h.mono hw₁) _ hrest

/-! ## Declarations -/

theorem declare_walked (hseats : Seated T D s t env env₂ env') (h : Rewalked T s t S w c env env₂ env')
    {d : Declarator} (hplaced : Placed T s t S.books i (.declarator d)) :
    Chases T D S c i (t.after i) w (declare env t i d) (declare env₂ t i d) (declare env₂ t i d)
      (declare env' t i d) Equal := by
  obtain ⟨name, init⟩ := d
  cases init with
  | none => exact .of_sim (fun _ _ => Sim.pure ⟨rfl, trivial⟩) fun _ _ _ => Sim.pure ⟨rfl, trivial⟩
  | some init =>
      refine (declare_chases h.toChased hplaced (hseats h (hplaced.children rfl).1
          (hplaced.fair.seldom h.not_free rfl List.mem_cons_self))
        fun w' hw' v hv hnum => assignName_sim (h.scene.reach hw') name hv
          ((hplaced.fair.declares rfl).suits (h.left.reach hw').sound (fun _ => hnum) name rfl)).congr
        (fun _ s _ hs => declare_fresh (m := s.2) hs.1.pc.1) (fun _ _ _ _ _ => rfl) fun _ _ _ _ => rfl

theorem declareAll_walked (hseats : Seated T D s t env env₂ env')
    (h : Rewalked T s t S w c env env₂ env') {decls : List Declarator}
    (hplaced : t.Along (Placed T s t S.books) i (decls.map .declarator)) :
    Chases T D S c i (t.afterMany decls.length i) w (declareAll env t i decls)
      (declareAll env₂ t i decls) (declareAll env₂ t i decls) (declareAll env' t i decls) Equal := by
  induction decls generalizing i with
  | nil => exact .of_sim (fun _ _ => Sim.pure ⟨rfl, trivial⟩) fun _ _ _ => Sim.pure ⟨rfl, trivial⟩
  | cons d rest ih =>
      exact declareAll_chases h.toChased (t.le_afterMany rest.length (t.after i))
        (declare_walked hseats h hplaced.1) (ih hplaced.2)

theorem enterLoop_walked (hseats : Seated T D s t env env₂ env')
    (h : Rewalked T s t S w c env env₂ env') {init : ForInit}
    (hplaced : t.Along (Placed T s t S.books) i init.nodes)
    (hcalm : ∀ e, init = .expr e → Calmly T s t S.books i (.expr e)) :
    Chases T D S c i (t.afterMany init.count i) w (enterLoop env t i init) (enterLoop env₂ t i init)
      (enterLoop env₂ t i init) (enterLoop env' t i init) Equal := by
  cases init with
  | absent => exact .of_sim (fun _ _ => Sim.pure ⟨rfl, trivial⟩) fun _ _ _ => Sim.pure ⟨rfl, trivial⟩
  | vars decls => exact declareAll_walked hseats h hplaced
  | expr e =>
      exact .of_sim
        (fun _ hw' => Sim.bind (eval_sim (h.left.reach hw') i e (hcalm e rfl)) fun _ _ _ _ =>
          .pure ⟨rfl, trivial⟩)
        fun hpausing _ hw' => Sim.bind (eval_sim ((h.walked hpausing).reach hw') i e (hcalm e rfl))
          fun _ _ _ _ => .pure ⟨rfl, trivial⟩

/-! ## Statements -/

/-- The body of a `switch`. -/
def switchBody (env : Env) (t : IndexedTree) (i : Nat) (discriminant : Expr) (cases : List Case)
    (entry : Option Nat) : ActM Flow := do
  let v ← switchValue env (i + 1) (resumedCase? t entry 0 (t.after (i + 1)) cases).isSome
    (eval env t (i + 1) discriminant)
  match ← startingCase? env t entry v (t.after (i + 1)) cases with
  | none => return .normal
  | some k => return (← execArms env t k (t.after (i + 1)) cases).endSwitch

theorem switchBody_none (env : Env) (t : IndexedTree) (i : Nat) (e : Expr) (cases : List Case) :
    switchBody env t i e cases none =
      (discriminating env (i + 1) (eval env t (i + 1) e) >>= fun v =>
        matching? env t v 0 0 (t.after (i + 1)) cases >>= fun hit =>
          runArms (armsOf env t (t.after (i + 1)) cases) (hit.or (defaultCase? cases))) := by
  unfold switchBody startingCase?
  rw [resumedCase?_none]
  refine congrArg (discriminating env (i + 1) (eval env t (i + 1) e) >>= ·) (funext fun v => ?_)
  simp only [directCase?, Option.map_none, Option.getD_none, bind_assoc, pure_bind]
  refine congrArg (matching? env t v 0 0 (t.after (i + 1)) cases >>= ·) (funext fun hit => ?_)
  generalize hit.or (defaultCase? cases) = found
  cases found with
  | none => rfl
  | some k =>
      rw [runArms, ← execArms_eq]

theorem fail_chases {again : ActM Flow} (kind : ErrorKind) (message : String) :
    Chases T D S c lo hi w (lift (Machine.fail kind message)) (lift (Machine.fail kind message)) again
      (lift (Machine.fail kind message)) Flowing :=
  .of_sim (fun _ _ => lift_sim (Machine.fail_sim kind message))
    fun _ _ _ => lift_sim (Machine.fail_sim kind message)

mutual

theorem exec_walked {S : Stance} {w : World} {c : Chain} (hseats : Seated T D s t env env₂ env')
    (h : Rewalked T s t S w c env env₂ env') (i : Nat) :
    ∀ stmt : Stmt, Placed T s t S.books i (.stmt stmt) →
      ExecChases T D t S w c env₂ env' i stmt (exec env t i stmt)
  | .var decls, hplaced =>
      walked h.left h.toChased hplaced (fun _ => rfl) (var_chases hplaced
        (declareAll_walked hseats h (hplaced.children rfl)))
  | .function f, hplaced =>
      walked h.left h.toChased hplaced (fun _ => rfl) (done_chases fun _ _ => trivial)
  | .empty, hplaced =>
      walked h.left h.toChased hplaced (fun _ => rfl) (done_chases fun _ _ => trivial)
  | .expr e, hplaced =>
      walked h.left h.toChased hplaced (fun _ => rfl) (expr_chases hplaced
        (hseats h (hplaced.children rfl).1 (hplaced.fair.seldom h.not_free rfl List.mem_cons_self)))
  | .block body, hplaced => by
      have hafter : t.after i = t.afterMany body.length (i + 1) := by
        rw [hplaced.stands.after_eq]
        simp [Node.children, Node.childrenOfStmt, Node.ofStmts]
      refine walked h.left h.toChased hplaced (fun _ => rfl) (block_chases ?_)
      rw [hafter]
      exact execList_walked hseats h (i + 1) body (hplaced.children rfl)
  | .branch test cons alt, hplaced => by
      obtain ⟨htest, hcons, halt⟩ := hplaced.children rfl
      refine walked h.left h.toChased hplaced (fun _ => rfl) ?_
      simp only [entering_none, Bool.and_false, Bool.false_eq_true, if_false]
      exact branch_chases h.toChased hplaced (hseats h htest
          (hplaced.fair.seldom h.not_free rfl List.mem_cons_self)) (exec_walked hseats h _ cons hcons)
        (execOptional_walked hseats h _ alt halt) fun halt => by rw [halt]; rfl
  | .forLoop init test update body, hplaced => by
      obtain ⟨hinit, hinitCalm, htest, hupdate, hbody⟩ := hplaced.forParts h.not_free ⟨rfl, rfl, rfl⟩
      refine walked h.left h.toChased hplaced (fun _ => rfl) ?_
      simp only [Phase.ofEntry, entering_none, Bool.and_false, Bool.false_eq_true, if_false]
      exact forLoop_chases h.toChased hplaced ⟨rfl, rfl, rfl⟩
        (enterLoop_walked hseats h hinit hinitCalm)
        (fun _ hw' => testLoop_sim (h.left.reach hw') htest)
        (fun hpausing _ hw' => testLoop_sim ((h.walked hpausing).reach hw') htest)
        (fun _ hw' => evalOptional_sim (h.left.reach hw') hupdate)
        (fun hpausing _ hw' => evalOptional_sim ((h.walked hpausing).reach hw') hupdate)
        (exec_walked hseats h _ body hbody)
  | .forIn left right body, hplaced => by
      obtain ⟨hright, hleft, hbody⟩ := hplaced.forInParts h.not_free rfl
      have hopens := hplaced.fair.opens id
      refine walked h.left h.toChased hplaced (fun _ => rfl) ?_
      exact forIn_chases h.toChased hplaced rfl (hright.vacant_of_opens hopens)
        (fun _ hw' => eval_sim (h.left.reach hw') _ _ hright) (evaluates_again h.toChased hright)
        (fun v _ hw' _ hkey => assignKey_sim ((h.left.reach hw').storing _ v) hopens (hleft v) hkey)
        (fun hpausing v _ hw' _ hkey =>
          assignKey_sim (((h.walked hpausing).reach hw').storing _ v) hopens (hleft v) hkey)
        fun v => exec_walked hseats (h.storing _ v) _ body (hbody v)
  | .whileLoop test body, hplaced => by
      have hparts := hplaced.parts h.not_free rfl rfl rfl
      refine walked h.left h.toChased hplaced (fun _ => rfl) ?_
      exact whileLoop_chases h.toChased hplaced hparts.1 (fun _ hw' => eval_sim (h.left.reach hw') _ _ hparts.1)
        (exec_walked hseats h _ body hparts.2.1.toPlaced)
  | .doLoop body test, hplaced => by
      have hparts := hplaced.parts h.not_free rfl rfl rfl
      refine walked h.left h.toChased hplaced (fun _ => rfl) ?_
      exact doLoop_chases h.toChased hplaced hparts.2.1 (fun _ hw' => eval_sim (h.left.reach hw') _ _ hparts.2.1)
        (exec_walked hseats h _ body hparts.1.toPlaced)
  | .ret value, hplaced => by
      have hparts := hplaced.children rfl
      refine walked h.left h.toChased hplaced (fun _ => rfl) (ret_chases hplaced (fun e heq => ?_)
        fun heq => by rw [heq]; rfl)
      subst heq
      exact hseats h hparts.1 (hplaced.fair.seldom h.not_free rfl List.mem_cons_self)
  | .brk none, hplaced =>
      walked h.left h.toChased hplaced (fun _ => rfl) (done_chases fun _ _ => trivial)
  | .cont none, hplaced =>
      walked h.left h.toChased hplaced (fun _ => rfl) (done_chases fun _ _ => trivial)
  | .brk (some label), hplaced => walked h.left h.toChased hplaced (fun _ => rfl) (fail_chases _ _)
  | .cont (some label), hplaced => walked h.left h.toChased hplaced (fun _ => rfl) (fail_chases _ _)
  | .labeled label body, hplaced => walked h.left h.toChased hplaced (fun _ => rfl) (fail_chases _ _)
  | .throwing value, hplaced => by
      refine walked h.left h.toChased hplaced (fun _ => rfl) ?_
      by_cases hdoomed : T.solo = true ∧ s.opens = false
      · obtain ⟨hpauses, hdooms⟩ := h.dooms hdoomed.1
        exact doomed_chases hdoomed.1 hpauses (hdooms.2 hdoomed.2) _
      · have hvalue := (hplaced.children rfl).1
        exact throwing_chases hplaced (hseats h hvalue
          (hvalue.fair.constructs h.not_free fun hsolo => by simpa [hsolo] using hdoomed))
  | .attempt block handler finalizer, hplaced => by
      have hat : TryParts t i (t.afterMany block.length (i + 1))
        (if handler.isSome then t.after (t.afterMany block.length (i + 1))
          else t.afterMany block.length (i + 1)) block handler := ⟨rfl, rfl⟩
      obtain ⟨hblock, hhandler, hfinally⟩ := hplaced.tryParts hat
      refine walked h.left h.toChased hplaced (fun _ => rfl) ?_
      simp only [entering_none, reached_none, Bool.and_false, Bool.false_eq_true, if_false]
      refine attempt_chases (fun saved u => execHandler env t saved u _ handler) h.toChased
        (h.toChased.catches (hplaced.fair.opens id)) hplaced hat
        (execList_walked hseats h _ block hblock) (fun heq u => by rw [heq]; rfl)
        (execHandler_walked hseats h (hplaced.fair.opens id) _ handler hhandler) fun body heq v => ?_
      rw [hat.after_eq hplaced]
      exact execFinally_walked hseats (h.storing i v) _ finalizer (hfinally v) body heq
  | .switch discriminant cases, hplaced => by
      obtain ⟨hdiscriminant, hcases⟩ := hplaced.switchParts h.not_free
      have hbody := switch_chases h.toChased hplaced (hdiscriminant.vacant_of_opens (hplaced.fair.opens id))
        (fun _ hw' => eval_sim (h.left.reach hw') _ _ hdiscriminant)
        (evaluates_again h.toChased hdiscriminant)
        (fun v u _ hw' => matching?_sim ((h.left.reach hw').storing _ v) h.not_free u 0 (hcases v))
        (fun hpausing v u _ hw' => matching?_sim (((h.walked hpausing).reach hw').storing _ v)
          h.not_free u 0 (hcases v))
        fun v => arms_walked hseats (h.storing _ v) _ cases (hcases v)
      simp only [← switchBody_none] at hbody
      exact walked h.left h.toChased hplaced (fun _ => rfl) hbody
  | .withScope object body, hplaced => by
      have hparts := hplaced.parts h.not_free rfl rfl rfl
      refine walked h.left h.toChased hplaced (fun _ => rfl) ?_
      simp only [entering_none, reenter, Bool.false_eq_true, if_false, bind_assoc, pure_bind]
      exact withScope_chases h.toChased hplaced (fun _ hw' => eval_sim (h.left.reach hw') _ _ hparts.1)
        (evaluates_again h.toChased hparts.1)
        fun w₁ hw₁ a ha => exec_walked hseats
          ((h.reach hw₁).within (hplaced.fair.opens id) (show Link.Sound w₁ ⟨.withObject, a⟩ from ha)) _ body hparts.2.1.toPlaced
  | .debugger, hplaced =>
      walked h.left h.toChased hplaced (fun _ => rfl) (debugging_chases h.toChased hplaced)
termination_by structural stmt => stmt

theorem execOptional_walked {S : Stance} {w : World} {c : Chain} (hseats : Seated T D s t env env₂ env')
    (h : Rewalked T s t S w c env env₂ env') (i : Nat) :
    ∀ alt : Option Stmt, t.Along (Placed T s t S.books) i (alt.toList.map .stmt) →
      ∀ stmt, alt = some stmt → ExecChases T D t S w c env₂ env' i stmt (execOptional env t i alt)
  | none, _, _, heq => by cases heq
  | some stmt, hplaced, _, heq => by
      cases heq
      exact exec_walked hseats h i stmt hplaced.1
termination_by structural alt => alt

theorem execList_walked {S : Stance} {w : World} {c : Chain} (hseats : Seated T D s t env env₂ env')
    (h : Rewalked T s t S w c env env₂ env') (i : Nat) :
    ∀ l : List Stmt, t.Along (Placed T s t S.books) i (Node.ofStmts l) →
      Chases T D S c i (t.afterMany l.length i) w (execList env t i l) (execList env₂ t i l)
        (execList env₂ t i l) (execList env' t i l) Flowing
  | [], _ => done_chases fun _ _ => trivial
  | stmt :: rest, hplaced => by
      rw [execList_eq env]
      exact execList_chases h.toChased (t.le_afterMany rest.length (t.after i))
        (exec_walked hseats h i stmt hplaced.1) (execList_walked hseats h _ rest hplaced.2)
termination_by structural l => l

theorem arms_walked {S : Stance} {w : World} {c : Chain} (hseats : Seated T D s t env env₂ env')
    (h : Rewalked T s t S w c env env₂ env') (i : Nat) :
    ∀ cases : List Case, t.Along (Placed T s t S.books) i (cases.map .case) →
      ArmsChase T D t S w c env₂ env' i cases (armsOf env t i cases)
  | [], _ => trivial
  | arm :: rest, hplaced =>
      ⟨arm_walked hseats h i arm hplaced.1, arms_walked hseats h _ rest hplaced.2⟩
termination_by structural l => l

theorem arm_walked {S : Stance} {w : World} {c : Chain} (hseats : Seated T D s t env env₂ env')
    (h : Rewalked T s t S w c env env₂ env') (i : Nat) :
    ∀ arm : Case, Placed T s t S.books i (.case arm) →
      Chases T D S c (armAt t i arm) (t.after i) w (execArm env t i arm) (execArm env₂ t i arm)
        (execArm env₂ t i arm) (execArm env' t i arm) Flowing
  | ⟨test, body⟩, hplaced => by
      obtain ⟨hafter, hparts⟩ := hplaced.armParts
      rw [hafter]
      exact execList_walked hseats h _ body hparts
termination_by structural arm => arm

theorem execHandler_walked {S : Stance} {w : World} {c : Chain} (hseats : Seated T D s t env env₂ env')
    (h : Rewalked T s t S w c env env₂ env') (hopens : s.opens = true) (i : Nat) :
    ∀ handler : Option Handler, t.Along (Placed T s t S.books) i (handler.toList.map .handler) →
      ∀ param body, handler = some ⟨param, body⟩ → ∃ xbody,
        (∀ u, execHandler env t c u i handler =
          caught (catching env i c param (u.thrown?.getD .undefined) xbody)) ∧
        ∀ w₁, w.Reaches w₁ → ∀ a, w₁.role? a = some (.scope [param] true) →
          Chases T D (S.within (⟨.handler, a⟩ :: c)) (⟨.handler, a⟩ :: c) (i + 1) (t.after i) w₁ xbody
            (execList env₂ t (i + 1) body) (execList env₂ t (i + 1) body) (execList env' t (i + 1) body)
            Flowing
  | none, _, _, _, heq => by cases heq
  | some ⟨param, body⟩, hplaced, _, _, heq => by
      cases heq
      have hafter : t.after i = t.afterMany body.length (i + 1) := by
        rw [hplaced.1.stands.after_eq]
        simp [Node.children, Node.ofStmts]
      refine ⟨execList env t (i + 1) body, fun _ => rfl, fun w₁ hw₁ a ha => ?_⟩
      rw [hafter]
      exact execList_walked hseats ((h.reach hw₁).within hopens (show Link.Sound w₁ ⟨.handler, a⟩ from ⟨_, ha⟩))
        _ body (hplaced.1.children rfl)
termination_by structural handler => handler

theorem execFinally_walked {S : Stance} {w : World} {c : Chain} (hseats : Seated T D s t env env₂ env')
    (h : Rewalked T s t S w c env env₂ env') (i : Nat) :
    ∀ f : Option (List Stmt), t.Along (Placed T s t S.books) i (Node.ofStmts (f.getD [])) →
      ∀ body, f = some body → Chases T D S c i (t.afterMany (f.getD []).length i) w
        (execFinally env t i f) (execList env₂ t i body) (execList env₂ t i body)
        (execList env' t i body) Flowing
  | none, _, _, heq => by cases heq
  | some body, hplaced, _, heq => by
      cases heq
      exact execList_walked hseats h i body hplaced
termination_by structural f => f

end

end Stepper

end Resumption
