import Resumption.Proofs.Match.Execution
import Resumption.Proofs.Match.Lowered

/-!
# Instrumented statements and their source

Instrumented code runs on the left, and the tree that it was made from is walked on the right, as it is
on the left once the run has been taken up.
-/

namespace Resumption

open Script

variable {T : Terms} {D : Unwind → World → Machine → Value → Machine → Prop} {s : Manner}
  {t : IndexedTree} {S : Stance} {w w' : World} {c : Chain} {env env' env₂ : Env} {i lo hi : Nat}
  {home scopes : Code.Scopes}

/-! ## Inside of statements -/

namespace Pictured

theorem within (h : Pictured T s t S w scopes c env env') (hopens : s.opens = true) {entry : Code.ScopeEntry}
    {link : Link} (hfits : link.Fits w entry) (hlink : link.Sound w) :
    Pictured T s t (S.within (link :: c)) w (entry :: scopes) (link :: c) env env' :=
  { h with
    toScene := h.toScene.within hlink
    fits := ⟨hfits, h.fits⟩
    sound := fun hs => (h.sound hs).cons hlink
    alone := fun hs => by
      rw [hopens] at hs
      cases hs
    own := fun hown => by
      rw [hown] at hopens
      cases hopens }

theorem storing (h : Pictured T s t S w scopes c env env') (i : Nat) (v : Value) :
    Pictured T s t (S.storing i v) w scopes c env env' :=
  { h with
    toScene := h.toScene.storing i v
    sorted := fun hsolo cache hcache => h.sorted hsolo cache hcache.1 }

end Pictured

/-- Instrumented code runs on the left, and its source is walked when it has been taken up. -/
structure Depicted (T : Terms) (s : Manner) (t : IndexedTree) (S : Stance) (w : World)
    (scopes : Code.Scopes) (c : Chain) (env env₂ env' : Env) : Prop
    extends Chased T s t S w c env env₂ env' where
  left : Pictured T s t S w scopes c env env'

namespace Depicted

theorem reach (hw : w.Reaches w') (h : Depicted T s t S w scopes c env env₂ env') :
    Depicted T s t S w' scopes c env env₂ env' :=
  ⟨h.toChased.reach hw, h.left.reach hw⟩

theorem within (h : Depicted T s t S w scopes c env env₂ env') (hopens : s.opens = true)
    {entry : Code.ScopeEntry} {link : Link} (hfits : link.Fits w entry) (hlink : link.Sound w) :
    Depicted T s t (S.within (link :: c)) w (entry :: scopes) (link :: c) env env₂ env' :=
  ⟨h.toChased.within hopens hlink, h.left.within hopens hfits hlink⟩

theorem storing (h : Depicted T s t S w scopes c env env₂ env') (i : Nat) (v : Value) :
    Depicted T s t (S.storing i v) w scopes c env env₂ env' :=
  ⟨h.toChased.storing i v, h.left.storing i v⟩

theorem not_free (h : Depicted T s t S w scopes c env env₂ env') : T.solo = true → s ≠ .free :=
  fun _ => h.left.manner

end Depicted

namespace Instrumented

open ActM
open Stepper (EvalChases ExecChases)

/-- Every expression of the function chases, constructions apart where calls stand alone. -/
def Seated (T : Terms) (D : Unwind → World → Machine → Value → Machine → Prop) (s : Manner)
    (t : IndexedTree) (env env₂ env' : Env) : Prop :=
  ∀ {S w scopes c i e code}, Depicted T s t S w scopes c env env₂ env' →
    Placed T s t S.books i (.expr e) → (T.solo = true → e.isConstruct = false) →
    Code.lowerExpr t scopes i e = .ok code → EvalChases T D t S w c env₂ env' i e (eval env code)

/-- An expression without calls runs alike. -/
theorem calm_chases {e : Expr} {code : Code.Expr} (h : Depicted T s t S w scopes c env env₂ env')
    (hplaced : Calmly T s t S.books i (.expr e)) (hcode : Code.lowerExpr t scopes i e = .ok code) :
    EvalChases T D t S w c env₂ env' i e (eval env code) :=
  .of_sim (fun _ hw' => eval_sim (h.left.reach hw') i e hcode hplaced)
    fun hpausing _ hw' => Stepper.eval_sim ((h.walked hpausing).reach hw') i e hplaced

/-- Where calls may stand anywhere, expressions run alike. -/
theorem Seated.of_free (hsolo : T.solo = false) : Seated T D s t env env₂ env' :=
  fun h hplaced _ => calm_chases h ⟨hplaced, fun h => by simp [hsolo] at h⟩

/-! ## Parts that run alike -/

theorem lowerExpr?_cases {e? : Option Expr} {code? : Option Code.Expr}
    (h : Code.lowerExpr? t scopes i e? = .ok code?) :
    e? = none ∧ code? = none ∨
      ∃ e code, e? = some e ∧ code? = some code ∧ Code.lowerExpr t scopes i e = .ok code := by
  cases e? with
  | none =>
      cases h
      exact .inl ⟨rfl, rfl⟩
  | some e =>
      obtain ⟨code, hcode, h⟩ := Except.bind_eq_ok.1 h
      cases h
      exact .inr ⟨e, code, rfl, rfl, hcode⟩

theorem testLoop_sim (h : Pictured T s t S w scopes c env env') {test : Option Expr}
    {code : Option Code.Expr} (hcode : Code.lowerExpr? t scopes i test = .ok code)
    (hplaced : t.Along (Calmly T s t S.books) i (Node.ofExpr? test)) :
    ASim T S w (testLoop env code) (Stepper.testLoop env' t i test) Equal := by
  rcases lowerExpr?_cases hcode with ⟨rfl, rfl⟩ | ⟨e, code, rfl, rfl, he⟩
  · exact .pure ⟨rfl, trivial⟩
  · exact .bind (eval_sim h i e he hplaced.1) fun _ _ _ _ => .pure ⟨rfl, trivial⟩

theorem evalOptional_sim (h : Pictured T s t S w scopes c env env') {e? : Option Expr}
    {code : Option Code.Expr} (hcode : Code.lowerExpr? t scopes i e? = .ok code)
    (hplaced : t.Along (Calmly T s t S.books) i (Node.ofExpr? e?)) :
    ASim T S w (evalOptional env code) (Stepper.evalOptional env' t i e?) Valued := by
  rcases lowerExpr?_cases hcode with ⟨rfl, rfl⟩ | ⟨e, code, rfl, rfl, he⟩
  · exact .pure ⟨rfl, trivial⟩
  · exact eval_sim h i e he hplaced.1

theorem assignKey_sim (h : Pictured T s t S w scopes c env env') (hopens : s.opens = true)
    {left : ForTarget}
    {target : Code.Target} (htarget : Code.lowerForTarget t scopes i left = .ok target)
    (hplaced : ∀ e, left = .expr e → Calmly T s t S.books i (.expr e)) {key : Value}
    (hkey : key.Shown w) :
    ASim T S w (assignKey env target key) (Stepper.assignKey env' t i left key) Equal := by
  cases left with
  | var name =>
      cases htarget
      exact writeRef_sim h.toScene h.fits name hkey (.inl (h.sound hopens))
  | expr e =>
      exact .bind_rel (evalTarget_sim h i e htarget (hplaced e rfl)) fun w₁ hw₁ _ _ hspot =>
        writeSpot_sim (h.mono hw₁) hspot (hkey.mono hw₁.roles)
          fun _ _ => .inl ((h.mono hw₁).sound hopens)

theorem lowerCases_cons {arm : Case} {rest : List Case} {codes : List Code.Case}
    (h : (Code.lowerCases t home scopes i (arm :: rest)).code = .ok codes) :
    ∃ test body others, codes = ⟨test, body⟩ :: others ∧
      Code.lowerExpr? t scopes (i + 1) arm.test = .ok test ∧
      (Code.lowerStmts t home scopes (Stepper.armAt t i arm) arm.body).code = .ok body ∧
      (Code.lowerCases t home scopes (t.after i) rest).code = .ok others := by
  obtain ⟨test, body⟩ := arm
  obtain ⟨_, others, harm, hothers, rfl⟩ := Code.LoweredBody.both_eq_ok h
  obtain ⟨test', body', htest, hbody, rfl⟩ := Code.LoweredBody.both_eq_ok harm
  exact ⟨test', body', others, rfl, htest, hbody, hothers⟩

/-- The tests of cases. -/
theorem matching?_sim (h : Pictured T s t S w scopes c env env') (v : Value) (k : Nat)
    {cases : List Case} {codes : List Code.Case}
    (hcodes : (Code.lowerCases t home scopes i cases).code = .ok codes)
    (hplaced : t.Along (Placed T s t S.books) i (cases.map .case)) :
    ASim T S w (matching? env v k codes) (Stepper.matching? env' t v 0 k i cases) Equal := by
  induction cases generalizing w k i codes with
  | nil =>
      cases hcodes
      exact .pure ⟨rfl, trivial⟩
  | cons arm rest ih =>
      obtain ⟨test, body, others, rfl, htest, -, hothers⟩ := lowerCases_cons hcodes
      obtain ⟨harm, hrest⟩ := hplaced
      have hparts := harm.calm_children (fun _ => h.manner) rfl rfl rfl
      obtain ⟨test?, stmts⟩ := arm
      rcases lowerExpr?_cases htest with ⟨rfl, rfl⟩ | ⟨e, code, rfl, rfl, he⟩
      · exact ih h _ hothers hrest
      · have hform : Stepper.matching? env' t v 0 k i (⟨some e, stmts⟩ :: rest) =
            Stepper.eval env' t (i + 1) e >>= fun u => if u.same v then pure (some k)
              else Stepper.matching? env' t v 0 (k + 1) (t.after i) rest := by
          simp [Stepper.matching?, Stepper.testCase]
        rw [hform]
        refine .bind (eval_sim h (i + 1) e he hparts.1) fun w₁ hw₁ u _ => ?_
        split
        · exact .pure ⟨rfl, trivial⟩
        · exact ih (h.mono hw₁) _ hothers hrest

theorem defaultCase?_eq {cases : List Case} {codes : List Code.Case}
    (hcodes : (Code.lowerCases t home scopes i cases).code = .ok codes) :
    defaultCase? codes = Stepper.defaultCase? cases := by
  induction cases generalizing i codes with
  | nil =>
      cases hcodes
      rfl
  | cons arm rest ih =>
      obtain ⟨test, body, others, rfl, htest, -, hothers⟩ := lowerCases_cons hcodes
      have hrest := ih hothers
      have hnone : test.isNone = arm.test.isNone := by
        rcases lowerExpr?_cases htest with ⟨harm, rfl⟩ | ⟨e, code, harm, rfl, he⟩ <;> simp [harm]
      rw [defaultCase?, Stepper.defaultCase?] at hrest ⊢
      rw [List.findIdx?_cons, List.findIdx?_cons, hrest, hnone]

/-- The bodies of cases. -/
def armsOf (env : Env) (cases : List Code.Case) : List (ActM Flow) := cases.map (execArm env)

theorem execArms_eq (env : Env) (k : Nat) (cases : List Code.Case) :
    execArms env k cases = Stepper.fallThrough k (armsOf env cases) := by
  induction cases generalizing k with
  | nil => cases k <;> rfl
  | cons arm rest ih =>
      cases k with
      | zero =>
          rw [execArms, armsOf, List.map_cons, Stepper.fallThrough, ← armsOf, ← ih 0]
          rfl
      | succ k => exact ih k

/-! ## Declarations -/

theorem declare_lowered (hseats : Seated T D s t env env₂ env')
    (h : Depicted T s t S w scopes c env env₂ env') {d : Declarator} {code : Code.Declarator}
    (hcode : Code.lowerDecl t scopes i d = .ok code)
    (hplaced : Placed T s t S.books i (.declarator d)) :
    Chases T D S c i (t.after i) w (declare env code) (Stepper.declare env₂ t i d)
      (Stepper.declare env₂ t i d) (Stepper.declare env' t i d) Equal := by
  obtain ⟨name, init⟩ := d
  obtain ⟨init?, hinit, hcode⟩ := Except.bind_eq_ok.1 hcode
  cases hcode
  rcases lowerExpr?_cases hinit with ⟨rfl, rfl⟩ | ⟨init, code, rfl, rfl, he⟩
  · exact .of_sim (fun _ _ => Sim.pure ⟨rfl, trivial⟩) fun _ _ _ => Sim.pure ⟨rfl, trivial⟩
  · exact Stepper.declare_chases h.toChased hplaced (hseats h (hplaced.children rfl).1
        (hplaced.fair.seldom h.not_free rfl List.mem_cons_self) he)
      fun w' hw' v hv hnum => writeRef_sim (h.scene.reach hw') (h.left.reach hw').fits name hv
        ((hplaced.fair.declares rfl).suits (h.left.reach hw').sound (fun _ => hnum) name rfl)

theorem declareAll_lowered (hseats : Seated T D s t env env₂ env')
    (h : Depicted T s t S w scopes c env env₂ env') {decls : List Declarator}
    {codes : List Code.Declarator} (hcodes : Code.lowerDecls t scopes i decls = .ok codes)
    (hplaced : t.Along (Placed T s t S.books) i (decls.map .declarator)) :
    Chases T D S c i (t.afterMany decls.length i) w (codes.forM (declare env))
      (Stepper.declareAll env₂ t i decls) (Stepper.declareAll env₂ t i decls)
      (Stepper.declareAll env' t i decls) Equal := by
  induction decls generalizing i codes with
  | nil =>
      cases hcodes
      exact .of_sim (fun _ _ => Sim.pure ⟨rfl, trivial⟩) fun _ _ _ => Sim.pure ⟨rfl, trivial⟩
  | cons d rest ih =>
      obtain ⟨code, hcode, hcodes⟩ := Except.bind_eq_ok.1 hcodes
      obtain ⟨others, hothers, hcodes⟩ := Except.bind_eq_ok.1 hcodes
      cases hcodes
      exact Stepper.declareAll_chases h.toChased (t.le_afterMany rest.length (t.after i))
        (declare_lowered hseats h hcode hplaced.1) (ih hothers hplaced.2)

theorem enterLoop_lowered (hseats : Seated T D s t env env₂ env')
    (h : Depicted T s t S w scopes c env env₂ env') {init : ForInit} {code : Code.ForInit}
    (hcode : Code.lowerInit t scopes i init = .ok code)
    (hplaced : t.Along (Placed T s t S.books) i init.nodes)
    (hcalm : ∀ e, init = .expr e → Calmly T s t S.books i (.expr e)) :
    Chases T D S c i (t.afterMany init.count i) w (enterLoop env code)
      (Stepper.enterLoop env₂ t i init) (Stepper.enterLoop env₂ t i init)
      (Stepper.enterLoop env' t i init) Equal := by
  cases init with
  | absent =>
      cases hcode
      exact .of_sim (fun _ _ => Sim.pure ⟨rfl, trivial⟩) fun _ _ _ => Sim.pure ⟨rfl, trivial⟩
  | vars decls =>
      obtain ⟨codes, hcodes, hcode⟩ := Except.bind_eq_ok.1 hcode
      cases hcode
      exact declareAll_lowered hseats h hcodes hplaced
  | expr e =>
      obtain ⟨code, he, hcode⟩ := Except.bind_eq_ok.1 hcode
      cases hcode
      exact .of_sim
        (fun _ hw' => Sim.bind (eval_sim (h.left.reach hw') i e he (hcalm e rfl)) fun _ _ _ _ =>
          .pure ⟨rfl, trivial⟩)
        fun hpausing _ hw' => Sim.bind
          (Stepper.eval_sim ((h.walked hpausing).reach hw') i e (hcalm e rfl)) fun _ _ _ _ =>
            .pure ⟨rfl, trivial⟩

/-! ## Statements -/

theorem exec_switch (env : Env) (i : Nat) (discriminant : Code.Expr) (cases : List Code.Case) :
    exec env (.switch i discriminant cases) =
      discriminating env i (eval env discriminant) >>= fun v => matching? env v 0 cases >>= fun hit =>
        Stepper.runArms (armsOf env cases) (hit.or (defaultCase? cases)) := by
  rw [exec]
  refine congrArg (discriminating env i (eval env discriminant) >>= ·) (funext fun v => ?_)
  refine congrArg (matching? env v 0 cases >>= ·) (funext fun hit => ?_)
  generalize hit.or (defaultCase? cases) = found
  cases found with
  | none => rfl
  | some k => rw [Stepper.runArms, ← execArms_eq]

theorem execList_eq (env : Env) (stmt : Code.Stmt) (rest : List Code.Stmt) :
    execList env (stmt :: rest) = exec env stmt >>= Stepper.ifNormal (execList env rest) := by
  rw [execList]
  rfl

mutual

theorem exec_lowered {S : Stance} {w : World} {scopes : Code.Scopes} {c : Chain}
    (hseats : Seated T D s t env env₂ env') (h : Depicted T s t S w scopes c env env₂ env') (i : Nat) :
    ∀ (stmt : Stmt) {code : Code.Stmt}, (Code.lowerStmt t home scopes i stmt).code = .ok code →
      Placed T s t S.books i (.stmt stmt) →
      ExecChases T D t S w c env₂ env' i stmt (exec env code)
  | .var decls, _, hcode, hplaced => by
      obtain ⟨codes, hcodes, hcode⟩ := Except.bind_eq_ok.1 hcode
      cases hcode
      exact Stepper.lowered h.toChased hplaced (fun _ => rfl) (Stepper.var_chases hplaced
        (declareAll_lowered hseats h hcodes (hplaced.children rfl)))
  | .function f, _, hcode, hplaced => by
      cases hcode
      exact Stepper.lowered h.toChased hplaced (fun _ => rfl) (Stepper.done_chases fun _ _ => trivial)
  | .empty, _, hcode, hplaced => by
      cases hcode
      exact Stepper.lowered h.toChased hplaced (fun _ => rfl) (Stepper.done_chases fun _ _ => trivial)
  | .expr e, _, hcode, hplaced => by
      obtain ⟨code, he, hcode⟩ := Except.bind_eq_ok.1 hcode
      cases hcode
      exact Stepper.lowered h.toChased hplaced (fun _ => rfl) (Stepper.expr_chases hplaced
        (hseats h (hplaced.children rfl).1 (hplaced.fair.seldom h.not_free rfl List.mem_cons_self) he))
  | .block body, _, hcode, hplaced => by
      obtain ⟨codes, hcodes, rfl⟩ := Code.LoweredBody.map_eq_ok hcode
      have hafter : t.after i = t.afterMany body.length (i + 1) := by
        rw [hplaced.stands.after_eq]
        simp [Node.children, Node.childrenOfStmt, Node.ofStmts]
      refine Stepper.lowered h.toChased hplaced (fun _ => rfl) (Stepper.block_chases ?_)
      rw [hafter]
      exact execList_lowered hseats h (i + 1) body hcodes (hplaced.children rfl)
  | .branch test cons alt, _, hcode, hplaced => by
      obtain ⟨test', ⟨cons', alt'⟩, he, hrest, rfl⟩ := Code.LoweredBody.both_eq_ok hcode
      obtain ⟨cons', alt', hcons, halt, hpair⟩ := Code.LoweredBody.both_eq_ok hrest
      cases hpair
      obtain ⟨htest, hconsAt, haltAt⟩ := hplaced.children rfl
      refine Stepper.lowered h.toChased hplaced (fun _ => rfl) ?_
      simp only [Stepper.entering_none, Bool.and_false, Bool.false_eq_true, if_false]
      exact Stepper.branch_chases h.toChased hplaced (hseats h htest
          (hplaced.fair.seldom h.not_free rfl List.mem_cons_self) he)
        (exec_lowered hseats h _ cons hcons hconsAt) (execOptional_lowered hseats h _ alt halt haltAt)
        fun heq => by subst heq; cases halt; rfl
  | .forLoop init test update body, _, hcode, hplaced => by
      obtain ⟨head, body', hhead, hbody', rfl⟩ := Code.LoweredBody.both_eq_ok hcode
      obtain ⟨init', hinit', hhead⟩ := Except.bind_eq_ok.1 hhead
      obtain ⟨test', htest', hhead⟩ := Except.bind_eq_ok.1 hhead
      obtain ⟨update', hupdate', hhead⟩ := Except.bind_eq_ok.1 hhead
      cases hhead
      obtain ⟨hinit, hinitCalm, htest, hupdate, hbody⟩ := hplaced.forParts h.not_free ⟨rfl, rfl, rfl⟩
      refine Stepper.lowered h.toChased hplaced (fun _ => rfl) ?_
      simp only [Stepper.Phase.ofEntry, Stepper.entering_none, Bool.and_false, Bool.false_eq_true,
        if_false]
      exact Stepper.forLoop_chases h.toChased hplaced ⟨rfl, rfl, rfl⟩
        (enterLoop_lowered hseats h hinit' hinit hinitCalm)
        (fun _ hw' => testLoop_sim (h.left.reach hw') htest' htest)
        (fun hpausing _ hw' => Stepper.testLoop_sim ((h.walked hpausing).reach hw') htest)
        (fun _ hw' => evalOptional_sim (h.left.reach hw') hupdate' hupdate)
        (fun hpausing _ hw' => Stepper.evalOptional_sim ((h.walked hpausing).reach hw') hupdate)
        (exec_lowered hseats h _ body hbody' hbody)
  | .forIn left right body, _, hcode, hplaced => by
      obtain ⟨head, body', hhead, hbody', rfl⟩ := Code.LoweredBody.both_eq_ok hcode
      obtain ⟨target, htarget, hhead⟩ := Except.bind_eq_ok.1 hhead
      obtain ⟨right', hright', hhead⟩ := Except.bind_eq_ok.1 hhead
      cases hhead
      obtain ⟨hright, hleft, hbody⟩ := hplaced.forInParts h.not_free rfl
      have hopens := hplaced.fair.opens id
      refine Stepper.lowered h.toChased hplaced (fun _ => rfl) ?_
      exact Stepper.forIn_chases h.toChased hplaced rfl (hright.vacant_of_opens hopens)
        (fun _ hw' => eval_sim (h.left.reach hw') _ _ hright' hright)
        (Stepper.evaluates_again h.toChased hright)
        (fun v _ hw' _ hkey => assignKey_sim ((h.left.reach hw').storing _ v) hopens htarget (hleft v) hkey)
        (fun hpausing v _ hw' _ hkey =>
          Stepper.assignKey_sim (((h.walked hpausing).reach hw').storing _ v) hopens (hleft v) hkey)
        fun v => exec_lowered hseats (h.storing _ v) _ body hbody' (hbody v)
  | .whileLoop test body, _, hcode, hplaced => by
      obtain ⟨test', body', htest, hbody, rfl⟩ := Code.LoweredBody.both_eq_ok hcode
      have hparts := hplaced.parts h.not_free rfl rfl rfl
      refine Stepper.lowered h.toChased hplaced (fun _ => rfl) ?_
      exact Stepper.whileLoop_chases h.toChased hplaced hparts.1
        (fun _ hw' => eval_sim (h.left.reach hw') _ _ htest hparts.1)
        (exec_lowered hseats h _ body hbody hparts.2.1.toPlaced)
  | .doLoop body test, _, hcode, hplaced => by
      obtain ⟨body', test', hbody, htest, rfl⟩ := Code.LoweredBody.both_eq_ok hcode
      have hparts := hplaced.parts h.not_free rfl rfl rfl
      refine Stepper.lowered h.toChased hplaced (fun _ => rfl) ?_
      exact Stepper.doLoop_chases h.toChased hplaced hparts.2.1
        (fun _ hw' => eval_sim (h.left.reach hw') _ _ htest hparts.2.1)
        (exec_lowered hseats h _ body hbody hparts.1.toPlaced)
  | .ret value, _, hcode, hplaced => by
      obtain ⟨value', hvalue, hcode⟩ := Except.bind_eq_ok.1 hcode
      cases hcode
      have hparts := hplaced.children rfl
      refine Stepper.lowered h.toChased hplaced (fun _ => rfl) (Stepper.ret_chases hplaced
        (fun e heq => ?_) fun heq => ?_)
      · rcases lowerExpr?_cases hvalue with ⟨rfl, rfl⟩ | ⟨e, code, rfl, rfl, he⟩
        · cases heq
        · cases heq
          exact hseats h hparts.1 (hplaced.fair.seldom h.not_free rfl List.mem_cons_self) he
      · subst heq
        cases hvalue
        rfl
  | .brk none, _, hcode, hplaced => by
      cases hcode
      exact Stepper.lowered h.toChased hplaced (fun _ => rfl) (Stepper.done_chases fun _ _ => trivial)
  | .cont none, _, hcode, hplaced => by
      cases hcode
      exact Stepper.lowered h.toChased hplaced (fun _ => rfl) (Stepper.done_chases fun _ _ => trivial)
  | .brk (some label), _, hcode, hplaced => by cases hcode
  | .cont (some label), _, hcode, hplaced => by cases hcode
  | .labeled label body, _, hcode, hplaced => by cases hcode
  | .throwing value, _, hcode, hplaced => by
      obtain ⟨code, he, hcode⟩ := Except.bind_eq_ok.1 hcode
      cases hcode
      refine Stepper.lowered h.toChased hplaced (fun _ => rfl) ?_
      by_cases hdoomed : T.solo = true ∧ s.opens = false
      · obtain ⟨hpauses, hdooms⟩ := h.dooms hdoomed.1
        exact Stepper.doomed_chases hdoomed.1 hpauses (hdooms.2 hdoomed.2) _
      · have hvalue := (hplaced.children rfl).1
        exact Stepper.throwing_chases hplaced (hseats h hvalue
          (hvalue.fair.constructs h.not_free fun hsolo => by simpa [hsolo] using hdoomed) he)
  | .attempt block handler finalizer, _, hcode, hplaced => by
      obtain ⟨⟨block', handler'⟩, finalizer', hrest, hfinally', rfl⟩ := Code.LoweredBody.both_eq_ok hcode
      obtain ⟨block', handler', hblock', hhandler', hpair⟩ := Code.LoweredBody.both_eq_ok hrest
      cases hpair
      have hat : Stepper.TryParts t i (t.afterMany block.length (i + 1))
        (if handler.isSome then t.after (t.afterMany block.length (i + 1))
          else t.afterMany block.length (i + 1)) block handler := ⟨rfl, rfl⟩
      obtain ⟨hblock, hhandler, hfinally⟩ := hplaced.tryParts hat
      have hopens : s.opens = true := h.left.admits hplaced.fair
      have hpresent : finalizer'.isSome = finalizer.isSome := by
        cases finalizer with
        | none => cases hfinally'; rfl
        | some body =>
            obtain ⟨_, _, rfl⟩ := Code.LoweredBody.map_eq_ok hfinally'
            rfl
      refine Stepper.lowered h.toChased hplaced (fun _ => rfl) ?_
      simp only [Stepper.entering_none, Stepper.reached_none, Bool.and_false, Bool.false_eq_true, if_false]
      rw [exec, hpresent]
      refine Stepper.attempt_chases (fun saved u => execHandler env saved u handler') h.toChased
        (h.toChased.catches hopens) hplaced hat (execList_lowered hseats h _ block hblock' hblock) (fun heq u => ?_)
        (execHandler_lowered hseats h hopens _ handler hhandler' hhandler) fun body heq v => ?_
      · subst heq
        cases hhandler'
        rfl
      · rw [hat.after_eq hplaced]
        exact execFinally_lowered hseats (h.storing i v) _ finalizer hfinally' (hfinally v) body heq
  | .switch discriminant cases, _, hcode, hplaced => by
      obtain ⟨discriminant', cases', he, hcases', rfl⟩ := Code.LoweredBody.both_eq_ok hcode
      obtain ⟨hdiscriminant, hcases⟩ := hplaced.switchParts h.not_free
      have hbody := Stepper.switch_chases h.toChased hplaced (hdiscriminant.vacant_of_opens (hplaced.fair.opens id))
        (fun _ hw' => eval_sim (h.left.reach hw') _ _ he hdiscriminant)
        (Stepper.evaluates_again h.toChased hdiscriminant)
        (fun v u _ hw' => matching?_sim ((h.left.reach hw').storing _ v) u 0 hcases' (hcases v))
        (fun hpausing v u _ hw' => Stepper.matching?_sim (((h.walked hpausing).reach hw').storing _ v)
          h.not_free u 0 (hcases v))
        fun v => arms_lowered hseats (h.storing _ v) _ cases hcases' (hcases v)
      simp only [← Stepper.switchBody_none] at hbody
      refine Stepper.lowered h.toChased hplaced (fun _ => rfl) ?_
      rw [exec_switch, defaultCase?_eq hcases']
      exact hbody
  | .withScope object body, _, hcode, hplaced => by
      obtain ⟨object', body', hobject', hbody', rfl⟩ := Code.LoweredBody.both_eq_ok hcode
      have hparts := hplaced.parts h.not_free rfl rfl rfl
      refine Stepper.lowered h.toChased hplaced (fun _ => rfl) ?_
      simp only [Stepper.entering_none, Stepper.reenter, Bool.false_eq_true, if_false, bind_assoc, pure_bind]
      rw [exec]
      refine Stepper.withScope_chases h.toChased hplaced
        (fun _ hw' => eval_sim (h.left.reach hw') _ _ hobject' hparts.1)
        (Stepper.evaluates_again h.toChased hparts.1) fun w₁ hw₁ a ha => ?_
      have hscope : Link.Fits w₁ ⟨.withObject, []⟩ ⟨.withObject, a⟩ := ⟨rfl, ha⟩
      exact exec_lowered hseats ((h.reach hw₁).within (h.left.admits hplaced.fair) hscope ha) _ body hbody'
        hparts.2.1.toPlaced
  | .debugger, _, hcode, hplaced => by
      cases hcode
      exact Stepper.lowered h.toChased hplaced (fun _ => rfl) (Stepper.debugging_chases h.toChased hplaced)
termination_by structural stmt => stmt

theorem execOptional_lowered {S : Stance} {w : World} {scopes : Code.Scopes} {c : Chain}
    (hseats : Seated T D s t env env₂ env') (h : Depicted T s t S w scopes c env env₂ env') (i : Nat) :
    ∀ (alt : Option Stmt) {code : Option Code.Stmt},
      (Code.lowerStmt? t home scopes i alt).code = .ok code →
      t.Along (Placed T s t S.books) i (alt.toList.map .stmt) →
      ∀ stmt, alt = some stmt → ExecChases T D t S w c env₂ env' i stmt (execOptional env code)
  | none, _, _, _, _, heq => by cases heq
  | some stmt, _, hcode, hplaced, _, heq => by
      obtain ⟨code, hstmt, rfl⟩ := Code.LoweredBody.map_eq_ok hcode
      cases heq
      exact exec_lowered hseats h i stmt hstmt hplaced.1
termination_by structural alt => alt

theorem execList_lowered {S : Stance} {w : World} {scopes : Code.Scopes} {c : Chain}
    (hseats : Seated T D s t env env₂ env') (h : Depicted T s t S w scopes c env env₂ env') (i : Nat) :
    ∀ (l : List Stmt) {codes : List Code.Stmt},
      (Code.lowerStmts t home scopes i l).code = .ok codes →
      t.Along (Placed T s t S.books) i (Node.ofStmts l) →
      Chases T D S c i (t.afterMany l.length i) w (execList env codes) (Stepper.execList env₂ t i l)
        (Stepper.execList env₂ t i l) (Stepper.execList env' t i l) Flowing
  | [], _, hcode, _ => by
      cases hcode
      exact Stepper.done_chases fun _ _ => trivial
  | stmt :: rest, _, hcode, hplaced => by
      obtain ⟨code, codes, hstmt, hcodes, rfl⟩ := Code.LoweredBody.both_eq_ok hcode
      rw [execList_eq]
      exact Stepper.execList_chases h.toChased (t.le_afterMany rest.length (t.after i))
        (exec_lowered hseats h i stmt hstmt hplaced.1) (execList_lowered hseats h _ rest hcodes hplaced.2)
termination_by structural l => l

theorem arms_lowered {S : Stance} {w : World} {scopes : Code.Scopes} {c : Chain}
    (hseats : Seated T D s t env env₂ env') (h : Depicted T s t S w scopes c env env₂ env') (i : Nat) :
    ∀ (cases : List Case) {codes : List Code.Case},
      (Code.lowerCases t home scopes i cases).code = .ok codes →
      t.Along (Placed T s t S.books) i (cases.map .case) →
      Stepper.ArmsChase T D t S w c env₂ env' i cases (armsOf env codes)
  | [], _, hcode, _ => by
      cases hcode
      trivial
  | arm :: rest, _, hcode, hplaced => by
      obtain ⟨code, codes, harm, hcodes, rfl⟩ := Code.LoweredBody.both_eq_ok hcode
      exact ⟨arm_lowered hseats h i arm harm hplaced.1, arms_lowered hseats h _ rest hcodes hplaced.2⟩
termination_by structural l => l

theorem arm_lowered {S : Stance} {w : World} {scopes : Code.Scopes} {c : Chain}
    (hseats : Seated T D s t env env₂ env') (h : Depicted T s t S w scopes c env env₂ env') (i : Nat) :
    ∀ (arm : Case) {code : Code.Case}, (Code.lowerCase t home scopes i arm).code = .ok code →
      Placed T s t S.books i (.case arm) →
      Chases T D S c (Stepper.armAt t i arm) (t.after i) w (execArm env code) (Stepper.execArm env₂ t i arm)
        (Stepper.execArm env₂ t i arm) (Stepper.execArm env' t i arm) Flowing
  | ⟨test, body⟩, _, hcode, hplaced => by
      obtain ⟨test', body', htest, hbody, rfl⟩ := Code.LoweredBody.both_eq_ok hcode
      obtain ⟨hafter, hparts⟩ := hplaced.armParts
      rw [hafter]
      exact execList_lowered hseats h _ body hbody hparts
termination_by structural arm => arm

theorem execHandler_lowered {S : Stance} {w : World} {scopes : Code.Scopes} {c : Chain}
    (hseats : Seated T D s t env env₂ env') (h : Depicted T s t S w scopes c env env₂ env')
    (hopens : s.opens = true) (i : Nat) :
    ∀ (handler : Option Handler) {code : Option Code.Handler},
      (Code.lowerHandler? t home scopes i handler).code = .ok code →
      t.Along (Placed T s t S.books) i (handler.toList.map .handler) →
      ∀ param body, handler = some ⟨param, body⟩ → ∃ xbody,
        (∀ u, execHandler env c u code =
          caught (catching env i c param (u.thrown?.getD .undefined) xbody)) ∧
        ∀ w₁, w.Reaches w₁ → ∀ a, w₁.role? a = some (.scope [param] true) →
          Chases T D (S.within (⟨.handler, a⟩ :: c)) (⟨.handler, a⟩ :: c) (i + 1) (t.after i) w₁ xbody
            (Stepper.execList env₂ t (i + 1) body) (Stepper.execList env₂ t (i + 1) body)
            (Stepper.execList env' t (i + 1) body) Flowing
  | none, _, _, _, _, _, heq => by cases heq
  | some ⟨param, body⟩, _, hcode, hplaced, _, _, heq => by
      cases heq
      obtain ⟨_, hclause, rfl⟩ := Code.LoweredBody.map_eq_ok hcode
      obtain ⟨body', hbody, rfl⟩ := Code.LoweredBody.map_eq_ok hclause
      have hafter : t.after i = t.afterMany body.length (i + 1) := by
        rw [hplaced.1.stands.after_eq]
        simp [Node.children, Node.ofStmts]
      refine ⟨execList env body', fun _ => rfl, fun w₁ hw₁ a ha => ?_⟩
      rw [hafter]
      have hscope : Link.Fits w₁ ⟨.handler, [param]⟩ ⟨.handler, a⟩ := ⟨rfl, true, ha⟩
      have hsound : Link.Sound w₁ ⟨.handler, a⟩ := ⟨[param], ha⟩
      exact execList_lowered hseats ((h.reach hw₁).within hopens hscope hsound) _ body hbody
        (hplaced.1.children rfl)
termination_by structural handler => handler

theorem execFinally_lowered {S : Stance} {w : World} {scopes : Code.Scopes} {c : Chain}
    (hseats : Seated T D s t env env₂ env') (h : Depicted T s t S w scopes c env env₂ env') (i : Nat) :
    ∀ (f : Option (List Stmt)) {code : Option (List Code.Stmt)},
      (Code.lowerFinally t home scopes i f).code = .ok code →
      t.Along (Placed T s t S.books) i (Node.ofStmts (f.getD [])) →
      ∀ body, f = some body → Chases T D S c i (t.afterMany (f.getD []).length i) w
        (execFinally env code) (Stepper.execList env₂ t i body) (Stepper.execList env₂ t i body)
        (Stepper.execList env' t i body) Flowing
  | none, _, _, _, _, heq => by cases heq
  | some body, _, hcode, hplaced, _, heq => by
      cases heq
      obtain ⟨body', hbody, rfl⟩ := Code.LoweredBody.map_eq_ok hcode
      exact execList_lowered hseats h i body hbody hplaced
termination_by structural f => f

end

end Instrumented

end Resumption
