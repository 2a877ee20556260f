import Resumption.Proofs.Match.Evaluation

/-!
# Instrumented expressions and their source

Instrumented code runs on the left, and the tree that it was made from is walked on the right.  The
scopes on the right are the ones in the picture by which names were resolved.
-/

namespace Resumption

open Script

variable {T : Terms} {s : Manner} {t : IndexedTree} {S : Stance} {w w' : World} {c : Chain}
  {env env' : Env} {i : Nat} {scopes : Code.Scopes}

/-- No scope binds the name, and no object could. -/
def Code.Scopes.Lacks (scopes : Code.Scopes) (name : String) : Prop :=
  ∀ entry ∈ scopes, entry.kind = .function ∧ name ∉ entry.names

theorem Code.Scopes.Lacks.locate {name : String} (h : scopes.Lacks name) (hops : Nat) :
    scopes.locate name hops = ([], .global) := by
  induction scopes generalizing hops with
  | nil => rfl
  | cons entry scopes ih =>
      obtain ⟨hkind, hname⟩ := h entry List.mem_cons_self
      have hcontains : entry.names.contains name = false := by simpa using hname
      rw [Scopes.locate, hkind, hcontains]
      exact ih (fun e he => h e (List.mem_cons_of_mem _ he)) _

theorem Code.Scopes.Lacks.bindsLocally {name : String} (h : scopes.Lacks name) :
    bindsLocally name scopes = false := by
  cases scopes with
  | nil => rfl
  | cons entry scopes =>
      obtain ⟨hkind, hname⟩ := h entry List.mem_cons_self
      have hcontains : entry.names.contains name = false := by simpa using hname
      rw [Scopes.bindsLocally, hkind, hcontains]
      rfl

/-- Instrumented code runs on the left, and its source is walked on the right. -/
structure Pictured (T : Terms) (s : Manner) (t : IndexedTree) (S : Stance) (w : World)
    (scopes : Code.Scopes) (c : Chain) (env env' : Env) : Prop extends Scene T S w c env env' where
  fits : Chain.Fits w scopes c
  records : env.records = true
  mode : env'.records = (T.mode == .recording)
  registered : T.Registered t env.registry
  manner : s ≠ .free
  sound : s.opens = true → Chain.Sound w c
  alone : s.opens = false → ∃ a names, c = [⟨.function, a⟩] ∧ w.role? a = some (.scope names false)
  own : s = .own → S.args ∧ scopes.Lacks argumentsName
  unhooked : s.opens = true → T.spared = none
  bare : s = .top ∨ s = .apart ∨ s = .script ∧ T.solo = true → ¬ S.args
  sorted : T.solo = true → ∀ cache, S.books cache → cache.Sorted
  /-- Functions that make no scopes do not catch exceptions either. -/
  dooms : T.solo = true → T.pauses = .left ∧ (S.doomed ↔ s.opens = false)

theorem Pictured.reach (hw : w.Reaches w') (h : Pictured T s t S w scopes c env env') :
    Pictured T s t S w' scopes c env env' :=
  { h with
    toScene := h.toScene.reach hw
    fits := h.fits.mono hw.roles
    sound := fun hs => (h.sound hs).mono hw.roles
    alone := fun hs => by
      obtain ⟨a, names, hc, ha⟩ := h.alone hs
      exact ⟨a, names, hc, World.role?_mono hw.roles ha⟩ }

theorem Pictured.mono (hw : w ≤ w') (h : Pictured T s t S w scopes c env env') :
    Pictured T s t S w' scopes c env env' :=
  h.reach hw.reaches

theorem Pictured.admits (h : Pictured T s t S w scopes c env env') {n : Node} (hfair : T.Fair s n) :
    T.Admits s n :=
  hfair.admits.resolve_left h.manner

/-! ## The forms of lowered expressions -/

namespace Code

variable {e : Script.Expr} {code : Expr}

/-- Only a name becomes a variable, and only a property access becomes one. -/
theorem form_of_lowerExpr (h : lowerExpr t scopes i e = .ok code) :
    (∃ name, e = .ident name) ∨ (∀ name, e ≠ .ident name) ∧ (∀ r, code ≠ .ref r) ∧
      (e.isProperty = true ∨ ∀ object key, code ≠ .member object key) := by
  cases e with
  | ident name => exact .inl ⟨name, rfl⟩
  | function f =>
      rw [lowerExpr] at h
      split at h
      · cases h
        simp
      · obtain ⟨_, -, h⟩ := Except.bind_eq_ok.1 h
        cases h
        simp
  | unary op arg =>
      rw [lowerExpr] at h
      split at h
      all_goals
        obtain ⟨_, -, h⟩ := Except.bind_eq_ok.1 h
        cases h
        simp
  | _ =>
      rw [lowerExpr] at h
      repeat obtain ⟨_, -, h⟩ := Except.bind_eq_ok.1 h
      cases h
      simp [Script.Expr.isProperty]

/-- A property access is lowered like a target. -/
theorem lowerTarget_of_isProperty (he : e.isProperty = true) (h : lowerExpr t scopes i e = .ok code) :
    ∃ object key, code = .member object key ∧ lowerTarget t scopes i e = .ok (.member object key) := by
  cases e with
  | member object property =>
      rw [lowerExpr] at h
      obtain ⟨o, ho, h⟩ := Except.bind_eq_ok.1 h
      cases h
      exact ⟨o, _, rfl, by rw [lowerTarget, ho]; rfl⟩
  | index object key =>
      rw [lowerExpr] at h
      obtain ⟨o, ho, h⟩ := Except.bind_eq_ok.1 h
      obtain ⟨k, hk, h⟩ := Except.bind_eq_ok.1 h
      cases h
      exact ⟨o, _, rfl, by simp only [lowerTarget, ho, hk]; rfl⟩
  | _ => cases he

/-- An expression is described as its source is, unless it is about the arguments. -/
theorem describe_of_lowerExpr (hs : s ≠ .free) {i : Nat} :
    ∀ (e : Script.Expr) {code : Expr}, T.Fair s (.expr e) → Terms.Spares s e →
      lowerExpr t scopes i e = .ok code → Instrumented.describe code = Stepper.describe e
  | .ident name, _, hfair, hspares, h => by
      have hname : name ≠ argumentsName := fun hname =>
        hspares (hfair.admits.resolve_left hs hname) (by rw [hname]; rfl)
      rw [lowerExpr, Scopes.read, if_neg (by simp [hname])] at h
      cases h
      exact scopes.name_resolve name
  | .member object property, _, hfair, hspares, h => by
      rw [lowerExpr] at h
      obtain ⟨o, ho, h⟩ := Except.bind_eq_ok.1 h
      cases h
      have hobject := describe_of_lowerExpr hs object (hfair.child rfl List.mem_cons_self) hspares ho
      rw [Instrumented.describe, Stepper.describe, hobject]
  | .index object key, _, hfair, hspares, h => by
      rw [lowerExpr] at h
      obtain ⟨o, ho, h⟩ := Except.bind_eq_ok.1 h
      obtain ⟨k, -, h⟩ := Except.bind_eq_ok.1 h
      cases h
      have hobject := describe_of_lowerExpr hs object (hfair.child rfl List.mem_cons_self) hspares ho
      rw [Instrumented.describe, Stepper.describe, hobject]
  | .function f, _, _, _, h => by
      rw [lowerExpr] at h
      split at h
      · cases h
        rfl
      · obtain ⟨_, -, h⟩ := Except.bind_eq_ok.1 h
        cases h
        rfl
  | .unary op arg, _, _, _, h => by
      rw [lowerExpr] at h
      split at h
      all_goals
        obtain ⟨_, -, h⟩ := Except.bind_eq_ok.1 h
        cases h
        rfl
  | .num _, _, _, _, h | .str _, _, _, _, h | .bool _, _, _, _, h | .null, _, _, _, h
  | .this, _, _, _, h | .array _, _, _, _, h | .object _, _, _, _, h | .update _ _ _, _, _, _, h
  | .binary _ _ _, _, _, _, h | .logical _ _ _, _, _, _, h | .assign _ _ _, _, _, _, h
  | .conditional _ _ _, _, _, _, h | .call _ _, _, _, _, h | .construct _ _, _, _, _, h
  | .sequence _, _, _, _, h => by
      rw [lowerExpr] at h
      repeat obtain ⟨_, -, h⟩ := Except.bind_eq_ok.1 h
      cases h
      rfl
termination_by structural e => e

end Code

theorem Instrumented.askedFor?_eq_none {op : UnaryOp} {code : Code.Expr}
    (h : ∀ r, code ≠ .ref r) : askedFor? op code = none := by
  unfold askedFor?
  split
  · exact absurd rfl (h _)
  · rfl

theorem Stepper.askedFor?_eq_none {op : UnaryOp} {e : Script.Expr} (h : ∀ name, e ≠ .ident name) :
    askedFor? op e = none := by
  unfold askedFor?
  split
  · exact absurd rfl (h _)
  · rfl

/-- The arguments of a function are always there. -/
theorem Stepper.unresolved_arguments :
    ASim T S w (pure false) (unresolved .typeOf (.ident argumentsName)) Equal := by
  rintro s ⟨act', m'⟩ hs
  have hfound : ∀ found : Bool, (found || argumentsName == argumentsName) = true := by simp
  have hthere : unresolved .typeOf (.ident argumentsName) (act', m') = .ok false (act', m') := by
    change ((if (Chain.recordOf? m'.heap argumentsName act'.chain).isSome ||
        argumentsName == argumentsName then pure true
      else ActM.lift (Machine.hasGlobal argumentsName) : ActM Bool) >>= fun x => pure (!x))
        (act', m') = _
    rw [hfound, if_pos rfl]
    rfl
  rw [hthere]
  exact .ok ⟨w, w.le_refl, hs, rfl, trivial⟩

namespace Instrumented

open ActM

/-! ## Closures -/

/-- A function without books is the same on both sides. -/
theorem plainClosure_sim (h : Pictured T s t S w scopes c env env') {n : Node} {f : Func}
    (hn : n.Introduces f) (hat : t.At i n) (hsolo : T.solo = false) :
    MSim T w' (plainClosure env t.ns i)
      (Machine.newFunction (.stepped ⟨t, i, [], .plain, env'.registry⟩)) Valued := by
  have htwin : Callable.Twin T w' (.stepped ⟨t, i, [], .plain, env.registry⟩)
      (.stepped ⟨t, i, [], .plain, env'.registry⟩) := by
    rw [h.envs.registry]
    exact .walked (s := .free) ⟨hat, hn.func?, .whole nofun fun b _ => .free b, nofun, nofun,
      fun _ hl => absurd hl List.not_mem_nil, fun hs => absurd rfl hs, fun hs => by cases hs⟩
      ⟨rfl, hsolo⟩
  intro m m' hm
  have hfound : (m.registries.getD env.registry default).tree t.ns i = .ok t := by
    rw [hm.registries]
    exact h.registered i hat.owns
  rw [plainClosure, Machine.registry_bind, hfound]
  exact Machine.newFunction_sim htwin m m' hm

/-- A function of a script is ready where nothing stands in the way in its body. -/
theorem ready_script {closure : SteppedClosure} {n : Node} {f : Func} (hat : closure.tree.At closure.index n)
    (hf : n.func? = some f) (hbody : ∀ b ∈ Node.ofStmts f.body, T.Fair .script b)
    (hchain : Chain.Sound w closure.chain) (hregistered : T.Registered closure.tree closure.registry)
    (hquiet : T.Quiet (closure.index + 1) (closure.tree.after closure.index)) :
    closure.Ready T w .script n f where
  stands := hat
  func := hf
  fair := .whole (fun hs => by cases hs) hbody
  counts hs := by cases hs
  seeks hs := by cases hs
  chain := hchain
  registered _ := hregistered
  quiet _ := hquiet

/-- What a function expression or declaration is lowered to makes a twin of the closure of its
source.  The record of the innermost scope may still lack names. -/
theorem closure_sim (h : Pictured T s t S w scopes c env env') (hw : w.roles <+: w'.roles) {n : Node}
    {f : Func} {code : Code.Expr} (hn : n.Introduces f) (hat : t.At i n) (hfair : T.Fair s n)
    (hlowered : (if f.isEscaped then pure (.plain t.ns i)
      else do return .closure (← Code.lowerFunc t scopes i n.selfName? f)) = Except.ok code) :
    ∃ x, eval env code = recorded env i x ∧
      ASim T S w' x (Stepper.makeClosure env' t i f) Valued := by
  obtain ⟨hadmits, hbody⟩ := hfair.closure hn
  obtain ⟨hown, hescapes⟩ := hadmits.resolve_left h.manner
  cases hescaped : f.isEscaped with
  | true =>
      rw [hescaped, if_pos rfl] at hlowered
      cases hlowered
      have hsolo : T.solo = false := by
        cases hT : T.solo with
        | false => rfl
        | true => rw [hescapes hT] at hescaped; cases hescaped
      refine ⟨lift (plainClosure env t.ns i), by rw [eval], ?_⟩
      rw [Stepper.makeClosure_escaped env' t i hescaped]
      exact lift_sim (plainClosure_sim h hn hat hsolo)
  | false =>
      rw [hescaped, if_neg Bool.false_ne_true] at hlowered
      obtain ⟨func, hfunc, hlowered⟩ := Except.bind_eq_ok.1 hlowered
      cases hlowered
      have hindex : func.index = i := (Code.lowerFunc_eq_ok hfunc).2.2.1
      have hinner : s.inner = .script := if_neg h.manner
      refine ⟨chain >>= fun chain => lift (Machine.newFunction
        (.instrumented { func, chain, registry := env.registry })), ?_, ?_⟩
      · rw [eval, hindex]
        simp only [recorded, bind_assoc]
      · refine .bind (chain_sim h.chain) fun w₁ hw₁ chain hchain => ?_
        subst hchain
        have hroles := hw.trans hw₁.roles
        rw [hescaped, if_neg Bool.false_ne_true, h.mode, h.envs.registry]
        refine lift_sim (Machine.newFunction_sim ?_)
        have hquiet : T.Quiet (i + 1) (t.after i) := fun sparing hspared => by
          rw [h.unhooked hown] at hspared
          cases hspared
        refine .instrumented (s := .script) (n := n) (f := f) (c := ⟨t, i, chain, _, env.registry⟩)
          (ready_script hat hn.func? (hinner ▸ hbody hescaped) ((h.sound hown).mono hroles) h.registered hquiet)
          (h.unhooked hown) hfunc (h.fits.mono hroles) ?_
        cases T.mode <;> rfl

/-- A number is what it says. -/
theorem eval_num {x : Float} {code : Code.Expr} (hcode : Code.lowerExpr t scopes i (.num x) = .ok code)
    {v : Value} {s s₁ : Activation × Machine} (h : eval env code s = .ok v s₁) : v = .num x := by
  rw [Code.lowerExpr] at hcode
  cases hcode
  rw [eval] at h
  cases h
  rfl

/-! ## Spots -/

/-- The spot is where the source of the target leads to. -/
def Spot.Pairs (scopes : Code.Scopes) (e : Script.Expr) (w : World) : Spot → Stepper.Spot → Prop
  | .ref r, .name x => e = .ident x ∧ r = scopes.resolve x
  | .member object key, .member object' key' => object' = object ∧ key' = key ∧ object.Shown w
  | _, _ => False

theorem Spot.Pairs.mono {e : Script.Expr} {spot : Spot} {spot' : Stepper.Spot} (hw : w ≤ w')
    (h : spot.Pairs scopes e w spot') : spot.Pairs scopes e w' spot' := by
  cases spot <;> cases spot'
  · exact h
  · exact h
  · exact h
  · exact ⟨h.1, h.2.1, Value.Shown.mono hw.roles h.2.2⟩

theorem readSpot_sim (h : Pictured T s t S w scopes c env env') {e : Script.Expr} {spot : Spot}
    {spot' : Stepper.Spot} (hfair : T.Fair s (.expr e)) (hspares : Terms.Spares s e)
    (hspot : spot.Pairs scopes e w spot') :
    ASim T S w (readSpot env spot) (Stepper.readSpot env' spot') Valued := by
  cases spot <;> cases spot'
  · obtain ⟨rfl, rfl⟩ := hspot
    refine readRef_sim h.toScene h.fits fun hname => ?_
    exact hspares (h.admits hfair hname) (by rw [hname]; rfl)
  · exact hspot.elim
  · exact hspot.elim
  · obtain ⟨rfl, rfl, hshown⟩ := hspot
    exact lift_sim (Machine.getProperty_sim h.envs.invoke h.envs.building hshown _)

theorem writeSpot_sim (h : Pictured T s t S w scopes c env env') {e : Script.Expr} {spot : Spot}
    {spot' : Stepper.Spot} (hspot : spot.Pairs scopes e w spot') {v : Value} (hv : v.Shown w)
    (hcount : v.Suits (Chain.Sound w c) e) :
    ASim T S w (writeSpot env spot v) (Stepper.writeSpot env' spot' v) Equal := by
  cases spot <;> cases spot'
  · obtain ⟨rfl, rfl⟩ := hspot
    exact writeRef_sim h.toScene h.fits _ hv (hcount _ rfl)
  · exact hspot.elim
  · exact hspot.elim
  · obtain ⟨rfl, rfl, hshown⟩ := hspot
    exact lift_sim (Machine.putProperty_sim h.envs.invoke h.envs.building hshown _ hv)

/-! ## Names -/

/-- The arguments of the function are found where there is nothing else of their name. -/
theorem lookup_arguments (hscene : Scene T S w c env env') (hfits : Chain.Fits w scopes c)
    (hargs : S.args) (hlacks : scopes.Lacks argumentsName) :
    ASim T S w (argumentsObject env) (Stepper.lookup env' argumentsName) Valued := by
  rintro ⟨act, m⟩ ⟨act', m'⟩ hs
  have hnone : Chain.recordOf? m'.heap argumentsName act'.chain = none := by
    rw [(hs.1.chain c hscene.chain).2, hs.2.heap.alike.recordOf?,
      hfits.recordOf?_eq hs.2.heap hscene.envs.building, hlacks.locate]
    rfl
  have hlookup : Stepper.lookup env' argumentsName (act', m') = argumentsObject env' (act', m') := by
    rw [Stepper.lookup, Stepper.recordOf?_bind, hnone]
    rfl
  rw [hlookup]
  exact argumentsObject_sim hargs hscene.envs.args.1 hscene.envs.args.2 _ _ hs

theorem read_sim (h : Pictured T s t S w scopes c env env') {name : String}
    (hfair : T.Fair s (.expr (.ident name))) :
    ASim T S w (eval env (scopes.read name)) (Stepper.lookup env' name) Valued := by
  unfold Code.Scopes.read
  by_cases hname : name = argumentsName
  · obtain ⟨hargs, hlacks⟩ := h.own (h.admits hfair hname)
    rw [hname, hlacks.bindsLocally, if_pos (by rfl), eval]
    exact lookup_arguments h.toScene h.fits hargs hlacks
  · rw [if_neg (by simp [hname]), eval]
    exact readRef_sim h.toScene h.fits hname

theorem unresolved_sim (h : Pictured T s t S w scopes c env env') (op : UnaryOp) {arg : Script.Expr}
    {code : Code.Expr} (hfair : T.Fair s (.expr arg))
    (hlowered : Code.lowerExpr t scopes i arg = .ok code) :
    ASim T S w (unresolved op code) (Stepper.unresolved op arg) Equal := by
  have hdone : ASim T S w (pure false) (pure false) Equal := .pure ⟨rfl, trivial⟩
  rcases Code.form_of_lowerExpr hlowered with ⟨name, rfl⟩ | ⟨hident, href, -⟩
  · rw [Code.lowerExpr, Code.Scopes.read] at hlowered
    cases op with
    | typeOf =>
        by_cases hname : name = argumentsName
        · obtain ⟨-, hlacks⟩ := h.own (h.admits hfair hname)
          rw [hname, hlacks.bindsLocally, if_pos (by rfl)] at hlowered
          cases hlowered
          rw [hname]
          exact Stepper.unresolved_arguments
        · rw [if_neg (by simp [hname])] at hlowered
          cases hlowered
          exact .bind (resolvable_sim h.toScene h.fits hname) fun _ _ _ _ => .pure ⟨rfl, trivial⟩
    | _ => exact hdone
  · rw [unresolved, Stepper.unresolved, askedFor?_eq_none href, Stepper.askedFor?_eq_none hident]
    exact hdone

/-! ## Expressions -/

theorem recorded_bind {α : Type} (env : Env) (i : Nat) (x : ActM α) (f : α → ActM Value) :
    (x >>= fun a => recorded env i (f a)) = recorded env i (x >>= f) := by
  simp only [recorded, bind_assoc]

/-- What a callee that is a property comes down to. -/
theorem evalCallee_member (env : Env) (object : Code.Expr) (key : Code.Key) :
    evalCallee env (.member object key) = (do
      match ← evalTarget env (.member object key) with
      | .member o k => return (← lift (Machine.getProperty env.invoke o k), o)
      | .ref _ => lift (Machine.typeError "invalid callee")) := by
  simp only [evalCallee, methodOf, evalTarget, bind_assoc, pure_bind]

theorem evalCallee_of_ne {code : Code.Expr} (h : ∀ object key, code ≠ .member object key)
    (env : Env) : evalCallee env code = functionOf (eval env code) := by
  unfold evalCallee
  split
  · exact absurd rfl (h _ _)
  · rfl

theorem evalCallee_sim (h : Pictured T s t S w scopes c env env') {e : Script.Expr} {code : Code.Expr}
    (hlowered : Code.lowerExpr t scopes i e = .ok code)
    (htarget : ∀ target, Code.lowerTarget t scopes i e = .ok target →
      ASim T S w (evalTarget env target) (Stepper.evalSpot env' t i e)
        (fun w spot spot' => spot.Pairs scopes e w spot'))
    (hvalue : ASim T S w (eval env code) (Stepper.eval env' t i e) Valued) :
    ASim T S w (evalCallee env code)
      (Stepper.calleeOf env' e.isProperty (Stepper.evalSpot env' t i e) (Stepper.eval env' t i e))
      (Same fun w p => p.1.Shown w ∧ p.2.Shown w) := by
  unfold Stepper.calleeOf
  cases hproperty : e.isProperty with
  | true =>
      obtain ⟨object, key, rfl, hlowered'⟩ := Code.lowerTarget_of_isProperty hproperty hlowered
      rw [evalCallee_member, if_pos rfl]
      refine .bind_rel (htarget _ hlowered') fun w₁ hw₁ spot spot' hspot => ?_
      cases spot <;> cases spot'
      · exact lift_sim (Machine.typeError_sim _)
      · exact hspot.elim
      · exact hspot.elim
      · obtain ⟨rfl, rfl, hshown⟩ := hspot
        have henv := h.envs.mono hw₁
        exact .bind (lift_sim (Machine.getProperty_sim henv.invoke henv.building hshown _))
          fun w₂ hw₂ f hf => .pure ⟨rfl, hf, hshown.mono hw₂.roles⟩
  | false =>
      have hne : ∀ object key, code ≠ .member object key := by
        rcases Code.form_of_lowerExpr hlowered with ⟨name, rfl⟩ | ⟨-, -, hform⟩
        · rw [Code.lowerExpr, Code.Scopes.read] at hlowered
          split at hlowered <;> cases hlowered <;> simp
        · rcases hform with hform | hform
          · rw [hproperty] at hform
            cases hform
          · exact hform
      rw [evalCallee_of_ne hne, if_neg Bool.false_ne_true]
      exact functionOf_sim hvalue

mutual

theorem eval_sim {w : World} (h : Pictured T s t S w scopes c env env') (i : Nat) :
    ∀ (e : Script.Expr) {code : Code.Expr}, Code.lowerExpr t scopes i e = .ok code →
      Calmly T s t S.books i (.expr e) →
      ASim T S w (eval env code) (Stepper.eval env' t i e) Valued
  | .num v, _, hlowered, _ => by
      cases hlowered
      exact Stepper.evaluating_right rfl (.pure ⟨rfl, trivial⟩)
  | .str v, _, hlowered, _ => by
      cases hlowered
      exact Stepper.evaluating_right rfl (.pure ⟨rfl, trivial⟩)
  | .bool v, _, hlowered, _ => by
      cases hlowered
      exact Stepper.evaluating_right rfl (.pure ⟨rfl, trivial⟩)
  | .null, _, hlowered, _ => by
      cases hlowered
      exact Stepper.evaluating_right rfl (.pure ⟨rfl, trivial⟩)
  | .ident name, _, hlowered, hplaced => by
      cases hlowered
      exact Stepper.evaluating_right rfl (read_sim h hplaced.fair)
  | .this, _, hlowered, _ => by
      cases hlowered
      exact Stepper.evaluating_right rfl (.pure ⟨h.envs.this.1, h.envs.this.2⟩)
  | .array elements, _, hlowered, hplaced => by
      rw [Code.lowerExpr] at hlowered
      obtain ⟨codes, hcodes, hlowered⟩ := Except.bind_eq_ok.1 hlowered
      cases hlowered
      rw [eval, Stepper.eval]
      refine Stepper.evaluating_right rfl ?_
      exact .bind (evalList_sim h (i + 1) elements hcodes (hplaced.children rfl))
        fun _ _ items hitems => lift_sim (Machine.newArray_sim hitems)
  | .object props, _, hlowered, hplaced => by
      rw [Code.lowerExpr] at hlowered
      obtain ⟨codes, hcodes, hlowered⟩ := Except.bind_eq_ok.1 hlowered
      cases hlowered
      rw [eval, Stepper.eval]
      refine Stepper.evaluating_right rfl (.bind (lift_sim Machine.newObject_sim) fun w₁ hw₁ a ha => ?_)
      exact .bind (evalProps_sim (h.mono hw₁) a ha (i + 1) props hcodes (hplaced.children rfl))
        fun w₂ hw₂ _ _ => .pure ⟨rfl, World.role?_mono hw₂.roles ha⟩
  | .function f, _, hlowered, hplaced => by
      rw [Code.lowerExpr] at hlowered
      rw [Stepper.eval]
      obtain ⟨x, heval, hx⟩ := closure_sim h (List.prefix_refl _) (.inl rfl) hplaced.stands hplaced.fair hlowered
      rw [heval]
      exact Stepper.evaluating_recorded h.envs (hplaced.vacant rfl) (.inr rfl) hx
  | .unary op arg, _, hlowered, hplaced => by
      have harg : Calmly T s t S.books (i + 1) (.expr arg) := (hplaced.children rfl).1
      rw [Code.lowerExpr] at hlowered
      rw [Stepper.eval]
      refine Stepper.evaluating_right rfl ?_
      split at hlowered
      · rename_i hdelete
        obtain ⟨target, htarget, hlowered⟩ := Except.bind_eq_ok.1 hlowered
        cases hlowered
        obtain ⟨hop, hproperty⟩ : op = .delete ∧ arg.isProperty = true := by simpa using hdelete
        subst hop
        have hasked : Stepper.unresolved .delete arg = pure false := rfl
        rw [eval, hasked, pure_bind, if_neg Bool.false_ne_true, if_pos hdelete]
        refine .bind_rel (evalTarget_sim h (i + 1) arg htarget harg) fun w₁ hw₁ spot spot' hspot => ?_
        cases spot <;> cases spot'
        · exact .pure ⟨rfl, trivial⟩
        · exact hspot.elim
        · exact hspot.elim
        · obtain ⟨rfl, rfl, hshown⟩ := hspot
          exact .bind (lift_sim (Machine.deleteProperty_sim hshown _)) fun _ _ _ _ =>
            .pure ⟨rfl, trivial⟩
      · rename_i hdelete
        obtain ⟨code, hcode, hlowered⟩ := Except.bind_eq_ok.1 hlowered
        cases hlowered
        rw [eval]
        refine .bind (unresolved_sim h op harg.fair hcode) fun w₁ hw₁ u _ => ?_
        split
        · exact .pure ⟨rfl, trivial⟩
        · exact .bind (eval_sim (h.mono hw₁) (i + 1) arg hcode harg) fun _ _ v _ =>
            lift_sim (Machine.unary_sim op v)
  | .update op before arg, _, hlowered, hplaced => by
      have harg : Calmly T s t S.books (i + 1) (.expr arg) := (hplaced.children rfl).1
      have hspares : Terms.Spares s arg := h.admits hplaced.fair
      rw [Code.lowerExpr] at hlowered
      obtain ⟨target, htarget, hlowered⟩ := Except.bind_eq_ok.1 hlowered
      cases hlowered
      rw [eval, Stepper.eval]
      rw [recorded_bind]
      refine Stepper.evaluating_recorded h.envs (hplaced.vacant rfl) (.inl rfl)
        (.bind_rel (evalTarget_sim h (i + 1) arg htarget harg) fun w₁ hw₁ spot spot' hspot => ?_)
      have h := h.mono hw₁
      exact updating_sim h.envs (hplaced.vacant rfl) (readSpot_sim h harg.fair hspares hspot)
        fun w₂ hw₂ v hv hplain => writeSpot_sim (h.mono hw₂) (hspot.mono hw₂) hv hplain.suits
  | .binary op left right, _, hlowered, hplaced => by
      obtain ⟨hleft, hright, -⟩ := hplaced.children rfl
      rw [Code.lowerExpr] at hlowered
      obtain ⟨l, hl, hlowered⟩ := Except.bind_eq_ok.1 hlowered
      obtain ⟨r, hr, hlowered⟩ := Except.bind_eq_ok.1 hlowered
      cases hlowered
      rw [eval, Stepper.eval]
      refine Stepper.evaluating_right rfl (.bind (eval_sim h (i + 1) left hl hleft) fun w₁ hw₁ l _ => ?_)
      refine .bind (eval_sim (h.mono hw₁) _ right hr hright) fun w₂ hw₂ r hr => ?_
      have henv := h.envs.mono (w.le_trans hw₁ hw₂)
      exact lift_sim (Machine.binary_sim henv.invoke henv.building op l hr)
  | .logical op left right, _, hlowered, hplaced => by
      obtain ⟨hleft, hright, -⟩ := hplaced.children rfl
      rw [Code.lowerExpr] at hlowered
      obtain ⟨l, hl, hlowered⟩ := Except.bind_eq_ok.1 hlowered
      obtain ⟨r, hr, hlowered⟩ := Except.bind_eq_ok.1 hlowered
      cases hlowered
      rw [eval, Stepper.eval]
      refine Stepper.evaluating_right rfl ?_
      simp only [Stepper.entering_none, Bool.false_eq_true, if_false]
      refine .bind (eval_sim h (i + 1) left hl hleft) fun w₁ hw₁ v hv => ?_
      split
      · exact .pure ⟨rfl, hv⟩
      · exact eval_sim (h.mono hw₁) _ right hr hright
  | .assign op target value, _, hlowered, hplaced => by
      obtain ⟨htarget, hvalue, -⟩ := hplaced.children rfl
      have hspares : Terms.Spares s target := (h.admits hplaced.fair).1
      rw [Code.lowerExpr] at hlowered
      obtain ⟨l, hl, hlowered⟩ := Except.bind_eq_ok.1 hlowered
      obtain ⟨r, hr, hlowered⟩ := Except.bind_eq_ok.1 hlowered
      cases hlowered
      rw [eval, Stepper.eval]
      rw [← bind_assoc]
      refine Stepper.evaluating_marked h.envs (hplaced.vacant rfl) rfl
        (.bind_rel (evalTarget_sim h (i + 1) target hl htarget) fun w₁ hw₁ spot spot' hspot => ?_)
      have h := h.mono hw₁
      exact assigning_sim h.envs op (readSpot_sim h htarget.fair hspares hspot)
        (fun w₂ hw₂ => (eval_sim (h.mono hw₂) _ value hr hvalue).and
          (Q := fun v => ∀ x, value = .num x → v = .num x) fun _ _ v _ _ hv x hx => by
            subst hx
            exact eval_num hr hv)
        fun w₂ hw₂ v hv hnum => writeSpot_sim (h.mono hw₂) (hspot.mono hw₂) hv
          (hplaced.fair.keepsCount.suits (h.mono hw₂).sound hnum)
  | .conditional test cons alt, _, hlowered, hplaced => by
      obtain ⟨htest, hcons, halt, -⟩ := hplaced.children rfl
      rw [Code.lowerExpr] at hlowered
      obtain ⟨x, hx, hlowered⟩ := Except.bind_eq_ok.1 hlowered
      obtain ⟨y, hy, hlowered⟩ := Except.bind_eq_ok.1 hlowered
      obtain ⟨z, hz, hlowered⟩ := Except.bind_eq_ok.1 hlowered
      cases hlowered
      rw [eval, Stepper.eval]
      refine Stepper.evaluating_right rfl ?_
      simp only [Stepper.entering_none, Bool.false_eq_true, if_false]
      refine .bind (eval_sim h (i + 1) test hx htest) fun w₁ hw₁ v _ => ?_
      split
      · exact eval_sim (h.mono hw₁) _ cons hy hcons
      · exact eval_sim (h.mono hw₁) _ alt hz halt
  | .call callee args, _, hlowered, hplaced => by
      have hsolo := Stepper.solo_of_calm hplaced.calm rfl
      have hspares : Terms.Spares s callee := (h.admits hplaced.fair).1
      obtain ⟨hcallee, hargs⟩ := hplaced.children rfl
      rw [Code.lowerExpr] at hlowered
      obtain ⟨x, hx, hlowered⟩ := Except.bind_eq_ok.1 hlowered
      obtain ⟨xs, hxs, hlowered⟩ := Except.bind_eq_ok.1 hlowered
      cases hlowered
      rw [eval_call, Stepper.eval, Code.describe_of_lowerExpr h.manner callee hcallee.fair hspares hx]
      simp only [recorded_bind]
      refine Stepper.evaluating_recorded h.envs (hplaced.vacant rfl) (.inl rfl) (.bind (evalCallee_sim h hx
        (fun target htarget => evalTarget_sim h (i + 1) callee htarget hcallee)
        (eval_sim h (i + 1) callee hx hcallee)) fun w₁ hw₁ p hp => ?_)
      refine .bind (evalList_sim (h.mono hw₁) _ args hxs hargs) fun w₂ hw₂ vs hvs => ?_
      exact callAt_sim hsolo (h.envs.mono (w.le_trans hw₁ hw₂)) (hplaced.vacant rfl) _
        (hp.1.mono hw₂.roles) (hp.2.mono hw₂.roles) hvs
  | .construct callee args, _, hlowered, hplaced => by
      have hsolo := Stepper.solo_of_calm hplaced.calm rfl
      have hspares : Terms.Spares s callee := (h.admits hplaced.fair).2
      obtain ⟨hcallee, hargs⟩ := hplaced.children rfl
      rw [Code.lowerExpr] at hlowered
      obtain ⟨x, hx, hlowered⟩ := Except.bind_eq_ok.1 hlowered
      obtain ⟨xs, hxs, hlowered⟩ := Except.bind_eq_ok.1 hlowered
      cases hlowered
      rw [eval, Stepper.eval, Code.describe_of_lowerExpr h.manner callee hcallee.fair hspares hx]
      simp only [recorded_bind]
      refine Stepper.evaluating_recorded h.envs (hplaced.vacant rfl) (.inl rfl)
        (.bind (eval_sim h (i + 1) callee hx hcallee) fun w₁ hw₁ f hf => ?_)
      refine .bind (evalList_sim (h.mono hw₁) _ args hxs hargs) fun w₂ hw₂ vs hvs => ?_
      exact constructAt_sim hsolo (h.envs.mono (w.le_trans hw₁ hw₂)) (hplaced.vacant rfl) _
        (hf.mono hw₂.roles) hvs
  | .member object property, _, hlowered, hplaced => by
      rw [Code.lowerExpr] at hlowered
      obtain ⟨o, ho, hlowered⟩ := Except.bind_eq_ok.1 hlowered
      cases hlowered
      rw [eval, Stepper.eval]
      refine Stepper.evaluating_right rfl
        (.bind (eval_sim h (i + 1) object ho (hplaced.children rfl).1) fun w₁ hw₁ o ho => ?_)
      have henv := h.envs.mono hw₁
      exact lift_sim (Machine.getProperty_sim henv.invoke henv.building ho property)
  | .index object key, _, hlowered, hplaced => by
      obtain ⟨hobject, hkey, -⟩ := hplaced.children rfl
      rw [Code.lowerExpr] at hlowered
      obtain ⟨o, ho, hlowered⟩ := Except.bind_eq_ok.1 hlowered
      obtain ⟨k, hk, hlowered⟩ := Except.bind_eq_ok.1 hlowered
      cases hlowered
      rw [eval, Stepper.eval, evalKey]
      refine Stepper.evaluating_right rfl (.bind (eval_sim h (i + 1) object ho hobject)
        fun w₁ hw₁ o ho => ?_)
      simp only [bind_assoc]
      refine .bind (eval_sim (h.mono hw₁) _ key hk hkey) fun w₂ hw₂ v _ => ?_
      refine .bind (lift_sim (Machine.text_sim v)) fun w₃ hw₃ k _ => ?_
      have henv := h.envs.mono (w.le_trans hw₁ (w₁.le_trans hw₂ hw₃))
      exact lift_sim (Machine.getProperty_sim henv.invoke henv.building
        (ho.mono (w₁.le_trans hw₂ hw₃).roles) k)
  | .sequence exprs, _, hlowered, hplaced => by
      rw [Code.lowerExpr] at hlowered
      obtain ⟨codes, hcodes, hlowered⟩ := Except.bind_eq_ok.1 hlowered
      cases hlowered
      rw [eval, Stepper.eval]
      exact Stepper.evaluating_right rfl
        (evalSequence_sim h .undefined trivial (i + 1) exprs hcodes (hplaced.children rfl))
termination_by structural e => e

theorem evalList_sim {w : World} (h : Pictured T s t S w scopes c env env') (i : Nat) :
    ∀ (l : List Script.Expr) {codes : List Code.Expr}, Code.lowerExprs t scopes i l = .ok codes →
      t.Along (Calmly T s t S.books) i (Node.ofExprs l) →
      ASim T S w (evalList env codes) (Stepper.evalList env' t i l)
        (Same fun w vs => ∀ v ∈ vs, v.Shown w)
  | [], _, hlowered, _ => by
      cases hlowered
      exact .pure ⟨rfl, fun _ hv => absurd hv List.not_mem_nil⟩
  | e :: rest, _, hlowered, hplaced => by
      rw [Code.lowerExprs] at hlowered
      obtain ⟨x, hx, hlowered⟩ := Except.bind_eq_ok.1 hlowered
      obtain ⟨xs, hxs, hlowered⟩ := Except.bind_eq_ok.1 hlowered
      cases hlowered
      rw [evalList, Stepper.evalList]
      refine .bind (eval_sim h i e hx hplaced.1) fun w₁ hw₁ v hv => ?_
      refine .bind (evalList_sim (h.mono hw₁) _ rest hxs hplaced.2) fun w₂ hw₂ vs hvs =>
        .pure ⟨rfl, ?_⟩
      exact List.forall_mem_cons.2 ⟨hv.mono hw₂.roles, hvs⟩
termination_by structural l => l

theorem evalSequence_sim {w : World} (h : Pictured T s t S w scopes c env env') (v : Value)
    (hv : v.Shown w) (i : Nat) :
    ∀ (l : List Script.Expr) {codes : List Code.Expr}, Code.lowerExprs t scopes i l = .ok codes →
      t.Along (Calmly T s t S.books) i (Node.ofExprs l) →
      ASim T S w (evalSequence env v codes) (Stepper.evalSequence env' t v i l) Valued
  | [], _, hlowered, _ => by
      cases hlowered
      exact .pure ⟨rfl, hv⟩
  | e :: rest, _, hlowered, hplaced => by
      rw [Code.lowerExprs] at hlowered
      obtain ⟨x, hx, hlowered⟩ := Except.bind_eq_ok.1 hlowered
      obtain ⟨xs, hxs, hlowered⟩ := Except.bind_eq_ok.1 hlowered
      cases hlowered
      rw [evalSequence, Stepper.evalSequence]
      exact .bind (eval_sim h i e hx hplaced.1) fun w₁ hw₁ v hv =>
        evalSequence_sim (h.mono hw₁) v hv _ rest hxs hplaced.2
termination_by structural l => l

theorem evalProps_sim {w : World} (h : Pictured T s t S w scopes c env env') (a : Address)
    (ha : w.role? a = some .shown) (i : Nat) :
    ∀ (l : List Script.Property) {codes : List Code.Property},
      Code.lowerProps t scopes i l = .ok codes →
      t.Along (Calmly T s t S.books) i (l.map .property) →
      ASim T S w (evalProps env a codes) (Stepper.evalProps env' t a i l) Equal
  | [], _, hlowered, _ => by
      cases hlowered
      exact .pure ⟨rfl, trivial⟩
  | p :: rest, _, hlowered, hplaced => by
      rw [Code.lowerProps] at hlowered
      obtain ⟨x, hx, hlowered⟩ := Except.bind_eq_ok.1 hlowered
      obtain ⟨xs, hxs, hlowered⟩ := Except.bind_eq_ok.1 hlowered
      cases hlowered
      rw [evalProps, Stepper.evalProps]
      exact .bind (evalProp_sim h a ha i p hx hplaced.1) fun w₁ hw₁ _ _ =>
        evalProps_sim (h.mono hw₁) a (World.role?_mono hw₁.roles ha) _ rest hxs hplaced.2
termination_by structural l => l

theorem evalProp_sim {w : World} (h : Pictured T s t S w scopes c env env') (a : Address)
    (ha : w.role? a = some .shown) (i : Nat) :
    ∀ (p : Script.Property) {code : Code.Property}, Code.lowerProp t scopes i p = .ok code →
      Calmly T s t S.books i (.property p) →
      ASim T S w (evalProp env a code) (Stepper.evalProp env' t a i p) Equal
  | ⟨key, kind, value⟩, _, hlowered, hplaced => by
      have hvalue : Calmly T s t S.books (i + 1) (.expr value) :=
        (hplaced.toPlaced.calm_children (fun hsolo => (hplaced.calm hsolo).1) rfl rfl rfl).1
      have hkind : T.solo = true → kind = .init := h.admits hplaced.fair
      rw [Code.lowerProp] at hlowered
      obtain ⟨x, hx, hlowered⟩ := Except.bind_eq_ok.1 hlowered
      cases hlowered
      rw [evalProp, Stepper.evalProp]
      exact .bind (eval_sim h (i + 1) value hx hvalue) fun _ hw₁ _ hv =>
        lift_sim (define_sim (World.role?_mono hw₁.roles ha) key hv hkind)
termination_by structural p => p

theorem evalTarget_sim {w : World} (h : Pictured T s t S w scopes c env env') (i : Nat) :
    ∀ (e : Script.Expr) {target : Code.Target}, Code.lowerTarget t scopes i e = .ok target →
      Calmly T s t S.books i (.expr e) →
      ASim T S w (evalTarget env target) (Stepper.evalSpot env' t i e)
        (fun w spot spot' => spot.Pairs scopes e w spot')
  | .ident name, _, hlowered, _ => by
      cases hlowered
      exact .pure ⟨rfl, rfl⟩
  | .member object property, _, hlowered, hplaced => by
      rw [Code.lowerTarget] at hlowered
      obtain ⟨o, ho, hlowered⟩ := Except.bind_eq_ok.1 hlowered
      cases hlowered
      rw [evalTarget, Stepper.evalSpot]
      exact .bind (eval_sim h (i + 1) object ho (hplaced.children rfl).1) fun _ _ _ ho =>
        .pure ⟨rfl, rfl, ho⟩
  | .index object key, _, hlowered, hplaced => by
      obtain ⟨hobject, hkey, -⟩ := hplaced.children rfl
      rw [Code.lowerTarget] at hlowered
      obtain ⟨o, ho, hlowered⟩ := Except.bind_eq_ok.1 hlowered
      obtain ⟨k, hk, hlowered⟩ := Except.bind_eq_ok.1 hlowered
      cases hlowered
      rw [evalTarget, Stepper.evalSpot, evalKey]
      refine .bind (eval_sim h (i + 1) object ho hobject) fun w₁ hw₁ o ho => ?_
      simp only [bind_assoc]
      refine .bind (eval_sim (h.mono hw₁) _ key hk hkey) fun w₂ hw₂ v _ => ?_
      exact .bind (lift_sim (Machine.text_sim v)) fun w₃ hw₃ k _ =>
        .pure ⟨rfl, rfl, ho.mono (w₁.le_trans hw₂ hw₃).roles⟩
  | .num _, _, hlowered, _ | .str _, _, hlowered, _ | .bool _, _, hlowered, _
  | .null, _, hlowered, _ | .this, _, hlowered, _ | .array _, _, hlowered, _
  | .object _, _, hlowered, _ | .function _, _, hlowered, _ | .unary _ _, _, hlowered, _
  | .update _ _ _, _, hlowered, _ | .binary _ _ _, _, hlowered, _ | .logical _ _ _, _, hlowered, _
  | .assign _ _ _, _, hlowered, _ | .conditional _ _ _, _, hlowered, _ | .call _ _, _, hlowered, _
  | .construct _ _, _, hlowered, _ | .sequence _, _, hlowered, _ => by cases hlowered
termination_by structural e => e

end

end Instrumented

end Resumption
