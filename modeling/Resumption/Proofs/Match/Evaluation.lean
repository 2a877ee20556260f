import Resumption.Proofs.Match.Books
import Resumption.Proofs.Match.Walking

/-!
# Expressions that are walked on both sides

The same source tree is walked on the left and on the right.  Both walks make the same closures, and
the functions without books among them are the same on both sides anyway.
-/

namespace Resumption

open Script

variable {T : Terms} {s : Manner} {t : IndexedTree} {S : Stance} {w w' : World} {c : Chain}
  {env env' : Env} {i : Nat}

/-- The node introduces the function inside of another one. -/
def Script.Node.Introduces (n : Node) (f : Func) : Prop :=
  n = .expr (.function f) ∨ n = .stmt (.function f)

theorem Script.Node.Introduces.func? {n : Node} {f : Func} (h : n.Introduces f) :
    n.func? = some f := by
  rcases h with rfl | rfl <;> rfl

/-- The manner of a function inside of another one. -/
def Manner.inner (s : Manner) : Manner := if s = .free then .free else .script

theorem Terms.Fair.closure {n : Node} {f : Func} (h : T.Fair s n) (hn : n.Introduces f) :
    (s = .free ∨ s.opens = true ∧ (T.solo = true → f.isEscaped = false)) ∧
      (f.isEscaped = false → ∀ b ∈ Node.ofStmts f.body, T.Fair s.inner b) := by
  refine ⟨?_, fun hescaped b hb => ?_⟩
  · rcases h.admits with hfree | hadmits
    · exact .inl hfree
    · rcases hn with rfl | rfl
      · exact .inr hadmits
      · exact .inr hadmits
  · rcases hn with rfl | rfl
    · exact h.part hescaped hb
    · exact h.part hescaped hb

/-- A tree is walked on both sides. -/
structure Walked (T : Terms) (s : Manner) (t : IndexedTree) (S : Stance) (w : World) (c : Chain)
    (env env' : Env) : Prop extends Scene T S w c env env' where
  records : env'.records = env.records
  sound : s.opens = true → Chain.Sound w c
  alone : s.opens = false → ∃ a names, c = [⟨.function, a⟩] ∧ w.role? a = some (.scope names false) ∧
    (T.solo = true → t.Seeks names)
  own : s = .own → S.args
  free : s = .free → env.records = false ∧ S.args ∧ T.solo = false
  kept : s ≠ .free → env.records = true ∧ T.mode = .recording ∧ T.Registered t env.registry
  quiet : s = .top → ∀ i n f, n.Introduces f → t.At i n → T.Quiet (i + 1) (t.after i)
  /-- Where pauses may be taken nobody asks for the arguments. -/
  bare : s = .top ∨ s = .apart ∨ s = .script ∧ T.solo = true → ¬ S.args
  halts : T.spared ≠ none → s.opens = true ∧ T.pauses = .left ∧
    (s = .top → ∀ cache, S.books cache → cache.Sorted)
  sorted : T.solo = true → ∀ cache, S.books cache → cache.Sorted
  /-- Names are looked up again when the function is taken up. -/
  anew : T.solo = true → s.opens = false → ∀ cache, S.books cache →
    ∀ j, t.isName j = true → cache.get? j = none
  /-- Functions that make no scopes do not catch exceptions either. -/
  dooms : T.solo = true → T.pauses = .left ∧ (S.doomed ↔ s.opens = false)

namespace Walked

theorem reach (hw : w.Reaches w') (h : Walked T s t S w c env env') :
    Walked T s t S w' c env env' :=
  { h with
    toScene := h.toScene.reach hw
    sound := fun hs => (h.sound hs).mono hw.roles
    alone := fun hs => by
      obtain ⟨a, names, hc, ha, hseeks⟩ := h.alone hs
      exact ⟨a, names, hc, World.role?_mono hw.roles ha, hseeks⟩ }

theorem mono (hw : w ≤ w') (h : Walked T s t S w c env env') : Walked T s t S w' c env env' :=
  h.reach hw.reaches

theorem args (h : Walked T s t S w c env env') {name : String} (hfair : T.Fair s (.expr (.ident name)))
    (hname : name = argumentsName) : S.args := by
  rcases hfair.admits with hs | hadmits
  · exact (h.free hs).2.1
  · exact h.own (hadmits hname)

end Walked

namespace Stepper

open ActM

/-- The closures that are made on both sides are one and the same.  The record of the innermost scope
may still lack names. -/
theorem makeClosure_sim (h : Walked T s t S w c env env') (hw : w.roles <+: w'.roles) {n : Node}
    {f : Func} {K : Cache → Prop} (hn : n.Introduces f) (hplaced : Placed T s t K i n) :
    ASim T S w' (makeClosure env t i f) (makeClosure env' t i f) Valued := by
  have hat := hplaced.stands
  obtain ⟨hadmits, hbody⟩ := hplaced.fair.closure hn
  refine .bind (chain_sim h.chain) fun w₁ hw₁ chain hchain => ?_
  subst hchain
  rw [h.envs.registry, h.records]
  refine lift_sim (Machine.newFunction_sim ?_)
  cases hescaped : f.isEscaped with
  | true =>
      have hsolo : T.solo = false := by
        rcases hadmits with hs | ⟨-, hsolo⟩
        · exact (h.free hs).2.2
        · cases hT : T.solo with
          | false => rfl
          | true => rw [hsolo hT] at hescaped; cases hescaped
      exact .walked (s := .free) ⟨hat, hn.func?, .whole nofun fun b _ => .free b, nofun, nofun,
        fun _ hl => absurd hl List.not_mem_nil, fun hs => absurd rfl hs, fun hs => by cases hs⟩
        ⟨rfl, hsolo⟩
  | false =>
      by_cases hs : s = .free
      · obtain ⟨hrecords, -, hsolo⟩ := h.free hs
        have hsound : Chain.Sound w₁ chain := (h.sound (by rw [hs]; rfl)).mono (hw.trans hw₁.roles)
        refine .walked (s := .free) ⟨hat, hn.func?, .whole nofun fun b _ => .free b, nofun, nofun, hsound,
          fun hs => absurd rfl hs, fun hs => by cases hs⟩ ⟨?_, hsolo⟩
        simp [hrecords]
      · obtain ⟨hrecords, hmode, hregistered⟩ := h.kept hs
        have hsound : Chain.Sound w₁ chain :=
          (h.sound (hadmits.resolve_left hs).1).mono (hw.trans hw₁.roles)
        have hinner : s.inner = .script := if_neg hs
        have hquiet : T.Quiet (i + 1) (t.after i) := by
          cases s with
          | free => exact absurd rfl hs
          | script => exact (hplaced.quiet rfl).mono (Nat.le_succ i) (Nat.le_refl _)
          | own => exact absurd (hadmits.resolve_left hs).1 Bool.noConfusion
          | apart => exact absurd (hadmits.resolve_left hs).1 Bool.noConfusion
          | top => exact h.quiet rfl i n f hn hat
        refine .walked (s := .script) ⟨hat, hn.func?, .whole nofun (hinner ▸ hbody hescaped), nofun, nofun, hsound,
          fun _ => hregistered, fun _ => hquiet⟩ ⟨?_, hmode⟩
        simp [hrecords]

theorem makeClosure_escaped (env : Env) (t : IndexedTree) (i : Nat) {f : Func}
    (hf : f.isEscaped = true) :
    makeClosure env t i f =
      lift (Machine.newFunction (.stepped ⟨t, i, [], .plain, env.registry⟩)) := by
  unfold makeClosure
  simp only [hf, if_true]
  rfl

/-- What may be read and written by a spot that the expression leads to. -/
def Spot.Fit (S : Stance) (e : Expr) (w : World) : Spot → Prop
  | .name x => e = .ident x ∧ (x = argumentsName → S.args)
  | .member object _ => object.Shown w

theorem Spot.Fit.mono {e : Expr} {spot : Spot} (hw : w ≤ w') (h : spot.Fit S e w) :
    spot.Fit S e w' := by
  cases spot with
  | name name => exact h
  | member object key => exact Value.Shown.mono hw.roles h

theorem readSpot_sim (h : Scene T S w c env env') {e : Expr} {spot : Spot} (hspot : spot.Fit S e w) :
    ASim T S w (readSpot env spot) (readSpot env' spot) Valued := by
  cases spot with
  | name name => exact lookup_sim h name hspot.2
  | member object key =>
      exact lift_sim (Machine.getProperty_sim h.envs.invoke h.envs.building hspot key)

theorem writeSpot_sim (h : Scene T S w c env env') {e : Expr} {spot : Spot} (hspot : spot.Fit S e w)
    {v : Value} (hv : v.Shown w) (hcount : v.Suits (Chain.Sound w c) e) :
    ASim T S w (writeSpot env spot v) (writeSpot env' spot v) Equal := by
  cases spot with
  | name name => exact assignName_sim h name hv (hcount name hspot.1)
  | member object key =>
      exact lift_sim (Machine.putProperty_sim h.envs.invoke h.envs.building hspot key hv)

theorem unresolved_sim (h : Scene T S w c env env') (op : UnaryOp) (arg : Expr) :
    ASim T S w (unresolved op arg) (unresolved op arg) Equal := by
  unfold unresolved
  split
  · exact .bind (resolvable_sim h _) fun _ _ _ _ => .pure ⟨rfl, trivial⟩
  · exact .pure ⟨rfl, trivial⟩

theorem calleeOf_sim (h : Scene T S w c env env') {e : Expr} {isProperty : Bool} {spot spot' : ActM Spot}
    {value value' : ActM Value} (hspot : ASim T S w spot spot' (Same fun w spot => spot.Fit S e w))
    (hvalue : ASim T S w value value' Valued) :
    ASim T S w (calleeOf env isProperty spot value) (calleeOf env' isProperty spot' value')
      (Same fun w p => p.1.Shown w ∧ p.2.Shown w) := by
  unfold calleeOf
  split
  · refine .bind hspot fun w₁ hw₁ spot hspot => ?_
    cases spot with
    | name name => exact lift_sim (Machine.typeError_sim _)
    | member object key =>
        have henv := h.envs.mono hw₁
        exact .bind (lift_sim (Machine.getProperty_sim henv.invoke henv.building hspot key))
          fun w₂ hw₂ f hf => .pure ⟨rfl, hf, Value.Shown.mono hw₂.roles hspot⟩
  · exact functionOf_sim hvalue

/-- A number is what it says. -/
theorem eval_num {x : Float} {act : Activation} {m : Machine} (hpc : act.pc = none) {v : Value}
    {s : Activation × Machine} (h : eval env t i (.num x) (act, m) = .ok v s) : v = .num x := by
  rw [eval, evaluating] at h
  change EStateM.bind (resumeState t i) _ (act, m) = _ at h
  rw [EStateM.bind, resumeState_fresh t i m hpc] at h
  cases h
  rfl

/-- Calls stand alone, and this is one. -/
theorem solo_of_calm {e : Expr} (hcalm : T.Calm s (.expr e)) (he : (Node.expr e).calls = true) :
    T.solo = false := by
  cases hT : T.solo with
  | false => rfl
  | true =>
      have hcalls := (hcalm hT).2
      rw [he] at hcalls
      cases hcalls

mutual

theorem eval_sim {w : World} (h : Walked T s t S w c env env') (i : Nat) :
    ∀ e : Expr, Calmly T s t S.books i (.expr e) →
      ASim T S w (eval env t i e) (eval env' t i e) Valued
  | .num v, hplaced => evaluating_sim h.envs (hplaced.vacant rfl) (.pure ⟨rfl, trivial⟩)
  | .str v, hplaced => evaluating_sim h.envs (hplaced.vacant rfl) (.pure ⟨rfl, trivial⟩)
  | .bool v, hplaced => evaluating_sim h.envs (hplaced.vacant rfl) (.pure ⟨rfl, trivial⟩)
  | .null, hplaced => evaluating_sim h.envs (hplaced.vacant rfl) (.pure ⟨rfl, trivial⟩)
  | .ident name, hplaced =>
      evaluating_unrecorded rfl (lookup_sim h.toScene name (h.args hplaced.fair))
  | .this, hplaced => evaluating_sim h.envs (hplaced.vacant rfl) (.pure ⟨h.envs.this.1, h.envs.this.2⟩)
  | .array elements, hplaced => by
      rw [eval, eval]
      refine evaluating_sim h.envs (hplaced.vacant rfl) ?_
      exact .bind (evalList_sim h (i + 1) elements (hplaced.children rfl)) fun _ _ items hitems =>
        lift_sim (Machine.newArray_sim hitems)
  | .object props, hplaced => by
      rw [eval, eval]
      refine evaluating_sim h.envs (hplaced.vacant rfl) (.bind (lift_sim Machine.newObject_sim) fun w₁ hw₁ a ha => ?_)
      exact .bind (evalProps_sim (h.mono hw₁) a ha (i + 1) props (hplaced.children rfl))
        fun w₂ hw₂ _ _ => .pure ⟨rfl, World.role?_mono hw₂.roles ha⟩
  | .function f, hplaced =>
      evaluating_sim h.envs (hplaced.vacant rfl) (makeClosure_sim h (List.prefix_refl _) (.inl rfl) hplaced.toPlaced)
  | .unary op arg, hplaced => by
      have harg : Calmly T s t S.books (i + 1) (.expr arg) := (hplaced.children rfl).1
      rw [eval, eval]
      refine evaluating_sim h.envs (hplaced.vacant rfl) (.bind (unresolved_sim h.toScene op arg) fun w₁ hw₁ u _ => ?_)
      have h := h.mono hw₁
      split
      · exact .pure ⟨rfl, trivial⟩
      · split
        · refine .bind (evalSpot_sim h (i + 1) arg harg) fun w₂ hw₂ spot hspot => ?_
          cases spot with
          | name name => exact .pure ⟨rfl, trivial⟩
          | member object key =>
              exact .bind (lift_sim (Machine.deleteProperty_sim hspot key)) fun _ _ _ _ =>
                .pure ⟨rfl, trivial⟩
        · exact .bind (eval_sim h (i + 1) arg harg) fun _ _ v _ => lift_sim (Machine.unary_sim op v)
  | .update op before arg, hplaced => by
      rw [eval, eval]
      refine evaluating_sim h.envs (hplaced.vacant rfl) (.bind (evalSpot_sim h (i + 1) arg (hplaced.children rfl).1)
        fun w₁ hw₁ spot hspot => ?_)
      have h := h.toScene.mono hw₁
      exact updating_sim h.envs (hplaced.vacant rfl) (readSpot_sim h hspot) fun w₂ hw₂ v hv hplain =>
        writeSpot_sim (h.mono hw₂) (hspot.mono hw₂) hv hplain.suits
  | .binary op left right, hplaced => by
      obtain ⟨hleft, hright, -⟩ := hplaced.children rfl
      rw [eval, eval]
      refine evaluating_sim h.envs (hplaced.vacant rfl) (.bind (eval_sim h (i + 1) left hleft) fun w₁ hw₁ l _ => ?_)
      refine .bind (eval_sim (h.mono hw₁) _ right hright) fun w₂ hw₂ r hr => ?_
      have henv := h.envs.mono (w.le_trans hw₁ hw₂)
      exact lift_sim (Machine.binary_sim henv.invoke henv.building op l hr)
  | .logical op left right, hplaced => by
      obtain ⟨hleft, hright, -⟩ := hplaced.children rfl
      rw [eval, eval]
      refine evaluating_sim h.envs (hplaced.vacant rfl) ?_
      simp only [entering_none, Bool.false_eq_true, if_false]
      refine .bind (eval_sim h (i + 1) left hleft) fun w₁ hw₁ l hl => ?_
      split
      · exact .pure ⟨rfl, hl⟩
      · exact eval_sim (h.mono hw₁) _ right hright
  | .assign op target value, hplaced => by
      obtain ⟨htarget, hvalue, -⟩ := hplaced.children rfl
      rw [eval, eval]
      refine evaluating_sim h.envs (hplaced.vacant rfl)
        (.bind (evalSpot_sim h (i + 1) target htarget) fun w₁ hw₁ spot hspot => ?_)
      have h := h.mono hw₁
      exact assigning_sim h.envs op (readSpot_sim h.toScene hspot)
        (fun w₂ hw₂ => (eval_sim (h.mono hw₂) _ value hvalue).and
          (Q := fun v => ∀ x, value = .num x → v = .num x)
          fun s _ v _ hs hv x hx => eval_num hs.1.pc.1 (hx ▸ hv))
        fun w₂ hw₂ v hv hnum => writeSpot_sim (h.toScene.mono hw₂) (hspot.mono hw₂) hv
          (hplaced.fair.keepsCount.suits (h.mono hw₂).sound hnum)
  | .conditional test cons alt, hplaced => by
      obtain ⟨htest, hcons, halt, -⟩ := hplaced.children rfl
      rw [eval, eval]
      refine evaluating_sim h.envs (hplaced.vacant rfl) ?_
      simp only [entering_none, Bool.false_eq_true, if_false]
      refine .bind (eval_sim h (i + 1) test htest) fun w₁ hw₁ v _ => ?_
      split
      · exact eval_sim (h.mono hw₁) _ cons hcons
      · exact eval_sim (h.mono hw₁) _ alt halt
  | .call callee args, hplaced => by
      have hsolo := solo_of_calm hplaced.calm rfl
      obtain ⟨hcallee, hargs⟩ := hplaced.children rfl
      rw [eval, eval]
      refine evaluating_sim h.envs (hplaced.vacant rfl) (.bind (calleeOf_sim h.toScene
        (evalSpot_sim h (i + 1) callee hcallee) (eval_sim h (i + 1) callee hcallee))
        fun w₁ hw₁ p hp => ?_)
      refine .bind (evalList_sim (h.mono hw₁) _ args hargs) fun w₂ hw₂ vs hvs => ?_
      exact callAt_sim hsolo (h.envs.mono (w.le_trans hw₁ hw₂)) (hplaced.vacant rfl) _
        (hp.1.mono hw₂.roles) (hp.2.mono hw₂.roles) hvs
  | .construct callee args, hplaced => by
      have hsolo := solo_of_calm hplaced.calm rfl
      obtain ⟨hcallee, hargs⟩ := hplaced.children rfl
      rw [eval, eval]
      refine evaluating_sim h.envs (hplaced.vacant rfl)
        (.bind (eval_sim h (i + 1) callee hcallee) fun w₁ hw₁ f hf => ?_)
      refine .bind (evalList_sim (h.mono hw₁) _ args hargs) fun w₂ hw₂ vs hvs => ?_
      exact constructAt_sim hsolo (h.envs.mono (w.le_trans hw₁ hw₂)) (hplaced.vacant rfl) _
        (hf.mono hw₂.roles) hvs
  | .member object property, hplaced => by
      rw [eval, eval]
      refine evaluating_sim h.envs (hplaced.vacant rfl)
        (.bind (eval_sim h (i + 1) object (hplaced.children rfl).1) fun w₁ hw₁ o ho => ?_)
      have henv := h.envs.mono hw₁
      exact lift_sim (Machine.getProperty_sim henv.invoke henv.building ho property)
  | .index object key, hplaced => by
      obtain ⟨hobject, hkey, -⟩ := hplaced.children rfl
      rw [eval, eval]
      refine evaluating_sim h.envs (hplaced.vacant rfl) (.bind (eval_sim h (i + 1) object hobject) fun w₁ hw₁ o ho => ?_)
      refine .bind (eval_sim (h.mono hw₁) _ key hkey) fun w₂ hw₂ v _ => ?_
      refine .bind (lift_sim (Machine.text_sim v)) fun w₃ hw₃ k _ => ?_
      have henv := h.envs.mono (w.le_trans hw₁ (w₁.le_trans hw₂ hw₃))
      exact lift_sim (Machine.getProperty_sim henv.invoke henv.building
        (ho.mono (w₁.le_trans hw₂ hw₃).roles) k)
  | .sequence exprs, hplaced => by
      rw [eval, eval]
      exact evaluating_sim h.envs (hplaced.vacant rfl)
        (evalSequence_sim h .undefined trivial (i + 1) exprs (hplaced.children rfl))
termination_by structural e => e

theorem evalList_sim {w : World} (h : Walked T s t S w c env env') (i : Nat) :
    ∀ l : List Expr, t.Along (Calmly T s t S.books) i (Node.ofExprs l) →
      ASim T S w (evalList env t i l) (evalList env' t i l) (Same fun w vs => ∀ v ∈ vs, v.Shown w)
  | [], _ => .pure ⟨rfl, fun _ hv => absurd hv List.not_mem_nil⟩
  | e :: rest, hplaced => by
      rw [evalList, evalList]
      refine .bind (eval_sim h i e hplaced.1) fun w₁ hw₁ v hv => ?_
      refine .bind (evalList_sim (h.mono hw₁) _ rest hplaced.2) fun w₂ hw₂ vs hvs => .pure ⟨rfl, ?_⟩
      exact List.forall_mem_cons.2 ⟨hv.mono hw₂.roles, hvs⟩
termination_by structural l => l

theorem evalSequence_sim {w : World} (h : Walked T s t S w c env env') (v : Value) (hv : v.Shown w)
    (i : Nat) : ∀ l : List Expr, t.Along (Calmly T s t S.books) i (Node.ofExprs l) →
      ASim T S w (evalSequence env t v i l) (evalSequence env' t v i l) Valued
  | [], _ => .pure ⟨rfl, hv⟩
  | e :: rest, hplaced => by
      rw [evalSequence, evalSequence]
      exact .bind (eval_sim h i e hplaced.1) fun w₁ hw₁ v hv =>
        evalSequence_sim (h.mono hw₁) v hv _ rest hplaced.2
termination_by structural l => l

theorem evalProps_sim {w : World} (h : Walked T s t S w c env env') (a : Address)
    (ha : w.role? a = some .shown) (i : Nat) :
    ∀ l : List Property, t.Along (Calmly T s t S.books) i (l.map .property) →
      ASim T S w (evalProps env t a i l) (evalProps env' t a i l) Equal
  | [], _ => .pure ⟨rfl, trivial⟩
  | p :: rest, hplaced => by
      rw [evalProps, evalProps]
      exact .bind (evalProp_sim h a ha i p hplaced.1) fun w₁ hw₁ _ _ =>
        evalProps_sim (h.mono hw₁) a (World.role?_mono hw₁.roles ha) _ rest hplaced.2
termination_by structural l => l

theorem evalProp_sim {w : World} (h : Walked T s t S w c env env') (a : Address)
    (ha : w.role? a = some .shown) (i : Nat) :
    ∀ p : Property, Calmly T s t S.books i (.property p) →
      ASim T S w (evalProp env t a i p) (evalProp env' t a i p) Equal
  | ⟨key, kind, value⟩, hplaced => by
      have hvalue : Calmly T s t S.books (i + 1) (.expr value) :=
        (hplaced.toPlaced.calm_children (fun hsolo => (hplaced.calm hsolo).1) rfl rfl rfl).1
      have hkind : T.solo = true → kind = .init := fun hsolo =>
        (hplaced.fair.admits.resolve_left (hplaced.calm hsolo).1) hsolo
      rw [evalProp, evalProp]
      exact .bind (eval_sim h (i + 1) value hvalue) fun _ hw₁ _ hv =>
        lift_sim (define_sim (World.role?_mono hw₁.roles ha) key hv hkind)
termination_by structural p => p

theorem evalSpot_sim {w : World} (h : Walked T s t S w c env env') (i : Nat) :
    ∀ e : Expr, Calmly T s t S.books i (.expr e) →
      ASim T S w (evalSpot env t i e) (evalSpot env' t i e) (Same fun w spot => spot.Fit S e w)
  | .ident name, hplaced => .pure ⟨rfl, rfl, h.args hplaced.fair⟩
  | .member object property, hplaced => by
      rw [evalSpot, evalSpot]
      exact .bind (eval_sim h (i + 1) object (hplaced.children rfl).1) fun _ _ _ ho => .pure ⟨rfl, ho⟩
  | .index object key, hplaced => by
      obtain ⟨hobject, hkey, -⟩ := hplaced.children rfl
      rw [evalSpot, evalSpot]
      refine .bind (eval_sim h (i + 1) object hobject) fun w₁ hw₁ o ho => ?_
      refine .bind (eval_sim (h.mono hw₁) _ key hkey) fun w₂ hw₂ v _ => ?_
      exact .bind (lift_sim (Machine.text_sim v)) fun w₃ hw₃ k _ =>
        .pure ⟨rfl, ho.mono (w₁.le_trans hw₂ hw₃).roles⟩
  | .num _, _ | .str _, _ | .bool _, _ | .null, _ | .this, _ | .array _, _ | .object _, _
  | .function _, _ | .unary _ _, _ | .update _ _ _, _ | .binary _ _ _, _ | .logical _ _ _, _
  | .assign _ _ _, _ | .conditional _ _ _, _ | .call _ _, _ | .construct _ _, _
  | .sequence _, _ => lift_sim (Machine.fail_sim _ _)
termination_by structural e => e

end

end Stepper

end Resumption
