import Resumption.Engine.Instrumented
import Resumption.Proofs.Code.Pieces
import Resumption.Proofs.Sound.Construct

/-!
# Instrumented code is in order

Instrumented code carries the positions of the tree that it is the image of.  So a pause of its own is the
end of a way in that tree, as it would be for a walk over the tree itself.
-/

namespace Resumption.Instrumented

open Script (Node)
open Walks ActM Code

variable {w w' : Realm} {S : Stage} {F F' : Footing} {env : Env} {t : IndexedTree} {r : Registry}
  {i j : Nat}

/-! ## Variables -/

theorem placeRecord?_in {c : Chain} {place : Place} {a : Address} (hc : Chain.In w c)
    (ha : placeRecord? c place = some a) : a < w.size := by
  cases place with
  | slot hops =>
      obtain ⟨link, hlink, rfl⟩ := Option.map_eq_some_iff.1 ha
      exact hc link (List.mem_of_getElem? hlink)
  | global => cases ha

theorem overriding?_in {h : Heap} {c : Chain} {name : String} {withs : List Nat} {a : Address}
    (hc : Chain.In w c) (ha : overriding? h c name withs = some a) : a < w.size := by
  induction withs with
  | nil => cases ha
  | cons hops rest ih =>
      rw [overriding?] at ha
      split at ha
      · rename_i link hlink
        split at ha
        · cases ha
          exact hc link (List.mem_of_getElem? hlink)
        · exact ih ha
      · exact ih ha

theorem recordOf?_in {h : Heap} {c : Chain} {ref : Ref} {a : Address} (hc : Chain.In w c)
    (ha : recordOf? h c ref = some a) : a < w.size := by
  cases ref with
  | fixed place name => exact placeRecord?_in hc ha
  | dynamic withs place name =>
      rcases Option.or_eq_some_iff.1 ha with ha | ⟨-, ha⟩
      · exact overriding?_in hc ha
      · exact placeRecord?_in hc ha
  | free name => exact hc.recordOf? ha

theorem record?_walks (ref : Ref) :
    Walks S F F w (record? ref) (fun w' found => ∀ a, found = some a → a < w'.size) :=
  chain_walks.bind fun _ _ _ hc => Walks.lift (Machine.ask_upright fun _ _ _ hle _ ha =>
    recordOf?_in (hc.2.1.mono hle) ha)

theorem readRef_walks (henv : env.In w) (ref : Ref) : Walks S F F w (readRef env ref) Value.In := by
  refine (record?_walks ref).bind fun w₁ found hw₁ hfound => ?_
  split
  · rename_i a
    have ha : (Value.object a).In w₁ := hfound a rfl
    exact Walks.lift (Machine.getProperty_upright henv.invoke ha _)
  · exact Walks.lift (Machine.readGlobal_upright henv.invoke _)

theorem writeRef_walks (henv : env.In w) (ref : Ref) {v : Value} (hv : v.In w) :
    Walks S F F w (writeRef env ref v) Any := by
  refine (record?_walks ref).bind fun w₁ found hw₁ hfound => ?_
  split
  · rename_i a
    have ha : (Value.object a).In w₁ := hfound a rfl
    exact Walks.lift (Machine.putProperty_upright henv.invoke ha _ (hv.mono hw₁))
  · exact Walks.lift (Machine.writeGlobal_upright henv.invoke _ (hv.mono hw₁))

theorem resolvable_walks (ref : Ref) : Walks S F F w (resolvable ref) Any := by
  unfold resolvable
  refine (record?_walks ref).next fun found => ?_
  split
  · exact done
  · exact Walks.lift (Machine.hasGlobal_upright _)

theorem unresolved_walks (op : Script.UnaryOp) (arg : Expr) : Walks S F F w (unresolved op arg) Any := by
  unfold unresolved
  split
  · exact (resolvable_walks _).next fun _ => done
  · exact done

def Spot.In (w : Realm) : Spot → Prop
  | .ref _ => True
  | .member object _ => object.In w

theorem Spot.In.mono (hw : w ≤ w') {spot : Spot} (h : spot.In w) : spot.In w' := by
  cases spot with
  | ref ref => trivial
  | member object key => exact Value.In.mono hw h

theorem readSpot_walks (henv : env.In w) {spot : Spot} (hspot : spot.In w) :
    Walks S F F w (readSpot env spot) Value.In := by
  cases spot with
  | ref ref => exact readRef_walks henv ref
  | member object key => exact Walks.lift (Machine.getProperty_upright henv.invoke hspot key)

theorem writeSpot_walks (henv : env.In w) {spot : Spot} (hspot : spot.In w) {v : Value} (hv : v.In w) :
    Walks S F F w (writeSpot env spot v) Any := by
  cases spot with
  | ref ref => exact writeRef_walks henv ref hv
  | member object key => exact Walks.lift (Machine.putProperty_upright henv.invoke hspot key hv)

/-! ## Closures -/

/-- What instrumented code is run with: the registry that it was made for is kept. -/
structure Env.Under (r : Registry) (w : Realm) (env : Env) : Prop extends env.In w where
  kept : w.Keeps env.registry r

theorem Env.Under.mono (hw : w ≤ w') (h : Env.Under r w env) : Env.Under r w' env :=
  ⟨h.toIn.mono hw, h.kept.mono hw⟩

theorem plainClosure_upright (env : Env) (ns : String) (i : Nat) :
    Upright w (plainClosure env ns i) Value.In := by
  refine (Machine.registry_upright env.registry).bind fun w₁ registry hw₁ hkept => ?_
  split
  · rename_i tree htree
    have hns : tree.ns = ns :=
      beq_iff_eq.1 (List.mem_filter.1 (hkept.built.tree_eq_ok_iff.1 htree).1).2
    exact Machine.newFunction_upright (.stepped (List.forall_mem_nil _) hkept (hns.symm ▸ htree))
  · exact Machine.fail_upright _ _

theorem closure_walks (henv : Env.Under r w env) {n : Node} {f : Script.Func} {code : Expr}
    {ns : String} (himage : ClosureImage r ns i n f code) :
    Walks S F F w (eval env code) Value.In := by
  cases himage with
  | @closure _ _ _ code func =>
      rw [eval]
      have hns : code.ns = ns := by
        cases func
        assumption
      refine chain_walks.bind fun w₁ c hw₁ hc => recorded_walks (Walks.lift ?_)
      exact Machine.newFunction_upright
        (.instrumented hc.2.1 (henv.kept.mono hw₁) (hns.symm ▸ func))
  | plain => exact recorded_walks (Walks.lift (plainClosure_upright env ns i))

/-! ## Expressions -/

theorem evalCallee_walks (henv : env.In w) {code : Expr} (hcode : Walks S F F w (eval env code) Value.In)
    (hmember : ∀ {object : Expr} {key : Key}, code = .member object key →
      Walks S F F w (eval env object) Value.In ∧
        ∀ w', w ≤ w' → Walks S F F w' (evalKey env key) Any) :
    Walks S F F w (evalCallee env code) (fun w' f => f.1.In w' ∧ f.2.In w') := by
  unfold evalCallee
  split
  · obtain ⟨hobject, hkey⟩ := hmember rfl
    exact methodOf_walks henv hobject (hkey w le_rfl)
  · exact functionOf_walks hcode

mutual

theorem eval_walks {w : Realm} (henv : Env.Under r w env) (i : Nat) :
    ∀ (e : Script.Expr) {code : Expr}, F.Frees t i (.expr e) → ExprImage r t.ns i e code →
      Walks S F F w (eval env code) Value.In
  | .num _, _, _, .num _ => value trivial
  | .str _, _, _, .str _ => value trivial
  | .bool _, _, _, .bool _ => value trivial
  | .null, _, _, .null => value trivial
  | .this, _, _, .this => value henv.this
  | .ident name, _, _, .ident read => by
      cases read with
      | ref => exact readRef_walks henv.toIn _
      | arguments => exact argumentsObject_walks henv.toIn
  | .array elements, _, hat, .array parts => by
      rw [eval]
      exact (evalList_walks henv (i + 1) elements hat.children parts).bind
        fun w₁ items _ hitems => Walks.lift (Machine.newArray_upright hitems)
  | .object props, _, hat, .object parts => by
      rw [eval]
      refine (Walks.lift Machine.newObject_upright).bind fun w₁ a hw₁ ha => ?_
      exact (evalProps_walks (henv.mono hw₁) a (i + 1) props hat.children parts).bind fun w₂ _ hw₂ _ =>
        value (Value.In.mono (v := .object a) hw₂ ha)
  | .function f, _, _, .function closure => closure_walks henv closure
  | .unary op arg, _, hat, .unary first => by
      rw [eval]
      obtain ⟨harg, -⟩ := hat.children
      refine (unresolved_walks op _).next fun missing => ?_
      split
      · exact value trivial
      · exact (eval_walks henv (i + 1) arg harg first).next fun v =>
          Walks.lift (Machine.unary_upright op v)
  | .unary _ arg, _, hat, .delete place => by
      rw [eval]
      obtain ⟨harg, -⟩ := hat.children
      refine (evalTarget_walks henv (i + 1) arg harg place).bind fun w₁ spot hw₁ hspot => ?_
      split
      · exact (Walks.lift (Machine.deleteProperty_upright _ _)).next fun _ => value trivial
      · exact value trivial
  | .update op before arg, _, hat, .update here place => by
      rw [eval]
      obtain ⟨harg, -⟩ := hat.children
      refine (evalTarget_walks henv (i + 1) arg harg place).bind fun w₁ spot hw₁ hspot => ?_
      have henv₁ := henv.toIn.mono hw₁
      exact recorded_walks (updating_walks hat.not_held (readSpot_walks henv₁ hspot)
        fun x => writeSpot_walks henv₁ hspot trivial)
  | .binary op left right, _, hat, .binary first second => by
      rw [eval]
      obtain ⟨hleft, -, hright, -⟩ := hat.children.uncons
      refine (eval_walks henv _ left hleft first).bind fun w₁ l hw₁ _ => ?_
      exact (eval_walks (henv.mono hw₁) _ right hright second).bind fun _ _ _ hr =>
        Walks.lift (Machine.binary_upright henv.invoke op l hr)
  | .logical op left right, _, hat, .logical first second => by
      rw [eval]
      obtain ⟨hleft, -, hright, -⟩ := hat.children.uncons
      refine (eval_walks henv _ left hleft first).bind fun w₁ l hw₁ hl => ?_
      split
      · exact value hl
      · exact eval_walks (henv.mono hw₁) _ right hright second
  | .assign op left right, _, hat, .assign here place second => by
      rw [eval]
      obtain ⟨hleft, -, hright, -⟩ := hat.children.uncons
      refine (evalTarget_walks henv _ left hleft place).bind fun w₁ spot hw₁ hspot => ?_
      have henv₁ := henv.mono hw₁
      refine (assigning_walks henv₁.toIn (readSpot_walks henv₁.toIn hspot)
        (eval_walks henv₁ _ right hright second)
        fun w₂ v hw₂ hv => writeSpot_walks (henv₁.toIn.mono hw₂) (hspot.mono hw₂) hv).bind
          fun w₃ v hw₃ hv => ?_
      exact (record_walks hv).bind fun _ _ hw₄ _ => (mark_walks env i).bind fun _ _ hw₅ _ =>
        value (hv.mono (le_trans hw₄ hw₅))
  | .conditional test cons alt, _, hat, .conditional first second third => by
      rw [eval]
      obtain ⟨htest, -, hrest⟩ := hat.children.uncons
      obtain ⟨hcons, -, halt, -⟩ := hrest.uncons
      refine (eval_walks henv _ test htest first).bind fun w₁ v hw₁ _ => ?_
      split
      · exact eval_walks (henv.mono hw₁) _ cons hcons second
      · exact eval_walks (henv.mono hw₁) _ alt halt third
  | .call callee args, _, hat, .call here first parts => by
      rw [eval_call]
      obtain ⟨hcallee, -, hargs⟩ := hat.children.uncons
      refine (evalCallee_walks henv.toIn (eval_walks henv _ callee hcallee first)
        (fun h => evalMember_walks henv _ callee hcallee (h ▸ first))).bind fun w₁ f hw₁ hf => ?_
      refine (evalList_walks (henv.mono hw₁) _ args hargs parts).bind fun w₂ values hw₂ hvalues => ?_
      exact recorded_walks (callAt_walks (henv.toIn.mono (le_trans hw₁ hw₂)) hat.not_held _
        (hf.1.mono hw₂) (hf.2.mono hw₂) hvalues)
  | .construct callee args, _, hat, .construct here first parts => by
      rw [eval]
      obtain ⟨hcallee, -, hargs⟩ := hat.children.uncons
      refine (eval_walks henv _ callee hcallee first).bind fun w₁ f hw₁ hf => ?_
      refine (evalList_walks (henv.mono hw₁) _ args hargs parts).bind fun w₂ values hw₂ hvalues => ?_
      exact recorded_walks (constructAt_walks (henv.toIn.mono (le_trans hw₁ hw₂)) hat.not_held _
        (hf.mono hw₂) hvalues)
  | .member object property, _, hat, .member first => by
      rw [eval]
      obtain ⟨hobject, -⟩ := hat.children
      refine (eval_walks henv _ object hobject first).bind fun _ _ _ ho => ?_
      exact (done (a := property)).bind fun _ _ hw _ =>
        Walks.lift (Machine.getProperty_upright henv.invoke (ho.mono hw) _)
  | .index object key, _, hat, .index first second => by
      rw [eval]
      obtain ⟨hobject, -, hkey, -⟩ := hat.children.uncons
      refine (eval_walks henv _ object hobject first).bind fun w₁ o hw₁ ho => ?_
      refine Walks.bind (R := Any) ?_ fun w₂ k hw₂ _ =>
        Walks.lift (Machine.getProperty_upright henv.invoke (ho.mono hw₂) k)
      exact (eval_walks (henv.mono hw₁) _ key hkey second).next fun v =>
        Walks.lift (Machine.text_upright v)
  | .sequence exprs, _, hat, .sequence parts => by
      rw [eval]
      exact evalSequence_walks henv (i + 1) exprs hat.children parts trivial
termination_by structural e => e

theorem evalList_walks {w : Realm} (henv : Env.Under r w env) (i : Nat) :
    ∀ (l : List Script.Expr) {codes : List Expr} {j : Nat}, t.Along (F.Frees t) i (l.map .expr) →
      Code.Row Node.expr (ExprImage r t.ns) i l codes j → Walks S F F w (evalList env codes) Values.In
  | [], _, _, _, .nil => pure fun _ _ => List.forall_mem_nil _
  | e :: rest, _, _, hat, .cons head tail => by
      rw [evalList]
      obtain ⟨he, -, hrest⟩ := hat.uncons
      refine (eval_walks henv i e he head).bind fun w₁ v hw₁ hv => ?_
      refine (evalList_walks (henv.mono hw₁) _ rest hrest tail).bind fun w₂ values hw₂ hvalues => ?_
      exact pure fun _ hw => List.forall_mem_cons.2 ⟨hv.mono (le_trans hw₂ hw), hvalues.mono hw⟩
termination_by structural l => l

theorem evalSequence_walks {w : Realm} (henv : Env.Under r w env) (i : Nat) :
    ∀ (l : List Script.Expr) {codes : List Expr} {j : Nat}, t.Along (F.Frees t) i (l.map .expr) →
      Code.Row Node.expr (ExprImage r t.ns) i l codes j → ∀ {v : Value}, v.In w →
        Walks S F F w (evalSequence env v codes) Value.In
  | [], _, _, _, .nil, _, hv => value hv
  | e :: rest, _, _, hat, .cons head tail, _, _ => by
      rw [evalSequence]
      obtain ⟨he, -, hrest⟩ := hat.uncons
      exact (eval_walks henv i e he head).bind fun w₁ v hw₁ hv =>
        evalSequence_walks (henv.mono hw₁) _ rest hrest tail hv
termination_by structural l => l

theorem evalProps_walks {w : Realm} (henv : Env.Under r w env) (a : Address) (i : Nat) :
    ∀ (l : List Script.Property) {codes : List Property} {j : Nat},
      t.Along (F.Frees t) i (l.map .property) →
        Code.Row Node.property (PropertyImage r t.ns) i l codes j →
          Walks S F F w (evalProps env a codes) Any
  | [], _, _, _, .nil => done
  | p :: rest, _, _, hat, .cons head tail => by
      rw [evalProps]
      obtain ⟨hp, -, hrest⟩ := hat.uncons
      exact (evalProp_walks henv a i p hp head).bind fun w₁ _ hw₁ _ =>
        evalProps_walks (henv.mono hw₁) a _ rest hrest tail
termination_by structural l => l

theorem evalProp_walks {w : Realm} (henv : Env.Under r w env) (a : Address) (i : Nat) :
    ∀ (p : Script.Property) {code : Property}, F.Frees t i (.property p) →
      PropertyImage r t.ns i p code → Walks S F F w (evalProp env a code) Any
  | ⟨key, kind, val⟩, _, hat, .mk first => by
      rw [evalProp]
      obtain ⟨hval, -⟩ := hat.children
      exact (eval_walks henv (i + 1) val hval first).bind fun _ _ _ hv =>
        Walks.lift (define_upright a key hv kind)
termination_by structural p => p

/-- The parts of a property that is read. -/
theorem evalMember_walks {w : Realm} (henv : Env.Under r w env) (i : Nat) :
    ∀ (e : Script.Expr) {object : Expr} {key : Key}, F.Frees t i (.expr e) →
      ExprImage r t.ns i e (.member object key) →
        Walks S F F w (eval env object) Value.In ∧
          ∀ w', w ≤ w' → Walks S F F w' (evalKey env key) Any
  | .member object property, _, _, hat, .member first => by
      obtain ⟨hobject, -⟩ := hat.children
      exact ⟨eval_walks henv _ object hobject first, fun _ _ => done⟩
  | .index object key, _, _, hat, .index first second => by
      obtain ⟨hobject, -, hkey, -⟩ := hat.children.uncons
      refine ⟨eval_walks henv _ object hobject first, fun w' hw => ?_⟩
      exact (eval_walks (henv.mono hw) _ key hkey second).next fun v =>
        Walks.lift (Machine.text_upright v)
  | .ident _, _, _, _, .ident read => nomatch read
  | .function _, _, _, _, .function closure => nomatch closure
termination_by structural e => e

theorem evalTarget_walks {w : Realm} (henv : Env.Under r w env) (i : Nat) :
    ∀ (e : Script.Expr) {code : Target}, F.Frees t i (.expr e) → TargetImage r t.ns i e code →
      Walks S F F w (evalTarget env code) Spot.In
  | .ident _, _, _, .ident _ => pure fun _ _ => trivial
  | .member object property, _, hat, .member first => by
      rw [evalTarget]
      obtain ⟨hobject, -⟩ := hat.children
      refine (eval_walks henv (i + 1) object hobject first).bind fun _ _ _ ho => ?_
      exact (done (a := property)).bind fun _ _ hw _ => pure fun _ hw' => ho.mono (le_trans hw hw')
  | .index object key, _, hat, .index first second => by
      rw [evalTarget]
      obtain ⟨hobject, -, hkey, -⟩ := hat.children.uncons
      refine (eval_walks henv _ object hobject first).bind fun w₁ o hw₁ ho => ?_
      refine Walks.bind (R := Any) ?_ fun w₂ k hw₂ _ => pure fun _ hw => ho.mono (le_trans hw₂ hw)
      exact (eval_walks (henv.mono hw₁) _ key hkey second).next fun v =>
        Walks.lift (Machine.text_upright v)
termination_by structural e => e

end

/-! ## Statements -/

theorem declare_walks (henv : Env.Under r w env) {d : Script.Declarator} {code : Declarator}
    (hat : F.Frees t i (.declarator d)) (h : DeclaratorImage r t.ns i d code) :
    Walks S F F w (declare env code) Any := by
  cases h with
  | @mk _ _ _ init _ code here hname val =>
      cases code with
      | none => exact done
      | some x =>
          cases init with
          | none => cases val
          | some e =>
              cases val with
              | cons head tail =>
                  obtain ⟨he, -⟩ := hat.children
                  refine (eval_walks henv _ e he head).bind fun w₁ v hw₁ hv => ?_
                  refine (writeRef_walks (henv.toIn.mono hw₁) _ hv).bind fun w₂ _ hw₂ _ => ?_
                  exact (record_walks (hv.mono hw₂)).next fun _ => mark_walks env i

theorem declareAll_walks (henv : Env.Under r w env) {decls : List Script.Declarator}
    {codes : List Declarator} (hat : t.Along (F.Frees t) i (decls.map .declarator))
    (h : Code.Row Node.declarator (DeclaratorImage r t.ns) i decls codes j) :
    Walks S F F w (codes.forM (declare env)) Any := by
  induction h generalizing w with
  | nil => exact done
  | cons head tail ih =>
      obtain ⟨hd, -, hrest⟩ := hat.uncons
      exact (declare_walks henv hd head).bind fun _ _ hw₁ _ => ih (henv.mono hw₁) hrest

theorem enterLoop_walks (henv : Env.Under r w env) {init : Script.ForInit} {code : ForInit}
    (hat : t.Along (F.Frees t) i init.nodes) (h : InitImage r t.ns i init code j) :
    Walks S F F w (enterLoop env code) Any := by
  cases h with
  | absent => exact done
  | vars parts => exact declareAll_walks henv hat parts
  | expr val => exact (eval_walks henv i _ hat.1 val).next fun _ => done

/-- An expression that may be missing. -/
theorem evalOptional_walks (henv : Env.Under r w env) {e : Option Script.Expr} {code : Option Expr}
    (hat : t.Along (F.Frees t) i (Node.ofExpr? e))
    (h : Code.Row Node.expr (ExprImage r t.ns) i e.toList code.toList j) :
    Walks S F F w (evalOptional env code) Value.In := by
  cases code with
  | none => exact value trivial
  | some x =>
      cases e with
      | none => cases h
      | some e =>
          cases h with
          | cons head tail => exact eval_walks henv i e hat.1 head

theorem testLoop_walks (henv : Env.Under r w env) {e : Option Script.Expr} {code : Option Expr}
    (hat : t.Along (F.Frees t) i (Node.ofExpr? e))
    (h : Code.Row Node.expr (ExprImage r t.ns) i e.toList code.toList j) :
    Walks S F F w (testLoop env code) Any := by
  cases code with
  | none => exact done
  | some x => exact (evalOptional_walks henv hat h).next fun _ => done

theorem assignKey_walks (henv : Env.Under r w env) {left : Script.ForTarget} {target : Target}
    (hat : ∀ e, left = .expr e → F.Frees t i (.expr e)) (h : ForTargetImage r t.ns i left target j)
    {key : Value} (hkey : key.In w) : Walks S F F w (assignKey env target key) Any := by
  have hwrite : ∀ {w₁ spot}, w ≤ w₁ → Spot.In w₁ spot → Walks S F F w₁ (writeSpot env spot key) Any :=
    fun hw hspot => writeSpot_walks (henv.toIn.mono hw) hspot (hkey.mono hw)
  cases h with
  | var => exact (pure (a := Spot.ref _) fun _ _ => trivial).bind fun _ _ hw hspot => hwrite hw hspot
  | expr place =>
      exact (evalTarget_walks henv i _ (hat _ rfl) place).bind fun _ _ hw hspot => hwrite hw hspot

theorem forTarget_after {left : Script.ForTarget} {target : Target}
    (hat : ∀ e, left = .expr e → t.At i (.expr e)) (h : ForTargetImage r t.ns i left target j) :
    j = if left.isExpr then t.after i else i := by
  cases h with
  | var => rfl
  | expr place => exact (hat _ rfl).after.symm

theorem caseTest_walks (henv : Env.Under r w env) {c : Script.Case} {code : Case}
    (hat : F.Frees t i (.case c)) (h : CaseImage r t.ns i c code) {test : Expr}
    (htest : code.test = some test) : Walks S F F w (eval env test) Value.In := by
  cases h with
  | mk first parts =>
      cases htest
      exact evalOptional_walks henv (IndexedTree.along_case hat.children rfl).1 first

theorem matching?_walks (henv : Env.Under r w env) (v : Value) (k : Nat) {cases : List Script.Case}
    {codes : List Case} (hat : t.Along (F.Frees t) i (cases.map .case))
    (h : Code.Row Node.case (CaseImage r t.ns) i cases codes j) :
    Walks S F F w (matching? env v k codes) Any := by
  induction h generalizing k w with
  | nil => exact done
  | cons head tail ih =>
      obtain ⟨hc, -, hrest⟩ := hat.uncons
      rw [matching?]
      split
      · exact ih henv (k + 1) hrest
      · rename_i test htest
        refine (caseTest_walks henv hc head htest).bind fun _ u hw₁ _ => ?_
        split
        · exact done
        · exact ih (henv.mono hw₁) (k + 1) hrest

mutual

theorem exec_walks {w : Realm} {S : Stage} {F : Footing} (hS : env.records = S.records)
    (henv : Env.Under r w env) (i : Nat) :
    ∀ (s : Script.Stmt) {code : Stmt}, F.Frees t i (.stmt s) → S.Covers F (t.ways i s) →
      StmtImage r t.ns i s code → Walks S F F w (exec env code) Flow.In
  | .function f, _, _, _, .function _ | .empty, _, _, _, .empty =>
      Walks.normal
  | .brk none, _, _, _, .brk => Walks.brk
  | .cont none, _, _, _, .cont => Walks.cont
  | .debugger, _, hat, hcovers, .debugger _ =>
      debugging_walks hS hcovers fun _ => .here
  | .var decls, _, hat, hcovers, .var parts => by
      rw [exec]
      exact (declareAll_walks henv hat.children parts).next fun _ => Walks.normal
  | .expr e, _, hat, hcovers, .expr val => by
      rw [exec]
      exact (eval_walks henv _ e hat.children.1 val).next fun _ => Walks.normal
  | .throwing e, _, hat, hcovers, .throwing val => by
      rw [exec]
      exact (eval_walks henv _ e hat.children.1 val).bind fun w₁ v _ hv =>
        Walks.lift (Machine.throwValue_upright hv)
  | .block body, _, hat, hcovers, .block parts =>
      execList_walks hS henv _ body hat.children (hcovers.imp fun _ _ _ _ h => .block h) parts
  | .branch test cons alt, _, hat, hcovers, .branch first second third => by
      rw [exec]
      obtain ⟨htest, hafter, hrest⟩ := hat.children.uncons
      obtain ⟨hcons, hafter', halt⟩ := hrest.uncons
      refine (eval_walks henv _ test htest first).bind fun w₁ v hw₁ _ => ?_
      split
      · exact exec_walks hS (henv.mono hw₁) _ cons hcons
          (hcovers.imp fun _ _ _ _ h => .cons (hafter ▸ h)) second
      · refine execOptional_walks hS (henv.mono hw₁) _ alt halt (fun s hs => ?_) third
        exact hcovers.imp fun _ _ _ _ h => hs ▸ .alt (by rw [hafter, hafter']; exact h)
  | .forLoop init test update body, _, hat, hcovers, .forLoop first second third last => by
      rw [exec]
      obtain ⟨hinit, -⟩ := IndexedTree.along_forLoop hat.children rfl rfl rfl
      have hj := (init.length_nodes ▸ first.after hinit.stands).symm
      obtain ⟨-, htest, -⟩ := IndexedTree.along_forLoop hat.children hj rfl rfl
      have hk := (t.afterMany_toList _ _ ▸ second.after htest.stands).symm
      obtain ⟨-, -, hupdate, -⟩ := IndexedTree.along_forLoop hat.children hj hk rfl
      have hl := (t.afterMany_toList _ _ ▸ third.after hupdate.stands).symm
      obtain ⟨-, -, -, hbody⟩ := IndexedTree.along_forLoop hat.children hj hk hl
      refine (enterLoop_walks henv hinit first).bind fun w₁ _ hw₁ _ => ?_
      have henv₁ := henv.mono hw₁
      have hturn := forTurn_walks (testLoop_walks henv₁ htest second)
        (exec_walks hS henv₁ _ body hbody (hcovers.imp fun _ _ _ _ h => .forBody hj hk hl h) last)
        (evalOptional_walks henv₁ hupdate third)
      exact turning_walks lasting_flow hturn hturn _
  | .forIn left right body, _, hat, hcovers, .forIn (j := j) first here second last => by
      rw [exec]
      have hj := forTarget_after (fun e he => (IndexedTree.along_forIn hat.children rfl).1 e he |>.1) first
      obtain ⟨hleft, hright, hbody⟩ := IndexedTree.along_forIn hat.children hj
      have hleft' : ∀ e, left = .expr e → (F.holding j).Frees t (i + 1) (.expr e) := fun e he =>
        (hleft e he).holding (.inr (by rw [hj, he]; exact Nat.le_refl _))
      refine (keyQueue_walks hS (eval_walks henv _ right hright second)).bindTo (fun _ h _ => .inr h)
        fun w₁ keys hw₁ hkeys => ?_
      have hturn := keyTurn_walks keys (fun w₂ key hw₂ hkey =>
          assignKey_walks (henv.mono (le_trans hw₁ hw₂)) hleft' first hkey)
        (exec_walks (F := F.holding j) hS (henv.mono hw₁) _ body
          (hright.1.after ▸ hbody.holding (.inl (t.lt_after j)))
          (hright.1.after ▸ covers_forIn hcovers hj) last)
      exact (turning_walks lasting_flow hturn hturn _).bind fun w₂ flow _ hflow =>
        leaveKeys_walks hright.not_held hflow
  | .whileLoop test body, _, hat, hcovers, .whileLoop first second => by
      rw [exec]
      obtain ⟨htest, hafter, hbody, -⟩ := hat.children.uncons
      have hturn := whileTurn_walks (eval_walks (S := S) henv _ test htest first)
        (exec_walks hS henv _ body hbody (hcovers.imp fun _ _ _ _ h => .whileBody (hafter ▸ h)) second)
      exact turning_walks lasting_flow hturn hturn _
  | .doLoop body test, _, hat, hcovers, .doLoop first second => by
      rw [exec]
      obtain ⟨hbody, -, htest, -⟩ := hat.children.uncons
      have hturn := doTurn_walks
        (exec_walks hS henv _ body hbody (hcovers.imp fun _ _ _ _ h => .doBody h) first)
        (eval_walks henv _ test htest second)
      exact turning_walks lasting_flow hturn hturn _
  | .ret val, _, hat, hcovers, .ret part => by
      rw [exec]
      exact (evalOptional_walks henv hat.children part).bind fun w₁ v _ hv =>
        Walks.ret hv
  | .attempt block handler finalizer, _, hat, hcovers, .attempt (k := k) here first second third => by
      rw [exec]
      obtain ⟨hblock, -⟩ := IndexedTree.along_attempt hat.children rfl rfl
      have hj := (first.after hblock.stands).symm
      obtain ⟨-, hhandler, -⟩ := IndexedTree.along_attempt hat.children hj rfl
      have hk := (t.afterMany_toList _ _ ▸ second.after hhandler.stands).symm
      obtain ⟨-, -, hfinally⟩ := IndexedTree.along_attempt hat.children hj hk
      refine chain_walks.bind fun w₁ saved hw₁ hsaved => ?_
      obtain ⟨rfl, hchain, hanchored⟩ := hsaved
      refine concluding_walks hat.not_held (guarding_returns ?_ fun w₂ u c hw₂ hu _ => ?_) hchain
        hanchored fun w₃ hw₃ => ?_
      · exact execList_walks hS (henv.mono hw₁) _ block hblock
          (hcovers.imp fun _ _ _ _ h => .tryBlock h) first
      · exact execHandler_walks hS (henv.mono (le_trans hw₁ hw₂)) hu (hchain.mono hw₂) hanchored _
          handler hhandler (fun h hh link => hj ▸ covers_handler (hh ▸ hcovers)) second
      · exact execFinally_walks hS (henv.mono (le_trans hw₁ hw₃)) _ finalizer hfinally
          (fun body hbody => hcovers.imp fun _ _ _ _ h => hbody ▸ .finalizer (hj ▸ hk) h) third
  | .switch discriminant cases, _, hat, hcovers, .switch here first parts => by
      rw [exec]
      obtain ⟨hdiscriminant, hafter, hcases⟩ := hat.children.uncons
      refine (discriminating_walks (eval_walks henv _ discriminant hdiscriminant first)).bind
        fun w₁ v hw₁ _ => ?_
      refine (matching?_walks (henv.mono hw₁) v 0 hcases parts).bind fun w₂ start hw₂ _ => ?_
      split
      · exact Walks.normal
      · rename_i k _
        refine (execArms_walks hS (henv.mono (le_trans hw₁ hw₂)) k _ cases hcases
          (hcovers.imp fun _ _ _ _ h => .arm (hafter ▸ h)) parts).bind fun w₃ flow hw₃ hflow => ?_
        exact value_flow (endSwitch_in hflow)
  | .withScope object body, _, hat, hcovers, .withScope first second => by
      rw [exec]
      obtain ⟨hobject, hafter, hbody, -⟩ := hat.children.uncons
      refine (eval_walks henv _ object hobject first).bind fun w₁ v hw₁ hv => ?_
      refine (Walks.lift (scopeRecord_upright hv)).bind fun w₂ a hw₂ ha => ?_
      refine chain_walks.bind fun w₃ saved hw₃ hsaved => ?_
      obtain ⟨rfl, hchain, hanchored⟩ := hsaved
      have hlink : (⟨.withObject, a⟩ : Link).record < w₃.size := Nat.lt_of_lt_of_le ha hw₃.1
      refine inScope_walks (c := F.chain) hlink (fun h => by cases h) hchain hanchored ?_
      exact exec_walks (S := S.enter ⟨.withObject, a⟩) hS
        (henv.mono (le_trans hw₁ (le_trans hw₂ hw₃))) _ body hbody
        (hafter ▸ covers_withScope hcovers) second
termination_by structural s => s

theorem execOptional_walks {w : Realm} {S : Stage} {F : Footing} (hS : env.records = S.records)
    (henv : Env.Under r w env) (i : Nat) :
    ∀ (s : Option Script.Stmt) {code : Option Stmt} {j : Nat},
      t.Along (F.Frees t) i (s.toList.map .stmt) → (∀ s', s = some s' → S.Covers F (t.ways i s')) →
        Code.Row Node.stmt (StmtImage r t.ns) i s.toList code.toList j →
          Walks S F F w (execOptional env code) Flow.In
  | none, none, _, _, _, .nil => Walks.normal
  | some s, some _, _, hat, hcovers, .cons head _ =>
      exec_walks hS henv i s hat.1 (hcovers s rfl) head
termination_by structural s => s

theorem execList_walks {w : Realm} {S : Stage} {F : Footing} (hS : env.records = S.records)
    (henv : Env.Under r w env) (i : Nat) :
    ∀ (l : List Script.Stmt) {codes : List Stmt} {j : Nat}, t.Along (F.Frees t) i (Node.ofStmts l) →
      S.Covers F (t.waysOfList i l) → Code.Row Node.stmt (StmtImage r t.ns) i l codes j →
        Walks S F F w (execList env codes) Flow.In
  | [], _, _, _, _, .nil => Walks.normal
  | s :: rest, _, _, hat, hcovers, .cons head tail => by
      rw [execList]
      obtain ⟨hs, hafter, hrest⟩ := hat.uncons
      refine (exec_walks hS henv i s hs (hcovers.imp fun _ _ _ _ h => .head h) head).bind
        fun w₁ flow hw₁ hflow => ?_
      split
      · exact execList_walks hS (henv.mono hw₁) _ rest hrest
          (hcovers.imp fun _ _ _ _ h => .tail (hafter ▸ h)) tail
      · exact value_flow hflow
termination_by structural l => l

theorem execFinally_walks {w : Realm} {S : Stage} {F : Footing} (hS : env.records = S.records)
    (henv : Env.Under r w env) (i : Nat) :
    ∀ (f : Option (List Script.Stmt)) {code : Option (List Stmt)} {j : Nat},
      t.Along (F.Frees t) i (Node.ofStmts (f.getD [])) →
        (∀ body, f = some body → S.Covers F (t.waysOfList i body)) → FinallyImage r t.ns i f code j →
          Walks S F F w (execFinally env code) Flow.In
  | none, _, _, _, _, .none => Walks.normal
  | some body, _, _, hat, hcovers, .some parts =>
      execList_walks hS henv i body hat (hcovers body rfl) parts
termination_by structural f => f

theorem execHandler_walks {w : Realm} {S : Stage} {F : Footing} (hS : env.records = S.records)
    (henv : Env.Under r w env) {u : Unwind} (hu : u.In w) (hchain : Chain.In w F.chain)
    (hanchored : F.chain.Anchored) {c : Chain} (i : Nat) :
    ∀ (h : Option Script.Handler) {code : Option Handler} {j : Nat},
      t.Along (F.Frees t) i (h.toList.map .handler) →
        (∀ h', h = some h' → ∀ link,
          (S.enter link).Covers (F.enter link) (t.waysOfList (i + 1) h'.body)) →
          Code.Row Node.handler (HandlerImage r t.ns) i h.toList code.toList j →
            Returns S ⟨c, F.held⟩ F w (execHandler env F.chain u code) Flow.In
  | none, none, _, _, _, .nil => Walks.throw hu
  | some h, some _, _, hat, hcovers, .cons head _ =>
      caught_returns (execCatch_walks hS henv (Machine.getD_in hu.thrown) hchain hanchored i h hat.1
        (hcovers h rfl) head)
termination_by structural h => h

theorem execCatch_walks {w : Realm} {S : Stage} {F : Footing} (hS : env.records = S.records)
    (henv : Env.Under r w env) {thrown : Value} (hthrown : thrown.In w) (hchain : Chain.In w F.chain)
    (hanchored : F.chain.Anchored) {c : Chain} (i : Nat) :
    ∀ (h : Script.Handler) {code : Handler}, F.Frees t i (.handler h) →
      (∀ link, (S.enter link).Covers (F.enter link) (t.waysOfList (i + 1) h.body)) →
        HandlerImage r t.ns i h code →
          Walks S ⟨c, F.held⟩ F w (execCatch env F.chain thrown code) Flow.In
  | ⟨_, body⟩, _, hat, hcovers, .mk _ parts =>
      catching_walks hthrown hchain hanchored fun _ link hw =>
        execList_walks (S := S.enter link) hS (henv.mono hw) (i + 1) body hat.children (hcovers link) parts
termination_by structural h => h

theorem execArms_walks {w : Realm} {S : Stage} {F : Footing} (hS : env.records = S.records)
    (henv : Env.Under r w env) (k i : Nat) :
    ∀ (l : List Script.Case) {codes : List Case} {j : Nat}, t.Along (F.Frees t) i (l.map .case) →
      S.Covers F (t.waysOfCases i l) → Code.Row Node.case (CaseImage r t.ns) i l codes j →
        Walks S F F w (execArms env k codes) Flow.In
  | [], _, _, _, _, .nil => by cases k <;> exact Walks.normal
  | c :: rest, _, _, hat, hcovers, .cons head tail => by
      obtain ⟨hc, hafter, hrest⟩ := hat.uncons
      have hlater := fun {w' : Realm} (k : Nat) (hw : w ≤ w') =>
        execArms_walks hS (henv.mono hw) k _ rest hrest
          (hcovers.imp fun _ _ _ _ h => .tail (hafter ▸ h)) tail
      cases k with
      | zero =>
          rw [execArms]
          refine (execArm_walks hS henv i c hc hcovers head).bind fun w₁ flow hw₁ hflow => ?_
          split
          · exact hlater 0 hw₁
          · exact value_flow hflow
      | succ k => exact hlater k le_rfl
termination_by structural l => l

theorem execArm_walks {w : Realm} {S : Stage} {F : Footing} (hS : env.records = S.records)
    (henv : Env.Under r w env) (i : Nat) {rest : List Script.Case} :
    ∀ (c : Script.Case) {code : Case}, F.Frees t i (.case c) →
      S.Covers F (t.waysOfCases i (c :: rest)) → CaseImage r t.ns i c code →
        Walks S F F w (execArm env code) Flow.In
  | ⟨test, body⟩, _, hat, hcovers, .mk first parts => by
      obtain ⟨htest, -⟩ := IndexedTree.along_case hat.children rfl
      have hj := (t.afterMany_toList _ _ ▸ first.after htest.stands).symm
      exact execList_walks hS henv _ body (IndexedTree.along_case hat.children hj).2
        (hcovers.imp fun _ _ _ _ h => .head (hj ▸ h)) parts
termination_by structural c => c

end

/-! ## Calls -/

theorem instantiate_walks {ns : String} (henv : Env.Under r w env) (a : Address)
    {functions : List (String × Nat)} {hoisted : List Hoisted}
    (h : List.Forall₂ (HoistedImage r ns) functions hoisted) :
    Walks S F F w (instantiate env a hoisted) Any := by
  induction h generalizing w with
  | nil => exact done
  | cons head tail ih =>
      cases head with
      | mk hname closure =>
          refine (closure_walks henv closure).bind fun w₁ v hw₁ hv => ?_
          exact (Walks.lift (Machine.setOwn_upright a _ hv)).bind fun _ _ hw₂ _ =>
            ih (henv.mono (le_trans hw₁ hw₂))

/-- Where an image says that its function stands, it stands in a tree of the registry. -/
theorem exists_tree {ns : String} {n : Node} {f : Script.Func} {code : Func} (hr : r.Built)
    (h : FuncImage r ns i n f code) :
    ∃ t, t ∈ r.trees ∧ t.ns = ns ∧ t.At i n ∧ t.func? i = some f ∧ code.index = i := by
  cases h with
  | @mk _ _ _ _ _ handle introduced here node index =>
      obtain ⟨htree, hindex⟩ := (hr.resolve_eq_ok_iff handle).1 here
      obtain ⟨hmem, -⟩ := hr.tree_eq_ok_iff.1 htree
      obtain ⟨hmem, hns⟩ := List.mem_filter.1 hmem
      have hnode : handle.tree.node? i = some n := index ▸ hindex ▸ node
      refine ⟨handle.tree, hmem, beq_iff_eq.1 hns, hr.at_of_node? hmem hnode, ?_, index⟩
      rw [IndexedTree.func?, hnode]
      exact introduced

theorem call_upright {invoke : Invoke} (hinvoke : invoke.Upright) (fuel : Nat)
    {closure : InstrumentedClosure} (hclosure : (Callable.instrumented closure).In w)
    {callee this : Value} {args : List Value} (hcallee : callee.In w) (hthis : this.In w)
    (hargs : Values.In w args) :
    Upright w (call invoke fuel closure callee this args) Value.In := by
  obtain ⟨⟩ | ⟨hchain, hkept, himage⟩ | ⟨⟩ := hclosure
  obtain ⟨t, ht, hns, hat, hfunc, hindex⟩ := exists_tree hkept.built himage
  rename_i r i n f
  have hself : ∀ p, closure.func.selfName.map (fun name => (name, callee)) = some p → p.2.In w :=
    fun p hp => by
      obtain ⟨name, -, rfl⟩ := Option.map_eq_some_iff.1 hp
      exact hcallee
  have ho := entryRecord_record hargs closure.func.params closure.func.declared hself
  obtain ⟨howns, hbody⟩ := hkept.built.at_body ht hfunc
  unfold call
  refine (Machine.alloc_upright ho.toIn ho.older).bind fun w₁ a hw₁ ha => ?_
  have henv : ∀ {w₂ : Realm}, w₁ ≤ w₂ → Env.Under r w₂
      { invoke, fuel, this, args, ns := closure.func.ns, index := closure.func.index
        registry := closure.registry, records := true } := fun hw =>
    ⟨⟨hinvoke, hthis.mono (le_trans hw₁ hw), hargs.mono (le_trans hw₁ hw)⟩,
      hkept.mono (le_trans hw₁ hw)⟩
  subst hindex
  refine runActivation_upright (t := t) (f := f) ⟨(henv le_rfl).toIn, r, (henv le_rfl).kept, ht⟩
    hns.symm howns hfunc hbody (.new ha (hchain.mono hw₁) _ _) rfl ?_
  cases himage with
  | mk introduced here node index nameSpace name params self vars hoisted body =>
      refine (instantiate_walks (henv le_rfl) a hoisted).bind fun w₂ _ hw₂ _ => ?_
      exact execList_walks rfl (henv hw₂) _ f.body (Footing.start_along hbody)
        (Stage.covers_body _ _ _ _) (hns ▸ body)

end Resumption.Instrumented
