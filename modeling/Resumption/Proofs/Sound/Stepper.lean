import Resumption.Proofs.Sound.Construct

/-!
# Walks over source trees

A walk over a source tree is in order whether it is on its own or on its way back to a position.  What it
evaluates it takes from the books or from the machine, and what it pauses at is the end of a way in the
tree.
-/

namespace Resumption

open Script Walks

namespace Stepper

open ActM

variable {w w' : Realm} {α : Type} {S : Stage} {F F' : Footing} {env : Env} {t : IndexedTree} {i j : Nat}

/-! ## Getting back -/

theorem resumeState_walks (t : IndexedTree) (i : Nat) :
    Walks S F F w (resumeState t i) (fun w' state => ∀ v, state.result? = some v → v.In w') := by
  refine activation_walks.bind fun w₁ act hw₁ hact => ?_
  have hempty : ∀ {w' : Realm} {state : Resume}, state.result? = none →
      Walks S F F w' (Pure.pure state) (fun w' state => ∀ v, state.result? = some v → v.In w') :=
    fun hnone => pure fun _ _ v hv => by
      rw [hnone] at hv
      cases hv
  split
  · exact hempty rfl
  · split
    · exact clearPc_walks.next fun _ => (cached?_walks i).bind fun w₂ v hw₂ hv =>
        pure fun _ hw u hu => (hv u hu).mono hw
    · split
      · exact hempty rfl
      · split
        · exact clearPc_walks.next fun _ => hempty rfl
        · exact (cached?_walks i).bind fun w₂ v hw₂ hv => pure fun _ hw u hu => (hv u hu).mono hw

/-- A link to enter. -/
def Enters (w : Realm) (link : Link) : Prop := link.record < w.size ∧ link.kind ≠ .function

theorem Enters.mono (hw : w ≤ w') {link : Link} (h : Enters w link) : Enters w' link :=
  ⟨Nat.lt_of_lt_of_le h.1 hw.1, h.2⟩

theorem popPending_walks :
    Walks S F F w popPending (fun w' link => ∀ l, link = some l → Enters w' l) := by
  refine activation_walks.bind fun w₁ act hw₁ hact => ?_
  obtain ⟨hact, -, -⟩ := hact
  split
  · exact pure fun _ _ => nofun
  · rename_i link rest heq
    have hpending : Chain.In w₁ (link :: rest) := heq ▸ hact.pending
    have hinner : ∀ l ∈ link :: rest, l.kind ≠ .function := heq ▸ hact.inner
    obtain ⟨hlink, hrest⟩ := List.forall_mem_cons.1 hpending
    refine Walks.next (update_aside (fun w' act hw hact => ?_) (fun _ => rfl) fun _ => rfl) fun _ => ?_
    · exact ⟨hact.chain, hact.anchored, hact.cache, hact.arguments, Chain.In.mono hw hrest,
        (List.forall_mem_cons.1 hinner).2⟩
    · refine pure fun _ hw l hl => ?_
      cases hl
      exact Enters.mono hw ⟨hlink, (List.forall_mem_cons.1 hinner).1⟩

theorem reenter_walks {reentered : Bool} {fresh : ActM Link} (hfresh : Walks S F F w fresh Enters) :
    Walks S F F w (reenter reentered fresh) Enters := by
  unfold reenter
  split
  · refine popPending_walks.bind fun w₁ link hw₁ hlink => ?_
    split
    · exact pure fun _ hw => (hlink _ rfl).mono hw
    · exact hfresh.mono hw₁
  · exact hfresh

/-! ## Names -/

theorem recordOf?_walks (name : String) :
    Walks S F F w (recordOf? name) (fun w' found => ∀ a, found = some a → a < w'.size) :=
  chain_walks.bind fun _ _ _ hc => Walks.lift (Machine.ask_upright fun _ _ _ hle _ ha =>
    (hc.2.1.mono hle).recordOf? ha)

theorem lookup_walks (henv : env.In w) (name : String) :
    Walks S F F w (lookup env name) Value.In := by
  refine (recordOf?_walks name).bind fun w₁ found hw₁ hfound => ?_
  split
  · rename_i a
    have ha : (Value.object a).In w₁ := hfound a rfl
    exact Walks.lift (Machine.getProperty_upright henv.invoke ha name)
  · split
    · exact argumentsObject_walks (henv.mono hw₁)
    · exact Walks.lift (Machine.readGlobal_upright henv.invoke name)

theorem resolvable_walks (name : String) : Walks S F F w (resolvable name) Any := by
  refine (recordOf?_walks name).next fun found => ?_
  split
  · exact done
  · exact Walks.lift (Machine.hasGlobal_upright name)

theorem unresolved_walks (op : UnaryOp) (arg : Expr) : Walks S F F w (unresolved op arg) Any := by
  unfold unresolved
  split
  · exact (resolvable_walks _).next fun _ => done
  · exact done

theorem assignName_walks (henv : env.In w) (name : String) {v : Value} (hv : v.In w) :
    Walks S F F w (assignName env name v) Any := by
  refine (recordOf?_walks name).bind fun w₁ found hw₁ hfound => ?_
  split
  · rename_i a
    have ha : (Value.object a).In w₁ := hfound a rfl
    exact Walks.lift (Machine.putProperty_upright henv.invoke ha name (hv.mono hw₁))
  · exact Walks.lift (Machine.writeGlobal_upright henv.invoke name (hv.mono hw₁))

/-- The registry leads to the tree of the closure. -/
theorem makeClosure_walks (henv : env.For t w) (howns : t.owns i = true) (f : Func) :
    Walks S F F w (makeClosure env t i f) Value.In := by
  obtain ⟨r, hkept, ht⟩ := henv.kept
  have htree : r.tree t.ns i = .ok t :=
    hkept.built.tree_eq_ok_iff.2 ⟨List.mem_filter.2 ⟨ht, beq_self_eq_true _⟩, howns⟩
  refine chain_walks.bind fun w₁ c hw₁ hc => Walks.lift (Machine.newFunction_upright ?_)
  split
  · exact .stepped (List.forall_mem_nil _) (hkept.mono hw₁) htree
  · exact .stepped hc.2.1 (hkept.mono hw₁) htree

/-! ## Spots -/

def Spot.In (w : Realm) : Spot → Prop
  | .name _ => True
  | .member object _ => object.In w

theorem Spot.In.mono (hw : w ≤ w') {spot : Spot} (h : spot.In w) : spot.In w' := by
  cases spot with
  | name name => trivial
  | member object key => exact Value.In.mono hw h

theorem readSpot_walks (henv : env.In w) {spot : Spot} (hspot : spot.In w) :
    Walks S F F w (readSpot env spot) Value.In := by
  cases spot with
  | name name => exact lookup_walks henv name
  | member object key => exact Walks.lift (Machine.getProperty_upright henv.invoke hspot key)

theorem writeSpot_walks (henv : env.In w) {spot : Spot} (hspot : spot.In w) {v : Value} (hv : v.In w) :
    Walks S F F w (writeSpot env spot v) Any := by
  cases spot with
  | name name => exact assignName_walks henv name hv
  | member object key => exact Walks.lift (Machine.putProperty_upright henv.invoke hspot key hv)

theorem calleeOf_walks (henv : env.In w) {isProperty : Bool} {spot : ActM Spot} {callee : ActM Value}
    (hspot : Walks S F F w spot Spot.In) (hcallee : Walks S F F w callee Value.In) :
    Walks S F F w (calleeOf env isProperty spot callee) (fun w' r => r.1.In w' ∧ r.2.In w') := by
  unfold calleeOf
  split
  · refine hspot.bind fun w₁ spot hw₁ hspot => ?_
    split
    · refine (Walks.lift (Machine.getProperty_upright henv.invoke hspot _)).bind fun w₂ f hw₂ hf => ?_
      exact pure fun _ hw => ⟨hf.mono hw, Value.In.mono (le_trans hw₂ hw) hspot⟩
    · exact Walks.lift (Machine.typeError_upright _)
  · exact functionOf_walks hcallee

/-! ## Expressions -/

theorem keepBooks_walks (env : Env) (i : Nat) (e : Expr) {v : Value} (hv : v.In w) :
    Walks S F F w (keepBooks env i e v) Any := by
  unfold keepBooks
  split
  · exact record_walks hv
  · exact record_walks hv
  · exact (record_walks hv).next fun _ => mark_walks env i
  · exact done

theorem evaluating_walks {e : Expr} {body : Option Nat → ActM Value}
    (hbody : ∀ entry, Walks S F F w (body entry) Value.In) :
    Walks S F F w (evaluating env t i e body) Value.In := by
  refine (resumeState_walks t i).bind fun w₁ state hw₁ hstate => ?_
  split
  · exact value (hstate _ (by assumption))
  · refine ((hbody _).mono hw₁).bind fun w₂ v hw₂ hv => ?_
    exact (keepBooks_walks env i e hv).bind fun _ _ hw _ => value (hv.mono hw)

mutual

theorem eval_walks {w : Realm} (henv : env.For t w) (i : Nat) :
    ∀ e : Expr, F.Frees t i (.expr e) → Walks S F F w (eval env t i e) Value.In
  | .num _, _ => evaluating_walks fun _ => value trivial
  | .str _, _ => evaluating_walks fun _ => value trivial
  | .bool _, _ => evaluating_walks fun _ => value trivial
  | .null, _ => evaluating_walks fun _ => value trivial
  | .ident name, _ => evaluating_walks fun _ => lookup_walks henv.toIn name
  | .this, _ => evaluating_walks fun _ => value henv.this
  | .array elements, hat => by
      rw [eval]
      refine evaluating_walks fun _ => (evalList_walks henv (i + 1) elements hat.children).bind
        fun w₁ items _ hitems => Walks.lift (Machine.newArray_upright hitems)
  | .object props, hat => by
      rw [eval]
      refine evaluating_walks fun _ => (Walks.lift Machine.newObject_upright).bind
        fun w₁ a hw₁ ha => ?_
      exact (evalProps_walks (henv.mono hw₁) a (i + 1) props hat.children).bind fun w₂ _ hw₂ _ =>
        value (Value.In.mono (v := .object a) hw₂ ha)
  | .function f, hat => evaluating_walks fun _ => makeClosure_walks henv hat.1.owns f
  | .unary op arg, hat => by
      rw [eval]
      obtain ⟨harg, -⟩ := hat.children
      refine evaluating_walks fun _ => (unresolved_walks op arg).next fun missing => ?_
      split
      · exact value trivial
      · split
        · refine (evalSpot_walks henv (i + 1) arg harg).bind fun w₁ spot hw₁ hspot => ?_
          split
          · exact (Walks.lift (Machine.deleteProperty_upright _ _)).next fun _ => value trivial
          · exact value trivial
        · exact (eval_walks henv (i + 1) arg harg).next fun v =>
            Walks.lift (Machine.unary_upright op v)
  | .update op before arg, hat => by
      rw [eval]
      obtain ⟨harg, -⟩ := hat.children
      refine evaluating_walks fun _ => (evalSpot_walks henv (i + 1) arg harg).bind
        fun w₁ spot hw₁ hspot => ?_
      have henv₁ := henv.toIn.mono hw₁
      exact updating_walks hat.not_held (readSpot_walks henv₁ hspot)
        fun x => writeSpot_walks henv₁ hspot trivial
  | .binary op left right, hat => by
      rw [eval]
      obtain ⟨hleft, hright, -⟩ := hat.children
      refine evaluating_walks fun _ => (eval_walks henv _ left hleft).bind fun w₁ l hw₁ _ => ?_
      exact (eval_walks (henv.mono hw₁) _ right hright).bind fun _ _ _ hr =>
        Walks.lift (Machine.binary_upright henv.invoke op l hr)
  | .logical op left right, hat => by
      rw [eval]
      obtain ⟨hleft, hright, -⟩ := hat.children
      refine evaluating_walks fun entry => ?_
      dsimp only
      split
      · exact eval_walks henv _ right hright
      · refine (eval_walks henv _ left hleft).bind fun w₁ l hw₁ hl => ?_
        split
        · exact value hl
        · exact eval_walks (henv.mono hw₁) _ right hright
  | .assign op target val, hat => by
      rw [eval]
      obtain ⟨htarget, hval, -⟩ := hat.children
      refine evaluating_walks fun _ => (evalSpot_walks henv (i + 1) target htarget).bind
        fun w₁ spot hw₁ hspot => ?_
      have henv₁ := henv.mono hw₁
      exact assigning_walks henv₁.toIn (readSpot_walks henv₁.toIn hspot) (eval_walks henv₁ _ val hval)
        fun w₂ v hw₂ hv => writeSpot_walks (henv₁.toIn.mono hw₂) (hspot.mono hw₂) hv
  | .conditional test cons alt, hat => by
      rw [eval]
      obtain ⟨htest, hcons, halt, -⟩ := hat.children
      refine evaluating_walks fun entry => ?_
      dsimp only
      split
      · exact eval_walks henv _ cons hcons
      · split
        · exact eval_walks henv _ alt halt
        · refine (eval_walks henv _ test htest).bind fun w₁ v hw₁ _ => ?_
          split
          · exact eval_walks (henv.mono hw₁) _ cons hcons
          · exact eval_walks (henv.mono hw₁) _ alt halt
  | .call callee args, hat => by
      rw [eval]
      obtain ⟨hcallee, hargs⟩ := hat.children
      refine evaluating_walks fun _ => (calleeOf_walks henv.toIn
        (evalSpot_walks henv (i + 1) callee hcallee) (eval_walks henv (i + 1) callee hcallee)).bind
          fun w₁ f hw₁ hf => ?_
      refine (evalList_walks (henv.mono hw₁) _ args hargs).bind fun w₂ values hw₂ hvalues => ?_
      exact callAt_walks (henv.toIn.mono (le_trans hw₁ hw₂)) hat.not_held _ (hf.1.mono hw₂)
        (hf.2.mono hw₂) hvalues
  | .construct callee args, hat => by
      rw [eval]
      obtain ⟨hcallee, hargs⟩ := hat.children
      refine evaluating_walks fun _ => (eval_walks henv _ callee hcallee).bind fun w₁ f hw₁ hf => ?_
      refine (evalList_walks (henv.mono hw₁) _ args hargs).bind fun w₂ values hw₂ hvalues => ?_
      exact constructAt_walks (henv.toIn.mono (le_trans hw₁ hw₂)) hat.not_held _ (hf.mono hw₂) hvalues
  | .member object property, hat => by
      rw [eval]
      obtain ⟨hobject, -⟩ := hat.children
      exact evaluating_walks fun _ => (eval_walks henv _ object hobject).bind fun _ _ _ ho =>
        Walks.lift (Machine.getProperty_upright henv.invoke ho property)
  | .index object key, hat => by
      rw [eval]
      obtain ⟨hobject, hkey, -⟩ := hat.children
      refine evaluating_walks fun _ => (eval_walks henv _ object hobject).bind fun w₁ o hw₁ ho => ?_
      refine (eval_walks (henv.mono hw₁) _ key hkey).bind fun w₂ v hw₂ _ => ?_
      refine (Walks.lift (Machine.text_upright v)).bind fun w₃ k hw₃ _ => ?_
      exact Walks.lift (Machine.getProperty_upright henv.invoke (ho.mono (le_trans hw₂ hw₃)) k)
  | .sequence exprs, hat => by
      rw [eval]
      exact evaluating_walks fun _ => evalSequence_walks henv (i + 1) exprs hat.children trivial
termination_by structural e => e

theorem evalList_walks {w : Realm} (henv : env.For t w) (i : Nat) :
    ∀ l : List Expr, t.Along (F.Frees t) i (l.map .expr) →
      Walks S F F w (evalList env t i l) Values.In
  | [], _ => pure fun _ _ => List.forall_mem_nil _
  | e :: rest, hat => by
      rw [evalList]
      refine (eval_walks henv i e hat.1).bind fun w₁ v hw₁ hv => ?_
      refine (evalList_walks (henv.mono hw₁) (t.after i) rest hat.2).bind fun w₂ values hw₂ hvalues => ?_
      exact pure fun _ hw => List.forall_mem_cons.2 ⟨hv.mono (le_trans hw₂ hw), hvalues.mono hw⟩
termination_by structural l => l

theorem evalSequence_walks {w : Realm} (henv : env.For t w) (i : Nat) :
    ∀ l : List Expr, t.Along (F.Frees t) i (l.map .expr) → ∀ {v : Value}, v.In w →
      Walks S F F w (evalSequence env t v i l) Value.In
  | [], _, _, hv => value hv
  | e :: rest, hat, _, _ => by
      rw [evalSequence]
      exact (eval_walks henv i e hat.1).bind fun w₁ v hw₁ hv =>
        evalSequence_walks (henv.mono hw₁) (t.after i) rest hat.2 hv
termination_by structural l => l

theorem evalProps_walks {w : Realm} (henv : env.For t w) (a : Address) (i : Nat) :
    ∀ l : List Property, t.Along (F.Frees t) i (l.map .property) →
      Walks S F F w (evalProps env t a i l) Any
  | [], _ => done
  | p :: rest, hat => by
      rw [evalProps]
      exact (evalProp_walks henv a i p hat.1).bind fun w₁ _ hw₁ _ =>
        evalProps_walks (henv.mono hw₁) a (t.after i) rest hat.2
termination_by structural l => l

theorem evalProp_walks {w : Realm} (henv : env.For t w) (a : Address) (i : Nat) :
    ∀ p : Property, F.Frees t i (.property p) → Walks S F F w (evalProp env t a i p) Any
  | ⟨key, kind, val⟩, hat => by
      rw [evalProp]
      obtain ⟨hval, -⟩ := hat.children
      exact (eval_walks henv (i + 1) val hval).bind fun _ _ _ hv =>
        Walks.lift (define_upright a key hv kind)
termination_by structural p => p

theorem evalSpot_walks {w : Realm} (henv : env.For t w) (i : Nat) :
    ∀ e : Expr, F.Frees t i (.expr e) → Walks S F F w (evalSpot env t i e) Spot.In
  | .ident _, _ => pure fun _ _ => trivial
  | .member object property, hat => by
      rw [evalSpot]
      obtain ⟨hobject, -⟩ := hat.children
      exact (eval_walks henv (i + 1) object hobject).bind fun _ _ _ ho =>
        pure fun _ hw => ho.mono hw
  | .index object key, hat => by
      rw [evalSpot]
      obtain ⟨hobject, hkey, -⟩ := hat.children
      refine (eval_walks henv _ object hobject).bind fun w₁ o hw₁ ho => ?_
      refine (eval_walks (henv.mono hw₁) _ key hkey).bind fun w₂ v hw₂ _ => ?_
      refine (Walks.lift (Machine.text_upright v)).bind fun w₃ k hw₃ _ => ?_
      exact pure fun _ hw => ho.mono (le_trans hw₂ (le_trans hw₃ hw))
  | .num _, _ | .str _, _ | .bool _, _ | .null, _ | .this, _ | .array _, _ | .object _, _
  | .function _, _ | .unary _ _, _ | .update _ _ _, _ | .binary _ _ _, _ | .logical _ _ _, _
  | .assign _ _ _, _ | .conditional _ _ _, _ | .call _ _, _ | .construct _ _, _ | .sequence _, _ =>
      Walks.lift (Machine.fail_upright _ _)
termination_by structural e => e

end

/-! ## Statements -/

theorem shouldHalt_upright (moment : Moment) : Upright w (Machine.shouldHalt moment) Any := by
  refine Upright.get.next fun m => ?_
  split
  · split
    · exact Upright.next (Machine.modify_aside (by exact fun _ => rfl) (by exact fun _ => rfl)
        (by exact fun _ => rfl)) fun _ => .done
    · exact .done
  · exact .done

theorem haltCheck_walks {s : Stmt} (hS : env.records = S.records) (hat : F.Frees t i (.stmt s))
    (hcovers : S.Covers F (t.ways i s)) : Walks S F F w (haltCheck env t i s) Any := by
  unfold haltCheck
  split
  · rename_i hrecords
    refine (Walks.lift (shouldHalt_upright _)).next fun halt => ?_
    split
    · refine (markPending_walks hat.not_held).next fun _ => ?_
      refine pausing_walks (fun m hm _ => .inr ⟨m.paused, rfl, ?_⟩)
        (hS.symm.trans (Bool.and_eq_true_iff.1 hrecords).1) hcovers fun _ => .here
      exact ⟨⟨hm.heap, hm.built, hm.methods⟩, le_rfl⟩
    · exact done
  · exact done

theorem executing_walks {s : Stmt} {body : Option Nat → ActM Flow} (hS : env.records = S.records)
    (hat : F.Frees t i (.stmt s)) (hcovers : S.Covers F (t.ways i s))
    (hbody : ∀ entry, Walks S F F w (body entry) Flow.In) :
    Walks S F F w (executing env t i s body) Flow.In := by
  refine (resumeState_walks t i).next fun state => ?_
  split
  · exact Walks.normal
  · split
    · exact Walks.normal
    · exact hbody _
  · exact hbody _
  · exact (haltCheck_walks hS hat hcovers).next fun _ => hbody _

theorem declare_walks (henv : env.For t w) {d : Declarator} (hat : F.Frees t i (.declarator d)) :
    Walks S F F w (declare env t i d) Any := by
  obtain ⟨name, init⟩ := d
  cases init with
  | none => exact done
  | some init =>
      obtain ⟨hinit, -⟩ := hat.children
      refine (resumeState_walks t i).next fun state => ?_
      split
      · exact done
      · refine (eval_walks henv _ init hinit).bind fun w₁ v hw₁ hv => ?_
        refine (assignName_walks (henv.toIn.mono hw₁) name hv).bind fun w₂ _ hw₂ _ => ?_
        exact (record_walks (hv.mono hw₂)).next fun _ => mark_walks env i

theorem declareAll_walks (henv : env.For t w) {decls : List Declarator}
    (hat : t.Along (F.Frees t) i (decls.map .declarator)) :
    Walks S F F w (declareAll env t i decls) Any := by
  induction decls generalizing i w with
  | nil => exact done
  | cons d rest ih =>
      exact (declare_walks henv hat.1).bind fun _ _ hw₁ _ => ih (henv.mono hw₁) hat.2

theorem enterLoop_walks (henv : env.For t w) {init : ForInit}
    (hat : t.Along (F.Frees t) i init.nodes) : Walks S F F w (enterLoop env t i init) Any := by
  cases init with
  | absent => exact done
  | vars decls => exact declareAll_walks henv hat
  | expr e => exact (eval_walks henv i e hat.1).next fun _ => done

theorem testLoop_walks (henv : env.For t w) {e : Option Expr}
    (hat : t.Along (F.Frees t) i (Node.ofExpr? e)) : Walks S F F w (testLoop env t i e) Any := by
  cases e with
  | none => exact done
  | some e => exact (eval_walks henv i e hat.1).next fun _ => done

theorem evalOptional_walks (henv : env.For t w) {e : Option Expr}
    (hat : t.Along (F.Frees t) i (Node.ofExpr? e)) :
    Walks S F F w (evalOptional env t i e) Value.In := by
  cases e with
  | none => exact value trivial
  | some e => exact eval_walks henv i e hat.1

theorem assignKey_walks (henv : env.For t w) {left : ForTarget}
    (hat : ∀ e, left = .expr e → F.Frees t i (.expr e)) {key : Value} (hkey : key.In w) :
    Walks S F F w (assignKey env t i left key) Any := by
  cases left with
  | var name => exact assignName_walks henv.toIn name hkey
  | expr e =>
      exact (evalSpot_walks henv i e (hat e rfl)).bind fun w₁ spot hw₁ hspot =>
        writeSpot_walks (henv.toIn.mono hw₁) hspot (hkey.mono hw₁)

theorem testCase_walks (henv : env.For t w) (v : Value) (asked : Bool) {test : Option Expr}
    (hat : t.Along (F.Frees t) i (Node.ofExpr? test)) :
    Walks S F F w (testCase env t v asked i test) Any := by
  cases test with
  | none => exact done
  | some test =>
      unfold testCase
      dsimp only
      split
      · exact (eval_walks henv i test hat.1).next fun _ => done
      · exact done

theorem matching?_walks (henv : env.For t w) (v : Value) (start k : Nat) {cases : List Case}
    (hat : t.Along (F.Frees t) i (cases.map .case)) :
    Walks S F F w (matching? env t v start k i cases) Any := by
  induction cases generalizing k i w with
  | nil => exact done
  | cons c rest ih =>
      obtain ⟨test, body⟩ := c
      have htest := (IndexedTree.along_case hat.1.children rfl).1
      refine (testCase_walks henv v _ htest).bind fun _ hit hw₁ _ => ?_
      split
      · exact done
      · exact ih (henv.mono hw₁) (k + 1) hat.2

theorem startingCase?_walks (henv : env.For t w) (entry : Option Nat) (v : Value) {cases : List Case}
    (hat : t.Along (F.Frees t) i (cases.map .case)) :
    Walks S F F w (startingCase? env t entry v i cases) Any := by
  unfold startingCase?
  dsimp only
  split
  · exact done
  · exact (matching?_walks henv _ _ _ hat).next fun _ => done

theorem switchValue_walks {resumed : Bool} {discriminant : ActM Value}
    (h : Walks S F F w discriminant Value.In) :
    Walks S F F w (switchValue env i resumed discriminant) Value.In := by
  unfold switchValue
  split
  · exact (cached?_walks i).bind fun _ v _ hv => pure fun _ hw => (Machine.getD_in hv).mono hw
  · exact discriminating_walks h

/-- If the queue of keys is there it is held from now on. -/
theorem storedKeys?_bind {β : Type} {entry : Option Nat} {bodyAt : Nat} {f : Option Value → ActM β}
    {R : Realm → β → Prop} (hnone : Walks S F F' w (f none) R)
    (hsome : ∀ w' keys, w ≤ w' → keys.In w' → Walks S (F.holding i) F' w' (f (some keys)) R) :
    Walks S F F' w (storedKeys? t entry i bodyAt >>= f) R := by
  unfold storedKeys?
  split
  · intro act m hs hc
    change Reaches S F F' m.realm R (f (act.cache.get? i) (act, m))
    cases hkeys : act.cache.get? i with
    | none => exact hnone act m hs hc
    | some keys =>
        refine (hsome m.realm keys hs.grown (hs.activation.cache.get? hkeys) act m
          ⟨hs.machine, le_rfl, hs.activation, fun hrecords k hk => ?_⟩ hc).of_held
            fun k hk _ => .inr hk
        rcases hk with rfl | hk
        · rw [Cache.contains, hkeys]
          rfl
        · exact hs.holds hrecords k hk
  · exact hnone

theorem ofParts?_in {word : String} {v : Value} {c : Completion} (hv : v.In w)
    (hc : Completion.ofParts? word v = some c) : c.parts.2.In w := by
  unfold Completion.ofParts? at hc
  split at hc <;> cases hc <;> first | exact hv | trivial

theorem decode?_in {h : Heap} {rs : Array Registry} (hsound : h.Sound rs) {v : Value} {c : Completion}
    (hc : Completion.decode? h v = some c) : c.parts.2.In (h.realm rs) := by
  rw [Completion.decode?] at hc
  split at hc
  · rename_i items hitems
    split at hc
    · rename_i word u hparts
      refine ofParts?_in ((hsound.elements? hitems).toList u ?_) hc
      rw [hparts]
      exact List.mem_cons_of_mem _ List.mem_cons_self
    · cases hc
  · cases hc

theorem storedCompletion?_walks (i : Nat) :
    Walks S F F w (storedCompletion? i) (fun w' c => ∀ c', c = some c' → c'.parts.2.In w') := by
  refine (cached?_walks i).next fun waiting => ?_
  refine (Walks.lift Machine.heapM_upright).bind fun w₁ heap hw₁ hheap => pure fun w₂ hw₂ c hc => ?_
  obtain ⟨rs, hsound, rfl⟩ := hheap
  obtain ⟨v, -, hc⟩ := Option.bind_eq_some_iff.1 hc
  exact (decode?_in hsound hc).mono hw₂

theorem toResult_walks {c : Completion} (hc : c.parts.2.In w) :
    Walks S F F w (proceed c.toResult) Flow.In := by
  cases c with
  | throwing v => exact Walks.throw (Unwind.in_error hc)
  | ret v => exact Walks.ret hc
  | normal => exact Walks.normal
  | brk => exact Walks.brk
  | cont => exact Walks.cont

mutual

theorem exec_walks {w : Realm} {S : Stage} {F : Footing} (hS : env.records = S.records)
    (henv : env.For t w) (i : Nat) :
    ∀ s : Stmt, F.Frees t i (.stmt s) → S.Covers F (t.ways i s) →
      Walks S F F w (exec env t i s) Flow.In
  | .var decls, hat, hcovers => by
      rw [exec]
      exact executing_walks hS hat hcovers fun _ => (declareAll_walks henv hat.children).next
        fun _ => Walks.normal
  | .function f, hat, hcovers =>
      executing_walks hS hat hcovers fun _ => Walks.normal
  | .empty, hat, hcovers =>
      executing_walks hS hat hcovers fun _ => Walks.normal
  | .expr e, hat, hcovers => by
      rw [exec]
      obtain ⟨he, -⟩ := hat.children
      exact executing_walks hS hat hcovers fun _ => (eval_walks henv _ e he).next
        fun _ => Walks.normal
  | .block body, hat, hcovers => by
      rw [exec]
      exact executing_walks hS hat hcovers fun _ => execList_walks hS henv _ body hat.children
        (hcovers.imp fun _ _ _ _ h => .block h)
  | .branch test cons alt, hat, hcovers => by
      rw [exec]
      obtain ⟨htest, hcons, halt⟩ := hat.children
      refine executing_walks hS hat hcovers fun entry => ?_
      dsimp only
      have hthen : ∀ {w' : Realm}, w ≤ w' →
          Walks S F F w' (exec env t (t.after (i + 1)) cons) Flow.In := fun hw =>
        exec_walks hS (henv.mono hw) _ cons hcons (hcovers.imp fun _ _ _ _ h => .cons h)
      have helse : ∀ {w' : Realm}, w ≤ w' →
          Walks S F F w' (execOptional env t (t.after (t.after (i + 1))) alt) Flow.In := fun hw =>
        execOptional_walks hS (henv.mono hw) _ alt halt fun s hs =>
          hcovers.imp fun _ _ _ _ h => hs ▸ .alt h
      split
      · exact hthen le_rfl
      · split
        · exact helse le_rfl
        · refine (eval_walks henv _ test htest).bind fun w₁ v hw₁ _ => ?_
          split
          · exact hthen hw₁
          · exact helse hw₁
  | .forLoop init test update body, hat, hcovers => by
      rw [exec]
      refine executing_walks hS hat hcovers fun entry => ?_
      dsimp only
      obtain ⟨hinit, htest, hupdate, hbody⟩ := IndexedTree.along_forLoop hat.children rfl rfl rfl
      have hbodyWalks : ∀ {w' : Realm}, w ≤ w' → Walks S F F w' (exec env t _ body) Flow.In :=
        fun hw => exec_walks hS (henv.mono hw) _ body hbody
          (hcovers.imp fun _ _ _ _ h => .forBody rfl rfl rfl h)
      have hturn : ∀ {w' : Realm}, w ≤ w' → Walks S F F w' (forTurn (testLoop env t _ test)
          (exec env t _ body) (evalOptional env t _ update)) (Stopped Flow.In) := fun hw =>
        forTurn_walks (testLoop_walks (henv.mono hw) htest) (hbodyWalks hw)
          (evalOptional_walks (henv.mono hw) hupdate)
      have hupdateTurn := updateTurn_walks (evalOptional_walks (S := S) henv hupdate)
      split
      · exact (enterLoop_walks henv hinit).bind fun w₁ _ hw₁ _ =>
          turning_walks lasting_flow (hturn hw₁) (hturn hw₁) _
      · exact turning_walks lasting_flow (hturn le_rfl) (hturn le_rfl) _
      · exact turning_walks lasting_flow (bodyThen_walks (hbodyWalks le_rfl) hupdateTurn)
          (hturn le_rfl) _
      · exact turning_walks lasting_flow hupdateTurn (hturn le_rfl) _
  | .forIn left right body, hat, hcovers => by
      rw [exec]
      refine executing_walks hS hat hcovers fun entry => ?_
      dsimp only
      generalize hj : (if left.isExpr then t.after (i + 1) else i + 1) = j
      obtain ⟨hleft, hright, hbody⟩ := IndexedTree.along_forIn hat.children hj.symm
      have hnot : ¬ F.held j := hright.not_held
      have hleft' : ∀ e, left = .expr e → (F.holding j).Frees t (i + 1) (.expr e) := fun e he =>
        (hleft e he).holding (.inr (by rw [← hj, he]; exact Nat.le_refl _))
      have hbodyWalks : ∀ {w' : Realm}, w ≤ w' → Walks S (F.holding j) (F.holding j) w'
          (exec env t (t.after j) body) Flow.In := fun hw =>
        exec_walks hS (henv.mono hw) _ body (hbody.holding (.inl (t.lt_after j)))
          (covers_forIn hcovers hj.symm)
      have hturn : ∀ {w' : Realm} (keys : Value), w ≤ w' → Walks S (F.holding j) (F.holding j) w'
          (keyTurn keys (assignKey env t (i + 1) left) (exec env t (t.after j) body))
          (Stopped Flow.In) := fun keys hw =>
        keyTurn_walks keys (fun w₁ key hw₁ hkey =>
          assignKey_walks (henv.mono (le_trans hw hw₁)) hleft' hkey) (hbodyWalks hw)
      refine storedKeys?_bind ?_ fun w₁ keys hw₁ hkeys => ?_
      · refine (keyQueue_walks hS (eval_walks henv _ right hright)).bindTo (fun _ h _ => .inr h)
          fun w₁ keys hw₁ hkeys => ?_
        exact (turning_walks lasting_flow (hturn keys hw₁) (hturn keys hw₁) _).bind
          fun w₂ flow _ hflow => leaveKeys_walks hnot hflow
      · exact (turning_walks lasting_flow (keyBody_walks keys (hbodyWalks hw₁)) (hturn keys hw₁) _).bind
          fun w₂ flow _ hflow => leaveKeys_walks hnot hflow
  | .whileLoop test body, hat, hcovers => by
      rw [exec]
      obtain ⟨htest, hbody, -⟩ := hat.children
      refine executing_walks hS hat hcovers fun entry => ?_
      dsimp only
      have hbodyWalks := exec_walks hS henv _ body hbody (hcovers.imp fun _ _ _ _ h => .whileBody h)
      have hturn := whileTurn_walks (eval_walks henv _ test htest) hbodyWalks
      refine turning_walks lasting_flow ?_ hturn _
      split
      · exact bodyThen_walks hbodyWalks endTurn_walks
      · exact hturn
  | .doLoop body test, hat, hcovers => by
      rw [exec]
      obtain ⟨hbody, htest, -⟩ := hat.children
      refine executing_walks hS hat hcovers fun entry => ?_
      dsimp only
      have hturn := doTurn_walks
        (exec_walks hS henv _ body hbody (hcovers.imp fun _ _ _ _ h => .doBody h))
        (eval_walks henv _ test htest)
      refine turning_walks lasting_flow ?_ hturn _
      split
      · exact testTurn_walks (eval_walks henv _ test htest)
      · exact hturn
  | .ret val, hat, hcovers => by
      rw [exec]
      exact executing_walks hS hat hcovers fun _ => (evalOptional_walks henv hat.children).bind
        fun w₁ v _ hv => Walks.ret hv
  | .brk none, hat, hcovers =>
      executing_walks hS hat hcovers fun _ => Walks.brk
  | .cont none, hat, hcovers =>
      executing_walks hS hat hcovers fun _ => Walks.cont
  | .brk (some _), hat, hcovers =>
      executing_walks hS hat hcovers fun _ => Walks.lift (Machine.fail_upright _ _)
  | .cont (some _), hat, hcovers =>
      executing_walks hS hat hcovers fun _ => Walks.lift (Machine.fail_upright _ _)
  | .labeled _ _, hat, hcovers =>
      executing_walks hS hat hcovers fun _ => Walks.lift (Machine.fail_upright _ _)
  | .throwing val, hat, hcovers => by
      rw [exec]
      obtain ⟨hval, -⟩ := hat.children
      exact executing_walks hS hat hcovers fun _ => (eval_walks henv _ val hval).bind
        fun w₁ v _ hv => Walks.lift (Machine.throwValue_upright hv)
  | .attempt block handler finalizer, hat, hcovers => by
      rw [exec]
      refine executing_walks hS hat hcovers fun entry => ?_
      dsimp only
      generalize hk : (if handler.isSome then t.after (t.afterMany block.length (i + 1))
        else t.afterMany block.length (i + 1)) = k
      obtain ⟨hblock, hhandler, hfinally⟩ := IndexedTree.along_attempt hat.children rfl hk.symm
      have hfinallyWalks : ∀ {w' : Realm}, w ≤ w' →
          Walks S F F w' (execFinally env t k finalizer) Flow.In := fun hw =>
        execFinally_walks hS (henv.mono hw) k finalizer hfinally fun body hbody =>
          hcovers.imp fun _ _ _ _ h => hbody ▸ .finalizer hk.symm h
      have hhandlerCovers : ∀ h, handler = some h → ∀ link, (S.enter link).Covers (F.enter link)
          (t.waysOfList (t.afterMany block.length (i + 1) + 1) h.body) := fun h hh link =>
        covers_handler (hh ▸ hcovers)
      split
      · refine (storedCompletion?_walks i).bind fun w₁ waiting hw₁ hwaiting => ?_
        refine finallyThen_walks hat.not_held (hfinallyWalks hw₁) ?_
        split
        · exact toResult_walks (hwaiting _ rfl)
        · exact Walks.normal
      · refine chain_walks.bind fun w₁ saved hw₁ hsaved => ?_
        obtain ⟨rfl, hchain, hanchored⟩ := hsaved
        split
        · have hfresh : Walks S F F w₁ (do return ⟨.handler, ← lift Machine.newRecord⟩) Enters :=
            (Walks.lift Machine.newRecord_upright).bind fun _ _ _ ha =>
              pure fun _ hw => ⟨Nat.lt_of_lt_of_le ha hw.1, fun h => by cases h⟩
          refine (reenter_walks hfresh).bind fun w₂ link hw₂ hlink => ?_
          have hw := le_trans hw₁ hw₂
          refine concluding_walks hat.not_held (caught_returns ?_) (hchain.mono hw₂) hanchored
            fun w₃ hw₃ => hfinallyWalks (le_trans hw hw₃)
          exact inScope_walks (c := F.chain) hlink.1 hlink.2 (hchain.mono hw₂) hanchored
            (execHandlerBody_walks (S := S.enter link) hS (henv.mono hw) _ handler hhandler
              fun h hh => hhandlerCovers h hh link)
        · refine concluding_walks hat.not_held (guarding_returns ?_ fun w₂ u c hw₂ hu _ => ?_) hchain
            hanchored fun w₃ hw₃ => hfinallyWalks (le_trans hw₁ hw₃)
          · exact execList_walks hS (henv.mono hw₁) _ block hblock
              (hcovers.imp fun _ _ _ _ h => .tryBlock h)
          · exact execHandler_walks hS (henv.mono (le_trans hw₁ hw₂)) hu (hchain.mono hw₂) hanchored _
              handler hhandler hhandlerCovers
  | .switch discriminant cases, hat, hcovers => by
      rw [exec]
      obtain ⟨hdiscriminant, hcases⟩ := hat.children
      refine executing_walks hS hat hcovers fun entry => ?_
      refine (switchValue_walks (eval_walks henv _ discriminant hdiscriminant)).bind fun w₁ v hw₁ _ => ?_
      refine (startingCase?_walks (henv.mono hw₁) entry v hcases).bind fun w₂ start hw₂ _ => ?_
      split
      · exact Walks.normal
      · rename_i k _
        refine (execArms_walks hS (henv.mono (le_trans hw₁ hw₂)) k _ cases hcases
          (hcovers.imp fun _ _ _ _ h => .arm h)).bind fun w₃ flow hw₃ hflow => ?_
        exact value_flow (endSwitch_in hflow)
  | .withScope object body, hat, hcovers => by
      rw [exec]
      obtain ⟨hobject, hbody, -⟩ := hat.children
      refine executing_walks hS hat hcovers fun entry => ?_
      have hfresh : Walks S F F w (do
          let v ← eval env t (i + 1) object
          return ⟨.withObject, ← lift (scopeRecord v)⟩) Enters :=
        (eval_walks henv _ object hobject).bind fun _ _ _ hv =>
          (Walks.lift (scopeRecord_upright hv)).bind fun _ _ _ ha =>
            pure fun _ hw => ⟨Nat.lt_of_lt_of_le ha hw.1, fun h => by cases h⟩
      refine (reenter_walks hfresh).bind fun w₁ link hw₁ hlink => ?_
      refine chain_walks.bind fun w₂ saved hw₂ hsaved => ?_
      obtain ⟨rfl, hchain, hanchored⟩ := hsaved
      exact inScope_walks (c := F.chain) (Nat.lt_of_lt_of_le hlink.1 hw₂.1) hlink.2 hchain hanchored
        (exec_walks (S := S.enter link) hS (henv.mono (le_trans hw₁ hw₂)) _ body hbody
          (covers_withScope hcovers))
  | .debugger, hat, hcovers =>
      executing_walks hS hat hcovers fun _ => debugging_walks hS hcovers
        fun _ => .here
termination_by structural s => s

theorem execOptional_walks {w : Realm} {S : Stage} {F : Footing} (hS : env.records = S.records)
    (henv : env.For t w) (i : Nat) :
    ∀ s : Option Stmt, t.Along (F.Frees t) i (s.toList.map .stmt) →
      (∀ s', s = some s' → S.Covers F (t.ways i s')) →
        Walks S F F w (execOptional env t i s) Flow.In
  | none, _, _ => Walks.normal
  | some s, hat, hcovers => exec_walks hS henv i s hat.1 (hcovers s rfl)
termination_by structural s => s

theorem execList_walks {w : Realm} {S : Stage} {F : Footing} (hS : env.records = S.records)
    (henv : env.For t w) (i : Nat) :
    ∀ l : List Stmt, t.Along (F.Frees t) i (Node.ofStmts l) → S.Covers F (t.waysOfList i l) →
      Walks S F F w (execList env t i l) Flow.In
  | [], _, _ => Walks.normal
  | s :: rest, hat, hcovers => by
      rw [execList]
      refine (exec_walks hS henv i s hat.1 (hcovers.imp fun _ _ _ _ h => .head h)).bind
        fun w₁ flow hw₁ hflow => ?_
      split
      · exact execList_walks hS (henv.mono hw₁) (t.after i) rest hat.2
          (hcovers.imp fun _ _ _ _ h => .tail h)
      · exact value_flow hflow
termination_by structural l => l

theorem execFinally_walks {w : Realm} {S : Stage} {F : Footing} (hS : env.records = S.records)
    (henv : env.For t w) (i : Nat) :
    ∀ f : Option (List Stmt), t.Along (F.Frees t) i (Node.ofStmts (f.getD [])) →
      (∀ body, f = some body → S.Covers F (t.waysOfList i body)) →
        Walks S F F w (execFinally env t i f) Flow.In
  | none, _, _ => Walks.normal
  | some body, hat, hcovers => execList_walks hS henv i body hat (hcovers body rfl)
termination_by structural f => f

/-- A handler is found by what was thrown, whatever the chain was by then. -/
theorem execHandler_walks {w : Realm} {S : Stage} {F : Footing} (hS : env.records = S.records)
    (henv : env.For t w) {u : Unwind} (hu : u.In w) (hchain : Chain.In w F.chain)
    (hanchored : F.chain.Anchored) {c : Chain} (i : Nat) :
    ∀ h : Option Handler, t.Along (F.Frees t) i (h.toList.map .handler) →
      (∀ h', h = some h' → ∀ link, (S.enter link).Covers (F.enter link) (t.waysOfList (i + 1) h'.body)) →
        Returns S ⟨c, F.held⟩ F w (execHandler env t F.chain u i h) Flow.In
  | none, _, _ => Walks.throw hu
  | some h, hat, hcovers =>
      caught_returns (execCatch_walks hS henv (Machine.getD_in hu.thrown) hchain hanchored i h hat.1
        (hcovers h rfl))
termination_by structural h => h

theorem execCatch_walks {w : Realm} {S : Stage} {F : Footing} (hS : env.records = S.records)
    (henv : env.For t w) {thrown : Value} (hthrown : thrown.In w) (hchain : Chain.In w F.chain)
    (hanchored : F.chain.Anchored) {c : Chain} (i : Nat) :
    ∀ h : Handler, F.Frees t i (.handler h) →
      (∀ link, (S.enter link).Covers (F.enter link) (t.waysOfList (i + 1) h.body)) →
        Walks S ⟨c, F.held⟩ F w (execCatch env t F.chain thrown i h) Flow.In
  | ⟨_, body⟩, hat, hcovers =>
      catching_walks hthrown hchain hanchored fun _ link hw =>
        execList_walks (S := S.enter link) hS (henv.mono hw) (i + 1) body hat.children (hcovers link)
termination_by structural h => h

theorem execHandlerBody_walks {w : Realm} {S : Stage} {F : Footing} (hS : env.records = S.records)
    (henv : env.For t w) (i : Nat) :
    ∀ h : Option Handler, t.Along (F.Frees t) i (h.toList.map .handler) →
      (∀ h', h = some h' → S.Covers F (t.waysOfList (i + 1) h'.body)) →
        Walks S F F w (execHandlerBody env t (i + 1) h) Flow.In
  | none, _, _ => Walks.normal
  | some h, hat, hcovers => execReentered_walks hS henv i h hat.1 (hcovers h rfl)
termination_by structural h => h

theorem execReentered_walks {w : Realm} {S : Stage} {F : Footing} (hS : env.records = S.records)
    (henv : env.For t w) (i : Nat) :
    ∀ h : Handler, F.Frees t i (.handler h) → S.Covers F (t.waysOfList (i + 1) h.body) →
      Walks S F F w (execReentered env t (i + 1) h) Flow.In
  | ⟨_, body⟩, hat, hcovers => execList_walks hS henv (i + 1) body hat.children hcovers
termination_by structural h => h

theorem execArms_walks {w : Realm} {S : Stage} {F : Footing} (hS : env.records = S.records)
    (henv : env.For t w) (k i : Nat) :
    ∀ l : List Case, t.Along (F.Frees t) i (l.map .case) → S.Covers F (t.waysOfCases i l) →
      Walks S F F w (execArms env t k i l) Flow.In
  | [], _, _ => by cases k <;> exact Walks.normal
  | c :: rest, hat, hcovers => by
      have hrest : ∀ {w' : Realm} (k : Nat), w ≤ w' →
          Walks S F F w' (execArms env t k (t.after i) rest) Flow.In := fun k hw =>
        execArms_walks hS (henv.mono hw) k (t.after i) rest hat.2
          (hcovers.imp fun _ _ _ _ h => .tail h)
      cases k with
      | zero =>
          rw [execArms]
          refine (execArm_walks hS henv i c hat.1 hcovers).bind fun w₁ flow hw₁ hflow => ?_
          split
          · exact hrest 0 hw₁
          · exact value_flow hflow
      | succ k => exact hrest k le_rfl
termination_by structural l => l

theorem execArm_walks {w : Realm} {S : Stage} {F : Footing} (hS : env.records = S.records)
    (henv : env.For t w) (i : Nat) {rest : List Case} :
    ∀ c : Case, F.Frees t i (.case c) → S.Covers F (t.waysOfCases i (c :: rest)) →
      Walks S F F w (execArm env t i c) Flow.In
  | ⟨test, body⟩, hat, hcovers => by
      have hbody := (IndexedTree.along_case hat.children rfl).2
      exact execList_walks hS henv _ body hbody (hcovers.imp fun _ _ _ _ h => .head h)
termination_by structural c => c

end

/-! ## Calls -/

theorem hoist_walks (henv : env.For t w) (a : Address) (name : String) (i : Nat) :
    Walks S F F w (hoist env t a name i) Any := by
  unfold hoist
  split
  · rename_i f hf
    have howns : t.owns i = true := by
      rw [IndexedTree.func?, IndexedTree.node?] at hf
      by_contra h
      rw [if_neg h] at hf
      cases hf
    exact (recorded_walks (makeClosure_walks henv howns f)).bind fun _ _ _ hv =>
      Walks.lift (Machine.setOwn_upright a name hv)
  · exact done

theorem instantiate_walks (henv : env.For t w) (a : Address) (l : List (String × Nat)) :
    Walks S F F w (instantiate env t a l) Any := by
  induction l generalizing w with
  | nil => exact done
  | cons d rest ih => exact (hoist_walks henv a d.1 d.2).bind fun _ _ hw _ => ih (henv.mono hw)

theorem call_upright {invoke : Invoke} (hinvoke : invoke.Upright) (fuel : Nat)
    {closure : SteppedClosure} (hclosure : (Callable.stepped closure).In w) {callee this : Value}
    {args : List Value} (hcallee : callee.In w) (hthis : this.In w) (hargs : Values.In w args) :
    Upright w (call invoke fuel closure callee this args) Value.In := by
  obtain ⟨⟩ | ⟨⟩ | ⟨hchain, hkept, htree⟩ := hclosure
  rename_i r
  have ht : closure.tree ∈ r.trees := (List.mem_filter.1 (hkept.built.tree_eq_ok_iff.1 htree).1).1
  unfold call
  dsimp only
  split
  · exact Machine.fail_upright _ _
  · rename_i f hf
    obtain ⟨howns, hbody⟩ := hkept.built.at_body ht hf
    have hself : ∀ p, (selfName? closure.tree closure.index f
        (closure.tree.declarationsOf f closure.index)).map (fun name => (name, callee)) = some p →
          p.2.In w := fun p hp => by
      obtain ⟨name, -, rfl⟩ := Option.map_eq_some_iff.1 hp
      exact hcallee
    have ho := entryRecord_record hargs f.params
      (closure.tree.declarationsOf f closure.index).vars hself
    refine (Machine.alloc_upright ho.toIn ho.older).bind fun w₁ a hw₁ ha => ?_
    have henv : ∀ {w₂ : Realm}, w₁ ≤ w₂ → Env.For closure.tree w₂
        { invoke, fuel, this, args, ns := closure.tree.ns, index := closure.index
          registry := closure.registry, records := closure.mode == .recording } := fun hw =>
      ⟨⟨hinvoke, hthis.mono (le_trans hw₁ hw), hargs.mono (le_trans hw₁ hw)⟩, r,
        hkept.mono (le_trans hw₁ hw), ht⟩
    refine runActivation_upright (t := closure.tree) (f := f) (henv le_rfl) rfl howns hf hbody
      (.new ha (hchain.mono hw₁) _ _) rfl ?_
    refine (instantiate_walks (henv le_rfl) a _).bind fun w₂ _ hw₂ _ => ?_
    exact execList_walks rfl (henv hw₂) _ f.body (Footing.start_along hbody) (Stage.covers_body _ _ _ _)

end Stepper

end Resumption
