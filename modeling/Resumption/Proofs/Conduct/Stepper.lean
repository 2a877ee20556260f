import Resumption.Proofs.Conduct.Construct

/-!
# Walks over source trees obey

A walk obeys whether it is on its own or on its way back to a position: getting back only reads the
books and takes links.
-/

namespace Resumption.Stepper

open Conduct ActM Script

variable {P : Policy} {env : Env} {t : IndexedTree}

theorem resumeState_obeyed (t : IndexedTree) (i : Nat) :
    P.activation.Obeyed (resumeState t i) := by
  refine .bind activation_obeyed fun act => ?_
  split
  · exact .pure _
  · split
    · exact .bind clearPc_obeyed fun _ => .bind (cached?_obeyed i) fun _ => .pure _
    · split
      · exact .pure _
      · split
        · exact .bind clearPc_obeyed fun _ => .pure _
        · exact .bind (cached?_obeyed i) fun _ => .pure _

theorem popPending_obeyed : P.activation.Obeyed popPending := by
  refine .bind activation_obeyed fun act => ?_
  split
  · exact .pure _
  · exact .bind (update_obeyed fun _ => rfl) fun _ => .pure _

theorem recordOf?_obeyed (name : String) : P.activation.Obeyed (recordOf? name) :=
  .bind chain_obeyed fun _ => P.lift (Machine.ask_obeyed _)

theorem lookup_obeyed (hinvoke : env.invoke.Obeys P) (name : String) :
    P.activation.Obeyed (lookup env name) := by
  refine .bind (recordOf?_obeyed name) fun found => ?_
  split
  · exact P.lift (Machine.getProperty_obeyed hinvoke _ _)
  · split
    · exact argumentsObject_obeyed env
    · exact P.lift (Machine.readGlobal_obeyed hinvoke name)

theorem resolvable_obeyed (name : String) : P.activation.Obeyed (resolvable name) := by
  refine .bind (recordOf?_obeyed name) fun found => ?_
  split
  · exact .pure _
  · exact P.lift (Machine.ask_obeyed _)

theorem unresolved_obeyed (op : UnaryOp) (arg : Expr) :
    P.activation.Obeyed (unresolved op arg) := by
  unfold unresolved
  split
  · exact .bind (resolvable_obeyed _) fun _ => .pure _
  · exact .pure _

theorem assignName_obeyed (hinvoke : env.invoke.Obeys P) (name : String) (v : Value) :
    P.activation.Obeyed (assignName env name v) := by
  refine .bind (recordOf?_obeyed name) fun found => ?_
  split
  · exact P.lift (Machine.putProperty_obeyed hinvoke _ _ _)
  · exact P.lift (Machine.putProperty_obeyed hinvoke _ _ _)

theorem makeClosure_obeyed (env : Env) (t : IndexedTree) (i : Nat) (f : Func) :
    P.activation.Obeyed (makeClosure env t i f) :=
  .bind chain_obeyed fun _ => P.lift (Machine.newFunction_obeyed _)

theorem readSpot_obeyed (hinvoke : env.invoke.Obeys P) (spot : Spot) :
    P.activation.Obeyed (readSpot env spot) := by
  cases spot with
  | name name => exact lookup_obeyed hinvoke name
  | member object key => exact P.lift (Machine.getProperty_obeyed hinvoke _ _)

theorem writeSpot_obeyed (hinvoke : env.invoke.Obeys P) (spot : Spot) (v : Value) :
    P.activation.Obeyed (writeSpot env spot v) := by
  cases spot with
  | name name => exact assignName_obeyed hinvoke name v
  | member object key => exact P.lift (Machine.putProperty_obeyed hinvoke _ _ _)

theorem calleeOf_obeyed (hinvoke : env.invoke.Obeys P) {isProperty : Bool} {spot : ActM Spot}
    {value : ActM Value} (hspot : P.activation.Obeyed spot)
    (hvalue : P.activation.Obeyed value) :
    P.activation.Obeyed (calleeOf env isProperty spot value) := by
  unfold calleeOf
  split
  · refine .bind hspot fun spot => ?_
    split
    · exact .bind (P.lift (Machine.getProperty_obeyed hinvoke _ _)) fun _ => .pure _
    · exact P.lift (Machine.typeError_obeyed _)
  · exact functionOf_obeyed hvalue

theorem keepBooks_obeyed (env : Env) (i : Nat) (e : Expr) (v : Value) :
    P.activation.Obeyed (keepBooks env i e v) := by
  unfold keepBooks
  split
  · exact record_obeyed _ _ _
  · exact record_obeyed _ _ _
  · exact .bind (record_obeyed _ _ _) fun _ => mark_obeyed _ _
  · exact .pure _

theorem evaluating_obeyed {i : Nat} {e : Expr} {body : Option Nat → ActM Value}
    (hbody : ∀ entry, P.activation.Obeyed (body entry)) :
    P.activation.Obeyed (evaluating env t i e body) := by
  refine .bind (resumeState_obeyed t i) fun state => ?_
  split
  · exact .pure _
  · exact .bind (hbody _) fun v => .bind (keepBooks_obeyed env i e v) fun _ => .pure _

/-! ## Expressions -/

mutual

theorem eval_obeyed (hinvoke : env.invoke.Obeys P) (i : Nat) :
    ∀ e : Expr, P.activation.Obeyed (eval env t i e)
  | .num _ => evaluating_obeyed fun _ => .pure _
  | .str _ => evaluating_obeyed fun _ => .pure _
  | .bool _ => evaluating_obeyed fun _ => .pure _
  | .null => evaluating_obeyed fun _ => .pure _
  | .ident name => evaluating_obeyed fun _ => lookup_obeyed hinvoke name
  | .this => evaluating_obeyed fun _ => .pure _
  | .array elements => by
      rw [eval]
      exact evaluating_obeyed fun _ => .bind (evalList_obeyed hinvoke (i + 1) elements) fun _ =>
        P.lift (Machine.newArray_obeyed _)
  | .object props => by
      rw [eval]
      exact evaluating_obeyed fun _ => .bind (P.lift (Machine.alloc_obeyed _)) fun a =>
        .bind (evalProps_obeyed hinvoke a (i + 1) props) fun _ => .pure _
  | .function f => evaluating_obeyed fun _ => makeClosure_obeyed env t i f
  | .unary op arg => by
      rw [eval]
      refine evaluating_obeyed fun _ => .bind (unresolved_obeyed op arg) fun missing => ?_
      split
      · exact .pure _
      · split
        · refine .bind (evalSpot_obeyed hinvoke (i + 1) arg) fun spot => ?_
          split
          · exact .bind (P.lift (Machine.deleteProperty_obeyed _ _)) fun _ => .pure _
          · exact .pure _
        · exact .bind (eval_obeyed hinvoke (i + 1) arg) fun _ =>
            P.lift (Machine.convert_obeyed _)
  | .update op before arg => by
      rw [eval]
      refine evaluating_obeyed fun _ => .bind (evalSpot_obeyed hinvoke (i + 1) arg) fun spot => ?_
      exact updating_obeyed (readSpot_obeyed hinvoke spot) (writeSpot_obeyed hinvoke spot)
  | .binary op left right => by
      rw [eval]
      exact evaluating_obeyed fun _ => .bind (eval_obeyed hinvoke _ left) fun _ =>
        .bind (eval_obeyed hinvoke _ right) fun _ => P.lift (Machine.binary_obeyed hinvoke _ _ _)
  | .logical op left right => by
      rw [eval]
      refine evaluating_obeyed fun entry => ?_
      dsimp only
      split
      · exact eval_obeyed hinvoke _ right
      · refine .bind (eval_obeyed hinvoke _ left) fun v => ?_
        split
        · exact .pure _
        · exact eval_obeyed hinvoke _ right
  | .assign op target value => by
      rw [eval]
      refine evaluating_obeyed fun _ => .bind (evalSpot_obeyed hinvoke (i + 1) target) fun spot => ?_
      exact assigning_obeyed hinvoke (readSpot_obeyed hinvoke spot) (eval_obeyed hinvoke _ value)
        (writeSpot_obeyed hinvoke spot)
  | .conditional test cons alt => by
      rw [eval]
      refine evaluating_obeyed fun entry => ?_
      dsimp only
      split
      · exact eval_obeyed hinvoke _ cons
      · split
        · exact eval_obeyed hinvoke _ alt
        · refine .bind (eval_obeyed hinvoke _ test) fun v => ?_
          split
          · exact eval_obeyed hinvoke _ cons
          · exact eval_obeyed hinvoke _ alt
  | .call callee args => by
      rw [eval]
      refine evaluating_obeyed fun _ => .bind (calleeOf_obeyed hinvoke
        (evalSpot_obeyed hinvoke (i + 1) callee) (eval_obeyed hinvoke (i + 1) callee)) fun _ => ?_
      exact .bind (evalList_obeyed hinvoke _ args) fun _ => callAt_obeyed hinvoke _ _ _ _ _
  | .construct callee args => by
      rw [eval]
      exact evaluating_obeyed fun _ => .bind (eval_obeyed hinvoke _ callee) fun _ =>
        .bind (evalList_obeyed hinvoke _ args) fun _ => constructAt_obeyed hinvoke _ _ _ _
  | .member object property => by
      rw [eval]
      exact evaluating_obeyed fun _ => .bind (eval_obeyed hinvoke _ object) fun _ =>
        P.lift (Machine.getProperty_obeyed hinvoke _ _)
  | .index object key => by
      rw [eval]
      exact evaluating_obeyed fun _ => .bind (eval_obeyed hinvoke _ object) fun _ =>
        .bind (eval_obeyed hinvoke _ key) fun _ => .bind (P.lift (Machine.convert_obeyed _)) fun _ =>
          P.lift (Machine.getProperty_obeyed hinvoke _ _)
  | .sequence exprs => by
      rw [eval]
      exact evaluating_obeyed fun _ => evalSequence_obeyed hinvoke .undefined (i + 1) exprs
termination_by structural e => e

theorem evalList_obeyed (hinvoke : env.invoke.Obeys P) (i : Nat) :
    ∀ l : List Expr, P.activation.Obeyed (evalList env t i l)
  | [] => .pure _
  | e :: rest => by
      rw [evalList]
      exact .bind (eval_obeyed hinvoke i e) fun _ =>
        .bind (evalList_obeyed hinvoke (t.after i) rest) fun _ => .pure _
termination_by structural l => l

theorem evalSequence_obeyed (hinvoke : env.invoke.Obeys P) (v : Value) (i : Nat) :
    ∀ l : List Expr, P.activation.Obeyed (evalSequence env t v i l)
  | [] => .pure _
  | e :: rest => by
      rw [evalSequence]
      exact .bind (eval_obeyed hinvoke i e) fun v => evalSequence_obeyed hinvoke v (t.after i) rest
termination_by structural l => l

theorem evalProps_obeyed (hinvoke : env.invoke.Obeys P) (a : Address) (i : Nat) :
    ∀ l : List Property, P.activation.Obeyed (evalProps env t a i l)
  | [] => .pure _
  | p :: rest => by
      rw [evalProps]
      exact .bind (evalProp_obeyed hinvoke a i p) fun _ => evalProps_obeyed hinvoke a (t.after i) rest
termination_by structural l => l

theorem evalProp_obeyed (hinvoke : env.invoke.Obeys P) (a : Address) (i : Nat) :
    ∀ p : Property, P.activation.Obeyed (evalProp env t a i p)
  | ⟨key, kind, value⟩ => by
      rw [evalProp]
      exact .bind (eval_obeyed hinvoke (i + 1) value) fun _ => P.lift (define_obeyed _ _ _ _)
termination_by structural p => p

theorem evalSpot_obeyed (hinvoke : env.invoke.Obeys P) (i : Nat) :
    ∀ e : Expr, P.activation.Obeyed (evalSpot env t i e)
  | .ident _ => .pure _
  | .member object property => by
      rw [evalSpot]
      exact .bind (eval_obeyed hinvoke (i + 1) object) fun _ => .pure _
  | .index object key => by
      rw [evalSpot]
      exact .bind (eval_obeyed hinvoke _ object) fun _ => .bind (eval_obeyed hinvoke _ key) fun _ =>
        .bind (P.lift (Machine.convert_obeyed _)) fun _ => .pure _
  | .num _ | .str _ | .bool _ | .null | .this | .array _ | .object _ | .function _ | .unary _ _
  | .update _ _ _ | .binary _ _ _ | .logical _ _ _ | .assign _ _ _ | .conditional _ _ _
  | .call _ _ | .construct _ _ | .sequence _ => P.lift (Machine.fail_obeyed _ _)
termination_by structural e => e

end

/-! ## Statements -/

theorem haltCheck_obeyed (env : Env) (t : IndexedTree) (i : Nat) (s : Stmt) :
    P.activation.Obeyed (haltCheck env t i s) := by
  unfold haltCheck
  split
  · refine .bind (P.lift (Machine.shouldHalt_obeyed _)) fun halt => ?_
    split
    · exact .bind (markPending_obeyed _ _) fun _ => P.lift (P.pauseAt i)
    · exact .pure _
  · exact .pure _

theorem executing_obeyed {i : Nat} {s : Stmt} {body : Option Nat → ActM Flow}
    (hbody : ∀ entry, P.activation.Obeyed (body entry)) :
    P.activation.Obeyed (executing env t i s body) := by
  refine .bind (resumeState_obeyed t i) fun state => ?_
  split
  · exact .pure _
  · split
    · exact .pure _
    · exact hbody _
  · exact hbody _
  · exact .bind (haltCheck_obeyed env t i s) fun _ => hbody _

theorem declare_obeyed (hinvoke : env.invoke.Obeys P) (i : Nat) (d : Declarator) :
    P.activation.Obeyed (declare env t i d) := by
  unfold declare
  split
  · exact .pure _
  · refine .bind (resumeState_obeyed t i) fun state => ?_
    split
    · exact .pure _
    · refine .bind (eval_obeyed hinvoke _ _) fun v => .bind (assignName_obeyed hinvoke _ v) fun _ => ?_
      exact .bind (record_obeyed _ _ _) fun _ => mark_obeyed _ _

theorem declareAll_obeyed (hinvoke : env.invoke.Obeys P) (i : Nat) (decls : List Declarator) :
    P.activation.Obeyed (declareAll env t i decls) := by
  induction decls generalizing i with
  | nil => exact .pure _
  | cons d rest ih => exact .bind (declare_obeyed hinvoke i d) fun _ => ih (t.after i)

theorem enterLoop_obeyed (hinvoke : env.invoke.Obeys P) (i : Nat) (init : ForInit) :
    P.activation.Obeyed (enterLoop env t i init) := by
  cases init with
  | absent => exact .pure _
  | vars decls => exact declareAll_obeyed hinvoke i decls
  | expr e => exact .bind (eval_obeyed hinvoke i e) fun _ => .pure _

theorem testLoop_obeyed (hinvoke : env.invoke.Obeys P) (i : Nat) (e : Option Expr) :
    P.activation.Obeyed (testLoop env t i e) := by
  cases e with
  | none => exact .pure _
  | some e => exact .bind (eval_obeyed hinvoke i e) fun _ => .pure _

theorem evalOptional_obeyed (hinvoke : env.invoke.Obeys P) (i : Nat) (e : Option Expr) :
    P.activation.Obeyed (evalOptional env t i e) := by
  cases e with
  | none => exact .pure _
  | some e => exact eval_obeyed hinvoke i e

theorem assignKey_obeyed (hinvoke : env.invoke.Obeys P) (i : Nat) (left : ForTarget) (key : Value) :
    P.activation.Obeyed (assignKey env t i left key) := by
  cases left with
  | var name => exact assignName_obeyed hinvoke name key
  | expr e =>
      exact .bind (evalSpot_obeyed hinvoke i e) fun spot => writeSpot_obeyed hinvoke spot key

theorem testCase_obeyed (hinvoke : env.invoke.Obeys P) (v : Value) (asked : Bool) (i : Nat)
    (test : Option Expr) : P.activation.Obeyed (testCase env t v asked i test) := by
  unfold testCase
  split
  · split
    · exact .bind (eval_obeyed hinvoke i _) fun _ => .pure _
    · exact .pure _
  · exact .pure _

theorem matching?_obeyed (hinvoke : env.invoke.Obeys P) (v : Value) (start k i : Nat)
    (cases : List Case) : P.activation.Obeyed (matching? env t v start k i cases) := by
  induction cases generalizing k i with
  | nil => exact .pure _
  | cons c rest ih =>
      refine .bind (testCase_obeyed hinvoke _ _ _ _) fun hit => ?_
      split
      · exact .pure _
      · exact ih (k + 1) (t.after i)

theorem startingCase?_obeyed (hinvoke : env.invoke.Obeys P) (entry : Option Nat) (v : Value) (i : Nat)
    (cases : List Case) : P.activation.Obeyed (startingCase? env t entry v i cases) := by
  unfold startingCase?
  dsimp only
  split
  · exact .pure _
  · exact .bind (matching?_obeyed hinvoke _ _ _ _ _) fun _ => .pure _

theorem switchValue_obeyed {i : Nat} {resumed : Bool} {discriminant : ActM Value}
    (h : P.activation.Obeyed discriminant) :
    P.activation.Obeyed (switchValue env i resumed discriminant) := by
  unfold switchValue
  split
  · exact .bind (cached?_obeyed i) fun _ => .pure _
  · exact discriminating_obeyed h

theorem storedKeys?_obeyed (t : IndexedTree) (entry : Option Nat) (i bodyAt : Nat) :
    P.activation.Obeyed (storedKeys? t entry i bodyAt) := by
  unfold storedKeys?
  split
  · exact cached?_obeyed i
  · exact .pure _

theorem storedCompletion?_obeyed (i : Nat) : P.activation.Obeyed (storedCompletion? i) :=
  .bind (cached?_obeyed i) fun _ => .bind (P.lift Machine.heapM_obeyed) fun _ => .pure _

theorem reenter_obeyed {reentered : Bool} {fresh : ActM Link}
    (hfresh : P.activation.Obeyed fresh) :
    P.activation.Obeyed (reenter reentered fresh) := by
  unfold reenter
  split
  · refine .bind popPending_obeyed fun link => ?_
    split
    · exact .pure _
    · exact hfresh
  · exact hfresh

/-- What was waiting was no pause: a pause does not wait. -/
theorem toResult_obeyed (c : Completion) : P.activation.Obeyed (proceed c.toResult) := by
  cases c with
  | throwing v => exact proceed_error_obeyed rfl
  | _ => exact .pure _

mutual

theorem exec_obeyed (hinvoke : env.invoke.Obeys P) (i : Nat) :
    ∀ s : Stmt, P.activation.Obeyed (exec env t i s)
  | .var decls => by
      rw [exec]
      exact executing_obeyed fun _ => .bind (declareAll_obeyed hinvoke _ decls) fun _ => .pure _
  | .function f => executing_obeyed fun _ => .pure _
  | .empty => executing_obeyed fun _ => .pure _
  | .expr e => by
      rw [exec]
      exact executing_obeyed fun _ => .bind (eval_obeyed hinvoke _ e) fun _ => .pure _
  | .block body => by
      rw [exec]
      exact executing_obeyed fun _ => execList_obeyed hinvoke _ body
  | .branch test cons alt => by
      rw [exec]
      refine executing_obeyed fun entry => ?_
      dsimp only
      split
      · exact exec_obeyed hinvoke _ cons
      · split
        · exact execOptional_obeyed hinvoke _ alt
        · refine .bind (eval_obeyed hinvoke _ test) fun v => ?_
          split
          · exact exec_obeyed hinvoke _ cons
          · exact execOptional_obeyed hinvoke _ alt
  | .forLoop init test update body => by
      rw [exec]
      refine executing_obeyed fun entry => ?_
      dsimp only
      have hupdate := fun j => updateTurn_obeyed (evalOptional_obeyed (t := t) hinvoke j update)
      have hturn := fun j k l => forTurn_obeyed (testLoop_obeyed (t := t) hinvoke j test)
        (exec_obeyed hinvoke k body) (evalOptional_obeyed (t := t) hinvoke l update)
      split
      · exact .bind (enterLoop_obeyed hinvoke _ init) fun _ =>
          turning_obeyed (hturn _ _ _) (hturn _ _ _) _
      · exact turning_obeyed (hturn _ _ _) (hturn _ _ _) _
      · exact turning_obeyed (bodyThen_obeyed (exec_obeyed hinvoke _ body) (hupdate _)) (hturn _ _ _) _
      · exact turning_obeyed (hupdate _) (hturn _ _ _) _
  | .forIn left right body => by
      rw [exec]
      refine executing_obeyed fun entry => ?_
      dsimp only
      have hturn : ∀ j keys, P.activation.Obeyed
          (keyTurn keys (assignKey env t (i + 1) left) (exec env t j body)) := fun j _ =>
        keyTurn_obeyed (assignKey_obeyed hinvoke (i + 1) left) (exec_obeyed hinvoke j body)
      refine .bind (storedKeys?_obeyed t entry _ _) fun stored => ?_
      split
      · exact .bind (turning_obeyed (keyBody_obeyed (exec_obeyed hinvoke _ body)) (hturn _ _) _)
          fun flow => leaveKeys_obeyed env _ flow
      · refine .bind (keyQueue_obeyed (eval_obeyed hinvoke _ right)) fun keys => ?_
        exact .bind (turning_obeyed (hturn _ keys) (hturn _ keys) _)
          fun flow => leaveKeys_obeyed env _ flow
  | .whileLoop test body => by
      rw [exec]
      refine executing_obeyed fun entry => ?_
      dsimp only
      have hturn := whileTurn_obeyed (eval_obeyed (t := t) hinvoke (i + 1) test)
        (exec_obeyed hinvoke (t.after (i + 1)) body)
      refine turning_obeyed ?_ hturn _
      split
      · exact bodyThen_obeyed (exec_obeyed hinvoke _ body) endTurn_obeyed
      · exact hturn
  | .doLoop body test => by
      rw [exec]
      refine executing_obeyed fun entry => ?_
      dsimp only
      have hturn := doTurn_obeyed (exec_obeyed hinvoke (i + 1) body)
        (eval_obeyed (t := t) hinvoke (t.after (i + 1)) test)
      refine turning_obeyed ?_ hturn _
      split
      · exact testTurn_obeyed (eval_obeyed hinvoke _ test)
      · exact hturn
  | .ret value => by
      rw [exec]
      exact executing_obeyed fun _ => .bind (evalOptional_obeyed hinvoke _ value) fun _ => .pure _
  | .brk none => executing_obeyed fun _ => .pure _
  | .cont none => executing_obeyed fun _ => .pure _
  | .brk (some _) => executing_obeyed fun _ => P.lift (Machine.fail_obeyed _ _)
  | .cont (some _) => executing_obeyed fun _ => P.lift (Machine.fail_obeyed _ _)
  | .labeled _ _ => executing_obeyed fun _ => P.lift (Machine.fail_obeyed _ _)
  | .throwing value => by
      rw [exec]
      exact executing_obeyed fun _ => .bind (eval_obeyed hinvoke _ value) fun v =>
        P.lift (Machine.throwValue_obeyed v)
  | .attempt block handler finalizer => by
      rw [exec]
      refine executing_obeyed fun entry => ?_
      dsimp only
      generalize (if handler.isSome then t.after (t.afterMany block.length (i + 1))
        else t.afterMany block.length (i + 1)) = finallyAt
      split
      · refine .bind (storedCompletion?_obeyed i) fun waiting => ?_
        refine finallyThen_obeyed (execFinally_obeyed hinvoke _ finalizer) ?_
        split
        · exact toResult_obeyed _
        · exact .pure _
      · refine .bind chain_obeyed fun saved => ?_
        split
        · refine .bind (reenter_obeyed (.bind (P.lift (Machine.alloc_obeyed _)) fun _ => .pure _))
            fun link => ?_
          exact concluding_obeyed
            (caught_settles (inScope_obeyed (execHandlerBody_obeyed hinvoke _ handler)))
            (execFinally_obeyed hinvoke _ finalizer)
        · refine concluding_obeyed (guarding_settles (execList_obeyed hinvoke _ block) ?_)
            (execFinally_obeyed hinvoke _ finalizer)
          exact fun u hu => execHandler_settles hinvoke saved u hu _ handler
  | .switch discriminant cases => by
      rw [exec]
      refine executing_obeyed fun entry => ?_
      refine .bind (switchValue_obeyed (eval_obeyed hinvoke _ discriminant)) fun v => ?_
      refine .bind (startingCase?_obeyed hinvoke entry v _ cases) fun start => ?_
      split
      · exact .pure _
      · exact .bind (execArms_obeyed hinvoke _ _ cases) fun _ => .pure _
  | .withScope object body => by
      rw [exec]
      refine executing_obeyed fun entry => ?_
      refine .bind (reenter_obeyed (.bind (eval_obeyed hinvoke _ object) fun v =>
        .bind (P.lift (scopeRecord_obeyed v)) fun _ => .pure _)) fun link => ?_
      exact .bind chain_obeyed fun saved => inScope_obeyed (exec_obeyed hinvoke _ body)
  | .debugger => executing_obeyed fun _ => debugging_obeyed env i
termination_by structural s => s

theorem execOptional_obeyed (hinvoke : env.invoke.Obeys P) (i : Nat) :
    ∀ s : Option Stmt, P.activation.Obeyed (execOptional env t i s)
  | none => .pure _
  | some s => exec_obeyed hinvoke i s
termination_by structural s => s

theorem execList_obeyed (hinvoke : env.invoke.Obeys P) (i : Nat) :
    ∀ l : List Stmt, P.activation.Obeyed (execList env t i l)
  | [] => .pure _
  | s :: rest => by
      rw [execList]
      refine .bind (exec_obeyed hinvoke i s) fun flow => ?_
      split
      · exact execList_obeyed hinvoke (t.after i) rest
      · exact .pure _
termination_by structural l => l

theorem execFinally_obeyed (hinvoke : env.invoke.Obeys P) (i : Nat) :
    ∀ f : Option (List Stmt), P.activation.Obeyed (execFinally env t i f)
  | none => .pure _
  | some body => execList_obeyed hinvoke i body
termination_by structural f => f

/-- A handler is only asked about exceptions. -/
theorem execHandler_settles (hinvoke : env.invoke.Obeys P) (saved : Chain) (u : Unwind)
    (hu : u.isPause = false) (i : Nat) :
    ∀ h : Option Handler, Settles P (execHandler env t saved u i h)
  | none => proceed_error_obeyed hu
  | some h => caught_settles (execCatch_obeyed hinvoke saved _ i h)
termination_by structural h => h

theorem execCatch_obeyed (hinvoke : env.invoke.Obeys P) (saved : Chain) (thrown : Value) (i : Nat) :
    ∀ h : Handler, P.activation.Obeyed (execCatch env t saved thrown i h)
  | ⟨_, body⟩ => catching_obeyed (execList_obeyed hinvoke (i + 1) body)
termination_by structural h => h

theorem execHandlerBody_obeyed (hinvoke : env.invoke.Obeys P) (i : Nat) :
    ∀ h : Option Handler, P.activation.Obeyed (execHandlerBody env t i h)
  | none => .pure _
  | some h => execReentered_obeyed hinvoke i h
termination_by structural h => h

theorem execReentered_obeyed (hinvoke : env.invoke.Obeys P) (i : Nat) :
    ∀ h : Handler, P.activation.Obeyed (execReentered env t i h)
  | ⟨_, body⟩ => execList_obeyed hinvoke i body
termination_by structural h => h

theorem execArms_obeyed (hinvoke : env.invoke.Obeys P) (k i : Nat) :
    ∀ l : List Case, P.activation.Obeyed (execArms env t k i l)
  | [] => by
      cases k with
      | zero => exact .pure _
      | succ k => exact .pure _
  | c :: rest => by
      cases k with
      | zero =>
          rw [execArms]
          refine .bind (execArm_obeyed hinvoke i c) fun flow => ?_
          split
          · exact execArms_obeyed hinvoke 0 (t.after i) rest
          · exact .pure _
      | succ k => exact execArms_obeyed hinvoke k (t.after i) rest
termination_by structural l => l

theorem execArm_obeyed (hinvoke : env.invoke.Obeys P) (i : Nat) :
    ∀ c : Case, P.activation.Obeyed (execArm env t i c)
  | ⟨_, body⟩ => execList_obeyed hinvoke _ body
termination_by structural c => c

end

/-! ## Calls -/

theorem hoist_obeyed (t : IndexedTree) (a : Address) (name : String) (i : Nat) :
    P.activation.Obeyed (hoist env t a name i) := by
  unfold hoist
  split
  · exact .bind (recorded_obeyed (makeClosure_obeyed env t i _)) fun _ =>
      P.lift (Machine.setOwn_obeyed _ _ _)
  · exact .pure _

theorem instantiate_obeyed (t : IndexedTree) (a : Address) (l : List (String × Nat)) :
    P.activation.Obeyed (instantiate env t a l) := by
  induction l with
  | nil => exact .pure _
  | cons d rest ih => exact .bind (hoist_obeyed t a d.1 d.2) fun _ => ih

end Resumption.Stepper
