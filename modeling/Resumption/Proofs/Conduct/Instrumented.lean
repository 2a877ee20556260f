import Resumption.Proofs.Conduct.Construct

/-!
# Instrumented code obeys

One case for every form of code; each follows from its parts.
-/

namespace Resumption.Instrumented

open Conduct ActM

variable {P : Policy} {env : Env}

theorem record?_obeyed (r : Code.Ref) : P.activation.Obeyed (record? r) :=
  .bind chain_obeyed fun _ => P.lift (Machine.ask_obeyed _)

theorem readRef_obeyed (hinvoke : env.invoke.Obeys P) (r : Code.Ref) :
    P.activation.Obeyed (readRef env r) := by
  refine .bind (record?_obeyed r) fun found => ?_
  split
  · exact P.lift (Machine.getProperty_obeyed hinvoke _ _)
  · exact P.lift (Machine.readGlobal_obeyed hinvoke _)

theorem writeRef_obeyed (hinvoke : env.invoke.Obeys P) (r : Code.Ref) (v : Value) :
    P.activation.Obeyed (writeRef env r v) := by
  refine .bind (record?_obeyed r) fun found => ?_
  split
  · exact P.lift (Machine.putProperty_obeyed hinvoke _ _ _)
  · exact P.lift (Machine.putProperty_obeyed hinvoke _ _ _)

theorem resolvable_obeyed (r : Code.Ref) : P.activation.Obeyed (resolvable r) := by
  unfold resolvable
  refine .bind (record?_obeyed r) fun found => ?_
  split
  · exact .pure _
  · exact P.lift (Machine.ask_obeyed _)

theorem unresolved_obeyed (op : Script.UnaryOp) (arg : Code.Expr) :
    P.activation.Obeyed (unresolved op arg) := by
  unfold unresolved
  split
  · exact .bind (resolvable_obeyed _) fun _ => .pure _
  · exact .pure _

theorem readSpot_obeyed (hinvoke : env.invoke.Obeys P) (spot : Spot) :
    P.activation.Obeyed (readSpot env spot) := by
  cases spot with
  | ref r => exact readRef_obeyed hinvoke r
  | member object key => exact P.lift (Machine.getProperty_obeyed hinvoke _ _)

theorem writeSpot_obeyed (hinvoke : env.invoke.Obeys P) (spot : Spot) (v : Value) :
    P.activation.Obeyed (writeSpot env spot v) := by
  cases spot with
  | ref r => exact writeRef_obeyed hinvoke r v
  | member object key => exact P.lift (Machine.putProperty_obeyed hinvoke _ _ _)

theorem plainClosure_obeyed (ns : String) (i : Nat) :
    P.machine.Obeyed (plainClosure env ns i) := by
  refine .bind (.bind .get fun _ => .pure _) fun registry => ?_
  split
  · exact Machine.newFunction_obeyed _
  · exact Machine.fail_obeyed _ _

mutual

theorem eval_obeyed (hinvoke : env.invoke.Obeys P) :
    ∀ e : Code.Expr, P.activation.Obeyed (eval env e)
  | .num _ => .pure _
  | .str _ => .pure _
  | .bool _ => .pure _
  | .null => .pure _
  | .ref r => readRef_obeyed hinvoke r
  | .this => .pure _
  | .arguments => argumentsObject_obeyed env
  | .array elements => by
      rw [eval]
      exact .bind (evalList_obeyed hinvoke elements) fun _ =>
        P.lift (Machine.newArray_obeyed _)
  | .object props => by
      rw [eval]
      exact .bind (P.lift (Machine.alloc_obeyed _)) fun a =>
        .bind (evalProps_obeyed hinvoke a props) fun _ => .pure _
  | .closure f => by
      rw [eval]
      exact .bind chain_obeyed fun _ => recorded_obeyed (P.lift (Machine.newFunction_obeyed _))
  | .plain ns i => recorded_obeyed (P.lift (plainClosure_obeyed ns i))
  | .unary op arg => by
      rw [eval]
      refine .bind (unresolved_obeyed op arg) fun missing => ?_
      split
      · exact .pure _
      · exact .bind (eval_obeyed hinvoke arg) fun _ => P.lift (Machine.convert_obeyed _)
  | .delete target => by
      rw [eval]
      refine .bind (evalTarget_obeyed hinvoke target) fun spot => ?_
      split
      · exact .bind (P.lift (Machine.deleteProperty_obeyed _ _)) fun _ => .pure _
      · exact .pure _
  | .update i op before target => by
      rw [eval]
      refine .bind (evalTarget_obeyed hinvoke target) fun spot => ?_
      exact recorded_obeyed
        (updating_obeyed (readSpot_obeyed hinvoke spot) (writeSpot_obeyed hinvoke spot))
  | .binary op left right => by
      rw [eval]
      refine .bind (eval_obeyed hinvoke left) fun _ => .bind (eval_obeyed hinvoke right) fun _ => ?_
      exact P.lift (Machine.binary_obeyed hinvoke _ _ _)
  | .logical op left right => by
      rw [eval]
      refine .bind (eval_obeyed hinvoke left) fun v => ?_
      split
      · exact .pure _
      · exact eval_obeyed hinvoke right
  | .assign i op target value => by
      rw [eval]
      refine .bind (evalTarget_obeyed hinvoke target) fun spot => ?_
      refine .bind (assigning_obeyed hinvoke (readSpot_obeyed hinvoke spot)
        (eval_obeyed hinvoke value) (writeSpot_obeyed hinvoke spot)) fun v => ?_
      exact .bind (record_obeyed _ _ _) fun _ => .bind (mark_obeyed _ _) fun _ => .pure _
  | .conditional test cons alt => by
      rw [eval]
      refine .bind (eval_obeyed hinvoke test) fun v => ?_
      split
      · exact eval_obeyed hinvoke cons
      · exact eval_obeyed hinvoke alt
  | .call i callee args => by
      rw [eval_call]
      have hparts : P.activation.Obeyed (evalCallee env callee) := by
        cases callee with
        | member object key =>
            exact methodOf_obeyed hinvoke (eval_obeyed hinvoke object) (evalKey_obeyed hinvoke key)
        | _ => exact functionOf_obeyed (eval_obeyed hinvoke _)
      exact .bind hparts fun _ => .bind (evalList_obeyed hinvoke args) fun _ =>
        recorded_obeyed (callAt_obeyed hinvoke _ _ _ _ _)
  | .construct i callee args => by
      rw [eval]
      refine .bind (eval_obeyed hinvoke callee) fun f => .bind (evalList_obeyed hinvoke args) fun _ => ?_
      exact recorded_obeyed (constructAt_obeyed hinvoke _ _ _ _)
  | .member object key => by
      rw [eval]
      refine .bind (eval_obeyed hinvoke object) fun o => .bind (evalKey_obeyed hinvoke key) fun k => ?_
      exact P.lift (Machine.getProperty_obeyed hinvoke o k)
  | .sequence exprs => by
      rw [eval]
      exact evalSequence_obeyed hinvoke .undefined exprs
termination_by structural e => e

theorem evalList_obeyed (hinvoke : env.invoke.Obeys P) :
    ∀ l : List Code.Expr, P.activation.Obeyed (evalList env l)
  | [] => .pure _
  | e :: rest => by
      rw [evalList]
      exact .bind (eval_obeyed hinvoke e) fun _ => .bind (evalList_obeyed hinvoke rest) fun _ => .pure _
termination_by structural l => l

theorem evalSequence_obeyed (hinvoke : env.invoke.Obeys P) (v : Value) :
    ∀ l : List Code.Expr, P.activation.Obeyed (evalSequence env v l)
  | [] => .pure _
  | e :: rest => by
      rw [evalSequence]
      exact .bind (eval_obeyed hinvoke e) fun v => evalSequence_obeyed hinvoke v rest
termination_by structural l => l

theorem evalProps_obeyed (hinvoke : env.invoke.Obeys P) (a : Address) :
    ∀ l : List Code.Property, P.activation.Obeyed (evalProps env a l)
  | [] => .pure _
  | p :: rest => by
      rw [evalProps]
      exact .bind (evalProp_obeyed hinvoke a p) fun _ => evalProps_obeyed hinvoke a rest
termination_by structural l => l

theorem evalProp_obeyed (hinvoke : env.invoke.Obeys P) (a : Address) :
    ∀ p : Code.Property, P.activation.Obeyed (evalProp env a p)
  | ⟨key, kind, value⟩ => by
      rw [evalProp]
      exact .bind (eval_obeyed hinvoke value) fun _ => P.lift (define_obeyed _ _ _ _)
termination_by structural p => p

theorem evalKey_obeyed (hinvoke : env.invoke.Obeys P) :
    ∀ k : Code.Key, P.activation.Obeyed (evalKey env k)
  | .name _ => .pure _
  | .computed e => by
      rw [evalKey]
      exact .bind (eval_obeyed hinvoke e) fun _ => P.lift (Machine.convert_obeyed _)
termination_by structural k => k

theorem evalTarget_obeyed (hinvoke : env.invoke.Obeys P) :
    ∀ t : Code.Target, P.activation.Obeyed (evalTarget env t)
  | .ref _ => .pure _
  | .member object key => by
      rw [evalTarget]
      exact .bind (eval_obeyed hinvoke object) fun _ => .bind (evalKey_obeyed hinvoke key) fun _ => .pure _
termination_by structural t => t

end

/-! ## Statements -/

theorem declare_obeyed (hinvoke : env.invoke.Obeys P) (d : Code.Declarator) :
    P.activation.Obeyed (declare env d) := by
  unfold declare
  split
  · exact .pure _
  · refine .bind (eval_obeyed hinvoke _) fun v => .bind (writeRef_obeyed hinvoke _ v) fun _ => ?_
    exact .bind (record_obeyed _ _ _) fun _ => mark_obeyed _ _

theorem matching?_obeyed (hinvoke : env.invoke.Obeys P) (v : Value) (k : Nat)
    (cases : List Code.Case) : P.activation.Obeyed (matching? env v k cases) := by
  induction cases generalizing k with
  | nil => exact .pure _
  | cons c rest ih =>
      unfold matching?
      split
      · exact ih (k + 1)
      · refine .bind (eval_obeyed hinvoke _) fun w => ?_
        split
        · exact .pure _
        · exact ih (k + 1)

theorem evalOptional_obeyed (hinvoke : env.invoke.Obeys P) (e : Option Code.Expr) :
    P.activation.Obeyed (evalOptional env e) := by
  cases e with
  | none => exact .pure _
  | some e => exact eval_obeyed hinvoke e

theorem testLoop_obeyed (hinvoke : env.invoke.Obeys P) (e : Option Code.Expr) :
    P.activation.Obeyed (testLoop env e) := by
  cases e with
  | none => exact .pure _
  | some e => exact .bind (eval_obeyed hinvoke e) fun _ => .pure _

theorem assignKey_obeyed (hinvoke : env.invoke.Obeys P) (target : Code.Target) (key : Value) :
    P.activation.Obeyed (assignKey env target key) :=
  .bind (evalTarget_obeyed hinvoke target) fun spot => writeSpot_obeyed hinvoke spot key

theorem enterLoop_obeyed (hinvoke : env.invoke.Obeys P) (init : Code.ForInit) :
    P.activation.Obeyed (enterLoop env init) := by
  cases init with
  | absent => exact .pure _
  | vars decls => exact .forM (declare_obeyed hinvoke) decls
  | expr e => exact .bind (eval_obeyed hinvoke e) fun _ => .pure _

mutual

theorem exec_obeyed (hinvoke : env.invoke.Obeys P) :
    ∀ s : Code.Stmt, P.activation.Obeyed (exec env s)
  | .var decls => by
      rw [exec]
      exact .bind (.forM (declare_obeyed hinvoke) decls) fun _ => .pure _
  | .expr e => by
      rw [exec]
      exact .bind (eval_obeyed hinvoke e) fun _ => .pure _
  | .block body => by
      rw [exec]
      exact execList_obeyed hinvoke body
  | .branch test cons alt => by
      rw [exec]
      refine .bind (eval_obeyed hinvoke test) fun v => ?_
      split
      · exact exec_obeyed hinvoke cons
      · exact execOptional_obeyed hinvoke alt
  | .forLoop init test update body => by
      rw [exec]
      have hturn := forTurn_obeyed (testLoop_obeyed hinvoke test) (exec_obeyed hinvoke body)
        (evalOptional_obeyed hinvoke update)
      exact .bind (enterLoop_obeyed hinvoke init) fun _ => turning_obeyed hturn hturn _
  | .forIn i target right body => by
      rw [exec]
      refine .bind (keyQueue_obeyed (eval_obeyed hinvoke right)) fun keys => ?_
      have hturn : P.activation.Obeyed
          (keyTurn keys (assignKey env target) (exec env body)) :=
        keyTurn_obeyed (assignKey_obeyed hinvoke target) (exec_obeyed hinvoke body)
      exact .bind (turning_obeyed hturn hturn _) fun flow => leaveKeys_obeyed env i flow
  | .whileLoop test body => by
      rw [exec]
      have hturn := whileTurn_obeyed (eval_obeyed hinvoke test) (exec_obeyed hinvoke body)
      exact turning_obeyed hturn hturn _
  | .doLoop body test => by
      rw [exec]
      have hturn := doTurn_obeyed (exec_obeyed hinvoke body) (eval_obeyed hinvoke test)
      exact turning_obeyed hturn hturn _
  | .ret value => by
      rw [exec]
      exact .bind (evalOptional_obeyed hinvoke value) fun _ => .pure _
  | .brk => .pure _
  | .cont => .pure _
  | .throwing value => by
      rw [exec]
      exact .bind (eval_obeyed hinvoke value) fun v => P.lift (Machine.throwValue_obeyed v)
  | .attempt i block handler finalizer => by
      rw [exec]
      refine .bind chain_obeyed fun saved => ?_
      refine concluding_obeyed (guarding_settles (execList_obeyed hinvoke block) ?_)
        (execFinally_obeyed hinvoke finalizer)
      exact fun u hu => execHandler_settles hinvoke saved u hu handler
  | .switch i discriminant cases => by
      rw [exec]
      refine .bind (discriminating_obeyed (eval_obeyed hinvoke discriminant)) fun v => ?_
      refine .bind (matching?_obeyed hinvoke v 0 cases) fun found => ?_
      split
      · exact .pure _
      · exact .bind (execArms_obeyed hinvoke _ cases) fun _ => .pure _
  | .withScope object body => by
      rw [exec]
      refine .bind (eval_obeyed hinvoke object) fun v => ?_
      refine .bind (P.lift (scopeRecord_obeyed v)) fun a => .bind chain_obeyed fun saved => ?_
      exact inScope_obeyed (exec_obeyed hinvoke body)
  | .debugger i => debugging_obeyed env i
  | .empty => .pure _
termination_by structural s => s

theorem execOptional_obeyed (hinvoke : env.invoke.Obeys P) :
    ∀ s : Option Code.Stmt, P.activation.Obeyed (execOptional env s)
  | none => .pure _
  | some s => exec_obeyed hinvoke s
termination_by structural s => s

theorem execList_obeyed (hinvoke : env.invoke.Obeys P) :
    ∀ l : List Code.Stmt, P.activation.Obeyed (execList env l)
  | [] => .pure _
  | s :: rest => by
      rw [execList]
      refine .bind (exec_obeyed hinvoke s) fun flow => ?_
      split
      · exact execList_obeyed hinvoke rest
      · exact .pure _
termination_by structural l => l

theorem execFinally_obeyed (hinvoke : env.invoke.Obeys P) :
    ∀ f : Option (List Code.Stmt), P.activation.Obeyed (execFinally env f)
  | none => .pure _
  | some body => execList_obeyed hinvoke body
termination_by structural f => f

/-- A handler is only asked about exceptions. -/
theorem execHandler_settles (hinvoke : env.invoke.Obeys P) (saved : Chain) (u : Unwind)
    (hu : u.isPause = false) :
    ∀ h : Option Code.Handler, Settles P (execHandler env saved u h)
  | none => proceed_error_obeyed hu
  | some h => caught_settles (execCatch_obeyed hinvoke saved _ h)
termination_by structural h => h

theorem execCatch_obeyed (hinvoke : env.invoke.Obeys P) (saved : Chain) (thrown : Value) :
    ∀ h : Code.Handler, P.activation.Obeyed (execCatch env saved thrown h)
  | ⟨_, _, body⟩ => catching_obeyed (execList_obeyed hinvoke body)
termination_by structural h => h

theorem execArms_obeyed (hinvoke : env.invoke.Obeys P) (k : Nat) :
    ∀ l : List Code.Case, P.activation.Obeyed (execArms env k l)
  | [] => by
      cases k with
      | zero => exact .pure _
      | succ k => exact .pure _
  | c :: rest => by
      cases k with
      | zero =>
          rw [execArms]
          refine .bind (execArm_obeyed hinvoke c) fun flow => ?_
          split
          · exact execArms_obeyed hinvoke 0 rest
          · exact .pure _
      | succ k => exact execArms_obeyed hinvoke k rest
termination_by structural l => l

theorem execArm_obeyed (hinvoke : env.invoke.Obeys P) :
    ∀ c : Code.Case, P.activation.Obeyed (execArm env c)
  | ⟨_, body⟩ => execList_obeyed hinvoke body
termination_by structural c => c

end

/-! ## Calls -/

theorem instantiate_obeyed (hinvoke : env.invoke.Obeys P) (a : Address) (l : List Code.Hoisted) :
    P.activation.Obeyed (instantiate env a l) := by
  induction l with
  | nil => exact .pure _
  | cons h rest ih =>
      refine .bind (eval_obeyed hinvoke h.value) fun v => ?_
      exact .bind (P.lift (Machine.setOwn_obeyed _ _ _)) fun _ => ih

end Resumption.Instrumented
