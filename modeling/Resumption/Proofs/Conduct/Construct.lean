import Resumption.Proofs.Conduct.Machine

/-!
# What activations do with their parts

Inside of an activation the machine is only reached by waiting for it, which is where the stack of
waiting activations grows and shrinks.  A construct obeys the conduct of activations if its parts
do.  The statements that catch what is thrown are the ones to look at: they take a pause apart from
an exception and let it pass, so whatever follows is not run and the chain stays as it was.
-/

namespace Resumption.ActM

open Conduct

variable {α β : Type} {P : Policy} {env : Env}

theorem update_obeyed {f : Activation → Activation} (hf : ∀ act, (f act).site = act.site) :
    P.activation.Obeyed (update f) :=
  .modifyGet fun s => P.update s.1 s.2 f (hf s.1)

theorem activation_obeyed : P.activation.Obeyed activation :=
  .bind .get fun _ => .pure _

theorem chain_obeyed : P.activation.Obeyed chain :=
  .bind activation_obeyed fun _ => .pure _

theorem setChain_obeyed (chain : Chain) : P.activation.Obeyed (setChain chain) :=
  update_obeyed fun _ => rfl

theorem cached?_obeyed (i : Nat) : P.activation.Obeyed (cached? i) :=
  .bind activation_obeyed fun _ => .pure _

theorem keepBooks_obeyed (f : Cache → Nat → Cache × Nat) : P.activation.Obeyed (keepBooks f) :=
  update_obeyed fun _ => rfl

theorem forget_obeyed (i : Nat) : P.activation.Obeyed (forget i) :=
  keepBooks_obeyed _

theorem clearPc_obeyed : P.activation.Obeyed clearPc :=
  update_obeyed fun _ => rfl

theorem record_obeyed (env : Env) (i : Nat) (v : Value) :
    P.activation.Obeyed (record env i v) := by
  unfold record
  split
  · exact keepBooks_obeyed _
  · exact .pure _

theorem mark_obeyed (env : Env) (i : Nat) : P.activation.Obeyed (mark env i) := by
  unfold mark
  split
  · exact keepBooks_obeyed _
  · exact .pure _

theorem markPending_obeyed (env : Env) (i : Nat) :
    P.activation.Obeyed (markPending env i) := by
  unfold markPending
  split
  · exact keepBooks_obeyed _
  · exact .pure _

theorem starting_obeyed (i : Nat) : P.activation.Obeyed (starting i) :=
  update_obeyed fun _ => rfl

theorem argumentsObject_obeyed (env : Env) : P.activation.Obeyed (argumentsObject env) := by
  refine .bind activation_obeyed fun act => ?_
  split
  · exact .pure _
  · refine .bind (P.lift (Machine.newArray_obeyed _)) fun v => ?_
    exact .bind (update_obeyed fun _ => rfl) fun _ => .pure _

/-! ## Catching -/

/-- A computation that hands over what stopped it obeys if going on with that would. -/
def Settles (P : Policy) (x : ActM (Except Unwind α)) : Prop :=
  P.activation.Obeyed (x >>= proceed)

theorem proceed_error_obeyed {u : Unwind} (hu : u.isPause = false) :
    P.activation.Obeyed (proceed (.error u) : ActM α) :=
  .throw_error hu

theorem caught_bind_proceed (x : ActM α) : (caught x >>= proceed) = x := by
  funext s
  change EStateM.bind (caught x) proceed s = x s
  rw [EStateM.bind, caught]
  match x s with
  | .ok _ _ => rfl
  | .error (.unwind _) _ => rfl
  | .error .exhausted _ => rfl

theorem caught_settles {x : ActM α} (hx : P.activation.Obeyed x) : Settles P (caught x) := by
  rw [Settles, caught_bind_proceed]
  exact hx

/-- What follows may look at the ending as long as it lets pauses pass. -/
theorem Settles.bind {x : ActM (Except Unwind α)} {f : Except Unwind α → ActM β} (hx : Settles P x)
    (hok : ∀ a, P.activation.Obeyed (f (.ok a)))
    (herror : ∀ u : Unwind, u.isPause = false → P.activation.Obeyed (f (.error u)))
    (hpause : ∀ u : Unwind, u.isPause = true → f (.error u) = throw (.unwind u)) :
    P.activation.Obeyed (x >>= f) := by
  intro s
  have hends := hx s
  change P.activation.Ends s (EStateM.bind x f s)
  change P.activation.Ends s (EStateM.bind x proceed s) at hends
  rw [EStateM.bind] at hends ⊢
  match x s, hends with
  | .ok (.ok a) s', hends => exact .of_keeps hends (hok a s')
  | .ok (.error u) s', hends =>
      dsimp only at hends ⊢
      cases hu : u.isPause with
      | true =>
          rw [hpause u hu]
          exact hends
      | false => exact .of_keeps hends.1 (herror u hu s')
  | .error (.unwind _) _, hends => exact hends
  | .error .exhausted _, _ => trivial

theorem guarding_settles {block : ActM Flow} {handler : Unwind → ActM (Except Unwind Flow)}
    (hblock : P.activation.Obeyed block) (hhandler : ∀ u, u.isPause = false → Settles P (handler u)) :
    Settles P (guarding block handler) := by
  rw [Settles, guarding, bind_assoc]
  refine (caught_settles hblock).bind (fun flow => ?_) (fun u hu => ?_) (fun u hu => ?_)
  · change P.activation.Obeyed (pure flow)
    exact .pure _
  · dsimp only
    rw [hu]
    exact hhandler u hu
  · dsimp only
    rw [hu]
    rfl

theorem inScope_obeyed {link : Link} {saved : Chain} {body : ActM Flow}
    (hbody : P.activation.Obeyed body) :
    P.activation.Obeyed (inScope link saved body) :=
  .bind (setChain_obeyed _) fun _ => .bind hbody fun _ => .bind (setChain_obeyed _) fun _ => .pure _

theorem catching_obeyed {i : Nat} {saved : Chain} {param : String} {thrown : Value}
    {body : ActM Flow} (hbody : P.activation.Obeyed body) :
    P.activation.Obeyed (catching env i saved param thrown body) :=
  .bind (mark_obeyed env i) fun _ => .bind (P.lift (Machine.alloc_obeyed _)) fun _ =>
    inScope_obeyed hbody

theorem finallyThen_obeyed {i : Nat} {finalizer next : ActM Flow}
    (hfinalizer : P.activation.Obeyed finalizer) (hnext : P.activation.Obeyed next) :
    P.activation.Obeyed (finallyThen i finalizer next) := by
  refine .bind hfinalizer fun flow => .bind (forget_obeyed i) fun _ => ?_
  split
  · exact hnext
  · exact .pure _

/-- No `finally` runs for a pause. -/
theorem concluding_obeyed {x : ActM (Except Unwind Flow)} {i : Nat} {saved : Chain}
    {present : Bool} {finalizer : ActM Flow} (hx : Settles P x)
    (hfinalizer : P.activation.Obeyed finalizer) :
    P.activation.Obeyed (x >>= concluding env i saved present finalizer) := by
  have hwaits : ∀ result, P.activation.Obeyed (proceed result) →
      P.activation.Obeyed (concluding env i saved present finalizer result) := by
    intro result hproceed
    unfold concluding
    split
    · exact hproceed
    · refine .bind (setChain_obeyed _) fun _ => ?_
      refine .bind (P.lift (Machine.newArray_obeyed _)) fun _ => ?_
      exact .bind (record_obeyed _ _ _) fun _ => finallyThen_obeyed hfinalizer hproceed
  refine hx.bind (fun flow => ?_) (fun u hu => ?_) (fun u hu => ?_)
  · exact hwaits _ (.pure _)
  · exact hwaits _ (proceed_error_obeyed hu)
  · rw [concluding, isPaused, hu, Bool.or_true, if_pos rfl]
    rfl

/-! ## Loops -/

theorem turning_obeyed {first other : ActM (Option α)} (hfirst : P.activation.Obeyed first)
    (hother : P.activation.Obeyed other) (fuel : Nat) :
    P.activation.Obeyed (turning first other fuel) := by
  induction fuel generalizing first with
  | zero => exact .exhausted
  | succ fuel ih =>
      refine .bind hfirst fun result => ?_
      split
      · exact .pure _
      · exact ih hother

theorem endTurn_obeyed : P.activation.Obeyed endTurn :=
  .bind clearPc_obeyed fun _ => .pure _

theorem bodyThen_obeyed {body : ActM Flow} {next : ActM (Option Flow)}
    (hbody : P.activation.Obeyed body) (hnext : P.activation.Obeyed next) :
    P.activation.Obeyed (bodyThen body next) := by
  refine .bind hbody fun flow => ?_
  split
  · exact .pure _
  · exact hnext

theorem updateTurn_obeyed {update : ActM Value} (hupdate : P.activation.Obeyed update) :
    P.activation.Obeyed (updateTurn update) :=
  .bind hupdate fun _ => endTurn_obeyed

theorem forTurn_obeyed {test : ActM Bool} {body : ActM Flow} {update : ActM Value}
    (htest : P.activation.Obeyed test) (hbody : P.activation.Obeyed body)
    (hupdate : P.activation.Obeyed update) :
    P.activation.Obeyed (forTurn test body update) := by
  refine .bind htest fun goes => ?_
  split
  · exact bodyThen_obeyed hbody (updateTurn_obeyed hupdate)
  · exact .pure _

theorem whileTurn_obeyed {test : ActM Value} {body : ActM Flow}
    (htest : P.activation.Obeyed test) (hbody : P.activation.Obeyed body) :
    P.activation.Obeyed (whileTurn test body) := by
  refine .bind htest fun v => ?_
  split
  · exact bodyThen_obeyed hbody endTurn_obeyed
  · exact .pure _

theorem testTurn_obeyed {test : ActM Value} (htest : P.activation.Obeyed test) :
    P.activation.Obeyed (testTurn test) := by
  refine .bind htest fun v => ?_
  split
  · exact endTurn_obeyed
  · exact .pure _

theorem doTurn_obeyed {body : ActM Flow} {test : ActM Value}
    (hbody : P.activation.Obeyed body) (htest : P.activation.Obeyed test) :
    P.activation.Obeyed (doTurn body test) :=
  bodyThen_obeyed hbody (testTurn_obeyed htest)

theorem keyBody_obeyed {keys : Value} {body : ActM Flow} (hbody : P.activation.Obeyed body) :
    P.activation.Obeyed (keyBody keys body) := by
  refine bodyThen_obeyed hbody (.bind (P.lift ?_) fun _ => endTurn_obeyed)
  unfold KeyQueue.shift
  split
  · exact Machine.changeItems_obeyed _ _ _
  · exact .pure _

theorem keyTurn_obeyed {keys : Value} {assign : Value → ActM Unit} {body : ActM Flow}
    (hassign : ∀ key, P.activation.Obeyed (assign key))
    (hbody : P.activation.Obeyed body) :
    P.activation.Obeyed (keyTurn keys assign body) := by
  refine .bind (P.lift (Machine.ask_obeyed _)) fun key => ?_
  split
  · exact .pure _
  · exact .bind (hassign _) fun _ => keyBody_obeyed hbody

theorem keyQueue_obeyed {i : Nat} {object : ActM Value} (hobject : P.activation.Obeyed object) :
    P.activation.Obeyed (keyQueue env i object) := by
  refine .bind hobject fun v => .bind (mark_obeyed _ _) fun _ => ?_
  refine .bind (P.lift (.bind (Machine.ask_obeyed _) fun _ => Machine.newArray_obeyed _))
    fun keys => ?_
  exact .bind (record_obeyed _ _ _) fun _ => .pure _

theorem leaveKeys_obeyed (env : Env) (i : Nat) (flow : Flow) :
    P.activation.Obeyed (leaveKeys env i flow) := by
  unfold leaveKeys
  split
  · exact .pure _
  · split
    · exact .bind (forget_obeyed i) fun _ => .pure _
    · exact .bind (.pure _) fun _ => .pure _

theorem discriminating_obeyed {i : Nat} {x : ActM Value} (hx : P.activation.Obeyed x) :
    P.activation.Obeyed (discriminating env i x) :=
  .bind hx fun _ => .bind (mark_obeyed _ _) fun _ => .bind (record_obeyed _ _ _) fun _ => .pure _

/-! ## Operations -/

theorem recorded_obeyed {i : Nat} {x : ActM Value} (hx : P.activation.Obeyed x) :
    P.activation.Obeyed (recorded env i x) :=
  .bind hx fun _ => .bind (record_obeyed _ _ _) fun _ => .pure _

theorem methodOf_obeyed (hinvoke : env.invoke.Obeys P) {object : ActM Value} {key : ActM String}
    (hobject : P.activation.Obeyed object) (hkey : P.activation.Obeyed key) :
    P.activation.Obeyed (methodOf env object key) :=
  .bind hobject fun _ => .bind hkey fun _ =>
    .bind (P.lift (Machine.getProperty_obeyed hinvoke _ _)) fun _ => .pure _

theorem functionOf_obeyed {callee : ActM Value} (hcallee : P.activation.Obeyed callee) :
    P.activation.Obeyed (functionOf callee) :=
  .bind hcallee fun _ => .pure _

theorem callAt_obeyed (hinvoke : env.invoke.Obeys P) (i : Nat) (callee : String) (f this : Value)
    (args : List Value) : P.activation.Obeyed (callAt env i callee f this args) := by
  refine .bind (markPending_obeyed _ _) fun _ => .bind (starting_obeyed _) fun _ => ?_
  refine .bind (P.lift (Machine.ask_obeyed _)) fun callable => ?_
  split
  · exact P.lift (hinvoke f this args)
  · exact P.lift (Machine.typeError_obeyed _)

theorem constructAt_obeyed (hinvoke : env.invoke.Obeys P) (i : Nat) (callee : String) (f : Value)
    (args : List Value) : P.activation.Obeyed (constructAt env i callee f args) := by
  refine .bind (markPending_obeyed _ _) fun _ => .bind (starting_obeyed _) fun _ => ?_
  refine .bind (P.lift (Machine.ask_obeyed _)) fun callable => ?_
  split
  · exact P.lift (Machine.construct_obeyed hinvoke f args)
  · exact P.lift (Machine.typeError_obeyed _)

theorem updating_obeyed {i : Nat} {op : Script.UpdateOp} {before : Bool} {read : ActM Value}
    {write : Value → ActM Unit} (hread : P.activation.Obeyed read)
    (hwrite : ∀ v, P.activation.Obeyed (write v)) :
    P.activation.Obeyed (updating env i op before read write) :=
  .bind hread fun _ => .bind (P.lift (Machine.convert_obeyed _)) fun _ =>
    .bind (markPending_obeyed _ _) fun _ => .bind (starting_obeyed _) fun _ =>
      .bind (hwrite _) fun _ => .pure _

theorem assigning_obeyed (hinvoke : env.invoke.Obeys P) {op : Option Script.BinaryOp}
    {read value : ActM Value} {write : Value → ActM Unit}
    (hread : P.activation.Obeyed read) (hvalue : P.activation.Obeyed value)
    (hwrite : ∀ v, P.activation.Obeyed (write v)) :
    P.activation.Obeyed (assigning env op read value write) := by
  cases op with
  | none => exact .bind hvalue fun _ => .bind (hwrite _) fun _ => .pure _
  | some op =>
      refine .bind hread fun _ => .bind hvalue fun _ => ?_
      exact .bind (P.lift (Machine.binary_obeyed hinvoke _ _ _)) fun _ =>
        .bind (hwrite _) fun _ => .pure _

theorem define_obeyed (a : Address) (key : String) (v : Value) (kind : Script.PropKind) :
    P.machine.Obeyed (define a key v kind) := by
  cases kind with
  | init => exact Machine.setOwn_obeyed a key v
  | getter => exact Machine.modifyHeap_obeyed (fun h => h.modify a _)
  | setter => exact Machine.modifyHeap_obeyed (fun h => h.modify a _)

theorem scopeRecord_obeyed (v : Value) : P.machine.Obeyed (scopeRecord v) := by
  unfold scopeRecord
  split
  · exact .pure _
  · exact Machine.typeError_obeyed _
  · exact Machine.typeError_obeyed _
  · exact Machine.alloc_obeyed _

theorem debugging_obeyed (env : Env) (i : Nat) :
    P.activation.Obeyed (debugging env i) := by
  unfold debugging
  split
  · exact .bind (record_obeyed _ _ _) fun _ => .bind (mark_obeyed _ _) fun _ =>
      .bind (P.lift (Machine.debuggerAt_obeyed i)) fun _ => .pure _
  · exact .bind (.pure _) fun _ => .pure _

end Resumption.ActM
