import Resumption.Code.Traversal
import Resumption.Proofs.Conduct.Basic
import Resumption.Proofs.Match.Books
import Resumption.Proofs.Match.Calls

/-!
# Books in order

An instrumented function keeps its books within itself.  Whenever they change, the marker is at the function
or at a position that the function records, and results stand under such positions only, or under that of a
`try` while its `finally` runs.  When a call, a construction or an update starts, the marker is at it, and
nothing is stored for it that an earlier turn of a loop could have left there.

The diary shows how the books have stood, so this is a property of diaries.  It is a conduct that every
construct obeys whose positions the function records.
-/

namespace Resumption

/-! ## Positions of a function -/

/-- The positions of results. -/
def Cache.keys (c : Cache) : List Nat := c.map Prod.fst

namespace Code

mutual

/-- The positions of the `try` statements that end with a `finally`. -/
def Stmt.finallies : Stmt → List Nat
  | .block body => finalliesOfStmts body
  | .branch _ cons alt => cons.finallies ++ finalliesOfStmt? alt
  | .forLoop _ _ _ body => body.finallies
  | .forIn _ _ _ body => body.finallies
  | .whileLoop _ body => body.finallies
  | .doLoop body _ => body.finallies
  | .attempt i block handler finalizer =>
    (if finalizer.isSome then [i] else []) ++ finalliesOfStmts block ++ finalliesOfHandler? handler ++
      finalliesOfFinally finalizer
  | .switch _ _ cases => finalliesOfCases cases
  | .withScope _ body => body.finallies
  | .var _ | .expr _ | .ret _ | .throwing _ | .debugger _ | .brk | .cont | .empty => []
termination_by structural s => s

def finalliesOfStmt? : Option Stmt → List Nat
  | none => []
  | some s => s.finallies
termination_by structural s => s

def finalliesOfStmts : List Stmt → List Nat
  | [] => []
  | s :: rest => s.finallies ++ finalliesOfStmts rest
termination_by structural l => l

def Handler.finallies : Handler → List Nat
  | ⟨_, _, body⟩ => finalliesOfStmts body
termination_by structural h => h

def finalliesOfHandler? : Option Handler → List Nat
  | none => []
  | some h => h.finallies
termination_by structural h => h

def finalliesOfFinally : Option (List Stmt) → List Nat
  | none => []
  | some body => finalliesOfStmts body
termination_by structural f => f

def Case.finallies : Case → List Nat
  | ⟨_, body⟩ => finalliesOfStmts body
termination_by structural c => c

def finalliesOfCases : List Case → List Nat
  | [] => []
  | c :: rest => c.finallies ++ finalliesOfCases rest
termination_by structural l => l

end

def Func.finallies (f : Func) : List Nat := finalliesOfStmts f.body

/-- An entry that the function may put into its diary. -/
structure Func.InOrder (f : Func) (e : Entry) : Prop where
  last : e.last = f.index ∨ e.last ∈ f.recorded
  keys : ∀ i ∈ e.cache.keys, i ∈ f.recorded ∨ i ∈ f.finallies
  starting : ∀ i, e.starting = some i → e.last = i ∧ i ∉ e.cache.keys

/-- The books of an activation of the function are in order, now and whenever they were kept, and they
stand as on entry or as the diary says. -/
structure Func.Orderly (f : Func) (act : Activation) : Prop where
  present : f.InOrder ⟨none, act.last, act.cache⟩
  past : ∀ e, act.diary e → f.InOrder e
  noted : act.last = f.index ∧ act.cache = [] ∨ act.diary ⟨none, act.last, act.cache⟩
  sorted : act.cache.Sorted

end Code

namespace Cache

variable {i j : Nat} {v : Value} {c : Cache}

theorem mem_keys_insert (h : j ∈ (c.insert i v).keys) : j = i ∨ j ∈ c.keys := by
  obtain ⟨e, he, rfl⟩ := List.mem_map.1 h
  rcases mem_insert he with rfl | he
  · exact .inl rfl
  · exact .inr (List.mem_map_of_mem he)

theorem mem_keys_erase (h : j ∈ (c.erase i).keys) : j ∈ c.keys :=
  ((erase_sublist i c).map Prod.fst).subset h

theorem not_mem_keys_of_get? (h : c.get? i = none) : i ∉ c.keys := by
  induction c with
  | nil => exact List.not_mem_nil
  | cons e rest ih =>
      obtain ⟨k, w⟩ := e
      rw [get?] at h
      split at h
      · cases h
      · rename_i hne
        rw [keys, List.map_cons, List.mem_cons, not_or]
        exact ⟨fun heq => hne (beq_iff_eq.2 heq), ih h⟩

/-- What is forgotten has no entry. -/
theorem Sorted.not_mem_keys_erase (h : c.Sorted) (i : Nat) : i ∉ (c.erase i).keys :=
  not_mem_keys_of_get? (h.get?_erase_self i)

end Cache

namespace Code.Func

variable {f : Code.Func} {act : Activation} {i : Nat} {α β : Type}

theorem Orderly.kept (h : f.Orderly act) {g : Cache → Nat → Cache × Nat}
    (hlast : (g act.cache act.last).2 = f.index ∨ (g act.cache act.last).2 ∈ f.recorded)
    (hkeys : ∀ i ∈ (g act.cache act.last).1.keys, i ∈ f.recorded ∨ i ∈ f.finallies)
    (hsorted : (g act.cache act.last).1.Sorted) : f.Orderly (act.kept g) := by
  have hpresent : f.InOrder ⟨none, (g act.cache act.last).2, (g act.cache act.last).1⟩ :=
    ⟨hlast, hkeys, fun _ hi => nomatch hi⟩
  refine ⟨hpresent, fun e he => ?_, .inr (.inl rfl), hsorted⟩
  rcases he with rfl | he
  · exact hpresent
  · exact h.past e he

/-- What is not in the books may change. -/
theorem Orderly.of_books (h : f.Orderly act) {act' : Activation} (hlast : act'.last = act.last)
    (hcache : act'.cache = act.cache) (hdiary : act'.diary = act.diary) : f.Orderly act' := by
  obtain ⟨hpresent, hpast, hnoted, hsorted⟩ := h
  rw [← hlast, ← hcache] at hpresent hnoted
  rw [← hdiary] at hpast hnoted
  exact ⟨hpresent, hpast, hnoted, hcache ▸ hsorted⟩

/-- Orderly books stay orderly, however a computation ends. -/
def order (f : Code.Func) : Conduct (Activation × Machine) where
  keeps s s' := f.Orderly s.1 → f.Orderly s'.1
  paused _ _ _ := True
  stuck s s' := f.Orderly s.1 → f.Orderly s'.1
  refl _ := id
  trans h h' := h' ∘ h
  paused_trans _ _ := trivial
  stuck_refl _ := id
  stuck_trans h h' := h' ∘ h

end Code.Func

namespace ActM

variable {f : Code.Func} {env : Env} {i : Nat} {α β : Type}

theorem lift_ordered (x : MachineM α) : f.order.Obeyed (lift x) := by
  rintro ⟨act, m⟩
  unfold lift
  dsimp only
  match x (m.suspend act) with
  | .ok _ _ => exact id
  | .error (.unwind _) _ => exact ⟨id, fun _ => trivial⟩
  | .error .exhausted _ => exact id

/-! ## The books -/

theorem throw_ordered (u : Unwind) : f.order.Obeyed (throw (.unwind u) : ActM α) :=
  fun _ => ⟨id, fun _ => trivial⟩

theorem update_ordered {g : Activation → Activation} (hg : ∀ act, f.Orderly act → f.Orderly (g act)) :
    f.order.Obeyed (update g) :=
  .modifyGet fun s => hg s.1

theorem chain_ordered : f.order.Obeyed chain :=
  .bind (.bind .get fun _ => .pure _) fun _ => .pure _

theorem setChain_ordered (chain : Chain) : f.order.Obeyed (setChain chain) :=
  update_ordered fun _ h => h.of_books rfl rfl rfl

theorem clearPc_ordered : f.order.Obeyed clearPc :=
  update_ordered fun _ h => h.of_books rfl rfl rfl

theorem argumentsObject_ordered (env : Env) : f.order.Obeyed (argumentsObject env) := by
  refine .bind (.bind .get fun _ => .pure _) fun act => ?_
  split
  · exact .pure _
  · refine .bind (lift_ordered _) fun v => ?_
    exact .bind (update_ordered fun _ h => h.of_books rfl rfl rfl) fun _ => .pure _

theorem forget_ordered (i : Nat) : f.order.Obeyed (forget i) :=
  update_ordered fun _ h =>
    h.kept h.present.last (fun j hj => h.present.keys j (Cache.mem_keys_erase hj)) (h.sorted.erase i)

/-- Results are stored under positions that the function records, or where a `finally` runs. -/
theorem record_ordered (hi : i ∈ f.recorded ∨ i ∈ f.finallies) (v : Value) :
    f.order.Obeyed (record env i v) := by
  unfold record
  split
  · refine update_ordered fun act h => h.kept h.present.last (fun j hj => ?_) (h.sorted.insert i v)
    rcases Cache.mem_keys_insert hj with rfl | hj
    · exact hi
    · exact h.present.keys j hj
  · exact .pure _

theorem mark_ordered (hi : i ∈ f.recorded) : f.order.Obeyed (mark env i) := by
  unfold mark
  split
  · exact update_ordered fun _ h => h.kept (.inr hi) h.present.keys h.sorted
  · exact .pure _

/-- When an operation starts, the marker is at it and nothing is stored for it. -/
theorem started_ordered (henv : env.records = true) (hi : i ∈ f.recorded) {x : ActM α}
    (hx : f.order.Obeyed x) :
    f.order.Obeyed (markPending env i >>= fun _ => starting i >>= fun _ => x) := by
  -- Neither step has to be in order without the other, so they are taken as one.
  have hsteps : f.order.Obeyed (markPending env i >>= fun _ => starting i) := by
    rintro ⟨act, m⟩
    have hrun : (markPending env i >>= fun _ => starting i) (act, m) = .ok ()
        ((act.kept fun cache _ => (cache.erase i, i)).noted ⟨some i, i, act.cache.erase i⟩, m) := by
      rw [markPending, if_pos henv]
      rfl
    rw [hrun]
    intro (h : f.Orderly act)
    have hmarked : f.Orderly (act.kept fun cache _ => (cache.erase i, i)) :=
      h.kept (.inr hi) (fun j hj => h.present.keys j (Cache.mem_keys_erase hj)) (h.sorted.erase i)
    refine ⟨hmarked.present, fun e he => ?_, .inr (.inr (.inl rfl)), hmarked.sorted⟩
    rcases he with rfl | he
    · refine ⟨hmarked.present.last, hmarked.present.keys, fun j hj => ?_⟩
      cases hj
      exact ⟨rfl, h.sorted.not_mem_keys_erase i⟩
    · exact hmarked.past e he
  have hassoc : (markPending env i >>= fun _ => starting i >>= fun _ => x) =
      ((markPending env i >>= fun _ => starting i) >>= fun _ => x) := (bind_assoc _ _ _).symm
  rw [hassoc]
  exact .bind hsteps fun _ => hx

/-! ## Operations -/

theorem recorded_ordered (hi : i ∈ f.recorded) {x : ActM Value} (hx : f.order.Obeyed x) :
    f.order.Obeyed (recorded env i x) :=
  .bind hx fun v => .bind (record_ordered (.inl hi) v) fun _ => .pure _

theorem methodOf_ordered {object : ActM Value} {key : ActM String} (hobject : f.order.Obeyed object)
    (hkey : f.order.Obeyed key) : f.order.Obeyed (methodOf env object key) :=
  .bind hobject fun _ => .bind hkey fun _ => .bind (lift_ordered _) fun _ => .pure _

theorem functionOf_ordered {callee : ActM Value} (hcallee : f.order.Obeyed callee) :
    f.order.Obeyed (functionOf callee) :=
  .bind hcallee fun _ => .pure _

theorem callAt_ordered (henv : env.records = true) (hi : i ∈ f.recorded) (callee : String)
    (g this : Value) (args : List Value) : f.order.Obeyed (callAt env i callee g this args) := by
  refine started_ordered henv hi (.bind (lift_ordered _) fun callable => ?_)
  split <;> exact lift_ordered _

theorem constructAt_ordered (henv : env.records = true) (hi : i ∈ f.recorded) (callee : String)
    (g : Value) (args : List Value) : f.order.Obeyed (constructAt env i callee g args) := by
  refine started_ordered henv hi (.bind (lift_ordered _) fun callable => ?_)
  split <;> exact lift_ordered _

theorem updating_ordered (henv : env.records = true) (hi : i ∈ f.recorded) {op : Script.UpdateOp}
    {before : Bool} {read : ActM Value} {write : Value → ActM Unit} (hread : f.order.Obeyed read)
    (hwrite : ∀ v, f.order.Obeyed (write v)) :
    f.order.Obeyed (updating env i op before read write) :=
  .bind hread fun _ => .bind (lift_ordered _) fun _ =>
    started_ordered henv hi (.bind (hwrite _) fun _ => .pure _)

theorem assigning_ordered {op : Option Script.BinaryOp} {read value : ActM Value}
    {write : Value → ActM Unit} (hread : f.order.Obeyed read) (hvalue : f.order.Obeyed value)
    (hwrite : ∀ v, f.order.Obeyed (write v)) :
    f.order.Obeyed (assigning env op read value write) := by
  cases op with
  | none => exact .bind hvalue fun _ => .bind (hwrite _) fun _ => .pure _
  | some op =>
      exact .bind hread fun _ => .bind hvalue fun _ => .bind (lift_ordered _) fun _ =>
        .bind (hwrite _) fun _ => .pure _

/-! ## Loops -/

theorem turning_ordered {first other : ActM (Option α)} (hfirst : f.order.Obeyed first)
    (hother : f.order.Obeyed other) (fuel : Nat) : f.order.Obeyed (turning first other fuel) := by
  induction fuel generalizing first with
  | zero => exact .exhausted
  | succ fuel ih =>
      refine .bind hfirst fun result => ?_
      split
      · exact .pure _
      · exact ih hother

theorem endTurn_ordered : f.order.Obeyed endTurn :=
  .bind clearPc_ordered fun _ => .pure _

theorem bodyThen_ordered {body : ActM Flow} {next : ActM (Option Flow)} (hbody : f.order.Obeyed body)
    (hnext : f.order.Obeyed next) : f.order.Obeyed (bodyThen body next) := by
  refine .bind hbody fun flow => ?_
  split
  · exact .pure _
  · exact hnext

theorem forTurn_ordered {test : ActM Bool} {body : ActM Flow} {update : ActM Value}
    (htest : f.order.Obeyed test) (hbody : f.order.Obeyed body) (hupdate : f.order.Obeyed update) :
    f.order.Obeyed (forTurn test body update) := by
  refine .bind htest fun goes => ?_
  split
  · exact bodyThen_ordered hbody (.bind hupdate fun _ => endTurn_ordered)
  · exact .pure _

theorem whileTurn_ordered {test : ActM Value} {body : ActM Flow} (htest : f.order.Obeyed test)
    (hbody : f.order.Obeyed body) : f.order.Obeyed (whileTurn test body) := by
  refine .bind htest fun v => ?_
  split
  · exact bodyThen_ordered hbody endTurn_ordered
  · exact .pure _

theorem doTurn_ordered {body : ActM Flow} {test : ActM Value} (hbody : f.order.Obeyed body)
    (htest : f.order.Obeyed test) : f.order.Obeyed (doTurn body test) := by
  refine bodyThen_ordered hbody (.bind htest fun v => ?_)
  split
  · exact endTurn_ordered
  · exact .pure _

theorem keyTurn_ordered {keys : Value} {assign : Value → ActM Unit} {body : ActM Flow}
    (hassign : ∀ key, f.order.Obeyed (assign key)) (hbody : f.order.Obeyed body) :
    f.order.Obeyed (keyTurn keys assign body) := by
  refine .bind (lift_ordered _) fun key => ?_
  split
  · exact .pure _
  · exact .bind (hassign _) fun _ =>
      bodyThen_ordered hbody (.bind (lift_ordered _) fun _ => endTurn_ordered)

theorem keyQueue_ordered (hi : i ∈ f.recorded) {object : ActM Value} (hobject : f.order.Obeyed object) :
    f.order.Obeyed (keyQueue env i object) :=
  .bind hobject fun _ => .bind (mark_ordered hi) fun _ => .bind (lift_ordered _) fun _ =>
    .bind (record_ordered (.inl hi) _) fun _ => .pure _

theorem leaveKeys_ordered (env : Env) (i : Nat) (flow : Flow) :
    f.order.Obeyed (leaveKeys env i flow) := by
  unfold leaveKeys
  split
  · exact .pure _
  · split
    · exact .bind (forget_ordered i) fun _ => .pure _
    · exact .bind (.pure _) fun _ => .pure _

theorem discriminating_ordered (hi : i ∈ f.recorded) {x : ActM Value} (hx : f.order.Obeyed x) :
    f.order.Obeyed (discriminating env i x) :=
  .bind hx fun _ => .bind (mark_ordered hi) fun _ => .bind (record_ordered (.inl hi) _) fun _ => .pure _

/-! ## Scopes and exceptions -/

theorem inScope_ordered {link : Link} {saved : Chain} {body : ActM Flow} (hbody : f.order.Obeyed body) :
    f.order.Obeyed (inScope link saved body) :=
  .bind (setChain_ordered _) fun _ => .bind hbody fun _ => .bind (setChain_ordered _) fun _ => .pure _

/-- What stopped a computation has left the books in order. -/
theorem caught_ordered {x : ActM α} (hx : f.order.Obeyed x) : f.order.Obeyed (caught x) := by
  intro s
  have hends := hx s
  unfold caught
  match x s, hends with
  | .ok _ _, hends => exact hends
  | .error (.unwind _) _, hends => exact hends.1
  | .error .exhausted _, hends => exact hends

theorem proceed_ordered (result : Except Unwind α) : f.order.Obeyed (proceed result) := by
  cases result with
  | ok a => exact .pure a
  | error u => exact throw_ordered u

theorem guarding_ordered {block : ActM Flow} {handler : Unwind → ActM (Except Unwind Flow)}
    (hblock : f.order.Obeyed block) (hhandler : ∀ u, f.order.Obeyed (handler u)) :
    f.order.Obeyed (guarding block handler) := by
  refine .bind (caught_ordered hblock) fun result => ?_
  split
  · exact .pure _
  · split
    · exact .pure _
    · exact hhandler _

theorem catching_ordered (hi : i ∈ f.recorded) {saved : Chain} {param : String} {thrown : Value}
    {body : ActM Flow} (hbody : f.order.Obeyed body) :
    f.order.Obeyed (catching env i saved param thrown body) :=
  .bind (mark_ordered hi) fun _ => .bind (lift_ordered _) fun _ => inScope_ordered hbody

theorem concluding_ordered {present : Bool} (hi : present = true → i ∈ f.finallies) {saved : Chain}
    {finalizer : ActM Flow} (hfinalizer : f.order.Obeyed finalizer) (result : Except Unwind Flow) :
    f.order.Obeyed (concluding env i saved present finalizer result) := by
  unfold concluding
  split
  · exact proceed_ordered result
  · rename_i hwaits
    have hpresent : present = true := by
      cases present
      · exact absurd rfl hwaits
      · rfl
    refine .bind (setChain_ordered _) fun _ => .bind (lift_ordered _) fun waiting => ?_
    refine .bind (record_ordered (.inr (hi hpresent)) _) fun _ => ?_
    refine .bind hfinalizer fun flow => .bind (forget_ordered i) fun _ => ?_
    split
    · exact proceed_ordered result
    · exact .pure _

theorem debugging_ordered (hi : i ∈ f.recorded) : f.order.Obeyed (debugging env i) := by
  unfold debugging
  split
  · exact .bind (record_ordered (.inl hi) _) fun _ => .bind (mark_ordered hi) fun _ =>
      .bind (lift_ordered _) fun _ => .pure _
  · exact .bind (.pure _) fun _ => .pure _

end ActM

namespace Instrumented

open ActM

variable {f : Code.Func} {env : Env}

/-! ## Expressions -/

theorem record?_ordered (r : Code.Ref) : f.order.Obeyed (record? r) :=
  .bind chain_ordered fun _ => lift_ordered _

theorem readRef_ordered (r : Code.Ref) : f.order.Obeyed (readRef env r) := by
  refine .bind (record?_ordered r) fun found => ?_
  split <;> exact lift_ordered _

theorem writeRef_ordered (r : Code.Ref) (v : Value) : f.order.Obeyed (writeRef env r v) := by
  refine .bind (record?_ordered r) fun found => ?_
  split <;> exact lift_ordered _

theorem readSpot_ordered (spot : Spot) : f.order.Obeyed (readSpot env spot) := by
  cases spot with
  | ref r => exact readRef_ordered r
  | member object key => exact lift_ordered _

theorem writeSpot_ordered (spot : Spot) (v : Value) : f.order.Obeyed (writeSpot env spot v) := by
  cases spot with
  | ref r => exact writeRef_ordered r v
  | member object key => exact lift_ordered _

theorem unresolved_ordered (op : Script.UnaryOp) (arg : Code.Expr) :
    f.order.Obeyed (unresolved op arg) := by
  unfold unresolved
  split
  · refine .bind ?_ fun _ => .pure _
    unfold resolvable
    refine .bind (record?_ordered _) fun found => ?_
    split
    · exact .pure _
    · exact lift_ordered _
  · exact .pure _

set_option linter.unusedSectionVars false

variable (henv : env.records = true)

include henv

mutual

theorem eval_ordered : ∀ e : Code.Expr, e.recorded ⊆ f.recorded → f.order.Obeyed (eval env e)
  | .num _, _ | .str _, _ | .bool _, _ | .null, _ | .this, _ => .pure _
  | .ref r, _ => readRef_ordered r
  | .arguments, _ => argumentsObject_ordered env
  | .array elements, h => by
      rw [eval]
      exact .bind (evalList_ordered elements h) fun _ => lift_ordered _
  | .object props, h => by
      rw [eval]
      exact .bind (lift_ordered _) fun a => .bind (evalProps_ordered a props h) fun _ => .pure _
  | .closure g, h => by
      rw [eval]
      exact .bind chain_ordered fun _ =>
        recorded_ordered (h (List.mem_singleton_self _)) (lift_ordered _)
  | .plain ns i, h => recorded_ordered (h (List.mem_singleton_self _)) (lift_ordered _)
  | .unary op arg, h => by
      rw [eval]
      refine .bind (unresolved_ordered op arg) fun missing => ?_
      split
      · exact .pure _
      · exact .bind (eval_ordered arg h) fun _ => lift_ordered _
  | .delete target, h => by
      rw [eval]
      refine .bind (evalTarget_ordered target h) fun spot => ?_
      split
      · exact .bind (lift_ordered _) fun _ => .pure _
      · exact .pure _
  | .update i op before target, h => by
      rw [eval]
      obtain ⟨htarget, hi⟩ := List.append_subset.1 h
      have hi := hi (List.mem_singleton_self i)
      exact .bind (evalTarget_ordered target htarget) fun spot => recorded_ordered hi
        (updating_ordered henv hi (readSpot_ordered spot) (writeSpot_ordered spot))
  | .binary op left right, h => by
      rw [eval]
      obtain ⟨hleft, hright⟩ := List.append_subset.1 h
      exact .bind (eval_ordered left hleft) fun _ => .bind (eval_ordered right hright) fun _ =>
        lift_ordered _
  | .logical op left right, h => by
      rw [eval]
      obtain ⟨hleft, hright⟩ := List.append_subset.1 h
      refine .bind (eval_ordered left hleft) fun v => ?_
      split
      · exact .pure _
      · exact eval_ordered right hright
  | .assign i op target value, h => by
      rw [eval]
      obtain ⟨h, hi⟩ := List.append_subset.1 h
      obtain ⟨htarget, hvalue⟩ := List.append_subset.1 h
      have hi := hi (List.mem_singleton_self i)
      refine .bind (evalTarget_ordered target htarget) fun spot => ?_
      refine .bind (assigning_ordered (readSpot_ordered spot) (eval_ordered value hvalue)
        (writeSpot_ordered spot)) fun v => ?_
      exact .bind (record_ordered (.inl hi) v) fun _ => .bind (mark_ordered hi) fun _ => .pure _
  | .conditional test cons alt, h => by
      rw [eval]
      obtain ⟨h, halt⟩ := List.append_subset.1 h
      obtain ⟨htest, hcons⟩ := List.append_subset.1 h
      refine .bind (eval_ordered test htest) fun v => ?_
      split
      · exact eval_ordered cons hcons
      · exact eval_ordered alt halt
  | .call i callee args, h => by
      rw [eval_call]
      obtain ⟨h, hi⟩ := List.append_subset.1 h
      obtain ⟨hcallee, hargs⟩ := List.append_subset.1 h
      have hi := hi (List.mem_singleton_self i)
      have hparts : f.order.Obeyed (evalCallee env callee) := by
        cases callee with
        | member object key =>
            obtain ⟨hobject, hkey⟩ := List.append_subset.1 hcallee
            exact methodOf_ordered (eval_ordered object hobject) (evalKey_ordered key hkey)
        | _ => exact functionOf_ordered (eval_ordered _ hcallee)
      exact .bind hparts fun _ => .bind (evalList_ordered args hargs) fun _ =>
        recorded_ordered hi (callAt_ordered henv hi _ _ _ _)
  | .construct i callee args, h => by
      rw [eval]
      obtain ⟨h, hi⟩ := List.append_subset.1 h
      obtain ⟨hcallee, hargs⟩ := List.append_subset.1 h
      have hi := hi (List.mem_singleton_self i)
      exact .bind (eval_ordered callee hcallee) fun _ => .bind (evalList_ordered args hargs) fun _ =>
        recorded_ordered hi (constructAt_ordered henv hi _ _ _)
  | .member object key, h => by
      rw [eval]
      obtain ⟨hobject, hkey⟩ := List.append_subset.1 h
      exact .bind (eval_ordered object hobject) fun _ => .bind (evalKey_ordered key hkey) fun _ =>
        lift_ordered _
  | .sequence exprs, h => by
      rw [eval]
      exact evalSequence_ordered .undefined exprs h
termination_by structural e => e

theorem evalList_ordered :
    ∀ l : List Code.Expr, Code.recordedExprs l ⊆ f.recorded → f.order.Obeyed (evalList env l)
  | [], _ => .pure _
  | e :: rest, h => by
      rw [evalList]
      obtain ⟨he, hrest⟩ := List.append_subset.1 h
      exact .bind (eval_ordered e he) fun _ => .bind (evalList_ordered rest hrest) fun _ => .pure _
termination_by structural l => l

theorem evalSequence_ordered (v : Value) :
    ∀ l : List Code.Expr, Code.recordedExprs l ⊆ f.recorded → f.order.Obeyed (evalSequence env v l)
  | [], _ => .pure _
  | e :: rest, h => by
      rw [evalSequence]
      obtain ⟨he, hrest⟩ := List.append_subset.1 h
      exact .bind (eval_ordered e he) fun v => evalSequence_ordered v rest hrest
termination_by structural l => l

theorem evalProps_ordered (a : Address) :
    ∀ l : List Code.Property, Code.recordedProps l ⊆ f.recorded → f.order.Obeyed (evalProps env a l)
  | [], _ => .pure _
  | p :: rest, h => by
      rw [evalProps]
      obtain ⟨hp, hrest⟩ := List.append_subset.1 h
      exact .bind (evalProp_ordered a p hp) fun _ => evalProps_ordered a rest hrest
termination_by structural l => l

theorem evalProp_ordered (a : Address) :
    ∀ p : Code.Property, p.recorded ⊆ f.recorded → f.order.Obeyed (evalProp env a p)
  | ⟨key, kind, value⟩, h => by
      rw [evalProp]
      exact .bind (eval_ordered value h) fun _ => lift_ordered _
termination_by structural p => p

theorem evalKey_ordered : ∀ k : Code.Key, k.recorded ⊆ f.recorded → f.order.Obeyed (evalKey env k)
  | .name _, _ => .pure _
  | .computed e, h => by
      rw [evalKey]
      exact .bind (eval_ordered e h) fun _ => lift_ordered _
termination_by structural k => k

theorem evalTarget_ordered :
    ∀ x : Code.Target, x.recorded ⊆ f.recorded → f.order.Obeyed (evalTarget env x)
  | .ref _, _ => .pure _
  | .member object key, h => by
      rw [evalTarget]
      obtain ⟨hobject, hkey⟩ := List.append_subset.1 h
      exact .bind (eval_ordered object hobject) fun _ => .bind (evalKey_ordered key hkey) fun _ => .pure _
termination_by structural x => x

end

theorem evalOptional_ordered {e : Option Code.Expr} (h : Code.recordedExpr? e ⊆ f.recorded) :
    f.order.Obeyed (evalOptional env e) := by
  cases e with
  | none => exact .pure _
  | some e => exact eval_ordered henv e h

/-! ## Statements -/

theorem declare_ordered {d : Code.Declarator} (h : d.recorded ⊆ f.recorded) :
    f.order.Obeyed (declare env d) := by
  obtain ⟨i, target, init⟩ := d
  cases init with
  | none => exact .pure _
  | some init =>
      obtain ⟨hinit, hi⟩ := List.append_subset.1 h
      have hi := hi (List.mem_singleton_self i)
      exact .bind (eval_ordered henv init hinit) fun v => .bind (writeRef_ordered _ v) fun _ =>
        .bind (record_ordered (.inl hi) v) fun _ => mark_ordered hi

theorem declares_ordered {decls : List Code.Declarator} (h : Code.recordedDecls decls ⊆ f.recorded) :
    f.order.Obeyed (decls.forM (declare env)) := by
  induction decls with
  | nil => exact .pure _
  | cons d rest ih =>
      obtain ⟨hd, hrest⟩ := List.append_subset.1 h
      exact .bind (declare_ordered henv hd) fun _ => ih hrest

theorem matching?_ordered (v : Value) (k : Nat) {cases : List Code.Case}
    (h : Code.recordedCases cases ⊆ f.recorded) : f.order.Obeyed (matching? env v k cases) := by
  induction cases generalizing k with
  | nil => exact .pure _
  | cons c rest ih =>
      obtain ⟨test, body⟩ := c
      obtain ⟨hc, hrest⟩ := List.append_subset.1 h
      cases test with
      | none => exact ih (k + 1) hrest
      | some test =>
          refine .bind (eval_ordered henv test (List.append_subset.1 hc).1) fun w => ?_
          split
          · exact .pure _
          · exact ih (k + 1) hrest

theorem testLoop_ordered {test : Option Code.Expr} (h : Code.recordedExpr? test ⊆ f.recorded) :
    f.order.Obeyed (testLoop env test) := by
  cases test with
  | none => exact .pure _
  | some e => exact .bind (eval_ordered henv e h) fun _ => .pure _

theorem enterLoop_ordered {init : Code.ForInit} (h : init.recorded ⊆ f.recorded) :
    f.order.Obeyed (enterLoop env init) := by
  cases init with
  | absent => exact .pure _
  | vars decls => exact declares_ordered henv h
  | expr e => exact .bind (eval_ordered henv e h) fun _ => .pure _

mutual

theorem exec_ordered : ∀ s : Code.Stmt, s.recorded ⊆ f.recorded → s.finallies ⊆ f.finallies →
    f.order.Obeyed (exec env s)
  | .brk, _, _ | .cont, _, _ | .empty, _, _ => .pure _
  | .var decls, h, _ => by
      rw [exec]
      exact .bind (declares_ordered henv h) fun _ => .pure _
  | .expr e, h, _ => by
      rw [exec]
      exact .bind (eval_ordered henv e h) fun _ => .pure _
  | .block body, h, hf => by
      rw [exec]
      exact execList_ordered body h hf
  | .branch test cons alt, h, hf => by
      rw [exec]
      obtain ⟨h, halt⟩ := List.append_subset.1 h
      obtain ⟨htest, hcons⟩ := List.append_subset.1 h
      obtain ⟨hfcons, hfalt⟩ := List.append_subset.1 hf
      refine .bind (eval_ordered henv test htest) fun v => ?_
      split
      · exact exec_ordered cons hcons hfcons
      · exact execOptional_ordered alt halt hfalt
  | .forLoop init test update body, h, hf => by
      rw [exec]
      obtain ⟨h, hbody⟩ := List.append_subset.1 h
      obtain ⟨h, hupdate⟩ := List.append_subset.1 h
      obtain ⟨hinit, htest⟩ := List.append_subset.1 h
      have hturn := forTurn_ordered (testLoop_ordered henv htest) (exec_ordered body hbody hf)
        (evalOptional_ordered henv hupdate)
      exact .bind (enterLoop_ordered henv hinit) fun _ => turning_ordered hturn hturn _
  | .forIn i target right body, h, hf => by
      rw [exec]
      obtain ⟨h, hbody⟩ := List.append_subset.1 h
      obtain ⟨h, hi⟩ := List.append_subset.1 h
      obtain ⟨htarget, hright⟩ := List.append_subset.1 h
      have hi := hi (List.mem_singleton_self i)
      refine .bind (keyQueue_ordered hi (eval_ordered henv right hright)) fun keys => ?_
      have hturn : f.order.Obeyed (keyTurn keys (assignKey env target) (exec env body)) :=
        keyTurn_ordered (fun key => .bind (evalTarget_ordered henv target htarget) fun spot =>
          writeSpot_ordered spot key) (exec_ordered body hbody hf)
      exact .bind (turning_ordered hturn hturn _) fun flow => leaveKeys_ordered env i flow
  | .whileLoop test body, h, hf => by
      rw [exec]
      obtain ⟨htest, hbody⟩ := List.append_subset.1 h
      have hturn := whileTurn_ordered (eval_ordered henv test htest) (exec_ordered body hbody hf)
      exact turning_ordered hturn hturn _
  | .doLoop body test, h, hf => by
      rw [exec]
      obtain ⟨hbody, htest⟩ := List.append_subset.1 h
      have hturn := doTurn_ordered (exec_ordered body hbody hf) (eval_ordered henv test htest)
      exact turning_ordered hturn hturn _
  | .ret value, h, _ => by
      rw [exec]
      exact .bind (evalOptional_ordered henv h) fun _ => .pure _
  | .throwing value, h, _ => by
      rw [exec]
      exact .bind (eval_ordered henv value h) fun _ => lift_ordered _
  | .attempt i block handler finalizer, h, hf => by
      rw [exec]
      obtain ⟨h, hfinalizer⟩ := List.append_subset.1 h
      obtain ⟨hblock, hhandler⟩ := List.append_subset.1 h
      obtain ⟨hf, hffinalizer⟩ := List.append_subset.1 hf
      obtain ⟨hf, hfhandler⟩ := List.append_subset.1 hf
      obtain ⟨hi, hfblock⟩ := List.append_subset.1 hf
      refine .bind chain_ordered fun saved => ?_
      refine .bind (guarding_ordered (execList_ordered block hblock hfblock)
        fun u => execHandler_ordered saved u handler hhandler hfhandler) fun result => ?_
      refine concluding_ordered (fun hpresent => hi ?_)
        (execFinally_ordered finalizer hfinalizer hffinalizer) result
      rw [if_pos hpresent]
      exact List.mem_singleton_self i
  | .switch i discriminant cases, h, hf => by
      rw [exec]
      obtain ⟨h, hcases⟩ := List.append_subset.1 h
      obtain ⟨hdiscriminant, hi⟩ := List.append_subset.1 h
      have hi := hi (List.mem_singleton_self i)
      refine .bind (discriminating_ordered hi (eval_ordered henv discriminant hdiscriminant)) fun v => ?_
      refine .bind (matching?_ordered henv v 0 hcases) fun found => ?_
      split
      · exact .pure _
      · exact .bind (execArms_ordered _ cases hcases hf) fun _ => .pure _
  | .withScope object body, h, hf => by
      rw [exec]
      obtain ⟨hobject, hbody⟩ := List.append_subset.1 h
      exact .bind (eval_ordered henv object hobject) fun _ => .bind (lift_ordered _) fun _ =>
        .bind chain_ordered fun _ => inScope_ordered (exec_ordered body hbody hf)
  | .debugger i, h, _ => debugging_ordered (h (List.mem_singleton_self i))
termination_by structural s => s

theorem execOptional_ordered : ∀ s : Option Code.Stmt, Code.recordedStmt? s ⊆ f.recorded →
    Code.finalliesOfStmt? s ⊆ f.finallies → f.order.Obeyed (execOptional env s)
  | none, _, _ => .pure _
  | some s, h, hf => exec_ordered s h hf
termination_by structural s => s

theorem execList_ordered : ∀ l : List Code.Stmt, Code.recordedStmts l ⊆ f.recorded →
    Code.finalliesOfStmts l ⊆ f.finallies → f.order.Obeyed (execList env l)
  | [], _, _ => .pure _
  | s :: rest, h, hf => by
      rw [execList]
      obtain ⟨hs, hrest⟩ := List.append_subset.1 h
      obtain ⟨hfs, hfrest⟩ := List.append_subset.1 hf
      refine .bind (exec_ordered s hs hfs) fun flow => ?_
      split
      · exact execList_ordered rest hrest hfrest
      · exact .pure _
termination_by structural l => l

theorem execFinally_ordered : ∀ x : Option (List Code.Stmt), Code.recordedFinally x ⊆ f.recorded →
    Code.finalliesOfFinally x ⊆ f.finallies → f.order.Obeyed (execFinally env x)
  | none, _, _ => .pure _
  | some body, h, hf => execList_ordered body h hf
termination_by structural x => x

theorem execHandler_ordered (saved : Chain) (u : Unwind) :
    ∀ x : Option Code.Handler, Code.recordedHandler? x ⊆ f.recorded →
      Code.finalliesOfHandler? x ⊆ f.finallies → f.order.Obeyed (execHandler env saved u x)
  | none, _, _ => .pure _
  | some x, h, hf => caught_ordered (execCatch_ordered saved _ x h hf)
termination_by structural x => x

theorem execCatch_ordered (saved : Chain) (thrown : Value) :
    ∀ x : Code.Handler, x.recorded ⊆ f.recorded → x.finallies ⊆ f.finallies →
      f.order.Obeyed (execCatch env saved thrown x)
  | ⟨i, param, body⟩, h, hf => by
      rw [execCatch]
      obtain ⟨hi, hbody⟩ := List.cons_subset.1 h
      exact catching_ordered hi (execList_ordered body hbody hf)
termination_by structural x => x

theorem execArms_ordered : ∀ (k : Nat) (l : List Code.Case), Code.recordedCases l ⊆ f.recorded →
    Code.finalliesOfCases l ⊆ f.finallies → f.order.Obeyed (execArms env k l)
  | _, [], _, _ => .pure _
  | 0, c :: rest, h, hf => by
      rw [execArms]
      obtain ⟨hc, hrest⟩ := List.append_subset.1 h
      obtain ⟨hfc, hfrest⟩ := List.append_subset.1 hf
      refine .bind (execArm_ordered c hc hfc) fun flow => ?_
      split
      · exact execArms_ordered 0 rest hrest hfrest
      · exact .pure _
  | k + 1, c :: rest, h, hf =>
      execArms_ordered k rest (List.append_subset.1 h).2 (List.append_subset.1 hf).2
termination_by structural _ l => l

theorem execArm_ordered : ∀ c : Code.Case, c.recorded ⊆ f.recorded → c.finallies ⊆ f.finallies →
    f.order.Obeyed (execArm env c)
  | ⟨_, body⟩, h, hf => execList_ordered body (List.append_subset.1 h).2 hf
termination_by structural c => c

end

/-! ## Calls -/

theorem instantiate_ordered (a : Address) {l : List Code.Hoisted}
    (h : l.flatMap (fun x => x.value.recorded) ⊆ f.recorded) : f.order.Obeyed (instantiate env a l) := by
  induction l with
  | nil => exact .pure _
  | cons x rest ih =>
      rw [List.flatMap_cons] at h
      obtain ⟨hx, hrest⟩ := List.append_subset.1 h
      exact .bind (eval_ordered henv x.value hx) fun _ => .bind (lift_ordered _) fun _ => ih hrest

end Instrumented

/-- The activation at the end of a computation, however it ended. -/
def ActM.activationAt {α : Type} : EStateM.Result Stop (Activation × Machine) α → Activation
  | .ok _ s => s.1
  | .error _ s => s.1

namespace InstrumentedClosure

/-- The fixed part of an activation of an instrumented closure. -/
def env (closure : InstrumentedClosure) (invoke : Invoke) (fuel : Nat) (this : Value)
    (args : List Value) : Env :=
  { invoke, fuel, this, args, ns := closure.func.ns, index := closure.func.index
    registry := closure.registry, records := true }

/-- A new activation of the closure, on a machine that holds its record. -/
def entered (closure : InstrumentedClosure) (env : Env) (callee : Value) (m : Machine) :
    Activation × Machine :=
  let f := closure.func
  let o := entryRecord f.params env.args f.declared (f.selfName.map (fun name => (name, callee)))
  (env.toSite.start (⟨.function, m.heap.size⟩ :: closure.chain), { m with heap := (m.heap.alloc o).2 })

/-- What the activation goes through. -/
def run (closure : InstrumentedClosure) (env : Env) (record : Address) : ActM Flow := do
  Instrumented.instantiate env record closure.func.hoisted
  Instrumented.execList env closure.func.body

variable {closure : InstrumentedClosure} {env : Env}

theorem orderly_start {site : Site} (chain : Chain) (h : site.index = closure.func.index) :
    closure.func.Orderly (site.start chain) where
  present := ⟨.inl h, fun _ hi => absurd hi List.not_mem_nil, fun _ hi => nomatch hi⟩
  past := fun _ he => he.elim
  noted := .inl ⟨h, rfl⟩
  sorted := .nil

theorem run_ordered (closure : InstrumentedClosure) (henv : env.records = true) (record : Address) :
    closure.func.order.Obeyed (closure.run env record) := by
  obtain ⟨hhoisted, hbody⟩ := List.append_subset.1 (List.Subset.refl closure.func.recorded)
  exact .bind (Instrumented.instantiate_ordered henv record hhoisted) fun _ =>
    Instrumented.execList_ordered henv closure.func.body hbody (List.Subset.refl _)

theorem orderly_of_ends {f : Code.Func} {s : Activation × Machine} {α : Type}
    {r : EStateM.Result Stop (Activation × Machine) α} (h : f.order.Ends s r) (hs : f.Orderly s.1) :
    f.Orderly (ActM.activationAt r) := by
  match r, h with
  | .ok _ _, h => exact h hs
  | .error (.unwind _) _, h => exact h.1 hs
  | .error .exhausted _, h => exact h hs

/-- Whatever a function is called with, on whatever machine, and however that ends: its activation keeps
orderly books from its start on. -/
theorem call_orderly (invoke : Invoke) (fuel : Nat) (closure : InstrumentedClosure) (callee this : Value)
    (args : List Value) (m : Machine) :
    let env := closure.env invoke fuel this args
    let start := closure.entered env callee m
    let ending := closure.run env m.heap.size start
    Instrumented.call invoke fuel closure callee this args m = env.leave ending ∧
      closure.func.Orderly start.1 ∧ closure.func.Orderly (ActM.activationAt ending) := by
  intro env start ending
  have hstart : closure.func.Orderly start.1 := orderly_start _ rfl
  refine ⟨?_, hstart, orderly_of_ends (closure.run_ordered rfl m.heap.size start) hstart⟩
  change runActivation env start.1 (closure.run env m.heap.size) start.2 = _
  rw [runActivation_eq_leave]

end InstrumentedClosure

end Resumption
