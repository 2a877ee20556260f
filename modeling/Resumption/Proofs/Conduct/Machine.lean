import Resumption.Proofs.Conduct.Basic

/-!
# What the machine does by itself

Reading and writing objects, conversions and the functions every machine starts with obey the
conduct of the machine, provided that the calls they make do.  None of them raises a pause, so all
they could do wrong is to stand in the way of one; they have nothing to do it with.
-/

namespace Resumption.Machine

open Conduct

variable {α β : Type} {P : Policy} {invoke : Invoke}

/-! ## The smallest steps -/

theorem ask_obeyed (f : Heap → α) : P.machine.Obeyed (ask f) :=
  .bind .get fun _ => .pure _

theorem heapM_obeyed : P.machine.Obeyed heapM :=
  .bind .get fun _ => .pure _

theorem demand_obeyed (x : Option α) : P.machine.Obeyed (demand x) := by
  cases x with
  | none => exact .exhausted
  | some a => exact .pure a

theorem convert_obeyed (f : Heap → Option α) : P.machine.Obeyed (convert f) :=
  .bind .get fun _ => demand_obeyed _

theorem quietly_update (m : Machine) (heap : Heap) (registries : Array Registry)
    (output : List String) (hook : Option Hook) :
    m.Quietly { m with heap, registries, output, hook } :=
  ⟨⟨rfl, rfl, rfl, rfl⟩, rfl, rfl, rfl, Nat.le_refl _, Nat.le_refl _, id⟩

theorem modifyHeap_obeyed (f : Heap → Heap) : P.machine.Obeyed (modifyHeap f) :=
  .modifyGet fun _ => P.quietly (quietly_update ..)

theorem alloc_obeyed (o : Object) : P.machine.Obeyed (alloc o) :=
  .modifyGet fun _ => P.quietly (quietly_update ..)

theorem chronicling_obeyed {f : Machine → Chronicle → Chronicle}
    (hf : ∀ m : Machine, m.Quietly { m with chronicle := f m m.chronicle }) :
    P.machine.Obeyed (chronicling f) :=
  .modifyGet fun m => P.quietly (hf m)

theorem throwValue_obeyed (v : Value) : P.machine.Obeyed (throwValue v : MachineM α) :=
  .throw_error rfl

theorem newError_obeyed (kind : ErrorKind) (message : String) :
    P.machine.Obeyed (newError kind message) :=
  (alloc_obeyed _).bind fun _ => .pure _

theorem fail_obeyed (kind : ErrorKind) (message : String) :
    P.machine.Obeyed (fail kind message : MachineM α) :=
  (newError_obeyed kind message).bind throwValue_obeyed

theorem typeError_obeyed (message : String) : P.machine.Obeyed (typeError message : MachineM α) :=
  fail_obeyed .type message

theorem newArray_obeyed (items : List Value) : P.machine.Obeyed (newArray items) :=
  (alloc_obeyed _).bind fun _ => .pure _

theorem newFunction_obeyed (f : Callable) : P.machine.Obeyed (newFunction f) :=
  (alloc_obeyed _).bind fun _ => .pure _

theorem log_obeyed (line : String) : P.machine.Obeyed (log line) :=
  .modifyGet fun _ => P.quietly (quietly_update ..)

/-- A call is refused: the exception leaves whatever would have been done. -/
theorem enter_of_full {m : Machine} (hfull : m.config.maxCallDepth ≤ m.depth)
    (f : Unit → MachineM α) : (enter >>= f) m = (do
      chronicling (fun _ c => { c with refused := c.refused + 1 })
      fail .range "Maximum call stack size exceeded" : MachineM α) m := by
  change ((if m.config.maxCallDepth ≤ m.depth then _ else _ : MachineM Unit) >>= f) m = _
  rw [if_pos hfull]
  rfl

theorem enter_of_lt {m : Machine} (hlt : m.depth < m.config.maxCallDepth) (f : Unit → MachineM α) :
    (enter >>= f) m = f () (m.atDepth (m.depth + 1)) := by
  change ((if m.config.maxCallDepth ≤ m.depth then _ else _ : MachineM Unit) >>= f) m = _
  rw [if_neg (Nat.not_le.2 hlt)]
  rfl

/-- A call is opened and closed again, or it is refused. -/
theorem opened_obeyed {x : MachineM α} (hx : P.machine.Obeyed x) :
    P.machine.Obeyed (do enter; closing x) := by
  intro m
  by_cases hfull : m.config.maxCallDepth ≤ m.depth
  · have hrefuse : P.machine.Obeyed (do
        chronicling (fun _ c => { c with refused := c.refused + 1 })
        fail .range "Maximum call stack size exceeded" : MachineM α) :=
      .bind (chronicling_obeyed fun _ =>
        ⟨⟨rfl, rfl, rfl, rfl⟩, rfl, rfl, rfl, Nat.le_refl _, Nat.le_succ _, id⟩) fun _ => fail_obeyed _ _
    rw [enter_of_full hfull]
    exact hrefuse m
  · rw [enter_of_lt (Nat.not_le.1 hfull)]
    exact P.opened hx (Nat.not_le.1 hfull)

theorem debuggerAt_obeyed (i : Nat) : P.machine.Obeyed (debuggerAt i) := by
  refine .bind (.bind .get fun _ => .pure _) fun debugging => ?_
  split
  · exact P.pauseAt i
  · exact chronicling_obeyed fun _ =>
      ⟨⟨rfl, rfl, rfl, rfl⟩, rfl, rfl, rfl, Nat.le_refl _, Nat.le_refl _, id⟩

theorem shouldHalt_obeyed (moment : Moment) : P.machine.Obeyed (shouldHalt moment) := by
  refine .bind .get fun m => ?_
  split
  · split
    · exact .bind (.modifyGet fun _ => P.quietly (quietly_update ..)) fun _ => .pure _
    · exact .pure _
  · exact .pure _

/-! ## Properties -/

theorem setOwn_obeyed (a : Address) (key : String) (v : Value) :
    P.machine.Obeyed (setOwn a key v) := by
  refine .bind (ask_obeyed _) fun isArray => ?_
  split
  · exact .bind (convert_obeyed _) fun _ => modifyHeap_obeyed _
  · exact modifyHeap_obeyed _

theorem prototypeOf_obeyed (a : Address) : P.machine.Obeyed (prototypeOf a) := by
  refine .bind heapM_obeyed fun h => ?_
  split
  · exact .pure _
  · exact .pure _
  · split
    · exact .bind (alloc_obeyed _) fun _ => .bind (modifyHeap_obeyed _) fun _ => .pure _
    · exact .pure _

theorem readSlot_obeyed (hinvoke : invoke.Obeys P) (this : Value) (slot : Option Slot) :
    P.machine.Obeyed (readSlot invoke this slot) := by
  match slot with
  | some (.data _) => exact .pure _
  | some (.accessor (some getter) _) => exact hinvoke getter this []
  | some (.accessor none _) => exact .pure _
  | none => exact .pure _

theorem getProperty_obeyed (hinvoke : invoke.Obeys P) (target : Value) (key : String) :
    P.machine.Obeyed (getProperty invoke target key) := by
  have hinherited : ∀ proto, P.machine.Obeyed (do
      readSlot invoke target (← ask (fun h => h.find? key proto))) := fun _ =>
    .bind (ask_obeyed _) fun slot => readSlot_obeyed hinvoke target slot
  cases target with
  | undefined => exact typeError_obeyed _
  | null => exact typeError_obeyed _
  | bool b => exact hinherited _
  | num x => exact hinherited _
  | str s =>
      rw [getProperty]
      repeat' split
      all_goals first | exact .pure _ | exact hinherited _
  | object a =>
      refine .bind .get fun m => ?_
      dsimp only
      generalize (if debugMethodNames.contains key && (m.heap.object a).isArray then
        m.debugMethod? key else none) = method
      cases method with
      | some method => exact .pure _
      | none =>
          dsimp only
          split
          · exact prototypeOf_obeyed a
          · exact hinherited a

theorem putProperty_obeyed (hinvoke : invoke.Obeys P) (target : Value) (key : String) (v : Value) :
    P.machine.Obeyed (putProperty invoke target key v) := by
  cases target with
  | undefined => exact typeError_obeyed _
  | null => exact typeError_obeyed _
  | bool b => exact .pure _
  | num x => exact .pure _
  | str s => exact .pure _
  | object a =>
      refine .bind (ask_obeyed _) fun slot => ?_
      split
      · exact .bind (hinvoke _ _ _) fun _ => .pure _
      · exact .pure _
      · exact setOwn_obeyed a key v

theorem deleteProperty_obeyed (target : Value) (key : String) :
    P.machine.Obeyed (deleteProperty target key) := by
  cases target with
  | undefined => exact typeError_obeyed _
  | null => exact typeError_obeyed _
  | bool b => exact .pure _
  | num x => exact .pure _
  | str s => exact .pure _
  | object a => exact .bind (modifyHeap_obeyed _) fun _ => .pure _

theorem readGlobal_obeyed (hinvoke : invoke.Obeys P) (name : String) :
    P.machine.Obeyed (readGlobal invoke name) := by
  refine .bind (ask_obeyed _) fun found => ?_
  split
  · exact getProperty_obeyed hinvoke _ _
  · exact fail_obeyed _ _

/-! ## Operators -/

theorem instanceOf_obeyed (hinvoke : invoke.Obeys P) (v ctor : Value) :
    P.machine.Obeyed (instanceOf invoke v ctor) := by
  refine .bind (ask_obeyed _) fun callable => ?_
  split
  · split
    · refine .bind (getProperty_obeyed hinvoke _ _) fun proto => ?_
      split
      · exact ask_obeyed _
      · exact .pure _
    · exact .pure _
  · exact typeError_obeyed _

theorem binary_obeyed (hinvoke : invoke.Obeys P) (op : Script.BinaryOp) (a b : Value) :
    P.machine.Obeyed (binary invoke op a b) := by
  unfold binary
  split
  · refine .bind (convert_obeyed _) fun key => ?_
    split
    · exact .bind (ask_obeyed _) fun _ => .pure _
    · exact .bind (convert_obeyed _) fun _ => typeError_obeyed _
  · exact .bind (instanceOf_obeyed hinvoke a b) fun _ => .pure _
  · exact convert_obeyed _

theorem instanceOn_obeyed (hinvoke : invoke.Obeys P) (f : Value) (args : List Value) :
    P.machine.Obeyed (instanceOn invoke f args) := by
  have hproto : P.machine.Obeyed (instanceProto invoke f) := by
    refine .bind (getProperty_obeyed hinvoke f "prototype") fun proto => ?_
    split
    · exact .pure _
    · exact .pure _
  refine .bind hproto fun proto => .bind (alloc_obeyed _) fun a => ?_
  refine .bind (hinvoke _ _ _) fun result => ?_
  split
  · exact .pure _
  · exact .pure _

theorem construct_obeyed (hinvoke : invoke.Obeys P) (f : Value) (args : List Value) :
    P.machine.Obeyed (construct invoke f args) := by
  refine .bind (ask_obeyed _) fun callable => ?_
  split
  · exact .bind (convert_obeyed _) fun _ => typeError_obeyed _
  · exact hinvoke _ _ _
  · exact instanceOn_obeyed hinvoke f args

/-! ## The functions every machine starts with -/

theorem thisItems_obeyed (this : Value) (method : String) :
    P.machine.Obeyed (thisItems this method) := by
  unfold thisItems
  split
  · refine .bind (ask_obeyed _) fun items => ?_
    split
    · exact .pure _
    · exact typeError_obeyed _
  · exact typeError_obeyed _

theorem changeItems_obeyed (a : Address) (f : Array Value → α × Array Value) (default : α) :
    P.machine.Obeyed (changeItems a f default) := by
  refine .bind (ask_obeyed _) fun items => ?_
  split
  · exact .pure _
  · exact .bind (modifyHeap_obeyed _) fun _ => .bind (modifyHeap_obeyed _) fun _ => .pure _

theorem relative_obeyed (v : Value) (length default : Nat) :
    P.machine.Obeyed (relative v length default) := by
  unfold relative
  split
  · exact .pure _
  · refine .bind (convert_obeyed _) fun x => ?_
    dsimp only
    split
    · exact .pure _
    · split
      · exact .pure _
      · exact .pure _

theorem sliceOf_obeyed (items : List α) (args : List Value) :
    P.machine.Obeyed (sliceOf items args) :=
  .bind (relative_obeyed _ _ _) fun _ => .bind (relative_obeyed _ _ _) fun _ => .pure _

theorem callback_obeyed (args : List Value) (method : String) :
    P.machine.Obeyed (callback args method) := by
  refine .bind (ask_obeyed _) fun callable => ?_
  split
  · exact .pure _
  · exact .bind (convert_obeyed _) fun _ => typeError_obeyed _

theorem visit_obeyed {a : Address} {step : β → Nat → Value → MachineM β}
    (hstep : ∀ acc i v, P.machine.Obeyed (step acc i v)) (fuel i : Nat) (acc : β) :
    P.machine.Obeyed (visit a step fuel i acc) := by
  induction fuel generalizing i acc with
  | zero => exact .exhausted
  | succ fuel ih =>
      refine .bind (ask_obeyed _) fun item => ?_
      split
      · exact .pure _
      · exact .bind (hstep acc i _) fun acc => ih (i + 1) acc

theorem foldNumbers_obeyed (pick : Float → Float → Float) (acc : Float) (args : List Value) :
    P.machine.Obeyed (foldNumbers pick acc args) := by
  induction args generalizing acc with
  | nil => exact .pure _
  | cons v rest ih =>
      refine .bind (convert_obeyed _) fun x => ?_
      split
      · exact .pure _
      · exact ih _

theorem itemText_obeyed (v : Value) : P.machine.Obeyed (itemText v) := by
  unfold itemText
  split
  · exact .pure _
  · exact convert_obeyed _

theorem messageText_obeyed (v : Value) : P.machine.Obeyed (messageText v) := by
  unfold messageText
  split
  · exact .pure _
  · exact convert_obeyed _

theorem logText_obeyed (v : Value) : P.machine.Obeyed (logText v) := by
  unfold logText
  split
  · exact .pure _
  · exact convert_obeyed _

/-- A pause that crosses one of the functions every machine starts with crosses it unnoticed. -/
theorem runNative_obeyed (hinvoke : invoke.Obeys P) (fuel : Nat) (f : Native) (this : Value)
    (args : List Value) : P.machine.Obeyed (runNative invoke fuel f this args) := by
  have hmath : ∀ g : Float → Float, P.machine.Obeyed (do
      return Value.num (g (← number (arg args 0)))) := fun _ =>
    .bind (convert_obeyed _) fun _ => .pure _
  cases f with
  | hasOwnProperty =>
      refine .bind (convert_obeyed _) fun key => ?_
      split
      · exact .bind (ask_obeyed _) fun _ => .pure _
      · exact .pure _
      · exact .pure _
  | toText => exact .bind (convert_obeyed _) fun _ => .pure _
  | call => exact hinvoke _ _ _
  | apply =>
      unfold runNative
      dsimp only
      split
      · exact hinvoke _ _ _
      · exact hinvoke _ _ _
      · exact .bind (ask_obeyed _) fun _ => hinvoke _ _ _
      · exact typeError_obeyed _
  | push =>
      exact .bind (thisItems_obeyed _ _) fun _ => .bind (changeItems_obeyed _ _ _) fun _ => .pure _
  | pop => exact .bind (thisItems_obeyed _ _) fun _ => changeItems_obeyed _ _ _
  | shift => exact .bind (thisItems_obeyed _ _) fun _ => changeItems_obeyed _ _ _
  | unshift =>
      exact .bind (thisItems_obeyed _ _) fun _ => .bind (changeItems_obeyed _ _ _) fun _ => .pure _
  | slice =>
      exact .bind (thisItems_obeyed _ _) fun _ => .bind (sliceOf_obeyed _ _) fun _ =>
        newArray_obeyed _
  | concat =>
      refine .bind (thisItems_obeyed _ _) fun _ => .bind (.mapM (fun v => ?_) _) fun _ =>
        newArray_obeyed _
      refine .bind (ask_obeyed _) fun items => ?_
      split
      · exact .pure _
      · exact .pure _
  | join =>
      refine .bind (thisItems_obeyed _ _) fun items => ?_
      dsimp only
      split
      · exact .bind (.pure _) fun _ => .bind (.mapM itemText_obeyed _) fun _ => .pure _
      · exact .bind (convert_obeyed _) fun _ => .bind (.mapM itemText_obeyed _) fun _ => .pure _
  | indexOf =>
      refine .bind (thisItems_obeyed _ _) fun _ => ?_
      dsimp only
      split
      · exact .pure _
      · exact .pure _
  | forEach =>
      refine .bind (thisItems_obeyed _ _) fun _ => .bind (callback_obeyed _ _) fun f => ?_
      refine .bind (visit_obeyed (fun _ _ _ => ?_) _ _ _) fun _ => .pure _
      exact .bind (hinvoke _ _ _) fun _ => .pure _
  | map =>
      refine .bind (thisItems_obeyed _ _) fun _ => .bind (callback_obeyed _ _) fun f => ?_
      refine .bind (visit_obeyed (fun _ _ _ => ?_) _ _ _) fun _ => newArray_obeyed _
      exact .bind (hinvoke _ _ _) fun _ => .pure _
  | filter =>
      refine .bind (thisItems_obeyed _ _) fun _ => .bind (callback_obeyed _ _) fun f => ?_
      refine .bind (visit_obeyed (fun _ _ _ => ?_) _ _ _) fun _ => newArray_obeyed _
      exact .bind (hinvoke _ _ _) fun _ => .pure _
  | reduce =>
      refine .bind (thisItems_obeyed _ _) fun _ => .bind (callback_obeyed _ _) fun f => ?_
      dsimp only
      split
      · exact visit_obeyed (fun _ _ _ => hinvoke _ _ _) _ _ _
      · split
        · exact visit_obeyed (fun _ _ _ => hinvoke _ _ _) _ _ _
        · exact typeError_obeyed _
  | charAt => exact .bind (convert_obeyed _) fun _ => .bind (convert_obeyed _) fun _ => .pure _
  | textIndexOf =>
      refine .bind (convert_obeyed _) fun _ => .bind (convert_obeyed _) fun _ => ?_
      split
      · exact .pure _
      · exact .pure _
  | textSlice => exact .bind (convert_obeyed _) fun _ => .bind (sliceOf_obeyed _ _) fun _ => .pure _
  | toUpperCase => exact .bind (convert_obeyed _) fun _ => .pure _
  | toLowerCase => exact .bind (convert_obeyed _) fun _ => .pure _
  | split =>
      refine .bind (convert_obeyed _) fun _ => ?_
      split
      · exact newArray_obeyed _
      · exact .bind (convert_obeyed _) fun _ => newArray_obeyed _
  | object =>
      unfold runNative
      dsimp only
      split
      · exact .pure _
      · exact .bind (alloc_obeyed _) fun _ => .pure _
  | keys =>
      unfold runNative
      dsimp only
      split
      · exact .bind (ask_obeyed _) fun _ => newArray_obeyed _
      · exact .bind (convert_obeyed _) fun _ => typeError_obeyed _
  | array =>
      unfold runNative
      dsimp only
      split
      · split
        · exact newArray_obeyed _
        · exact fail_obeyed _ _
      · exact newArray_obeyed _
  | isArray =>
      unfold runNative
      dsimp only
      split
      · exact .bind (ask_obeyed _) fun _ => .pure _
      · exact .pure _
  | string =>
      cases args with
      | nil => exact .pure _
      | cons v rest => exact .bind (convert_obeyed _) fun _ => .pure _
  | number =>
      cases args with
      | nil => exact .pure _
      | cons v rest => exact .bind (convert_obeyed _) fun _ => .pure _
  | error kind => exact .bind (messageText_obeyed _) fun _ => newError_obeyed _ _
  | floor => exact hmath _
  | ceil => exact hmath _
  | abs => exact hmath _
  | round => exact hmath _
  | sqrt => exact hmath _
  | max => exact .bind (foldNumbers_obeyed _ _ _) fun _ => .pure _
  | min => exact .bind (foldNumbers_obeyed _ _ _) fun _ => .pure _
  | pow => exact .bind (convert_obeyed _) fun _ => .bind (convert_obeyed _) fun _ => .pure _
  | log => exact .bind (.mapM logText_obeyed _) fun _ => .bind (log_obeyed _) fun _ => .pure _

end Resumption.Machine
