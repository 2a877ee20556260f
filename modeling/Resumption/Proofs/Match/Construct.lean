import Resumption.Proofs.Conduct.Tally
import Resumption.Proofs.Match.Activation

/-!
# Constructs run alike

What operations and statements do with their parts runs alike if the parts do.
-/

namespace Resumption

open Script (PropKind UpdateOp BinaryOp)

/-- The fixed parts of two activations go together. -/
structure Env.Match (T : Terms) (w : World) (env env' : Env) : Prop where
  this : env'.this = env.this ∧ env.this.Shown w
  args : env'.args = env.args ∧ ∀ v ∈ env.args, v.Shown w
  registry : env'.registry = env.registry
  records : T.mode = .recording → env'.records = env.records
  site : T.pauses = .together → env'.toSite = env.toSite
  fuel : T.Fuels env.fuel env'.fuel
  invoke : T.solo = false → env.invoke.Alike T env'.invoke
  building : w.building = none
  counts : T.solo = true → env'.invoke.Obeys .tally

variable {α : Type} {T : Terms} {S : Stance} {w w' : World} {env env' : Env}

theorem Env.Match.reach (hw : w.Reaches w') (h : env.Match T w env') : env.Match T w' env' :=
  { h with
    this := ⟨h.this.1, h.this.2.mono hw.roles⟩
    args := ⟨h.args.1, fun v hv => (h.args.2 v hv).mono hw.roles⟩
    building := hw.building.trans h.building }

theorem Env.Match.mono (hw : w ≤ w') (h : env.Match T w env') : env.Match T w' env' :=
  h.reach hw.reaches

/-- Scripts may have what a statement hands over. -/
def Flow.Shown (w : World) : Flow → Prop
  | .ret v => v.Shown w
  | _ => True

theorem Flow.Shown.mono {flow : Flow} (hw : w.roles <+: w'.roles) (h : flow.Shown w) :
    flow.Shown w' := by
  cases flow with
  | ret v => exact Value.Shown.mono hw h
  | _ => trivial

/-- Results of expressions. -/
abbrev Valued : World → Value → Value → Prop := Same fun w v => v.Shown w

/-- Ends of statements. -/
abbrev Flowing : World → Flow → Flow → Prop := Same fun w flow => flow.Shown w

/-- Ends of turns. -/
abbrev Turning : World → Option Flow → Option Flow → Prop :=
  Same fun w end? => ∀ flow, end? = some flow → flow.Shown w

namespace ActM

/-! ## The same books -/

theorem record_even (henv : env.Match T w env') (hT : T.pauses = .together) (i : Nat) (v : Value) :
    record env' i v = record env i v := by
  rw [record, record, henv.site hT]

theorem mark_even (henv : env.Match T w env') (hT : T.pauses = .together) (i : Nat) :
    mark env' i = mark env i := by
  rw [mark, mark, henv.site hT]

theorem markPending_even (henv : env.Match T w env') (hT : T.pauses = .together) (i : Nat) :
    markPending env' i = markPending env i := by
  rw [markPending, markPending, henv.site hT]

/-- On both sides an operation is marked and starts. -/
theorem started_sim {β β' : Type} {R : World → β → β' → Prop} {x : ActM β} {x' : ActM β'}
    (henv : env.Match T w env') {i : Nat} (hi : Vacant S.books i) (h : ASim T S w x x' R) :
    ASim T S w (markPending env i >>= fun _ => starting i >>= fun _ => x)
      (markPending env' i >>= fun _ => starting i >>= fun _ => x') R :=
  both_sim (markPending_books hi env) (markPending_books (.any i) env')
    (fun hT => markPending_even henv hT i)
    (both_sim (starting_books i) (starting_books i) (fun _ => rfl) h)

/-! ## Operations -/

theorem functionOf_sim {callee callee' : ActM Value} (h : ASim T S w callee callee' Valued) :
    ASim T S w (functionOf callee) (functionOf callee')
      (Same fun w p => p.1.Shown w ∧ p.2.Shown w) :=
  .bind h fun _ _ _ hf => .pure ⟨rfl, hf, trivial⟩

theorem callAt_sim (hsolo : T.solo = false) (henv : env.Match T w env') {i : Nat}
    (hi : Vacant S.books i) (callee : String) {f this : Value} {args : List Value}
    (hf : f.Shown w) (hthis : this.Shown w) (hargs : ∀ v ∈ args, v.Shown w) :
    ASim T S w (callAt env i callee f this args) (callAt env' i callee f this args) Valued := by
  refine started_sim henv hi ?_
  refine .bind (lift_sim (Machine.ask_alike fun _ _ hh => hh.isCallable f)) fun w₁ hw₁ callable _ => ?_
  split
  · exact lift_sim (henv.invoke hsolo w₁ (hw₁.building.trans henv.building) f this args
      (hf.mono hw₁.roles) (hthis.mono hw₁.roles) fun v hv => (hargs v hv).mono hw₁.roles)
  · exact lift_sim (Machine.typeError_sim _)

theorem constructAt_sim (hsolo : T.solo = false) (henv : env.Match T w env') {i : Nat}
    (hi : Vacant S.books i) (callee : String) {f : Value} {args : List Value}
    (hf : f.Shown w) (hargs : ∀ v ∈ args, v.Shown w) :
    ASim T S w (constructAt env i callee f args) (constructAt env' i callee f args) Valued := by
  refine started_sim henv hi ?_
  refine .bind (lift_sim (Machine.ask_alike fun _ _ hh => hh.isCallable f)) fun w₁ hw₁ callable _ => ?_
  split
  · exact lift_sim (Machine.construct_sim hsolo (henv.invoke hsolo)
      (hw₁.building.trans henv.building) (hf.mono hw₁.roles)
      fun v hv => (hargs v hv).mono hw₁.roles)
  · exact lift_sim (Machine.typeError_sim _)

theorem updating_sim (henv : env.Match T w env') {i : Nat} (hi : Vacant S.books i) {op : UpdateOp}
    {before : Bool} {read read' : ActM Value} {write write' : Value → ActM Unit}
    (hread : ASim T S w read read' Valued)
    (hwrite : ∀ w', w ≤ w' → ∀ v, v.Shown w' → v.Plain → ASim T S w' (write v) (write' v) Equal) :
    ASim T S w (updating env i op before read write) (updating env' i op before read' write')
      Valued := by
  refine .bind hread fun w₁ hw₁ v _ => .bind (lift_sim (Machine.number_sim v)) fun w₂ hw₂ x _ => ?_
  have hle := w.le_trans hw₁ hw₂
  refine started_sim (henv.mono hle) hi ?_
  exact .bind (hwrite w₂ hle _ trivial trivial) fun _ _ _ _ => .pure ⟨rfl, trivial⟩

/-- What is written may be known to have a property if no operator is involved. -/
theorem assigning_sim (henv : env.Match T w env') (op : Option BinaryOp) {Q : Value → Prop}
    {read read' value value' : ActM Value} {write write' : Value → ActM Unit}
    (hread : ASim T S w read read' Valued)
    (hvalue : ∀ w', w ≤ w' → ASim T S w' value value' (Same fun w v => v.Shown w ∧ Q v))
    (hwrite : ∀ w', w ≤ w' → ∀ v, v.Shown w' → (op = none → Q v) →
      ASim T S w' (write v) (write' v) Equal) :
    ASim T S w (assigning env op read value write) (assigning env' op read' value' write')
      Valued := by
  have hrest : ∀ w', w ≤ w' → ∀ v, v.Shown w' → (op = none → Q v) →
      ASim T S w' (write v >>= fun _ => Pure.pure v) (write' v >>= fun _ => Pure.pure v) Valued :=
    fun w' hw v hv hQ => .bind (hwrite w' hw v hv hQ) fun _ hw' _ _ => .pure ⟨rfl, hv.mono hw'.roles⟩
  cases op with
  | none => exact .bind (hvalue w w.le_refl) fun w₁ hw₁ v hv => hrest w₁ hw₁ v hv.1 fun _ => hv.2
  | some op =>
      simp only [assigning]
      refine .bind hread fun w₁ hw₁ current _ => .bind (hvalue w₁ hw₁) fun w₂ hw₂ r hr => ?_
      have hle := w.le_trans hw₁ hw₂
      exact .bind (lift_sim (Machine.binary_sim henv.invoke (hle.building.trans henv.building) op _ hr.1))
        fun w₃ hw₃ v hv => hrest w₃ (w.le_trans hle hw₃) v hv nofun

theorem define_sim {a : Address} (ha : w.role? a = some .shown) (key : String) {v : Value}
    (hv : v.Shown w) {kind : PropKind} (hkind : T.solo = true → kind = .init) :
    MSim T w (define a key v kind) (define a key v kind) Equal := by
  have hsolo : kind ≠ .init → T.solo = false := by
    intro hne
    cases hT : T.solo with
    | false => rfl
    | true => exact absurd (hkind hT) hne
  cases kind with
  | init => exact Machine.setOwn_sim key ha hv
  | getter =>
      refine Machine.modifyHeap_sim fun h h' hh => hh.modify_shown ha ?_
      exact (hh.matches_of_shown ha).defineAccessor key (hsolo (by simp))
        (fun u hu => by cases hu; exact hv) fun u hu => by cases hu
  | setter =>
      refine Machine.modifyHeap_sim fun h h' hh => hh.modify_shown ha ?_
      exact (hh.matches_of_shown ha).defineAccessor key (hsolo (by simp))
        (fun u hu => by cases hu) fun u hu => by cases hu; exact hv

/-! ## Loops -/

theorem endTurn_sim : ASim T S w endTurn endTurn Turning :=
  .bind (update_sim fun _ _ hact => { hact with pc := ⟨rfl, rfl⟩ }) fun _ _ _ _ =>
    .pure ⟨rfl, fun _ h => by cases h⟩

theorem endsLoop?_shown {flow flow' : Flow} (h : flow.Shown w) (hend : flow.endsLoop? = some flow') :
    flow'.Shown w := by
  cases flow <;> cases hend
  · exact h
  · trivial

/-! ### Keys -/

theorem make_sim {v : Value} : MSim T w (KeyQueue.make v) (KeyQueue.make v) Valued := by
  refine .bind (Machine.ask_alike fun _ _ hh => hh.enumerate v) fun w₁ _ keys _ =>
    Machine.newArray_sim fun u hu => ?_
  obtain ⟨key, -, rfl⟩ := List.mem_map.1 hu
  trivial

theorem front?_sim {queue : Value} (hqueue : queue.Shown w) :
    MSim T w (KeyQueue.front? queue) (KeyQueue.front? queue)
      (Same fun w key => ∀ v, key = some v → v.Shown w) := by
  refine Machine.ask_sim fun h h' hh => ⟨by rw [hh.alike.elements?], fun v hv => ?_⟩
  obtain ⟨items, hitems, hfront⟩ := Option.bind_eq_some_iff.1 hv
  cases queue with
  | object a =>
      exact (hh.matches_of_shown hqueue).shown.items items hitems v (Array.mem_of_getElem? hfront)
  | _ => cases hitems

theorem shift_sim {queue : Value} (hqueue : queue.Shown w) :
    MSim T w (KeyQueue.shift queue) (KeyQueue.shift queue) Equal := by
  unfold KeyQueue.shift
  cases queue with
  | object a =>
      dsimp only
      exact Machine.changeItems_sim (Q := fun _ _ => True) hqueue (fun w' _ items hitems =>
        ⟨fun _ _ => trivial, Machine.mem_drop_shown hitems⟩) fun _ => trivial
  | _ => exact .pure ⟨rfl, trivial⟩

theorem leaveKeys_sim (henv : env.Match T w env') {i : Nat} (hi : Vacant S.books i) {flow : Flow}
    (hflow : flow.Shown w) :
    ASim T S w (leaveKeys env i flow) (leaveKeys env' i flow) Flowing := by
  have hforget : ASim T S w
      ((if env.records then forget i else pure ()) >>= fun _ => pure Flow.normal)
      ((if env'.records then forget i else pure ()) >>= fun _ => pure Flow.normal) Flowing := by
    refine both_sim (.ite (forget_books hi)) (.ite (forget_books (.any i))) (fun hT => ?_)
      (.pure ⟨rfl, trivial⟩)
    rw [henv.site hT]
  have hform : ∀ env : Env, ((if env.records then forget i else pure ()) >>= fun _ =>
      pure Flow.normal) = (if env.records then forget i >>= fun _ => pure .normal
        else pure .normal : ActM Flow) := by
    intro env
    split
    · rfl
    · rfl
  rw [hform, hform] at hforget
  cases flow with
  | ret v => exact .pure ⟨rfl, hflow⟩
  | normal => exact hforget
  | brk => exact hforget
  | cont => exact hforget

/-! ## Scopes -/

theorem scopeRecord_sim {v : Value} (hv : v.Shown w) :
    MSim T w (scopeRecord v) (scopeRecord v) (Same fun w a => w.role? a = some .shown) := by
  have hnew : MSim T w Machine.newRecord Machine.newRecord
      (Same fun w a => w.role? a = some .shown) := by
    refine Machine.alloc_shown (.refl _) fun w' _ _ => ⟨.refl _, .new _ _ ?_, ?_, ?_, ?_⟩
    · intro _ h
      cases h
    · intro _ p hp
      exact absurd hp List.not_mem_nil
    · intro p hp
      cases hp
    · intro f f' hf
      cases hf
  cases v with
  | object a => exact .pure ⟨rfl, hv⟩
  | undefined => exact Machine.typeError_sim _
  | null => exact Machine.typeError_sim _
  | bool b => exact hnew
  | num x => exact hnew
  | str s => exact hnew

/-- The scopes are set, whatever they were. -/
theorem setChain_sim (c : Chain) :
    SimFrom T (Activation.tie T S).holds (Activation.tie T (S.within c)) w (setChain c) (setChain c)
      Equal :=
  fun _ _ hs => .ok ⟨w, w.le_refl, ⟨{ hs.1 with
    chain := fun _ hc => by cases hc; exact ⟨rfl, rfl⟩
    even := fun hT => ⟨rfl, (hs.1.even hT).2⟩ }, hs.2⟩, rfl, trivial⟩

theorem within_eq {c : Chain} (hS : S.chain = some c) : S.within c = S := by
  obtain ⟨chain, books, args⟩ := S
  cases hS
  rfl

/-! ## Exceptions -/

theorem isPause_of_thrown? {u : Unwind} {v : Value} (h : u.thrown? = some v) : u.isPause = false := by
  rw [Unwind.thrown?] at h
  rw [Unwind.isPause]
  split at h
  · rename_i hsignal
    rw [hsignal]
  · cases h

/-- A scope with one variable. -/
theorem alloc_handler (param : String) {v : Value} (hv : v.Shown w) :
    MSim T w (Machine.alloc ((Object.new .plain none).setOwn param v))
      (Machine.alloc ((Object.new .plain none).setOwn param v))
      (Same fun w a => w.role? a = some (.scope [param] true)) := by
  have hbinds : ∀ w' : World, v.Shown w' →
      ((Object.new .plain none).setOwn param v).Binds w' [param] true := by
    intro w' hv
    have hempty : (Object.new .plain none).Binds w' [param] true :=
      ⟨rfl, rfl, fun _ hp => absurd hp List.not_mem_nil, fun _ hp => absurd hp List.not_mem_nil, nofun⟩
    exact hempty.setOwn List.mem_cons_self hv nofun
  refine Machine.alloc_sim _ (.refl _) fun _ a _ =>
    ⟨hbinds _ (hv.mono (w.le_grow _).roles), fun _ name hname => ?_⟩
  rw [List.mem_singleton.1 hname]
  simp [Object.setOwn, Object.new, Object.hasOwn, Object.own?, Props.set, Props.get?]

/-- The object in which a completion waits. -/
def waitingObject (c : Completion) : Object :=
  .new (.array [Value.str c.parts.1, c.parts.2].toArray) (some Intrinsic.arrayProto)

/-- A completion that waits is out of reach. -/
theorem encode_sim (c : Completion) :
    MSim T w (Completion.encode c) (Completion.encode c)
      (Same fun w v => ∃ a, v = .object a ∧ w.role? a = some (.fixed (waitingObject c))) :=
  .bind (Machine.alloc_sim (.fixed (waitingObject c)) (.refl _) fun _ _ _ => rfl)
    fun _ _ a ha => .pure ⟨rfl, a, rfl, ha⟩

/-! ## Pauses -/

/-- A `debugger` statement that is passed is counted. -/
theorem debuggerAt_passed {m : Machine} (i : Nat) (hm : m.debugging = false) :
    Machine.debuggerAt i m =
      .ok () { m with chronicle := { m.chronicle with passed := m.chronicle.passed + 1 } } := by
  change (if m.debugging then Machine.pauseAt i else
    Machine.chronicling (fun _ c => { c with passed := c.passed + 1 }) : MachineM Unit) m = _
  rw [if_neg (by simp [hm])]
  rfl

/-- Where pauses are taken it raises one. -/
theorem debuggerAt_pauses {m : Machine} (i : Nat) (hm : m.debugging = true) :
    Machine.debuggerAt i m = .error (.unwind (.ofSignal (.pause i)))
      { m with chronicle := { m.chronicle with
        raised := some ⟨m.heap, m.output, m.chronicle.waiting⟩ } } := by
  change (if m.debugging then Machine.pauseAt i else
    Machine.chronicling (fun _ c => { c with passed := c.passed + 1 }) : MachineM Unit) m = _
  rw [if_pos hm]
  rfl

theorem debuggerAt_sim (i : Nat) (hpauses : T.pauses ≠ .left) :
    MSim T w (Machine.debuggerAt i) (Machine.debuggerAt i) Equal := by
  intro m m' hm
  obtain ⟨hleft, hright⟩ := hm.debugging
  cases hT : T.pauses with
  | left => exact absurd hT hpauses
  | nowhere =>
      rw [hT] at hleft hright
      rw [debuggerAt_passed i hleft, debuggerAt_passed i hright]
      refine .ok ⟨w, w.le_refl, { hm with
        passed := fun hmode hspared => ?_, unpassed := fun h => absurd hT h }, rfl, trivial⟩
      have hpassed := hm.passed hmode hspared
      dsimp only
      omega
  | together =>
      rw [hT] at hleft hright
      rw [debuggerAt_pauses i hleft, debuggerAt_pauses i hright]
      exact .thrown (.paused hT rfl) ⟨w, w.le_refl, { hm with }, trivial⟩

/-- Where nobody counts on the right. -/
theorem debuggerAt_left (i : Nat) (hpauses : T.pauses = .nowhere) (hmode : T.mode ≠ .recording) :
    MSim T w (Machine.debuggerAt i) (pure ()) Equal := by
  intro m m' hm
  rw [debuggerAt_passed i (by rw [hm.debugging.1, hpauses]; rfl)]
  exact .ok ⟨w, w.le_refl, { hm with
    passed := fun h => absurd h hmode, unpassed := fun h => absurd hpauses h }, rfl, trivial⟩

theorem debuggerAt_right (i : Nat) (hpauses : T.pauses ≠ .together) (hmode : T.mode ≠ .recording) :
    MSim T w (pure ()) (Machine.debuggerAt i) Equal := by
  intro m m' hm
  have hoff : m'.debugging = false := hm.debugging.2.trans (by simpa using hpauses)
  rw [debuggerAt_passed i hoff]
  exact .ok ⟨w, w.le_refl, { hm with passed := fun h => absurd h hmode }, rfl, trivial⟩

/-- A `debugger` statement that is passed by or does nothing, or at which both sides pause. -/
theorem debugging_sim (henv : env.Match T w env') {i : Nat} (hi : Vacant S.books i)
    (hquiet : T.pauses = .left → env.records = false) :
    ASim T S w (debugging env i) (debugging env' i) Flowing := by
  have hend : ∀ w, ASim T S w (pure .normal) (pure .normal) Flowing := fun _ => .pure ⟨rfl, trivial⟩
  have hpassed : ∀ {x x' : MachineM Unit}, MSim T w x x' Equal →
      ASim T S w (lift x >>= fun _ => pure .normal) (lift x' >>= fun _ => pure .normal) Flowing :=
    fun hx => .bind (lift_sim hx) fun w₁ _ _ _ => hend w₁
  have hleft : env.records = true → T.pauses ≠ .left := fun hrecords hT => by
    rw [hquiet hT] at hrecords
    cases hrecords
  have htogether : env.records ≠ env'.records → T.pauses ≠ .together := fun hne hT =>
    hne (by rw [henv.site hT])
  have hmode : env.records ≠ env'.records → T.mode ≠ .recording := fun hne hT =>
    hne (henv.records hT).symm
  unfold debugging
  cases hrecords : env.records <;> cases hrecords' : env'.records <;>
    simp only [hrecords, hrecords', ne_eq, not_false_eq_true, reduceCtorEq, forall_const]
      at hleft htogether hmode <;>
    simp only [Bool.false_eq_true, if_false, if_true]
  · exact hend w
  · exact right_sim htogether (record_books (.any i) env' _)
      (right_sim htogether (mark_books env' i) (hpassed (debuggerAt_right i htogether hmode)))
  · have hnowhere : T.pauses = .nowhere := by
      cases hT : T.pauses with
      | nowhere => rfl
      | left => exact absurd hT hleft
      | together => exact absurd hT htogether
    exact left_sim htogether (record_books hi env _)
      (left_sim htogether (mark_books env i) (hpassed (debuggerAt_left i hnowhere hmode)))
  · exact both_sim (record_books hi env _) (record_books (.any i) env' _)
      (fun hT => record_even henv hT i _)
      (both_sim (mark_books env i) (mark_books env' i) (fun hT => mark_even henv hT i)
        (hpassed (debuggerAt_sim i hleft)))

end ActM

end Resumption
