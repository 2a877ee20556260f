import Resumption.Proofs.Index.Declared
import Resumption.Proofs.Index.Numbering
import Resumption.Proofs.Sound.Activation
import Resumption.Proofs.Sound.Native

/-!
# What activations do with their parts

A construct walks if its parts do.  Only two of them raise a pause of their own, and only a few take a
result away: those that do so at a position need that the position is not held.
-/

namespace Resumption

open Script Walks

/-- The machine right after a pause has been raised. -/
def Machine.paused (m : Machine) : Machine :=
  { m with chronicle := { m.chronicle with raised := some ⟨m.heap, m.output, m.chronicle.waiting⟩ } }

namespace ActM

variable {w : Realm} {α : Type} {S : Stage} {F F' : Footing} {env : Env} {i : Nat}

/-! ## Endings -/

theorem finallyThen_walks {finalizer next : ActM Flow} (hi : ¬ F.held i)
    (hfinalizer : Walks S F F w finalizer Flow.In) (hnext : Walks S F F w next Flow.In) :
    Walks S F F w (finallyThen i finalizer next) Flow.In := by
  refine hfinalizer.bind fun w₁ flow hw₁ hflow => (forget_walks hi).bind fun w₂ _ hw₂ _ => ?_
  split
  · exact hnext.mono (le_trans hw₁ hw₂)
  · exact value_flow (lasting_flow hw₂ hflow)

theorem proceed_walks {result : Except Unwind Flow} (hok : ∀ flow, result = .ok flow → flow.In w)
    (herror : ∀ u, result = .error u → u.In w) : Walks S F F w (proceed result) Flow.In := by
  cases result with
  | ok flow => exact value_flow (hok flow rfl)
  | error u => exact Walks.throw (herror u rfl)

theorem encode_upright {c : Completion} (hc : c.parts.2.In w) :
    Upright w c.encode Value.In := by
  refine Machine.newArray_upright fun v hv => ?_
  simp only [List.mem_cons, List.not_mem_nil, or_false] at hv
  rcases hv with rfl | rfl
  · trivial
  · exact hc

theorem ofResult_in {result : Except Unwind Flow} (hok : ∀ flow, result = .ok flow → flow.In w)
    (herror : ∀ u, result = .error u → u.In w) : (Completion.ofResult result).parts.2.In w := by
  cases result with
  | ok flow =>
      have hflow := hok flow rfl
      cases flow with
      | ret v => exact hflow
      | normal | brk | cont => trivial
  | error u =>
      have hu := (herror u rfl).thrown
      change (u.thrown?.getD .undefined).In w
      cases hthrown : u.thrown? with
      | none => trivial
      | some v => exact hu v hthrown

/-- However the block ended, the `finally` starts at the chain that the `try` started at. -/
theorem concluding_walks {x : ActM (Except Unwind Flow)} {present : Bool} {finalizer : ActM Flow}
    (hi : ¬ F.held i) (hx : Returns S F F w x Flow.In) (hchain : Chain.In w F.chain)
    (hanchored : F.chain.Anchored)
    (hfinalizer : ∀ w', w ≤ w' → Walks S F F w' finalizer Flow.In) :
    Walks S F F w (x >>= concluding env i F.chain present finalizer) Flow.In := by
  have hwaits : ∀ w' c result, w ≤ w' → (∀ flow, result = .ok flow → flow.In w') →
      (∀ u, result = .error u → u.In w') → (c = F.chain ∨ ∃ u, result = .error u) →
        Walks S ⟨c, F.held⟩ F w' (concluding env i F.chain present finalizer result) Flow.In := by
    intro w' c result hw hok herror hc
    unfold concluding
    split
    · rcases hc with rfl | ⟨u, rfl⟩
      · exact proceed_walks hok herror
      · exact Walks.throw (herror u rfl)
    · refine Walks.bindTo (setChain_walks (hchain.mono hw) hanchored) (fun _ h _ => h)
        fun w₁ _ hw₁ _ => ?_
      refine Walks.bind (F := F) (Walks.lift (encode_upright (ofResult_in hok herror)) |>.mono hw₁)
        fun w₂ waiting hw₂ hwaiting => ?_
      refine (record_walks hwaiting).bind fun w₃ _ hw₃ _ => ?_
      have hlater := le_trans hw₁ (le_trans hw₂ hw₃)
      refine finallyThen_walks hi (hfinalizer w₃ (le_trans hw hlater)) ?_
      exact proceed_walks (fun flow h => lasting_flow hlater (hok flow h))
        fun u h => (herror u h).mono hlater
  refine hx.bind (fun _ h => h) (fun w' flow hw hflow => ?_) (fun w' u c hw hu _ => ?_)
    (fun u hu => ?_)
  · exact hwaits w' F.chain _ hw (fun _ h => by cases h; exact hflow) nofun (.inl rfl)
  · exact hwaits w' c _ hw nofun (fun _ h => by cases h; exact hu) (.inr ⟨u, rfl⟩)
  · rw [concluding, isPaused, hu, Bool.or_true, if_pos rfl]
    rfl

/-- The body of a handler starts in a scope of its own, whatever the chain was. -/
theorem catching_walks {c : Chain} {param : String} {thrown : Value} {body : ActM Flow}
    (hthrown : thrown.In w) (hchain : Chain.In w F.chain) (hanchored : F.chain.Anchored)
    (hbody : ∀ w' link, w ≤ w' →
      Walks (S.enter link) (F.enter link) (F.enter link) w' body Flow.In) :
    Walks S ⟨c, F.held⟩ F w (catching env i F.chain param thrown body) Flow.In := by
  refine (mark_walks env i).bind fun w₁ _ hw₁ _ => ?_
  have ho : Object.Record w₁ ((Object.new .plain none).setOwn param thrown) :=
    Object.Record.new.setOwn param (hthrown.mono hw₁)
  refine (Walks.lift (Machine.alloc_upright ho.toIn ho.older)).bind fun w₂ a hw₂ ha => ?_
  have hw := le_trans hw₁ hw₂
  have hlink : (⟨.handler, a⟩ : Link).record < w₂.size := ha
  exact inScope_walks hlink (fun h => by cases h) (hchain.mono hw) hanchored (hbody w₂ _ hw)

/-! ## Loops -/

/-- What a turn ends with, if it ends the loop. -/
def Stopped (R : Realm → α → Prop) (w : Realm) (result : Option α) : Prop := ∀ a, result = some a → R w a

theorem turning_walks {first other : ActM (Option α)} {R : Realm → α → Prop} (hR : Lasting R)
    (hfirst : Walks S F F w first (Stopped R)) (hother : Walks S F F w other (Stopped R)) (fuel : Nat) :
    Walks S F F w (turning first other fuel) R := by
  induction fuel generalizing first w with
  | zero => exact exhausted
  | succ fuel ih =>
      refine hfirst.bind fun w₁ result hw₁ hresult => ?_
      split
      · exact pure fun _ hw => hR hw (hresult _ rfl)
      · exact ih (hother.mono hw₁) (hother.mono hw₁)

theorem endTurn_walks : Walks S F F w endTurn (Stopped Flow.In) :=
  clearPc_walks.next fun _ => pure fun _ _ => nofun

theorem stop_walks {flow : Flow} (h : flow.In w) :
    Walks S F F w (Pure.pure (some flow)) (Stopped Flow.In) :=
  pure fun _ hw a ha => by
    cases ha
    exact lasting_flow hw h

theorem stop_normal : Walks S F F w (Pure.pure (some .normal)) (Stopped Flow.In) :=
  pure fun _ _ a ha => by
    cases ha
    trivial

theorem bodyThen_walks {body : ActM Flow} {next : ActM (Option Flow)}
    (hbody : Walks S F F w body Flow.In) (hnext : Walks S F F w next (Stopped Flow.In)) :
    Walks S F F w (bodyThen body next) (Stopped Flow.In) := by
  refine hbody.bind fun w₁ flow hw₁ hflow => ?_
  split
  · rename_i ended hends
    refine stop_walks ?_
    cases flow with
    | ret v =>
        cases hends
        exact hflow
    | brk =>
        cases hends
        trivial
    | normal | cont => cases hends
  · exact hnext.mono hw₁

theorem updateTurn_walks {update : ActM Value} (hupdate : Walks S F F w update Value.In) :
    Walks S F F w (updateTurn update) (Stopped Flow.In) :=
  hupdate.next fun _ => endTurn_walks

theorem forTurn_walks {test : ActM Bool} {body : ActM Flow} {update : ActM Value}
    (htest : Walks S F F w test Any) (hbody : Walks S F F w body Flow.In)
    (hupdate : Walks S F F w update Value.In) :
    Walks S F F w (forTurn test body update) (Stopped Flow.In) := by
  refine htest.next fun goes => ?_
  split
  · exact bodyThen_walks hbody (updateTurn_walks hupdate)
  · exact stop_normal

theorem whileTurn_walks {test : ActM Value} {body : ActM Flow} (htest : Walks S F F w test Value.In)
    (hbody : Walks S F F w body Flow.In) :
    Walks S F F w (whileTurn test body) (Stopped Flow.In) := by
  refine htest.next fun v => ?_
  split
  · exact bodyThen_walks hbody endTurn_walks
  · exact stop_normal

theorem testTurn_walks {test : ActM Value} (htest : Walks S F F w test Value.In) :
    Walks S F F w (testTurn test) (Stopped Flow.In) := by
  refine htest.next fun v => ?_
  split
  · exact endTurn_walks
  · exact stop_normal

theorem doTurn_walks {body : ActM Flow} {test : ActM Value} (hbody : Walks S F F w body Flow.In)
    (htest : Walks S F F w test Value.In) : Walks S F F w (doTurn body test) (Stopped Flow.In) :=
  bodyThen_walks hbody (testTurn_walks htest)

theorem shift_upright (keys : Value) : Upright w (KeyQueue.shift keys) Any := by
  unfold KeyQueue.shift
  split
  · exact Machine.changeItems_upright (fun _ _ _ _ _ => trivial) trivial
      fun _ _ _ hitems => ⟨trivial, Machine.drop_in hitems 1⟩
  · exact .done

theorem keyBody_walks (keys : Value) {body : ActM Flow} (hbody : Walks S F F w body Flow.In) :
    Walks S F F w (keyBody keys body) (Stopped Flow.In) :=
  bodyThen_walks hbody ((Walks.lift (shift_upright keys)).next fun _ => endTurn_walks)

theorem front?_upright (queue : Value) :
    Upright w (KeyQueue.front? queue) (fun w' v => ∀ u, v = some u → u.In w') :=
  Machine.ask_upright fun heap rs hheap _ u hu => by
    obtain ⟨items, hitems, hu⟩ := Option.bind_eq_some_iff.1 hu
    exact (hheap.elements? hitems).getElem? hu

theorem keyTurn_walks (keys : Value) {assign : Value → ActM Unit} {body : ActM Flow}
    (hassign : ∀ w' key, w ≤ w' → key.In w' → Walks S F F w' (assign key) Any)
    (hbody : Walks S F F w body Flow.In) :
    Walks S F F w (keyTurn keys assign body) (Stopped Flow.In) := by
  refine (Walks.lift (front?_upright keys)).bind fun w₁ key hw₁ hkey => ?_
  split
  · exact stop_normal
  · exact (hassign w₁ _ hw₁ (hkey _ rfl)).bind fun w₂ _ hw₂ _ =>
      keyBody_walks keys (hbody.mono (le_trans hw₁ hw₂))

/-- The queue of keys is held from then on. -/
theorem keyQueue_walks {object : ActM Value} (henv : env.records = S.records)
    (hobject : Walks S F F w object Value.In) :
    Walks S F (F.holding i) w (keyQueue env i object) Value.In := by
  refine hobject.bind fun w₁ v _ hv => (mark_walks env i).next fun _ => ?_
  have hmake : Upright w₁ (KeyQueue.make v) Value.In :=
    (Machine.ask_any _).next fun keys => Machine.newArray_upright (Machine.strings_in keys id)
  refine (Walks.lift hmake).bind fun w₂ keys _ hkeys => ?_
  exact (record_holding henv hkeys).bindTo (fun _ _ h => h) fun w₃ _ hw₃ _ => value (hkeys.mono hw₃)

/-- The queue of keys is not held any more. -/
theorem leaveKeys_walks (hi : ¬ F.held i) {flow : Flow} (hflow : flow.In w) :
    Walks S (F.holding i) F w (leaveKeys env i flow) Flow.In := by
  have hdrop : ∀ {w' : Realm} (flow : Flow), flow.In w' →
      Walks S (F.holding i) F w' (Pure.pure flow) Flow.In := fun flow hflow act m hs hc =>
    ⟨{ hs.of_held fun k hk => .inr hk with grown := le_rfl }, hc, lasting_flow hs.grown hflow⟩
  cases flow with
  | ret v => exact hdrop _ hflow
  | normal | brk | cont =>
      unfold leaveKeys
      split
      · contradiction
      · split
        · exact (forget_held hi).bindTo (fun _ _ h => h) fun _ _ _ _ =>
            Walks.normal
        · exact hdrop _ trivial

theorem discriminating_walks {x : ActM Value} (hx : Walks S F F w x Value.In) :
    Walks S F F w (discriminating env i x) Value.In :=
  hx.bind fun _ _ _ hv => (mark_walks env i).bind fun _ _ hw₂ _ =>
    (record_walks (hv.mono hw₂)).bind fun _ _ hw₃ _ => value (hv.mono (le_trans hw₂ hw₃))

/-! ## Operations -/

theorem recorded_walks {x : ActM Value} (hx : Walks S F F w x Value.In) :
    Walks S F F w (recorded env i x) Value.In :=
  hx.bind fun _ _ _ hv => (record_walks hv).bind fun _ _ hw _ => value (hv.mono hw)

theorem methodOf_walks (henv : env.In w) {object : ActM Value} {key : ActM String}
    (hobject : Walks S F F w object Value.In) (hkey : Walks S F F w key Any) :
    Walks S F F w (methodOf env object key) (fun w' r => r.1.In w' ∧ r.2.In w') := by
  refine hobject.bind fun w₁ o hw₁ ho => (hkey.mono hw₁).bind fun w₂ k hw₂ _ => ?_
  refine (Walks.lift (Machine.getProperty_upright henv.invoke (ho.mono hw₂) k)).bind
    fun w₃ f hw₃ hf => ?_
  exact pure fun _ hw => ⟨hf.mono hw, ho.mono (le_trans hw₂ (le_trans hw₃ hw))⟩

theorem functionOf_walks {callee : ActM Value} (hcallee : Walks S F F w callee Value.In) :
    Walks S F F w (functionOf callee) (fun w' r => r.1.In w' ∧ r.2.In w') :=
  hcallee.bind fun _ _ _ hf => pure fun _ hw => ⟨hf.mono hw, trivial⟩

theorem callAt_walks (henv : env.In w) (hi : ¬ F.held i) (callee : String) {f this : Value}
    {args : List Value} (hf : f.In w) (hthis : this.In w) (hargs : Values.In w args) :
    Walks S F F w (callAt env i callee f this args) Value.In := by
  refine (markPending_walks hi).next fun _ => (starting_walks i).next fun _ => ?_
  refine (Walks.lift (Machine.ask_any _)).next fun callable => ?_
  split
  · exact Walks.lift (henv.invoke hf hthis hargs)
  · exact Walks.lift (Machine.typeError_upright _)

theorem constructAt_walks (henv : env.In w) (hi : ¬ F.held i) (callee : String) {f : Value}
    {args : List Value} (hf : f.In w) (hargs : Values.In w args) :
    Walks S F F w (constructAt env i callee f args) Value.In := by
  refine (markPending_walks hi).next fun _ => (starting_walks i).next fun _ => ?_
  refine (Walks.lift (Machine.ask_any _)).next fun callable => ?_
  split
  · exact Walks.lift (Machine.construct_upright henv.invoke hf hargs)
  · exact Walks.lift (Machine.typeError_upright _)

theorem updating_walks (hi : ¬ F.held i) {op : UpdateOp} {before : Bool} {read : ActM Value}
    {write : Value → ActM Unit} (hread : Walks S F F w read Value.In)
    (hwrite : ∀ x : Float, Walks S F F w (write (.num x)) Any) :
    Walks S F F w (updating env i op before read write) Value.In :=
  hread.next fun v => (Walks.lift (Machine.number_upright v)).next fun _ =>
    (markPending_walks hi).next fun _ => (starting_walks i).next fun _ =>
      (hwrite _).next fun _ => value trivial

theorem assigning_walks (henv : env.In w) {op : Option BinaryOp} {read value : ActM Value}
    {write : Value → ActM Unit} (hread : Walks S F F w read Value.In)
    (hvalue : Walks S F F w value Value.In)
    (hwrite : ∀ w' v, w ≤ w' → v.In w' → Walks S F F w' (write v) Any) :
    Walks S F F w (assigning env op read value write) Value.In := by
  have hrest : ∀ w' v, w ≤ w' → v.In w' → Walks S F F w' (do write v; return v) Value.In :=
    fun w' v hw hv => (hwrite w' v hw hv).bind fun _ _ hw' _ => Walks.value (hv.mono hw')
  cases op with
  | none => exact hvalue.bind hrest
  | some op =>
      refine hread.bind fun w₁ current hw₁ _ => (hvalue.mono hw₁).bind fun w₂ r hw₂ hr => ?_
      refine (Walks.lift (Machine.binary_upright henv.invoke op current hr)).bind
        fun w₃ v hw₃ hv => ?_
      exact hrest w₃ v (le_trans hw₁ (le_trans hw₂ hw₃)) hv

theorem define_upright (a : Address) (key : String) {v : Value} (hv : v.In w) (kind : PropKind) :
    Upright w (define a key v kind) Any := by
  have hgiven : ∀ w', w ≤ w' → ∀ u, some v = some u → u.In w' := fun w' hw u hu => by
    cases hu
    exact hv.mono hw
  cases kind with
  | init => exact Machine.setOwn_upright a key hv
  | getter =>
      exact Machine.modify_upright a fun w' o hw ho =>
        ⟨ho.defineAccessor key (hgiven w' hw) nofun, rfl⟩
  | setter =>
      exact Machine.modify_upright a fun w' o hw ho =>
        ⟨ho.defineAccessor key nofun (hgiven w' hw), rfl⟩

theorem scopeRecord_upright {v : Value} (hv : v.In w) :
    Upright w (scopeRecord v) (fun w' a => a < w'.size) := by
  unfold scopeRecord
  split
  · exact .pure fun _ hw => Value.In.mono hw hv
  · exact Machine.typeError_upright _
  · exact Machine.typeError_upright _
  · exact Machine.newRecord_upright

/-! ## Pauses -/

/-- The machine may raise a pause at a statement at which a way ends. -/
theorem pausing_walks {y : MachineM α} {R : Realm → α → Prop} {target : Stmt}
    {ways : Cache → Nat → Stmt → Nat → Prop}
    (hy : ∀ m : Machine, m.Sound → w ≤ m.realm → Machine.Ended m.realm R (y m) ∨
      ∃ m' : Machine, y m = .error (.unwind (.ofSignal (.pause i))) m' ∧ m'.Sound ∧ m.realm ≤ m'.realm)
    (hrecords : S.records = true) (hcovers : S.Covers F ways) (hway : ∀ cache, ways cache i target 0) :
    Walks S F F w (lift y) R := by
  intro act m hs hc
  have hm : (m.suspend act).Sound := ⟨hs.machine.heap, hs.machine.built, hs.machine.methods⟩
  rcases hy (m.suspend act) hm hs.grown with hends | ⟨m', hpause, hm', hle⟩
  · exact reaches_lift hs hc hends
  · unfold lift
    dsimp only
    rw [hpause]
    refine ⟨⟨⟨hm'.heap, hm'.built, hm'.methods⟩, hle, hs.activation.mono hle,
      fun h k hk => hs.holds h k hk.1⟩, .inr ⟨i, target, [], rfl, hrecords, ?_, ?_, ?_⟩⟩
    · exact hcovers.way (hs.holds hrecords) (hway _)
    · rw [hc, hcovers.base]
      rfl
    · exact List.forall_mem_nil _

theorem debugging_walks {target : Stmt} {ways : Cache → Nat → Stmt → Nat → Prop}
    (henv : env.records = S.records) (hcovers : S.Covers F ways)
    (hway : ∀ cache, ways cache i target 0) :
    Walks S F F w (debugging env i) Flow.In := by
  unfold debugging
  split
  · rename_i hrecords
    refine (record_walks (v := .undefined) trivial).next fun _ => (mark_walks env i).next fun _ => ?_
    refine (pausing_walks (R := Any) (fun m hm _ => ?_) (henv ▸ hrecords) hcovers hway).next
      fun _ => Walks.normal
    cases hdebugging : m.debugging with
    | true =>
        refine .inr ⟨m.paused, ?_, ⟨hm.heap, hm.built, hm.methods⟩, le_rfl⟩
        change (if m.debugging then Machine.pauseAt i else _ : MachineM Unit) m = _
        rw [hdebugging]
        rfl
    | false =>
        refine .inl ?_
        change Machine.Ended m.realm Any ((if m.debugging then Machine.pauseAt i else
          Machine.chronicling (fun _ c => { c with passed := c.passed + 1 }) : MachineM Unit) m)
        rw [hdebugging]
        exact ⟨⟨hm.heap, hm.built, hm.methods⟩, le_rfl, trivial⟩
  · exact (done (a := ())).next fun _ => Walks.normal

end ActM

theorem endSwitch_in {w : Realm} {flow : Flow} (h : flow.In w) : flow.endSwitch.In w := by
  cases flow with
  | ret v => exact h
  | normal | brk | cont => trivial

/-! ## The ways into the parts -/

section

variable {w : Realm} {S : Stage} {F : Footing} {t : IndexedTree} {i j : Nat} {link : Link} {object : Expr} {body : Stmt} {block : List Stmt}
  {finalizer : Option (List Stmt)}

theorem covers_withScope (h : S.Covers F (t.ways i (.withScope object body))) :
    (S.enter link).Covers (F.enter link) (t.ways (t.after (i + 1)) body) where
  base := congrArg (link :: ·) h.base
  way hheld hway := h.way hheld (.scope hway)

theorem covers_handler {handler : Handler}
    (h : S.Covers F (t.ways i (.attempt block (some handler) finalizer))) :
    (S.enter link).Covers (F.enter link)
      (t.waysOfList (t.afterMany block.length (i + 1) + 1) handler.body) where
  base := congrArg (link :: ·) h.base
  way hheld hway := by
    obtain ⟨param, body⟩ := handler
    exact h.way hheld (.handler hway)

theorem covers_forIn {left : ForTarget} {right : Expr}
    (h : S.Covers F (t.ways i (.forIn left right body)))
    (hj : j = if left.isExpr then t.after (i + 1) else i + 1) :
    S.Covers (F.holding j) (t.ways (t.after j) body) where
  base := h.base
  way hheld hway := h.way (fun k hk => hheld k (.inr hk)) (.keyBody hj (hheld j (.inl rfl)) hway)

end

/-! ## Functions -/

theorem Registry.Built.at_of_node? {r : Registry} {t : IndexedTree} {i : Nat} {n : Node} (hr : r.Built)
    (ht : t ∈ r.trees) (hn : t.node? i = some n) : t.At i n := by
  have heq := hr.eq_ofFunc ht
  rw [heq] at hn ⊢
  exact IndexedTree.at_of_node? hn

/-- The body of a function of a registered tree stands right behind the function. -/
theorem Registry.Built.at_body {r : Registry} {t : IndexedTree} {i : Nat} {f : Func} (hr : r.Built)
    (ht : t ∈ r.trees) (hf : t.func? i = some f) :
    t.owns i = true ∧ t.AtAll (i + 1) (Node.ofStmts f.body) := by
  obtain ⟨n, hn, hfunc⟩ := Option.bind_eq_some_iff.1 hf
  have hat := hr.at_of_node? ht hn
  exact ⟨hat.owns, Node.children_of_func? hfunc ▸ hat.children⟩

/-- The body of a function begins in the record of the function, and no result is held. -/
def Footing.start (chain : Chain) : Footing := ⟨chain, fun _ => False⟩

def Stage.ofBody (env : Env) (t : IndexedTree) (f : Func) (chain : Chain) : Stage where
  records := env.records
  base := chain
  way := t.waysOfList (env.index + 1) f.body

theorem Footing.start_along {t : IndexedTree} {i : Nat} {l : List Node} {chain : Chain}
    (hat : t.AtAll i l) : t.Along ((Footing.start chain).Frees t) i l :=
  Footing.along_of_atAll hat fun _ h => h.elim

theorem Stage.covers_body (env : Env) (t : IndexedTree) (f : Func) (chain : Chain) :
    (Stage.ofBody env t f chain).Covers (.start chain) (t.waysOfList (env.index + 1) f.body) :=
  ⟨rfl, fun _ h => h⟩

/-- The record of a function is new, holds what it was called with, and inherits nothing. -/
theorem entryRecord_record {args : List Value} (hargs : Values.In w args) (params vars : List String)
    {self : Option (String × Value)} (hself : ∀ p, self = some p → p.2.In w) :
    (entryRecord params args vars self).Record w := by
  have hparams : Object.Record w
      (params.zipIdx.foldl (fun o p => o.setOwn p.1 (Machine.arg args p.2)) (.new .plain none)) :=
    List.foldlRecOn _ _ .new fun o ho p _ => ho.setOwn p.1 (hargs.getD p.2)
  have hvars : Object.Record w (vars.foldl _ _) :=
    List.foldlRecOn vars _ hparams fun o ho name _ => ho.bind name (v := .undefined) trivial
  unfold entryRecord
  cases self with
  | none => exact hvars
  | some p => exact hvars.bind p.1 (hself p rfl)

/-- A call begins with empty books. -/
theorem Activation.In.new {a : Address} {outer : Chain} (ha : a < w.size) (houter : Chain.In w outer)
    (site : Site) (last : Nat) :
    Activation.In w
      { site, chain := ⟨.function, a⟩ :: outer, cache := [], last, arguments := none, pending := []
        pc := none } where
  chain := .cons ha houter
  anchored := Chain.anchored_function a outer
  cache := List.forall_mem_nil _
  arguments := nofun
  pending := List.forall_mem_nil _
  inner := List.forall_mem_nil _

theorem frameInfo_in {env : Env} {act : Activation} (henv : env.In w) (hact : act.In w) :
    (frameInfo env act).In w :=
  ⟨henv.this, henv.args, hact.chain, hact.anchored, hact.cache⟩

/-- The note of a function that is left by a pause of its own has the way to the statement that paused
it. -/
theorem Stage.Paused.in_store {env : Env} {t : IndexedTree} {f : Func} {act : Activation} {u : Unwind}
    {a : Address} {outer : Chain} (henv : env.For t w) (hns : env.ns = t.ns)
    (howns : t.owns env.index = true) (hfunc : t.func? env.index = some f)
    (hbody : t.AtAll (env.index + 1) (Node.ofStmts f.body)) (hact : act.In w)
    (hpaused : (Stage.ofBody env t f (⟨.function, a⟩ :: outer)).Paused act u) :
    (u.store (frameInfo env act)).In w := by
  obtain ⟨p, target, inner, rfl, -, hway, hchain, hinner⟩ := hpaused
  obtain ⟨r, hkept, ht⟩ := henv.kept
  have htree : r.tree env.ns env.index = .ok t :=
    hkept.built.tree_eq_ok_iff.2 ⟨List.mem_filter.2 ⟨ht, beq_iff_eq.2 hns.symm⟩, howns⟩
  exact Unwind.in_store_pause (frameInfo_in henv.toIn hact)
    (.mk hkept htree hfunc hbody hchain hinner hway)

/-- A function that is left by a pause leaves a note with the way to the statement that paused it. -/
theorem runActivation_upright {env : Env} {t : IndexedTree} {f : Func} {act : Activation}
    {body : ActM Flow} {a : Address} {outer : Chain} (henv : env.For t w) (hns : env.ns = t.ns)
    (howns : t.owns env.index = true) (hfunc : t.func? env.index = some f)
    (hbody : t.AtAll (env.index + 1) (Node.ofStmts f.body)) (hact : act.In w)
    (hchain : act.chain = ⟨.function, a⟩ :: outer)
    (hwalks : Walks (Stage.ofBody env t f act.chain) (.start act.chain) (.start act.chain) w body
      Flow.In) :
    Upright w (runActivation env act body) Value.In := by
  intro m hm hle
  have hends := hwalks act m ⟨hm, hle, hact.mono hle, fun _ _ h => h.elim⟩ rfl
  rw [runActivation]
  generalize body (act, m) = ended at hends ⊢
  rcases ended with ⟨flow, act', m'⟩ | ⟨u | _, act', m'⟩
  · obtain ⟨hs, -, hflow⟩ := hends
    cases flow with
    | ret v => exact ⟨hs.machine, hs.grown, hflow⟩
    | normal | brk | cont => exact ⟨hs.machine, hs.grown, trivial⟩
  · obtain ⟨hs, hu⟩ := hends
    have henv' := henv.mono (le_trans hle hs.grown)
    have hescape : (if u.isPause then m' else m'.escape).Sound ∧
        (if u.isPause then m' else m'.escape).realm = m'.realm := by
      split
      · exact ⟨hs.machine, rfl⟩
      · exact ⟨⟨hs.machine.heap, hs.machine.built, hs.machine.methods⟩, rfl⟩
    dsimp only
    generalize (if u.isPause then m' else m'.escape) = m₁ at hescape ⊢
    obtain ⟨hm₁, hrealm⟩ := hescape
    have hgrown : m.realm ≤ m₁.realm := hrealm ▸ hs.grown
    split
    · refine ⟨hm₁, hgrown, ?_⟩
      rw [hrealm]
      rcases hu with hu | hpaused
      · exact hu.store (frameInfo_in henv'.toIn hs.activation)
      · rw [hchain] at hpaused
        exact hpaused.in_store henv' hns howns hfunc hbody hs.activation
    · rename_i hrecords
      refine ⟨hm₁, hgrown, hrealm ▸ hu.resolve_right fun hpaused => ?_⟩
      obtain ⟨-, -, -, -, h, -⟩ := hpaused
      exact hrecords h
  · exact hends

end Resumption
