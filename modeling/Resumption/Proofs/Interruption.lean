import Resumption.Proofs.Resuming

/-!
# A program that is interrupted

A program may be paused in its own frame, at its `debugger` statements or wherever a hook halts it, and
resumed each time.  Nothing that it does shows that it was: it comes to the end that it would have come to
by itself.  What it calls is not interrupted, so all of it runs alike.
-/

namespace Resumption

open Script

/-- A `debugger` statement stands inside of one of the program's functions, other than those without
books. -/
def Script.Program.PausesInside (p : Program) : Prop :=
  ∃ b ∈ Node.ofStmts p.body, ∃ n ∈ b.traced, (∃ f, n.Introduces f) ∧ Node.stmt .debugger ∈ n.traced

/-- The position is inside of a function that is made by the code of the tree. -/
def IndexedTree.Inside (t : IndexedTree) (j : Nat) : Prop :=
  ∃ i n f, n.Introduces f ∧ t.At i n ∧ i < j ∧ j < t.after i

/-- The states of a hook that is asked again and again. -/
inductive Hook.Becomes (hook : Hook) : Hook → Prop
  | here : hook.Becomes hook
  | asked {later : Hook} (h : hook.Becomes later) (moment : Moment) : hook.Becomes (later.ask moment).2

/-- In one of its states the hook halts at the position. -/
def Hook.MayHalt (hook : Hook) (i : Nat) : Prop :=
  ∃ later moment, hook.Becomes later ∧ moment.index = i ∧ (later.ask moment).1 = true

variable {T : Terms} {w w' : World} {m m' : Machine} {registry : Nat} {p : Program} {a : Address}
  {names : List String} {closure : SteppedClosure} {n : Node} {f : Func} {fuel fuel' : Nat}

/-! ## The outermost function -/

/-- Results are in order, and nobody asks for the arguments. -/
def Stance.bare : Stance := ⟨none, Cache.Sorted, False, False⟩

theorem Cache.vacant_sorted (i : Nat) : Vacant Cache.Sorted i :=
  fun _ hsorted => ⟨hsorted.insert i, hsorted.erase i⟩

/-- Every node of a program takes part that never asks for the arguments of a function and pauses in its
own frame only. -/
theorem fair_of_not_pausesInside (hsolo : T.solo = false) (hp : ¬ p.Mentions argumentsName)
    (hdebugger : ¬ p.PausesInside) : ∀ b ∈ Node.ofStmts p.body, T.Fair .top b := by
  intro b hb
  have hargs : ∀ c ∈ b.traced, c ≠ .expr (.ident argumentsName) := by
    rintro c hc rfl
    exact hp (Node.mem_preorder_of_child hb (b.traced_subset_preorder hc))
  refine .of_top hsolo (fun c hc => Terms.admits_of_opens hsolo rfl (hargs c hc) fun _ h => absurd rfl h)
    fun n hn f hf c hc => ?_
  refine Terms.admits_of_opens hsolo rfl (hargs c (Node.mem_traced_trans hn hc)) fun _ _ => ?_
  rintro rfl
  exact hdebugger ⟨b, hb, n, hn, ⟨f, hf⟩, hc⟩

/-- Calls of a function on both sides, with more fuel on the left. -/
theorem Calling.of_le (hsolo : T.solo = false) (hT : T.Coherent) (hpauses : T.pauses = .left)
    (hfuel : fuel' ≤ fuel) (hw : w.building = none) :
    Calling T w (Machine.call fuel) (Machine.call fuel') fuel fuel' .undefined .undefined [] := by
  have hfuels : T.Fuels fuel fuel' := .of_loose (by rw [Terms.loose, hpauses]; rfl) hfuel
  refine ⟨fun _ => Machine.call_alike hsolo hT hfuels, fun h => ?_, hfuels, trivial, trivial,
    fun v hv => absurd hv List.not_mem_nil, hw⟩
  rw [hsolo] at h
  cases h

section

variable {invoke invoke' : Invoke} {this callee : Value} {args : List Value}

/-- The outermost function is walked on both sides. -/
theorem SteppedClosure.Ready.walked_top (hsolo : T.solo = false)
    (h : Calling T w invoke invoke' fuel fuel' callee this args) (ready : closure.Ready T w .top n f)
    (hmode : closure.mode = .recording) (hT : T.mode = .recording) (hpauses : T.pauses = .left)
    (hquiet : ∀ i n f, n.Introduces f → closure.tree.At i n → T.Quiet (i + 1) (closure.tree.after i))
    (ha : w.role? a = some (.scope names true)) :
    Walked T .top closure.tree (Stance.bare.opened a closure.chain) w
      (⟨.function, a⟩ :: closure.chain) (closure.fixed invoke fuel this args)
      (closure.fixed invoke' fuel' this args) := by
  have hsound := ready.chain.opened (List.prefix_refl _) ha
  exact {
    envs := h.walked
    chain := rfl
    live := hsound.live
    records := rfl
    sound := fun _ => hsound
    alone := nofun
    own := nofun
    free := nofun
    kept := fun hs => ⟨by rw [SteppedClosure.fixed, hmode]; rfl, hT, ready.registered hs⟩
    quiet := fun _ => hquiet
    bare := fun _ => id
    halts := fun _ => ⟨rfl, hpauses, fun _ _ hbooks => hbooks⟩
    sorted := fun _ _ => id
    anew := nofun
    dooms := fun h => by rw [hsolo] at h; cases h }

/-- The outermost function's code runs on the left. -/
theorem SteppedClosure.Ready.pictured_top {scopes : Code.Scopes} (hsolo : T.solo = false)
    (h : Calling T w invoke invoke' fuel fuel' callee this args) (ready : closure.Ready T w .top n f)
    (fits : Chain.Fits w scopes closure.chain) (hmode : closure.mode = .recording)
    (hT : T.mode = .recording) (hspared : T.spared = none)
    (ha : w.role? a = some (.scope (closure.tree.ownNames closure.index n f) true)) :
    Pictured T .top closure.tree (Stance.bare.opened a closure.chain) w
      (⟨.function, closure.tree.ownNames closure.index n f⟩ :: scopes) (⟨.function, a⟩ :: closure.chain)
      (closure.fixed invoke fuel this args) (closure.fixed invoke' fuel' this args) := by
  have hsound := ready.chain.opened (List.prefix_refl _) ha
  have hrecords : closure.mode == .recording := by rw [hmode]; rfl
  exact {
    envs := h.walked
    chain := rfl
    live := hsound.live
    fits := ⟨⟨rfl, true, ha⟩, fits⟩
    records := hrecords
    mode := by rw [hT]; exact hrecords
    registered := ready.registered nofun
    manner := nofun
    sound := fun _ => hsound
    alone := nofun
    own := nofun
    unhooked := fun _ => hspared
    bare := fun _ => id
    sorted := fun _ _ => id
    dooms := fun h => by rw [hsolo] at h; cases h }

end

/-- The fixed part of a call with so much fuel that is given nothing. -/
def SteppedClosure.running (closure : SteppedClosure) (fuel : Nat) : Env :=
  closure.fixed (Machine.call fuel) fuel .undefined []

/-- The function of the running closure stands in its tree. -/
theorem SteppedClosure.Ready.site_stands (ready : closure.Ready T w .top n f)
    (hmode : closure.mode = .recording) (fuel : Nat) :
    (closure.running fuel).toSite.Stands T closure.tree f where
  ns := rfl
  func := ready.func?_eq
  registered := ready.registered nofun _ ready.stands.owns
  records := by rw [running, fixed, hmode]; rfl

/-- A function that does not know itself. -/
theorem IndexedTree.entered_unnamed {t : IndexedTree} {i : Nat} {args : List Value}
    (h : n.selfName? = none) (callee : Value) :
    t.entered i n f args callee = t.entered i n f args .undefined := by
  rw [entered, entered, h]
  rfl

/-- The outermost function is called on both sides, and its body on the left pursues the walk on the
right. -/
theorem SteppedClosure.Ready.catchesUp {k k' : Nat} {make : Address → ActM Unit} {body : ActM Flow}
    (hsolo : T.solo = false) (hT : T.Coherent) (hpauses : T.pauses = .left)
    (ready : closure.Ready T w .top n f) (hself : n.selfName? = none) (hmode : closure.mode = .recording)
    (hk : k' ≤ k) (hfuel : k' ≤ fuel) (hw : w.building = none) (hm : m.Match T w m')
    (hunder : m.Underway) (callee : Value)
    (hmake : ∀ w', w ≤ w' →
      w'.role? m.heap.size = some (.scope (closure.tree.ownNames closure.index n f) true) →
      ∀ w'', w'.roles <+: w''.roles → ASim T (Stance.bare.opened m.heap.size closure.chain) w''
        (make m.heap.size)
        (Stepper.instantiate (closure.running k') closure.tree m.heap.size
          (closure.tree.declarationsOf f closure.index).functions) Equal)
    (hmakes : Policy.standing.activation.Obeyed (make m.heap.size))
    (hbody : Policy.standing.activation.Obeyed body)
    (hpursues : ∀ w₁, w ≤ w₁ →
      w₁.role? m.heap.size = some (.scope (closure.tree.ownNames closure.index n f) true) →
      ∃ lo hi, Follows T (fun _ _ _ _ _ => False) (Stance.bare.opened m.heap.size closure.chain)
        (⟨.function, m.heap.size⟩ :: closure.chain) lo hi w₁ body
        (Stepper.execList (closure.running fuel) closure.tree (closure.index + 1) f.body)
        (Stepper.execList (closure.running k') closure.tree (closure.index + 1) f.body) Flowing)
    (hends : ∀ m₁, Machine.closed (Stepper.call (Machine.call k') k' closure callee .undefined [] m') ≠
      .error .exhausted m₁) (m₀ : Machine) :
    ∃ o m₁, Machine.conclude m₀ id (Machine.closed ((closure.running k).opening
        (closure.tree.entered closure.index n f [] .undefined) closure.chain make body m)) = .ok o m₁ ∧
      Machine.CatchesUp T fuel w o m₁
        (Machine.closed (Stepper.call (Machine.call k') k' closure callee .undefined [] m')) := by
  have hshown : ∀ v ∈ ([] : List Value), v.Shown w := nofun
  have hcall : Stepper.call (Machine.call k') k' closure callee .undefined [] m' =
      (closure.running k').opening (closure.tree.entered closure.index n f [] .undefined) closure.chain
        (fun a => Stepper.instantiate (closure.running k') closure.tree a
          (closure.tree.declarationsOf f closure.index).functions)
        (Stepper.execList (closure.running k') closure.tree (closure.index + 1) f.body) m' := by
    rw [Stepper.call_eq_opening ready.stands ready.func _ _ callee .undefined hshown,
      IndexedTree.entered_unnamed hself]
    rfl
  rw [hcall] at hends ⊢
  obtain ⟨hbinds, hpresent⟩ := IndexedTree.entered_binds (t := closure.tree) (i := closure.index)
    (n := n) (f := f) hshown (show Value.Shown w .undefined from trivial) ready.counts
  have hmatch : ∀ {k}, k' ≤ k → (closure.running k).Match T w (closure.running k') :=
    fun hk => (Calling.of_le hsolo hT hpauses hk hw).walked
  have hnotes : ∀ u s, T.Strays u → Machine.closed ((closure.running k).opening
      (closure.tree.entered closure.index n f [] .undefined) closure.chain make body m) =
        .error (.unwind u) s → u.infos ≠ [] := by
    intro u s _ hleft
    exact Env.infos_of_leave (ready.site_stands hmode k).records
      ((congrArg Machine.closed (runActivation_eq_leave ..)).symm.trans hleft)
  obtain ⟨w₁, s, s', hw₁, ha, hs, hmade, hleft, hright⟩ | ⟨u, s, hstrays, hleft⟩ :=
    (hmatch hk).opens (S := .bare) hm hbinds hpresent (fun d hd => ready.isSome_declared hd) .nil
      closure.chain make body
      (Stepper.execList (closure.running k') closure.tree (closure.index + 1) f.body) hmake
  case inr =>
    refine Machine.CatchesUp.of_ends hpauses (Machine.closed_ends ?_) hends m₀ hnotes
    rw [hleft]
    exact .strayed hstrays
  have hstart : s.2.Underway := by
    have hmakes := hmakes ((closure.running k).toSite.start (⟨.function, m.heap.size⟩ :: closure.chain),
      { m with heap := (m.heap.alloc (closure.tree.entered closure.index n f [] .undefined)).2 })
    rw [hmade] at hmakes
    exact (hunder.withHeap _).stays hmakes
  rw [hright] at hends
  obtain ⟨lo, hi, hfollows⟩ := hpursues w₁ hw₁ ha
  rw [hleft, hright]
  obtain ⟨o, m₁, hrun, hcatches⟩ := (hfollows s s' hs).catchesUp hsolo hpauses
    (ready.site_stands hmode k) rfl ((hmatch hk).mono hw₁) ((hmatch hfuel).mono hw₁) hstart (hbody s)
    (fun s₁ hexhausted => hends _ (by rw [hexhausted]; rfl)) m₀
  exact ⟨o, m₁, hrun, hcatches.of_le hw₁⟩

/-! ## Its two ways of running -/

section

variable {k k' : Nat} {callee : Value}

/-- The outermost function is walked on both sides, and taken up on the left as often as it is paused. -/
theorem SteppedClosure.Ready.walked_catchesUp (hsolo : T.solo = false) (hT : T.Coherent)
    (hmode : T.mode = .recording) (hpauses : T.pauses = .left) (ready : closure.Ready T w .top n f)
    (hself : n.selfName? = none) (hrecording : closure.mode = .recording)
    (hquiet : ∀ i n f, n.Introduces f → closure.tree.At i n → T.Quiet (i + 1) (closure.tree.after i))
    (hk : k' ≤ k) (hfuel : k' ≤ fuel) (hw : w.building = none) (hm : m.Match T w m')
    (hunder : m.Underway)
    (hends : ∀ m₁, Machine.closed (Stepper.call (Machine.call k') k' closure callee .undefined [] m') ≠
      .error .exhausted m₁) (m₀ : Machine) :
    ∃ o m₁, Machine.conclude m₀ id (Machine.closed
        (Stepper.call (Machine.call k) k closure callee .undefined [] m)) = .ok o m₁ ∧
      Machine.CatchesUp T fuel w o m₁
        (Machine.closed (Stepper.call (Machine.call k') k' closure callee .undefined [] m')) := by
  have hwalked : ∀ {k}, k' ≤ k → ∀ {w' names}, w ≤ w' →
      w'.role? m.heap.size = some (.scope names true) →
      Walked T .top closure.tree (Stance.bare.opened m.heap.size closure.chain) w'
        (⟨.function, m.heap.size⟩ :: closure.chain) (closure.running k) (closure.running k') :=
    fun hk _ _ hw' ha => (ready.mono hw'.roles).walked_top hsolo
      ((Calling.of_le hsolo hT hpauses hk hw).mono hw') hrecording hmode hpauses hquiet ha
  have hcall : Stepper.call (Machine.call k) k closure callee .undefined [] m =
      (closure.running k).opening (closure.tree.entered closure.index n f [] .undefined) closure.chain
        (fun a => Stepper.instantiate (closure.running k) closure.tree a
          (closure.tree.declarationsOf f closure.index).functions)
        (Stepper.execList (closure.running k) closure.tree (closure.index + 1) f.body) m := by
    rw [Stepper.call_eq_opening (w := w) ready.stands ready.func _ _ callee .undefined
        (fun _ hv => absurd hv List.not_mem_nil),
      IndexedTree.entered_unnamed hself]
    rfl
  rw [hcall]
  refine ready.catchesUp hsolo hT hpauses hself hrecording hk hfuel hw hm hunder callee
    (fun w' hw' ha w'' hroles => Stepper.instantiate_sim (hwalked hk hw' ha)
      (fun d hd => ready.declared (fun _ _ => .of_vacant Cache.vacant_sorted) nofun hd) hroles (World.role?_mono hroles ha))
    (Stepper.instantiate_obeyed _ _ _) (Stepper.execList_obeyed (Machine.call_obeys k) _ _)
    (fun w₁ hw₁ ha => ⟨_, _, (Stepper.execList_walked (Stepper.Seated.of_free hsolo) ?_ _ _
      (ready.body (fun _ _ => .of_vacant Cache.vacant_sorted) nofun)).first⟩) hends m₀
  have hfirst := hwalked hk hw₁ ha
  exact {
    scene := hfirst.toScene
    fuel := (hwalked hfuel hw₁ ha).envs.fuel
    records := fun _ => (hfirst.kept nofun).1
    free := nofun
    bare := hfirst.bare
    dooms := hfirst.dooms
    walked := fun _ => hwalked hfuel hw₁ ha
    left := hfirst }

/-- The outermost function's code runs on the left until it is paused, and then it is taken up. -/
theorem SteppedClosure.Ready.lowered_catchesUp {scopes : Code.Scopes} {code : Code.Func}
    (hsolo : T.solo = false) (hT : T.Coherent) (hmode : T.mode = .recording) (hpauses : T.pauses = .left)
    (hspared : T.spared = none) (ready : closure.Ready T w .top n f) (hself : n.selfName? = none)
    (lowered : Code.lowerFunc closure.tree scopes closure.index n.selfName? f = .ok code)
    (fits : Chain.Fits w scopes closure.chain) (hrecording : closure.mode = .recording)
    (hk : k' ≤ k) (hfuel : k' ≤ fuel) (hw : w.building = none) (hm : m.Match T w m')
    (hunder : m.Underway)
    (hends : ∀ m₁, Machine.closed (Stepper.call (Machine.call k') k' closure callee .undefined [] m') ≠
      .error .exhausted m₁) (m₀ : Machine) :
    ∃ o m₁, Machine.conclude m₀ id (Machine.closed (Instrumented.call (Machine.call k) k
        ⟨code, closure.chain, closure.registry⟩ callee .undefined [] m)) = .ok o m₁ ∧
      Machine.CatchesUp T fuel w o m₁
        (Machine.closed (Stepper.call (Machine.call k') k' closure callee .undefined [] m')) := by
  obtain ⟨hhoisted, hcode, -⟩ := Code.lowerFunc_body lowered
  have hroom : ∀ lo hi, Room .top closure.tree Cache.Sorted lo hi := fun _ _ => .of_vacant Cache.vacant_sorted
  have hbody := ready.body hroom fun h => by cases h
  have hdeclared := fun d hd => (ready.declared hroom (fun h => by cases h) (d := d) hd).1
  have hpictured : ∀ {w'}, w ≤ w' →
      w'.role? m.heap.size = some (.scope (closure.tree.ownNames closure.index n f) true) →
      Pictured T .top closure.tree (Stance.bare.opened m.heap.size closure.chain) w'
        (⟨.function, closure.tree.ownNames closure.index n f⟩ :: scopes)
        (⟨.function, m.heap.size⟩ :: closure.chain) (closure.running k) (closure.running k') :=
    fun hw' ha => (ready.mono hw'.roles).pictured_top hsolo
      ((Calling.of_le hsolo hT hpauses hk hw).mono hw') (fits.mono hw'.roles) hrecording hmode hspared ha
  have hcall : Instrumented.call (Machine.call k) k ⟨code, closure.chain, closure.registry⟩ callee
      .undefined [] m =
        (closure.running k).opening (closure.tree.entered closure.index n f [] .undefined) closure.chain
          (fun a => Instrumented.instantiate (closure.running k) a code.hoisted)
          (Instrumented.execList (closure.running k) code.body) m := by
    have hrecords : { closure.running k with records := true } = closure.running k := by
      rw [running, fixed, hrecording]
      rfl
    rw [Instrumented.call_eq_opening lowered, IndexedTree.entered_unnamed hself,
      show { closure.fixed (Machine.call k) k .undefined [] with records := true } =
        closure.running k from hrecords]
  rw [hcall]
  refine ready.catchesUp hsolo hT hpauses hself hrecording hk hfuel hw hm hunder callee
    (fun w' hw' ha w'' hroles => Instrumented.instantiate_sim (hpictured hw' ha)
      (Code.lowerStmts_finds _ _ _ hcode) hbody (fun d hd => ⟨hdeclared d hd, Declarations.mem_ofList hd⟩)
      hhoisted hroles (World.role?_mono hroles ha))
    (Instrumented.instantiate_obeyed (Machine.call_obeys k) _ _)
    (Instrumented.execList_obeyed (Machine.call_obeys k) _)
    (fun w₁ hw₁ ha => ⟨_, _, (Instrumented.execList_lowered (Instrumented.Seated.of_free hsolo) ?_ _ _ hcode
      hbody).first⟩) hends m₀
  have hfirst := hpictured hw₁ ha
  have hagain := (Calling.of_le hsolo hT hpauses hfuel hw).mono hw₁
  exact {
    scene := hfirst.toScene
    fuel := hagain.fuel
    records := fun _ => hfirst.records
    free := fun h => by cases h
    bare := hfirst.bare
    dooms := hfirst.dooms
    walked := fun _ => (ready.mono hw₁.roles).walked_top hsolo hagain hrecording hmode hpauses
      (fun _ _ _ _ _ sparing h => by rw [hspared] at h; cases h) ha
    left := hfirst }

end

/-! ## A program that is paused twice -/

/-- The program `debugger; debugger;`. -/
def twicePaused : Program := ⟨[.debugger, .debugger]⟩

def twicePausedTree : IndexedTree := ⟨"default", 0, twicePaused.toFunc, true, #[3, 1, 1]⟩

def twicePausedCode : Code.Func :=
  ⟨none, "default", 0, [], [], none, [], [.debugger 1, .debugger 2], true⟩

theorem assign_twicePaused : Registry.empty.assign twicePaused.toFunc "default" true =
    (twicePausedTree, ⟨[twicePausedTree]⟩) := by
  cbv

theorem instrument_twicePaused :
    Code.instrument twicePaused.toFunc Registry.empty "default" [] true =
      (.ok twicePausedCode, ⟨[twicePausedTree]⟩) := by
  have hsupported : Code.firstUnsupported (Registry.empty.next "default") (.func twicePaused.toFunc) =
      none := by
    cbv
  have hprogram : twicePausedTree.declarationsOf twicePaused.toFunc 0 = ⟨[], []⟩ := by cbv
  refine (Code.instrument_of_supported hsupported).trans ?_
  rw [assign_twicePaused, show Registry.empty.next "default" = 0 from rfl]
  simp only [Program.toFunc, twicePaused] at hprogram ⊢
  simp only [Code.lowerFunc, hprogram, Code.lowerStmts, Code.lowerStmt]
  rfl

theorem twicePaused_preorder : (Node.func twicePaused.toFunc).preorder =
    [.func twicePaused.toFunc, .stmt .debugger, .stmt .debugger] := by
  cbv

theorem twicePaused_mentions : ¬ twicePaused.Mentions argumentsName := by
  rw [Program.Mentions, twicePaused_preorder]
  simp

theorem twicePaused_pausesInside : ¬ twicePaused.PausesInside := by
  rintro ⟨b, hb, n, hn, ⟨f, hf⟩, -⟩
  have hmem := Node.mem_preorder_of_child (n := .func twicePaused.toFunc) hb (b.traced_subset_preorder hn)
  rw [twicePaused_preorder] at hmem
  rcases hf with rfl | rfl <;> simp at hmem

theorem twicePaused_inside (i : Nat) : ¬ twicePausedTree.Inside i := by
  rintro ⟨j, n, f, hf, hat, -⟩
  have hnode := hat.node?
  have howns := hat.owns
  have hlt : j < 3 := by
    simpa [IndexedTree.owns, IndexedTree.length, twicePausedTree] using howns
  have hnodes : twicePausedTree.node? 0 = some (.func twicePaused.toFunc) ∧
      twicePausedTree.node? 1 = some (.stmt .debugger) ∧
      twicePausedTree.node? 2 = some (.stmt .debugger) := by
    refine ⟨?_, ?_, ?_⟩ <;> cbv
  obtain rfl | rfl | rfl : j = 0 ∨ j = 1 ∨ j = 2 := by omega
  · rw [hnodes.1] at hnode
    rcases hf with rfl | rfl <;> cases hnode
  · rw [hnodes.2.1] at hnode
    rcases hf with rfl | rfl <;> cases hnode
  · rw [hnodes.2.2] at hnode
    rcases hf with rfl | rfl <;> cases hnode

/-! ## The call of the program's function -/

namespace Machine

/-- What a call does between being opened and closed. -/
def dispatched (fuel : Nat) (g : Callable) (callee : Value) : MachineM Value :=
  match g with
  | .native native => runNative (call fuel) fuel native .undefined []
  | .instrumented closure => Instrumented.call (call fuel) fuel closure callee .undefined []
  | .stepped closure => Stepper.call (call fuel) fuel closure callee .undefined []

theorem callable?_alloc (h : Heap) (g : Callable) :
    (h.alloc (.ofCallable g)).2.callable? (.object h.size) = some g := by
  rw [Heap.callable?, Heap.object_alloc, if_pos rfl]
  rfl

/-- The call of a function that has just been made. -/
theorem call_alloc {h₁ : Heap} {g : Callable} (h : m.heap = (h₁.alloc (.ofCallable g)).2) (fuel : Nat) :
    call (fuel + 1) (.object h₁.size) .undefined [] m =
      (enter >>= fun _ => closing (dispatched fuel g (.object h₁.size))) m := by
  simp only [call, ask_bind, h, callable?_alloc]
  rfl

section

variable {methods : Option (List (String × Value))} {h₁ h₁' : Heap} {r r₁ : Registry}
  {g : Callable}

/-- The program's function is called on both sides, and catches up on the left. -/
theorem Fresh.call_catchesUp (hm : m.Fresh registry) (hsolo : T.solo = false) (hpauses : T.pauses = .left)
    (hregistries : T.registries = m.registriesWith registry p r₁)
    (hprepares : Prepares m.config.debugBuiltins T.mode Setup.heap Setup.heap r methods h₁ h₁' r₁)
    (hook : Option Hook)
    (hhook : ∀ asked, hook = some asked → ∃ sparing, T.spared = some sparing ∧ sparing.hooks asked)
    (halike : g.Alike (.stepped (m.walkedProgram registry p T.mode))) (hfuel : fuel' ≤ fuel)
    (hbody : ∀ {k k' w m₁ m₁' callee}, k' ≤ k → k' ≤ fuel → w.building = none → m₁.Match T w m₁' →
      m₁.Underway →
      (∀ m₂, closed (Stepper.call (call k') k' (m.walkedProgram registry p T.mode) callee .undefined [] m₁') ≠
        .error .exhausted m₂) → ∀ m₀, ∃ o m₂,
      conclude m₀ id (closed (dispatched k g callee m₁)) = .ok o m₂ ∧ CatchesUp T fuel w o m₂
        (closed (Stepper.call (call k') k' (m.walkedProgram registry p T.mode) callee .undefined [] m₁')))
    (hends : ∀ m₂, call fuel' (.object h₁.size) .undefined []
        (m.counterpart (h₁'.alloc (.ofCallable (.stepped (m.walkedProgram registry p T.mode)))).2
          (m.registriesWith registry p r₁) methods false) ≠ .error .exhausted m₂) (m₀ : Machine) :
    ∃ w, w.lag = 0 ∧ ∃ o m₁,
      conclude m₀ id (call fuel (.object h₁.size) .undefined []
        ((m.setUp true hook).staged (h₁.alloc (.ofCallable g)).2 (m.registriesWith registry p r₁) methods)) =
          .ok o m₁ ∧
      CatchesUp T fuel w o m₁ (call fuel' (.object h₁.size) .undefined []
        (m.counterpart (h₁'.alloc (.ofCallable (.stepped (m.walkedProgram registry p T.mode)))).2
          (m.registriesWith registry p r₁) methods false)) := by
  match fuel', fuel, hfuel with
  | 0, _, _ => exact absurd rfl (hends _)
  | k' + 1, k + 1, hfuel =>
      have hle := hm.le_registriesWith p r₁
      rw [← hregistries] at hle hends ⊢
      obtain ⟨w, hbuilding, hlag, hmatch⟩ := hm.match hprepares.makes
        (fun h => absurd (hsolo.symm.trans h) nofun) hle hook fun _ => hhook
      rw [hpauses] at hmatch
      have hsize : h₁'.size = h₁.size := hmatch.heap.alike.size
      have hcallee : (Object.ofCallable g).Alike (.ofCallable (.stepped (m.walkedProgram registry p T.mode))) :=
        ⟨.function halike, rfl, rfl⟩
      have hstart := hmatch.withHeap (w.le_grow .hidden) (hmatch.heap.alloc .hidden hcallee trivial)
      have hright : call (k' + 1) (.object h₁'.size) .undefined [] _ = _ := call_alloc
        (m := m.counterpart (h₁'.alloc (.ofCallable (.stepped (m.walkedProgram registry p T.mode)))).2
          T.registries methods false) rfl k'
      rw [hsize] at hright
      rw [hright] at hends ⊢
      rw [call_alloc rfl]
      have hrest := Nat.le_of_succ_le_succ hfuel
      exact ⟨w.grow .hidden, hlag, CatchesUp.opened hsolo hpauses hstart hends fun hlt hends =>
        hbody (w := w.grow .hidden) hrest (Nat.le_succ_of_le hrest) hbuilding
          (hstart.atDepth ⟨Nat.le_refl _, fun _ => rfl⟩)
          ⟨rfl, rfl, hprepares.present, Nat.succ_pos _, hlt⟩ hends m₀⟩

end

/-! ## Runs with pauses and without -/

/-- A run without pauses that ends is met by the walk. -/
theorem met_of_ends {r r' : EStateM.Result Stop Machine Value} {o : Outcome} {m₀ : Machine}
    (hpauses : T.pauses = .nowhere) (hspared : T.spared = none) (hmode : T.mode = .recording)
    (hlag : w.lag = 0) (h : Ends T (tie T) w (Same fun w v => v.Shown w) r r')
    (hrun : conclude m₀ id r = .ok o m) :
    (∃ m', o.Meets m r' m' ∧ m'.chronicle.passed = m.chronicle.passed) ∧
      ∀ m₁, r' ≠ .error .exhausted m₁ := by
  have hends : ∀ m₁, r' ≠ .error .exhausted m₁ := by
    rintro m₁ rfl
    cases h with
    | exhausted => cases hrun
    | loose h =>
        rw [Terms.loose, hpauses] at h
        cases h
    | strayed h => exact Terms.not_strays hspared _ h
  refine ⟨?_, hends⟩
  obtain ⟨o', m₁, m', hrun', hmeets, hpassed, -⟩ | ⟨u, m₁, hstrays, -⟩ :=
    meets_of_ends (by rw [hpauses]; exact Pauses.noConfusion) h hends m₀
  · rw [hrun'] at hrun
    cases hrun
    refine ⟨m', hmeets, ?_⟩
    rw [hpassed hmode hspared, hlag, Nat.add_zero]
  · exact absurd hstrays (Terms.not_strays hspared _)

/-- Without pauses both statements are passed. -/
theorem runProgram_twicePaused : ∃ mf,
    runProgram 1 twicePaused ownRegistry ((new .default).setUp false none) =
        .ok (.ok (.completed .undefined)) mf ∧ mf.chronicle.passed = 2 := by
  obtain ⟨methods, h₁, h₁', r₁, hprepares⟩ :=
    prepares (new .default).config.debugBuiltins .recording Setup.heap Setup.heap
      ((fresh_new .default).built builtinRegistry)
  rw [runProgram_eq (fresh_setUp (fresh_new .default) false none) hprepares
    (congrArg Prod.fst instrument_twicePaused), call_alloc rfl]
  exact ⟨_, rfl, rfl⟩


theorem treeOf_twicePaused : (new .default).treeOf ownRegistry twicePaused = twicePausedTree :=
  congrArg Prod.fst assign_twicePaused

theorem interpret_twicePaused (hook : Hook) : ∃ mf,
    interpret 1 twicePaused ownRegistry .recording ((new .default).setUp false (some hook)) =
        .ok (.completed .undefined) mf := by
  obtain ⟨methods, h₁, h₁', r₁, hprepares⟩ :=
    prepares (new .default).config.debugBuiltins .recording Setup.heap Setup.heap
      ((fresh_new .default).built builtinRegistry)
  have hprogram : twicePausedTree.declarationsOf twicePaused.toFunc 0 = ⟨[], []⟩ := by cbv
  have hfunc : twicePausedTree.func? 0 = some twicePaused.toFunc := by cbv
  have hself : Stepper.selfName? twicePausedTree 0 twicePaused.toFunc ⟨[], []⟩ = none := by cbv
  let closure : SteppedClosure := ⟨twicePausedTree, 0, [], .recording, ownRegistry⟩
  have hcall : ∀ callee, Stepper.call (call 0) 0 closure callee .undefined [] =
      (closure.running 0).opening (entryRecord [] [] [] none) [] (fun _ => pure ())
        (Stepper.execList (closure.running 0) twicePausedTree 1 twicePaused.body) := by
    intro callee
    rw [Stepper.call]
    dsimp only [closure]
    rw [hfunc]
    dsimp only
    rw [hprogram, hself]
    rfl
  have htree : ((new .default).setUp false (some hook)).treeOf ownRegistry twicePaused = twicePausedTree :=
    treeOf_twicePaused
  rw [interpret_eq (fresh_setUp (fresh_new .default) false (some hook)) hprepares, call_alloc rfl, htree,
    show twicePausedTree.base = 0 from rfl, dispatched, hcall]
  exact ⟨_, rfl⟩

theorem accepts_twicePaused : (new .default).Accepts ownRegistry twicePaused :=
  accepts_of_instrument (congrArg Prod.fst instrument_twicePaused)

/-- The terms of a comparison with a run that may be paused on the left. -/
def interrupted (m : Machine) (registry : Nat) (p : Program) (r : Registry) (spared : Option Sparing) :
    Terms :=
  ⟨.recording, .left, false, m.registriesWith registry p r, spared⟩

/-- The terms of a comparison with a run that takes no pauses. -/
def uninterrupted (m : Machine) (registry : Nat) (p : Program) (r : Registry) : Terms :=
  ⟨.recording, .nowhere, false, m.registriesWith registry p r, none⟩

theorem coherent_interrupted (m : Machine) (registry : Nat) (p : Program) (r : Registry)
    (spared : Option Sparing) : (m.interrupted registry p r spared).Coherent :=
  ⟨nofun, fun _ => rfl, nofun⟩

theorem coherent_uninterrupted (m : Machine) (registry : Nat) (p : Program) (r : Registry) :
    (m.uninterrupted registry p r).Coherent :=
  ⟨nofun, fun h => absurd rfl h, nofun⟩

/-- However often a program is paused in its own frame and resumed, it comes to the end to which it comes
without pauses.  It is paused as often as it passes a `debugger` statement then. -/
theorem runProgram_continued (hm : m.Fresh registry) (haccepts : m.Accepts registry p)
    (hp : ¬ p.Mentions argumentsName) (hdebugger : ¬ p.PausesInside) {o : Outcome} {mf : Machine}
    (hfuel : fuel' ≤ fuel)
    (hrun : runProgram fuel' p registry (m.setUp false none) = .ok (.ok o) mf) :
    ∃ o₁ m₁ o₂ m₂, runProgram fuel p registry (m.setUp true none) = .ok (.ok o₁) m₁ ∧
      Continued fuel o₁ m₁ mf.chronicle.passed o₂ m₂ ∧ o.Agrees o₂ ∧ mf.Alike m₂ := by
  obtain ⟨code, hcode⟩ := haccepts.instrument
  obtain ⟨methods, h₁, h₁', r₁, hprepares⟩ :=
    prepares m.config.debugBuiltins .recording Setup.heap Setup.heap (hm.built builtinRegistry)
  have hlowered := (Code.instrument_eq_ok hcode).1
  rw [runProgram_eq (fresh_setUp hm false none) hprepares hcode] at hrun
  rw [runProgram_eq (fresh_setUp hm true none) hprepares hcode]
  have hfair₀ := fair_of_not_mentions (T := m.uninterrupted registry p r₁) hp rfl nofun
  have htwin₀ := fun w => hm.instrumented_twin (w := w) (T := m.uninterrupted registry p r₁) rfl rfl hfair₀ hcode
  obtain ⟨w₀, hlag₀, hplain⟩ := hm.call_ends rfl (m.coherent_uninterrupted registry p r₁) rfl
    hprepares.makes none (fun h => absurd rfl h) htwin₀ fuel'
  obtain ⟨⟨m', hmeets, hpassed⟩, hends⟩ := met_of_ends rfl rfl rfl hlag₀ hplain (conclude_ok.1 hrun)
  have hready := fun w => hm.ready (w := w) p r₁ rfl
    (fair_of_not_pausesInside (T := m.interrupted registry p r₁ none) rfl hp hdebugger) nofun .recording
  obtain ⟨w, hlag, o₁, m₁, hfirst, hcatches⟩ := hm.call_catchesUp
    (T := m.interrupted registry p r₁ none) rfl rfl rfl hprepares none nofun
    (htwin₀ w₀).alike hfuel
    (fun hk hfuel hw hmatch hunder hends => (hready _).lowered_catchesUp rfl
      (m.coherent_interrupted registry p r₁ none) rfl rfl rfl rfl hlowered trivial rfl hk hfuel hw hmatch
      hunder hends) hends (m.setUp true none)
  cases hcatches with
  | meets run hmeets' hcount =>
      obtain ⟨hagrees, halike, rfl⟩ := hmeets.agrees hmeets'
      refine ⟨o₁, m₁, _, _, conclude_ok.2 hfirst, ?_, hagrees, halike⟩
      rw [← hpassed, hcount rfl rfl, hlag, Nat.zero_add]
      exact run
  | strays run position hspared h => cases hspared

theorem runProgram_continued_twicePaused :
    (new .default).Fresh ownRegistry ∧ (new .default).Accepts ownRegistry twicePaused ∧
      ¬ twicePaused.Mentions argumentsName ∧ ¬ twicePaused.PausesInside ∧
      ∃ mf, runProgram 1 twicePaused ownRegistry ((new .default).setUp false none) =
          .ok (.ok (.completed .undefined)) mf ∧ mf.chronicle.passed = 2 ∧
        ∃ o₁ m₁ o₂ m₂, runProgram 1 twicePaused ownRegistry ((new .default).setUp true none) =
            .ok (.ok o₁) m₁ ∧ Continued 1 o₁ m₁ 2 o₂ m₂ ∧ (Outcome.completed .undefined).Agrees o₂ ∧
          mf.Alike m₂ := by
  obtain ⟨mf, hrun, hpassed⟩ := runProgram_twicePaused
  refine ⟨fresh_new _, accepts_twicePaused, twicePaused_mentions, twicePaused_pausesInside, mf, hrun, hpassed,
    ?_⟩
  have hcontinued := runProgram_continued (fresh_new .default) accepts_twicePaused twicePaused_mentions
    twicePaused_pausesInside (Nat.le_refl 1) hrun
  rwa [hpassed] at hcontinued

/-- Whenever the walk is paused, or taken up and paused again, it is not inside of a function where the
hook may have halted it. -/
def HaltsOutside (fuel registry : Nat) (p : Program) (hook : Hook) (m : Machine) : Prop :=
  ∀ o₁ m₁ n k m₂ i, interpret fuel p registry .recording (m.setUp true (some hook)) = .ok o₁ m₁ →
    Continued fuel o₁ m₁ n (.paused k) m₂ → k.position? = some i → hook.MayHalt i →
      ¬ (m.treeOf registry p).Inside i

/-- It is enough that the hook never halts inside of a function. -/
theorem HaltsOutside.of_hook {hook : Hook}
    (h : ∀ i, hook.MayHalt i → ¬ (m.treeOf registry p).Inside i) : m.HaltsOutside fuel registry p hook :=
  fun _ _ _ _ _ i _ _ _ => h i

/-- However often a hook halts a program in its own frame, when it is resumed each time it comes to the
end to which it comes without pauses. -/
theorem interpret_continued (hm : m.Fresh registry) (hp : ¬ p.Mentions argumentsName)
    (hdebugger : ¬ p.PausesInside) {hook : Hook} {o : Outcome} {mf : Machine} (hfuel : fuel' ≤ fuel)
    (hhalts : m.HaltsOutside fuel registry p hook)
    (hrun : interpret fuel' p registry .recording (m.setUp false (some hook)) = .ok o mf) :
    ∃ o₁ m₁ n o₂ m₂, interpret fuel p registry .recording (m.setUp true (some hook)) = .ok o₁ m₁ ∧
      Continued fuel o₁ m₁ n o₂ m₂ ∧ o.Agrees o₂ ∧ mf.Alike m₂ := by
  obtain ⟨methods, h₁, h₁', r₁, hprepares⟩ :=
    prepares m.config.debugBuiltins .recording Setup.heap Setup.heap (hm.built builtinRegistry)
  have hwalk := interpret_eq (p := p) (fresh_setUp hm true (some hook)) hprepares fuel .recording
  rw [interpret_eq (fresh_setUp hm false (some hook)) hprepares] at hrun
  have hfair₀ := fair_of_not_mentions (T := m.uninterrupted registry p r₁) hp rfl nofun
  obtain ⟨w₀, hlag₀, hplain⟩ := hm.call_ends rfl (m.coherent_uninterrupted registry p r₁) rfl
    hprepares.makes (some hook) (fun h => absurd rfl h)
    (fun w => hm.walked_twin (w := w) rfl (fun _ => rfl) hfair₀ ⟨rfl, rfl⟩) fuel'
  obtain ⟨⟨m', hmeets, -⟩, hends⟩ := met_of_ends rfl rfl rfl hlag₀ hplain hrun
  let T := m.interrupted registry p r₁ (some ⟨hook.Becomes, .asked, (m.treeOf registry p).Inside⟩)
  have hready := fun w => hm.ready (w := w) p r₁ rfl
    (fair_of_not_pausesInside (T := T) rfl hp hdebugger) nofun .recording
  have hquiet : ∀ i n f, n.Introduces f → (m.treeOf registry p).At i n →
      T.Quiet (i + 1) ((m.treeOf registry p).after i) := by
    intro i n f hn hat sparing hspared j hlo hhi
    cases hspared
    exact ⟨i, n, f, hn, hat, hlo, hhi⟩
  obtain ⟨w, -, o₁, m₁, hfirst, hcatches⟩ := hm.call_catchesUp (T := T) rfl rfl rfl hprepares
    (some hook) (fun _ h => ⟨_, rfl, by cases h; exact .here⟩) (.refl _) hfuel
    (fun hk hfuel hw hmatch hunder hends => (hready _).walked_catchesUp rfl
      (m.coherent_interrupted registry p r₁ _) rfl rfl rfl rfl hquiet hk hfuel hw hmatch hunder hends)
    hends (m.setUp true (some hook))
  cases hcatches with
  | meets run hmeets' _ =>
      obtain ⟨hagrees, halike, -⟩ := hmeets.agrees hmeets'
      exact ⟨o₁, m₁, _, _, _, hwalk.trans hfirst, run, hagrees, halike⟩
  | strays run position hspared h =>
      cases hspared
      obtain ⟨hinside, later, moment, hlater, hindex, hhalt⟩ := h
      exact absurd hinside
        (hhalts o₁ m₁ _ _ _ _ (hwalk.trans hfirst) run position ⟨later, moment, hlater, hindex, hhalt⟩)

theorem interpret_continued_twicePaused :
    let hook := Hook.stepOnce .new
    (new .default).Fresh ownRegistry ∧ ¬ twicePaused.Mentions argumentsName ∧ ¬ twicePaused.PausesInside ∧
      (new .default).HaltsOutside 1 ownRegistry twicePaused hook ∧
      ∃ mf, interpret 1 twicePaused ownRegistry .recording ((new .default).setUp false (some hook)) =
          .ok (.completed .undefined) mf ∧
        ∃ o₁ m₁ n o₂ m₂,
          interpret 1 twicePaused ownRegistry .recording ((new .default).setUp true (some hook)) =
            .ok o₁ m₁ ∧ Continued 1 o₁ m₁ n o₂ m₂ ∧ (Outcome.completed .undefined).Agrees o₂ ∧
          mf.Alike m₂ := by
  intro hook
  have hhalts : (new .default).HaltsOutside 1 ownRegistry twicePaused hook :=
    .of_hook fun i _ => treeOf_twicePaused ▸ twicePaused_inside i
  obtain ⟨mf, hrun⟩ := interpret_twicePaused hook
  exact ⟨fresh_new _, twicePaused_mentions, twicePaused_pausesInside, hhalts, mf, hrun,
    interpret_continued (fresh_new .default) twicePaused_mentions twicePaused_pausesInside (Nat.le_refl 1)
      hhalts hrun⟩

end Machine

end Resumption
