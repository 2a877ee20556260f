import Resumption.Proofs.Match.Preparation

/-!
# Runs are started

From a new machine a program is instrumented and run, or registered and walked.  Either way the call of
its function begins on a machine that is set up in the same way, but for the function itself; and it has a
counterpart on which every function of scripts is walked.
-/

namespace Resumption

open Script

variable {T : Terms} {w : World} {m : Machine} {registry : Nat} {p : Program} {mode : Mode}

namespace Machine

/-! ## New machines -/

/-- A machine that has run nothing yet.  Trees may have been registered. -/
structure Fresh (registry : Nat) (m : Machine) : Prop where
  heap : m.heap = Setup.heap
  methods : m.debugMethods = none
  chronicle : m.chronicle = .empty
  built : ∀ id, (m.registries.getD id default).Built
  lt : registry < m.registries.size
  builtins : builtinRegistry < m.registries.size
  /-- Programs are kept apart from the array methods. -/
  apart : registry ≠ builtinRegistry

theorem fresh_new (config : Config) : (new config).Fresh ownRegistry where
  heap := rfl
  methods := rfl
  chronicle := rfl
  built id := by
    match id with
    | 0 => exact .empty
    | 1 => exact .empty
    | _ + 2 => exact .empty
  lt := Nat.zero_lt_two
  builtins := Nat.one_lt_two
  apart := by decide

/-! ## The call of the program's function -/

/-- The tree of a program that is registered on the machine. -/
def treeOf (m : Machine) (registry : Nat) (p : Program) : IndexedTree :=
  ((m.registries.getD registry default).assign p.toFunc m.config.ns true).1

/-- The registries once the program has been registered. -/
def registriesOf (m : Machine) (registry : Nat) (p : Program) : Array Registry :=
  m.registries.setIfInBounds registry
    ((m.registries.getD registry default).assign p.toFunc m.config.ns true).2

/-- The registries once the array methods have been registered, too. -/
def registriesWith (m : Machine) (registry : Nat) (p : Program) (r : Registry) : Array Registry :=
  (m.registriesOf registry p).setIfInBounds builtinRegistry r

/-- The machine when a call begins. -/
def staged (m : Machine) (h : Heap) (registries : Array Registry)
    (methods : Option (List (String × Value))) : Machine :=
  { m with
    heap := h, registries, debugMethods := methods
    debugging := m.config.debuggingEnabled, debugBuiltins := m.config.debugBuiltins }

/-- The machine is put back as it was before the run. -/
def restore (m m₀ : Machine) : Machine :=
  { m with debugging := m₀.debugging, debugBuiltins := m₀.debugBuiltins }

/-- What becomes of the end of a call when the run is over. -/
def conclude {α : Type} (m₀ : Machine) (f : Outcome → α) :
    EStateM.Result Stop Machine Value → EStateM.Result Stop Machine α
  | .ok v m => .ok (f (.completed v)) (m.restore m₀)
  | .error (.unwind u) m => .ok (f (.ofUnwind m.registries u)) (m.restore m₀)
  | .error .exhausted m => .error .exhausted (m.restore m₀)

section

variable {methods : Option (List (String × Value))} {h₁ h₁' : Heap} {r r₁ : Registry}

theorem withDebugSupport_eq {α : Type} (hm : m.Equipped Setup.heap r) (hnone : m.debugMethods = none)
    (hprepares : Prepares m.config.debugBuiltins mode Setup.heap Setup.heap r methods h₁ h₁' r₁) (x : MachineM α) :
    withDebugSupport x m =
      afterwards x (fun m' => m'.restore m)
        { m.equip h₁ r₁ with
          debugMethods := methods
          debugging := m.config.debuggingEnabled, debugBuiltins := m.config.debugBuiltins } :=
  (bind_of_ok (hprepares.runs m hm rfl hnone)).trans rfl

theorem settle_eq (x : MachineM Value) (m m₀ : Machine) :
    afterwards (settle x) (fun m => m.restore m₀) m = conclude m₀ id (x m) := by
  rw [afterwards]
  cases hx : x m with
  | ok v m₁ =>
      have hcaught : caught x m = .ok (.ok v) m₁ := by rw [caught, hx]
      rw [show settle x m = .ok (.completed v) m₁ from bind_of_ok hcaught]
      rfl
  | error e m₁ =>
      cases e with
      | unwind u =>
          have hcaught : caught x m = .ok (.error u) m₁ := by rw [caught, hx]
          rw [show settle x m = .ok (.ofUnwind m₁.registries u) m₁ from bind_of_ok hcaught]
          rfl
      | exhausted =>
          have hcaught : caught x m = .error .exhausted m₁ := by rw [caught, hx]
          have hsettle : settle x m = .error .exhausted m₁ := by
            change EStateM.bind (caught x) _ m = _
            rw [EStateM.bind, hcaught]
          rw [hsettle]
          rfl

/-- The program's function is called, run as instrumented code. -/
theorem runProgram_eq (hm : m.Fresh registry)
    (hprepares : Prepares m.config.debugBuiltins mode Setup.heap Setup.heap
      (m.registries.getD builtinRegistry default) methods h₁ h₁' r₁)
    {code : Code.Func}
    (hcode : (Code.instrument p.toFunc (m.registries.getD registry default) m.config.ns [] true).1 =
      .ok code) (fuel : Nat) :
    runProgram fuel p registry m =
      conclude m .ok (call fuel (.object h₁.size) .undefined []
        (m.staged (h₁.alloc (.ofCallable (.instrumented ⟨code, [], registry⟩))).2
          (m.registriesWith registry p r₁) methods)) := by
  obtain ⟨-, hregistry⟩ := Code.instrument_eq_ok hcode
  have hcompile : compileProgram p registry m =
      .ok (.ok code) { m with registries := m.registriesOf registry p } := by
    rw [← hcode, registriesOf, ← hregistry]
    rfl
  have hequipped : Equipped { m with registries := m.registriesOf registry p } Setup.heap
      (m.registries.getD builtinRegistry default) := by
    refine ⟨hm.heap, ?_, ?_⟩
    · simp [registriesOf, Array.getD_eq_getD_getElem?, hm.apart]
    · simpa [registriesOf] using hm.builtins
  have hrun : runCode fuel code [] registry [] { m with registries := m.registriesOf registry p } =
      conclude m id (call fuel (.object h₁.size) .undefined []
        (m.staged (h₁.alloc (.ofCallable (.instrumented ⟨code, [], registry⟩))).2
          (m.registriesWith registry p r₁) methods)) := by
    have hsupport := withDebugSupport_eq hequipped hm.methods hprepares (settle do
      let f ← newFunction (.instrumented ⟨code, [], registry⟩)
      call fuel f .undefined [])
    rw [settle_eq] at hsupport
    exact hsupport
  refine (bind_of_ok hcompile).trans ?_
  change EStateM.bind (runCode fuel code [] registry []) (fun o => pure (Except.ok o))
    { m with registries := m.registriesOf registry p } = _
  rw [EStateM.bind, hrun]
  generalize call fuel _ _ _ _ = result
  rcases result with ⟨v, m₁⟩ | ⟨u | _, m₁⟩ <;> rfl

/-- The program's function is called, and walked. -/
theorem interpret_eq (hm : m.Fresh registry)
    (hprepares : Prepares m.config.debugBuiltins mode Setup.heap Setup.heap
      (m.registries.getD builtinRegistry default) methods h₁ h₁' r₁) (fuel : Nat) (mode' : Mode) :
    interpret fuel p registry mode' m =
      conclude m id (call fuel (.object h₁.size) .undefined []
        (m.staged (h₁.alloc (.ofCallable (.stepped ⟨m.treeOf registry p, (m.treeOf registry p).base, [],
          mode', registry⟩))).2 (m.registriesWith registry p r₁) methods)) := by
  have hequipped : m.Equipped Setup.heap (m.registries.getD builtinRegistry default) :=
    ⟨hm.heap, rfl, hm.builtins⟩
  have hsupport := withDebugSupport_eq hequipped hm.methods hprepares (settle do
    let tree ← assign registry p.toFunc (← get).config.ns true
    let f ← newFunction (.stepped ⟨tree, tree.base, [], mode', registry⟩)
    call fuel f .undefined [])
  rw [settle_eq] at hsupport
  have hcomm : m.registriesWith registry p r₁ =
      (m.registries.setIfInBounds builtinRegistry r₁).setIfInBounds registry
        ((m.registries.getD registry default).assign p.toFunc m.config.ns true).2 := by
    rw [registriesWith, registriesOf, Array.setIfInBounds_comm _ _ hm.apart]
  have hsame : (m.registries.setIfInBounds builtinRegistry r₁).getD registry default =
      m.registries.getD registry default := by
    simp [Array.getD_eq_getD_getElem?, hm.apart.symm]
  refine hsupport.trans ?_
  rw [hcomm, treeOf, ← hsame]
  rfl

/-! ## The counterpart -/

/-- A machine to compare the staged machine with. -/
def counterpart (m : Machine) (h : Heap) (registries : Array Registry)
    (methods : Option (List (String × Value))) (debugging : Bool) : Machine :=
  { m.staged h registries methods with debugging, hook := none }

/-- A machine that is to take pauses, or not, and may ask a hook. -/
def setUp (m : Machine) (debuggingEnabled : Bool) (hook : Option Hook) : Machine :=
  { m with config := { m.config with debuggingEnabled }, hook }

theorem fresh_setUp (hm : m.Fresh registry) (debuggingEnabled : Bool) (hook : Option Hook) :
    (m.setUp debuggingEnabled hook).Fresh registry :=
  { hm with }

/-- New machines match when the call begins, however pauses are to be taken. -/
theorem Fresh.match (hm : m.Fresh registry)
    (hmakes : Makes T.mode Setup.heap Setup.heap r (methods.getD []) h₁ h₁' r₁)
    (hnamed : T.solo = true → m.config.debugBuiltins = true ∧ ∀ key, debugMethodNames.contains key = true →
      ((methods.getD []).lookup key).isSome = true)
    (hle : r₁.Le (T.registries.getD builtinRegistry default)) (hook : Option Hook)
    (hhook : T.pauses ≠ .nowhere → ∀ asked, hook = some asked →
      ∃ sparing, T.spared = some sparing ∧ sparing.hooks asked) :
    ∃ w, w.building = none ∧ w.lag = 0 ∧
      Machine.Match T w ((m.setUp (T.pauses != .nowhere) hook).staged h₁ T.registries methods)
        (m.counterpart h₁' T.registries methods (T.pauses == .together)) := by
  obtain ⟨w₀, hbuilding, hlag, hmatch⟩ := Setup.match_heap T
  obtain ⟨w, hw, hh, hshown⟩ := hmakes.heap T w₀ rfl hle hmatch
  have hlag := hw.lag.trans hlag
  refine ⟨w, hw.building.trans hbuilding, hlag, {
    heap := hh
    output := rfl
    limit := rfl
    depth := ⟨Nat.le_refl _, fun _ => rfl⟩
    builtins := rfl
    methods := rfl
    shown := fun methods' hmethods p hp => hshown p ?_
    present := fun hsolo key hkey => ?_
    registries := rfl
    debugging := ⟨rfl, rfl⟩
    hook := fun hdebugging => hhook ?_
    unhooked := rfl
    passed := fun _ _ => ?_
    unpassed := fun _ => ?_
    faults := fun _ => ⟨rfl, rfl⟩ }⟩
  · cases hmethods
    exact hp
  · obtain ⟨hbuiltins, hnamed⟩ := hnamed hsolo
    have hfound := hnamed key hkey
    cases methods with
    | none => cases hfound
    | some methods =>
        change (if m.config.debugBuiltins = true then methods.lookup key else none).isSome = true
        rwa [hbuiltins]
  · change (T.pauses != .nowhere) = true at hdebugging
    simpa using hdebugging
  · rw [hlag]
    rfl
  · change m.chronicle.passed = 0
    rw [hm.chronicle]
    rfl

/-! ## The program's function -/

/-- The program's function, walked. -/
def walkedProgram (m : Machine) (registry : Nat) (p : Program) (mode : Mode) : SteppedClosure :=
  ⟨m.treeOf registry p, (m.treeOf registry p).base, [], mode, registry⟩

theorem Fresh.registered (hm : m.Fresh registry) (p : Program) (r₁ : Registry)
    (hT : T.registries = m.registriesWith registry p r₁) : T.Registered (m.treeOf registry p) registry := by
  refine Terms.registered_assign (hm.built registry) ?_
  have hregistry : T.registries.getD registry default =
      ((m.registries.getD registry default).assign p.toFunc m.config.ns true).2 := by
    rw [hT]
    simp [registriesWith, registriesOf, Array.getD_eq_getD_getElem?, hm.apart.symm, hm.lt]
  rw [hregistry]
  exact .refl _

theorem Fresh.ready (hm : m.Fresh registry) (p : Program) (r₁ : Registry)
    (hT : T.registries = m.registriesWith registry p r₁) {s : Manner}
    (hfair : ∀ b ∈ Node.ofStmts p.body, T.Fair s b)
    (hquiet : s = .script → T.spared = none) (mode : Mode) (hopens : s.opens = true := by rfl) :
    (m.walkedProgram registry p mode).Ready T w s (.func p.toFunc) p.toFunc where
  stands := IndexedTree.at_root _ _ _ _
  func := rfl
  fair := .whole (fun hs => by rw [hs] at hopens; cases hopens) hfair
  counts hclosed := by
    rw [hopens] at hclosed
    cases hclosed
  seeks hclosed := by
    rw [hopens] at hclosed
    cases hclosed
  chain := nofun
  registered _ := hm.registered p r₁ hT
  quiet hs sparing hspared := by
    rw [hquiet hs] at hspared
    cases hspared

theorem Fresh.le_registriesWith (hm : m.Fresh registry) (p : Program) (r₁ : Registry) :
    r₁.Le ((m.registriesWith registry p r₁).getD builtinRegistry default) := by
  have hregistry : (m.registriesWith registry p r₁).getD builtinRegistry default = r₁ := by
    simp [registriesWith, registriesOf, Array.getD_eq_getD_getElem?, hm.builtins]
  rw [hregistry]
  exact .refl _

/-- The program's function, instrumented on one side and walked on the other. -/
theorem Fresh.instrumented_twin (hm : m.Fresh registry) (hT : T.registries = m.registriesWith registry p r₁)
    (hspared : T.spared = none) (hfair : ∀ b ∈ Node.ofStmts p.body, T.Fair .script b) {code : Code.Func}
    (hcode : (Code.instrument p.toFunc (m.registries.getD registry default) m.config.ns [] true).1 =
      .ok code) :
    Callable.Twin T w (.instrumented ⟨code, [], registry⟩)
      (.stepped (m.walkedProgram registry p T.mode)) := by
  have hready := hm.ready (w := w) p r₁ hT hfair (fun _ => hspared) T.mode
  exact .instrumented hready hspared (Code.instrument_eq_ok hcode).1 trivial rfl

/-- The program's function, walked on both sides. -/
theorem Fresh.walked_twin (hm : m.Fresh registry) (hT : T.registries = m.registriesWith registry p r₁)
    {s : Manner} (hspared : s = .script → T.spared = none)
    (hfair : ∀ b ∈ Node.ofStmts p.body, T.Fair s b) (hwalks : T.Walks s T.mode) :
    Callable.Twin T w (.stepped (m.walkedProgram registry p T.mode))
      (.stepped (m.walkedProgram registry p T.mode)) :=
  .walked (hm.ready p r₁ hT hfair hspared T.mode hwalks.opens) hwalks

/-- The program's function and its counterpart have been put on the heaps. -/
theorem Fresh.match_function (hm : m.Fresh registry)
    (hregistries : T.registries = m.registriesWith registry p r₁)
    (hmakes : Makes T.mode Setup.heap Setup.heap r (methods.getD []) h₁ h₁' r₁)
    (hnamed : T.solo = true → m.config.debugBuiltins = true ∧ ∀ key, debugMethodNames.contains key = true →
      ((methods.getD []).lookup key).isSome = true) (hook : Option Hook)
    (hhook : T.pauses ≠ .nowhere → ∀ asked, hook = some asked →
      ∃ sparing, T.spared = some sparing ∧ sparing.hooks asked)
    {g : Callable} (htwin : ∀ w, g.Twin T w (.stepped (m.walkedProgram registry p T.mode))) :
    ∃ w : World, w.building = none ∧ w.lag = 0 ∧ (Value.object h₁.size).Shown w ∧ Machine.Match T w
      ((m.setUp (T.pauses != .nowhere) hook).staged (h₁.alloc (.ofCallable g)).2
        (m.registriesWith registry p r₁) methods)
      (m.counterpart (h₁'.alloc (.ofCallable (.stepped (m.walkedProgram registry p T.mode)))).2
        (m.registriesWith registry p r₁) methods (T.pauses == .together)) := by
  have hle := hm.le_registriesWith p r₁
  rw [← hregistries] at hle ⊢
  obtain ⟨w, hbuilding, hlag, hmatch⟩ := hm.match hmakes hnamed hle hook hhook
  exact ⟨w.grow .shown, hbuilding, hlag, hmatch.heap.size ▸ World.role?_grow_self w .shown,
    hmatch.withHeap (w.le_grow .shown) (hmatch.heap.alloc_function (htwin w))⟩

/-- The call of the program's function and the call of its counterpart end alike. -/
theorem Fresh.call_ends (hm : m.Fresh registry) (hsolo : T.solo = false) (hT : T.Coherent)
    (hregistries : T.registries = m.registriesWith registry p r₁)
    (hmakes : Makes T.mode Setup.heap Setup.heap r (methods.getD []) h₁ h₁' r₁) (hook : Option Hook)
    (hhook : T.pauses ≠ .nowhere → ∀ asked, hook = some asked →
      ∃ sparing, T.spared = some sparing ∧ sparing.hooks asked)
    {g : Callable} (htwin : ∀ w, g.Twin T w (.stepped (m.walkedProgram registry p T.mode))) (fuel : Nat) :
    ∃ w, w.lag = 0 ∧ Ends T (tie T) w (Same fun w v => v.Shown w)
      (call fuel (.object h₁.size) .undefined []
        ((m.setUp (T.pauses != .nowhere) hook).staged (h₁.alloc (.ofCallable g)).2
          (m.registriesWith registry p r₁) methods))
      (call fuel (.object h₁.size) .undefined []
        (m.counterpart (h₁'.alloc (.ofCallable (.stepped (m.walkedProgram registry p T.mode)))).2
          (m.registriesWith registry p r₁) methods (T.pauses == .together))) := by
  obtain ⟨w, hbuilding, hlag, hshown, hmatch⟩ := hm.match_function hregistries hmakes
    (fun h => absurd (hsolo.symm.trans h) nofun) hook hhook htwin
  exact ⟨w, hlag, call_alike hsolo hT ⟨Nat.le_refl fuel, fun _ => rfl⟩ w hbuilding _ .undefined _ hshown
    trivial (fun _ hv => absurd hv List.not_mem_nil) _ _ hmatch⟩

end

end Machine

end Resumption
