import Resumption.Proofs.Match.Entry

/-!
# Calls run alike

A function is entered, its record is made, and its body runs; what comes of it goes back to the caller.
Where calls may stand anywhere all of this runs alike, by induction on the fuel.
-/

namespace Resumption

open Script

variable {T : Terms} {s : Manner} {t : IndexedTree} {S : Stance} {w w' : World} {c : Chain}
  {env env' : Env} {i : Nat} {n : Node} {f : Script.Func} {a : Address} {names : List String}

/-! ## The way in and the way out -/

namespace Machine

theorem Match.atDepth {m m' : Machine} (hm : m.Match T w m') {d d' : Nat}
    (hd : d ≤ d' ∧ (T.solo = false → d' = d)) :
    Machine.Match T w (m.atDepth d) (m'.atDepth d') :=
  { hm with depth := hd }

/-- One more call was refused on both sides. -/
theorem Match.refused {m m' : Machine} (hm : m.Match T w m') :
    Machine.Match T w
      { m with chronicle := { m.chronicle with refused := m.chronicle.refused + 1 } }
      { m' with chronicle := { m'.chronicle with refused := m'.chronicle.refused + 1 } } :=
  { hm with
    faults := fun hsolo => ⟨(hm.faults hsolo).1, congrArg (· + 1) (hm.faults hsolo).2⟩ }

theorem enter_sim (hsolo : T.solo = false) : MSim T w enter enter Equal := by
  intro m m' hm
  have hdepth := hm.depth.2 hsolo
  have henter : ∀ m : Machine, enter m = if m.config.maxCallDepth ≤ m.depth then
      fail .range "Maximum call stack size exceeded"
        { m with chronicle := { m.chronicle with refused := m.chronicle.refused + 1 } }
      else .ok () (m.atDepth (m.depth + 1)) := by
    intro m
    change (if m.config.maxCallDepth ≤ m.depth then _ else _ : MachineM Unit) m = _
    split <;> rfl
  rw [henter, henter]
  by_cases hfull : m.config.maxCallDepth ≤ m.depth
  · rw [if_pos hfull, if_pos (by rwa [hm.limit, hdepth])]
    exact fail_sim _ _ _ _ hm.refused
  · rw [if_neg hfull, if_neg (by rwa [hm.limit, hdepth])]
    exact .ok ⟨w, w.le_refl, hm.atDepth ⟨Nat.succ_le_succ hm.depth.1, fun _ => congrArg (· + 1) hdepth⟩,
      rfl, trivial⟩

/-- A call is closed, however it ended. -/
def closed {α : Type} : EStateM.Result Stop Machine α → EStateM.Result Stop Machine α
  | .ok a m => .ok a (m.atDepth (m.depth - 1))
  | .error e m => .error e (m.atDepth (m.depth - 1))

theorem closing_eq {α : Type} (x : MachineM α) (m : Machine) : closing x m = closed (x m) := by
  rw [closing, afterwards]
  cases x m <;> rfl

theorem closed_ends {α β : Type} {r : EStateM.Result Stop Machine α} {r' : EStateM.Result Stop Machine β}
    {R : World → α → β → Prop} (h : Ends T (tie T) w R r r') :
    Ends T (tie T) w R (closed r) (closed r') := by
  have hclose : ∀ {w m m'}, Machine.Match T w m m' →
      Machine.Match T w (m.atDepth (m.depth - 1)) (m'.atDepth (m'.depth - 1)) :=
    fun hm => hm.atDepth ⟨Nat.sub_le_sub_right hm.depth.1 1,
      fun hsolo => congrArg (· - 1) (hm.depth.2 hsolo)⟩
  rcases h with ⟨w₁, hw₁, hm₁, hR⟩ | ⟨hu, w₁, hw₁, hm₁, hv⟩ | _ | hloose | hstrays
  · exact .ok ⟨w₁, hw₁, hclose hm₁, hR⟩
  · exact .thrown hu ⟨w₁, hw₁, hclose hm₁, hv⟩
  · exact .exhausted
  · exact .loose hloose
  · exact .strayed hstrays

theorem closing_sim {α β : Type} {x : MachineM α} {x' : MachineM β} {R : World → α → β → Prop}
    (h : MSim T w x x' R) : MSim T w (closing x) (closing x') R := by
  intro m m' hm
  rw [closing_eq, closing_eq]
  exact closed_ends (h m m' hm)

theorem Match.escape {m m' : Machine} (hm : m.Match T w m') : m.escape.Match T w m'.escape :=
  { hm with
    faults := fun hsolo => ⟨congrArg (· + 1) (hm.faults hsolo).1, (hm.faults hsolo).2⟩ }

end Machine

/-! ## Activations -/

/-- What becomes of the end of a body when its function is left. -/
def Env.leave (env : Env) : ActResult Flow → EStateM.Result Stop Machine Value
  | .ok (.ret v) (_, m) => .ok v m
  | .ok _ (_, m) => .ok .undefined m
  | .error (.unwind u) (act, m) =>
    let m := if u.isPause then m else m.escape
    if env.records then .error (.unwind (u.store (frameInfo env act))) m else .error (.unwind u) m
  | .error .exhausted (_, m) => .error .exhausted m

theorem runActivation_eq_leave (env : Env) (act : Activation) (body : ActM Flow) (m : Machine) :
    runActivation env act body m = env.leave (body (act, m)) := by
  rw [runActivation]
  unfold Env.leave
  rfl

/-- Where pauses are taken together books are kept. -/
structure Terms.Coherent (T : Terms) : Prop where
  even : T.pauses = .together → T.mode = .recording
  halting : T.spared ≠ none → T.pauses = .left
  solo : T.solo = true → T.pauses = .left

theorem Unwind.Pairs.isPause {u u' : Unwind} {v : Value} (h : u.Pairs T v u') :
    u'.isPause = u.isPause := by
  cases h with
  | thrown hu hu' hsame => rw [ActM.isPause_of_thrown? hu, ActM.isPause_of_thrown? hu']
  | paused hpauses hu => rfl

/-- The note of a function that keeps the books. -/
def Env.note (env : Env) (u : Unwind) (act : Activation) : Unwind :=
  if env.records then u.store (frameInfo env act) else u

theorem Env.leave_unwind (env : Env) (u : Unwind) (act : Activation) (m : Machine) :
    env.leave (.error (.unwind u) (act, m)) =
      .error (.unwind (env.note u act)) (if u.isPause then m else m.escape) := by
  rw [leave, note]
  split <;> rfl

theorem Terms.Strays.note {u : Unwind} (h : T.Strays u) (env : Env) (act : Activation) :
    T.Strays (env.note u act) := by
  obtain ⟨sparing, hspared, i, infos, rfl, hi⟩ := h
  rw [Env.note]
  split
  · exact ⟨sparing, hspared, i, infos ++ [frameInfo env act], rfl, hi⟩
  · exact ⟨sparing, hspared, i, infos, rfl, hi⟩

theorem Env.thrown?_note (env : Env) (u : Unwind) (act : Activation) :
    (env.note u act).thrown? = u.thrown? := by
  rw [note]
  split <;> rfl

/-- Where books are kept on both sides, the same notes are left. -/
theorem Env.Match.note_pairs (henv : env.Match T w env') {u u' : Unwind} {v : Value}
    (hu : u.Pairs T v u') {act act' : Activation} (hact : act.Match T S w' act') :
    (env.note u act).Pairs T v (env'.note u' act') := by
  have hsame : T.pauses = .together → env'.note u act' = env.note u act := by
    intro htogether
    obtain ⟨hchain, hcache, hlast⟩ := hact.even htogether
    have hsite := henv.site htogether
    have hinfo : frameInfo env' act' = frameInfo env act := by
      rw [frameInfo, frameInfo, hsite, hchain, hcache, hlast]
    rw [Env.note, Env.note, hinfo, hsite]
  cases hu with
  | thrown hu hu' heq =>
      refine .thrown ((Env.thrown?_note env u act).trans hu) ((env'.thrown?_note u' act').trans hu') ?_
      intro htogether
      rw [heq htogether, hsame htogether]
  | paused hpauses hu =>
      rw [hsame hpauses]
      refine .paused hpauses ?_
      rw [note]
      split <;> exact hu

theorem Env.Match.leave_ends (henv : env.Match T w env') {r r' : ActResult Flow}
    (h : Ends T (Activation.tie T S) w Flowing r r') :
    Ends T (Machine.tie T) w Valued (env.leave r) (env'.leave r') := by
  cases h with
  | @ok flow s flow' s' h =>
      obtain ⟨w₁, hw₁, ⟨hact, hm⟩, rfl, hflow⟩ := h
      cases flow' with
      | ret v => exact .ok ⟨w₁, hw₁, hm, rfl, hflow⟩
      | normal => exact .ok ⟨w₁, hw₁, hm, rfl, trivial⟩
      | brk => exact .ok ⟨w₁, hw₁, hm, rfl, trivial⟩
      | cont => exact .ok ⟨w₁, hw₁, hm, rfl, trivial⟩
  | thrown hu h =>
      obtain ⟨w₁, hw₁, ⟨hact, hm⟩, hv⟩ := h
      rw [leave_unwind, leave_unwind, hu.isPause]
      refine .thrown (henv.note_pairs hu hact) ⟨w₁, hw₁, ?_, hv⟩
      split
      · exact hm
      · exact hm.escape
  | exhausted => exact .exhausted
  | loose h => exact .loose h
  | strayed h =>
      rw [leave_unwind]
      exact .strayed (h.note env _)

/-- An activation at its start. -/
def Site.start (site : Site) (chain : Chain) : Activation :=
  { site, chain, cache := [], last := site.index, arguments := none, pending := [], pc := none }

/-- Makes the record of a function and runs its body. -/
def Env.opening (env : Env) (o : Object) (chain : Chain) (make : Address → ActM Unit)
    (body : ActM Flow) : MachineM Value := do
  let a ← Machine.alloc o
  runActivation env (env.toSite.start (⟨.function, a⟩ :: chain)) (do
    make a
    body)

/-- A stance in the scopes of a function with its record. -/
def Stance.opened (S : Stance) (a : Address) (chain : Chain) : Stance :=
  S.within (⟨.function, a⟩ :: chain)

/-- A function is entered on both sides, and then it is as far as its body, unless the left was halted
before. -/
theorem Env.Match.opens (henv : env.Match T w env') {m m' : Machine} (hm : m.Match T w m')
    {o : Object} {shared : Bool} (ho : o.Binds w names shared) {functions : List (String × Nat)}
    (hpresent : ∀ name ∈ names, name ∈ functions.map Prod.fst ∨ o.hasOwn name = true)
    (hfunctions : ∀ d ∈ functions, (t.func? d.2).isSome = true) (hbooks : S.books [])
    (chain : Chain) (make : Address → ActM Unit) (body body' : ActM Flow)
    (hmake : ∀ w', w ≤ w' → w'.role? m.heap.size = some (.scope names shared) →
      ∀ w'', w'.roles <+: w''.roles → ASim T (S.opened m.heap.size chain) w'' (make m.heap.size)
        (Stepper.instantiate env' t m.heap.size functions) Equal) :
    (∃ w₁ s s', w ≤ w₁ ∧ w₁.role? m.heap.size = some (.scope names shared) ∧
      (Activation.tie T (S.opened m.heap.size chain)).holds w₁ s s' ∧
      make m.heap.size (env.toSite.start (⟨.function, m.heap.size⟩ :: chain),
        { m with heap := (m.heap.alloc o).2 }) = .ok () s ∧
      env.opening o chain make body m = env.leave (body s) ∧
      env'.opening o chain (fun a => Stepper.instantiate env' t a functions) body' m' =
        env'.leave (body' s')) ∨
    ∃ u s, T.Strays u ∧ env.opening o chain make body m = .error (.unwind u) s := by
  have hself : (w.grow (.scope names shared)).role? m.heap.size = some (.scope names shared) := by
    rw [← hm.heap.size]
    exact World.role?_grow_self w _
  have hact : Activation.Match T (S.opened m.heap.size chain) w
      (env.toSite.start (⟨.function, m.heap.size⟩ :: chain))
      (env'.toSite.start (⟨.function, m.heap.size⟩ :: chain)) :=
    { chain := fun c hc => by
        cases hc
        exact ⟨rfl, rfl⟩
      pc := ⟨rfl, rfl⟩
      books := hbooks
      args := fun _ => ⟨rfl, fun _ hv => by cases hv⟩
      even := fun hT => by
        rw [henv.site hT]
        exact ⟨rfl, rfl, rfl⟩ }
  have hopening : env.opening o chain make body m = env.leave (andThen (fun _ => body)
      (make m.heap.size (env.toSite.start (⟨.function, m.heap.size⟩ :: chain),
        { m with heap := (m.heap.alloc o).2 }))) := by
    change runActivation env (env.toSite.start (⟨.function, m.heap.size⟩ :: chain))
      (make m.heap.size >>= fun _ => body)
      { m with heap := (m.heap.alloc o).2 } = _
    rw [runActivation_eq_leave, bind_apply]
  rw [hopening]
  obtain ⟨w₁, s, s', hw₁, hs, hleft, hright⟩ | ⟨u, s, hstrays, hleft⟩ :=
    Stepper.enters hm henv.building ho hpresent hfunctions hact
      (hmake _ (w.le_grow _) hself _ (List.prefix_refl _))
  case inr =>
    rw [hleft]
    exact .inr ⟨_, _, hstrays.note env s.1, env.leave_unwind u s.1 s.2⟩
  refine .inl ⟨w₁, s, s', w.le_trans (w.le_grow _) hw₁, World.role?_mono hw₁.roles hself, hs, hleft, ?_, ?_⟩
  · rw [hleft]
    rfl
  · have hsize : m'.heap.size = m.heap.size := hm.heap.alike.size
    change runActivation env' (env'.toSite.start (⟨.function, m'.heap.size⟩ :: chain))
      (Stepper.instantiate env' t m'.heap.size functions >>= fun _ => body')
      { m' with heap := (m'.heap.alloc o).2 } = _
    rw [runActivation_eq_leave, hsize, bind_apply, hright]
    rfl

/-! ## Closures -/

/-- The fixed part of an activation of a closure. -/
def SteppedClosure.fixed (closure : SteppedClosure) (invoke : Invoke) (fuel : Nat) (this : Value)
    (args : List Value) : Env :=
  { invoke, fuel, this, args, ns := closure.tree.ns, index := closure.index
    registry := closure.registry, records := closure.mode == .recording }

theorem Stepper.call_eq_opening {closure : SteppedClosure} (hat : closure.tree.At closure.index n)
    (hf : n.func? = some f) (invoke : Invoke) (fuel : Nat) (callee this : Value)
    {args : List Value} (hargs : ∀ v ∈ args, v.Shown w) :
    call invoke fuel closure callee this args =
      (closure.fixed invoke fuel this args).opening
        (closure.tree.entered closure.index n f args callee) closure.chain
        (fun a => instantiate (closure.fixed invoke fuel this args) closure.tree a
          (closure.tree.declarationsOf f closure.index).functions)
        (execList (closure.fixed invoke fuel this args) closure.tree (closure.index + 1) f.body) := by
  rw [call, hat.func?, hf]
  dsimp only
  rw [entryRecord_eq hat hf hargs]
  rfl

/-- What lowering makes of a function. -/
theorem Code.lowerFunc_body {outer : Code.Scopes} {code : Code.Func}
    (h : Code.lowerFunc t outer i n.selfName? f = .ok code) :
    let scopes : Code.Scopes := ⟨.function, t.ownNames i n f⟩ :: outer
    let body := Code.lowerStmts t scopes scopes (i + 1) f.body
    Code.hoist (t.declarationsOf f i).functions body.found = .ok code.hoisted ∧
      body.code = .ok code.body ∧
      ∀ (args : List Value) (callee : Value), entryRecord code.params args code.declared
        (code.selfName.map (fun name => (name, callee))) = t.entered i n f args callee := by
  obtain ⟨name, params, body⟩ := f
  rw [Code.lowerFunc] at h
  obtain ⟨hoisted, hhoisted, h⟩ := Except.bind_eq_ok.1 h
  obtain ⟨stmts, hstmts, h⟩ := Except.bind_eq_ok.1 h
  cases h
  exact ⟨hhoisted, hstmts, fun _ _ => rfl⟩

theorem Instrumented.call_eq_opening {closure : SteppedClosure} {outer : Code.Scopes}
    {code : Code.Func}
    (hlowered : Code.lowerFunc closure.tree outer closure.index n.selfName? f = .ok code)
    (invoke : Invoke) (fuel : Nat) (callee this : Value) (args : List Value) :
    call invoke fuel ⟨code, closure.chain, closure.registry⟩ callee this args =
      Env.opening { closure.fixed invoke fuel this args with records := true }
        (closure.tree.entered closure.index n f args callee) closure.chain
        (fun a => instantiate { closure.fixed invoke fuel this args with records := true } a
          code.hoisted)
        (execList { closure.fixed invoke fuel this args with records := true } code.body) := by
  obtain ⟨-, hns, hindex, -⟩ := Code.lowerFunc_eq_ok hlowered
  obtain ⟨-, -, hrecord⟩ := Code.lowerFunc_body hlowered
  rw [call]
  dsimp only
  rw [hns, hindex, hrecord]
  rfl

namespace SteppedClosure.Ready

variable {closure : SteppedClosure}

/-- The body of a function is in its place. -/
theorem body (h : closure.Ready T w s n f) {K : Cache → Prop}
    (hK : ∀ lo hi, Room s closure.tree K lo hi)
    (hs : s = .own → T.solo = false) :
    closure.tree.Along (Placed T s closure.tree K) (closure.index + 1) (Node.ofStmts f.body) := by
  have hchildren := Node.children_of_func? h.func
  have hstands := h.stands.children
  have hafter := h.stands.after_eq
  rw [hchildren] at hstands hafter
  exact IndexedTree.along_placed hstands (hK _ _) (Nat.le_refl _) (Nat.le_of_eq hafter.symm)
    (h.fair.fair hs) h.quiet

/-- The functions that are declared in the body. -/
theorem declared (h : closure.Ready T w s n f) {K : Cache → Prop}
    (hK : ∀ lo hi, Room s closure.tree K lo hi)
    (hs : s = .own → T.solo = false) {d : String × Nat}
    (hd : d ∈ (closure.tree.declarationsOf f closure.index).functions) :
    d.1 ∈ closure.tree.ownNames closure.index n f ∧
      ∃ g, Placed T s closure.tree K d.2 (.stmt (.function g)) := by
  obtain ⟨g, -, hg⟩ := (h.body hK hs).declared (Declarations.mem_ofList hd)
  exact ⟨IndexedTree.mem_ownNames.2 (.inr (.inr (.inl (List.mem_map_of_mem hd)))), g, hg⟩

theorem isSome_declared (h : closure.Ready T w s n f) {d : String × Nat}
    (hd : d ∈ (closure.tree.declarationsOf f closure.index).functions) :
    (closure.tree.func? d.2).isSome = true := by
  obtain ⟨g, -, -, hg⟩ := (Node.children_of_func? h.func ▸ h.stands.children).exists_declared
    (Declarations.mem_ofList hd)
  rw [hg.func?]
  rfl

end SteppedClosure.Ready

section

variable {invoke invoke' : Invoke} {fuel fuel' : Nat} {closure : SteppedClosure} {this callee : Value}
  {args : List Value}

/-- What two calls of one function are given. -/
structure Calling (T : Terms) (w : World) (invoke invoke' : Invoke) (fuel fuel' : Nat)
    (callee this : Value) (args : List Value) : Prop where
  invoke : T.solo = false → invoke.Alike T invoke'
  counts : T.solo = true → invoke'.Obeys .tally
  fuel : T.Fuels fuel fuel'
  callee : callee.Shown w
  this : this.Shown w
  args : ∀ v ∈ args, v.Shown w
  building : w.building = none

namespace Calling

theorem mono (h : Calling T w invoke invoke' fuel fuel' callee this args) (hw : w ≤ w') :
    Calling T w' invoke invoke' fuel fuel' callee this args :=
  { h with
    callee := h.callee.mono hw.roles
    this := h.this.mono hw.roles
    args := fun v hv => (h.args v hv).mono hw.roles
    building := hw.building.trans h.building }

/-- The closure is walked on both sides. -/
theorem walked (h : Calling T w invoke invoke' fuel fuel' callee this args) :
    (closure.fixed invoke fuel this args).Match T w (closure.fixed invoke' fuel' this args) where
  this := ⟨rfl, h.this⟩
  args := ⟨rfl, h.args⟩
  registry := rfl
  records _ := rfl
  site _ := rfl
  fuel := h.fuel
  invoke := h.invoke
  building := h.building
  counts := h.counts

/-- Its code runs on the left. -/
theorem lowered (h : Calling T w invoke invoke' fuel fuel' callee this args) (hT : T.Coherent)
    (hmode : closure.mode = T.mode) :
    Env.Match T w { closure.fixed invoke fuel this args with records := true }
      (closure.fixed invoke' fuel' this args) where
  this := ⟨rfl, h.this⟩
  args := ⟨rfl, h.args⟩
  registry := rfl
  records hT := by
    rw [SteppedClosure.fixed, hmode, hT]
    rfl
  site htogether := by
    rw [SteppedClosure.fixed, hmode, hT.even htogether]
    rfl
  fuel := h.fuel
  invoke := h.invoke
  building := h.building
  counts := h.counts

end Calling

/-- What is known in a function that has been called.  Where calls stand alone only functions that make
no scopes may ask for their arguments, and these functions catch no exceptions. -/
def Stance.called (T : Terms) (s : Manner) (t : IndexedTree) : Stance where
  chain := none
  books := fun cache => T.solo = true → cache.Sorted ∧
    (s.opens = false → ∀ j, t.isName j = true → cache.get? j = none)
  args := T.solo = true → s = .own
  doomed := T.solo = true ∧ s.opens = false

theorem Stance.called_room (chain : Chain) (lo hi : Nat) :
    Room s t ((Stance.called T s t).opened a chain).books lo hi := by
  refine fun i _ _ hname cache hcache => ⟨fun v hsolo => ?_, fun hsolo => ?_⟩
  · obtain ⟨hsorted, hanew⟩ := hcache hsolo
    refine ⟨hsorted.insert i v, fun hs j hj => ?_⟩
    rw [Cache.get?_insert_of_ne, hanew hs j hj]
    rintro rfl
    rw [hname hs] at hj
    cases hj
  · obtain ⟨hsorted, hanew⟩ := hcache hsolo
    refine ⟨hsorted.erase i, fun hs j hj => ?_⟩
    rw [Cache.get?_erase_of_ne, hanew hs j hj]
    rintro rfl
    rw [hname hs] at hj
    cases hj

theorem Stance.called_nil (chain : Chain) : ((Stance.called T s t).opened a chain).books [] :=
  fun _ => ⟨List.Pairwise.nil, fun _ _ _ => rfl⟩

/-- Where calls may stand anywhere all functions may ask for their arguments. -/
theorem Stance.called_args (hsolo : T.solo = false) (chain : Chain) :
    ((Stance.called T s t).opened a chain).args := fun h => by
  rw [hsolo] at h
  cases h

theorem Stance.not_pausing (hsolo : T.solo = false) {chain : Chain} :
    ¬ ((Stance.called T s t).opened a chain).Pausing T :=
  fun h => h.2 (Stance.called_args hsolo chain)

/-- Where calls may stand anywhere and no pauses are taken, what chases runs alike. -/
theorem ChasesFrom.sim {α α' : Type} {D : Unwind → World → Machine → Value → Machine → Prop}
    {lo hi : Nat} {x y again : ActM α} {x' : ActM α'} {R : World → α → α' → Prop}
    (hsolo : T.solo = false) (hpausing : ¬ S.Pausing T) (h : Chases T D S c lo hi w x y again x' R) :
    ASim T S w x x' R := by
  intro s s' hs
  have hpursues := h.first s s' hs
  revert hpursues
  generalize x s = r
  generalize x' s' = r'
  intro hpursues
  cases hpursues with
  | ends hends => exact hends
  | excused hexcused =>
      rw [hexcused.1] at hsolo
      cases hsolo
  | paused hw hpaused rest => exact absurd hpaused.pausing hpausing

/-- The scopes of a function that has been entered. -/
theorem Chain.Sound.opened (h : Chain.Sound w c) (hw : w.roles <+: w'.roles)
    (ha : w'.role? a = some (.scope names true)) : Chain.Sound w' (⟨.function, a⟩ :: c) :=
  .cons (show Link.Sound w' ⟨.function, a⟩ from ⟨names, ha⟩) (h.mono hw)

/-- The manner of a part of a function: behind the part in which it may ask for its arguments it may be
paused. -/
inductive Manner.Turns (T : Terms) : Manner → Manner → Prop
  | same (s : Manner) : Turns T s s
  | back (hsolo : T.solo = true) : Turns T .own .apart

theorem Manner.Turns.opens_eq {s s' : Manner} (h : Manner.Turns T s s') : s'.opens = s.opens := by
  cases h <;> rfl

theorem Stance.called_dooms (hT : T.Coherent) (hsolo : T.solo = true) (chain : Chain) :
    T.pauses = .left ∧ (((Stance.called T s t).opened a chain).doomed ↔ s.opens = false) :=
  ⟨hT.solo hsolo, And.right, fun hopens => ⟨hsolo, hopens⟩⟩

theorem Stance.called_bare {s s' : Manner} (hs : s ≠ .top) (hturns : Manner.Turns T s s')
    (happart : s ≠ .apart) (chain : Chain) :
    s' = .top ∨ s' = .apart ∨ s' = .script ∧ T.solo = true →
      ¬ ((Stance.called T s' t).opened a chain).args := by
  cases hturns with
  | same s =>
      rintro (rfl | rfl | ⟨rfl, hsolo⟩) hargs
      · exact hs rfl
      · exact happart rfl
      · cases hargs hsolo
  | back hsolo =>
      intro _ hargs
      cases hargs hsolo

/-- The function of a closure is walked on both sides. -/
theorem SteppedClosure.Ready.walks (hT : T.Coherent) (ready : closure.Ready T w s n f)
    (henvs : env.Match T w env') (hrecords : env'.records = env.records)
    (hregistry : env.registry = closure.registry) {s' : Manner} (hturns : Manner.Turns T s s')
    (hfree : s = .free → env.records = false ∧ T.solo = false)
    (hkept : s ≠ .free → env.records = true ∧ T.mode = .recording)
    (hopen : s = .free ∨ s = .script ∨ s = .own ∧ closure.chain = [] ∧ T.spared = none)
    (hseeks : T.solo = true → s.opens = false → closure.tree.Seeks names)
    (ha : w.role? a = some (.scope names s.opens)) :
    Walked T s' closure.tree ((Stance.called T s' closure.tree).opened a closure.chain) w
      (⟨.function, a⟩ :: closure.chain) env env' := by
  have hinner : s ≠ .top ∧ s ≠ .apart := by
    rcases hopen with rfl | rfl | ⟨rfl, -⟩ <;> exact ⟨nofun, nofun⟩
  have hsound : s.opens = true → Chain.Sound w (⟨.function, a⟩ :: closure.chain) := fun hopens =>
    ready.chain.opened (List.prefix_refl _) (hopens ▸ ha)
  have hlive : Chain.Live w (⟨.function, a⟩ :: closure.chain) := by
    intro link hlink
    rcases List.mem_cons.1 hlink with rfl | hlink
    · exact ⟨names, s.opens, ha⟩
    · exact ready.chain.live link hlink
  have hnone : s' = .free → s = .free := by
    rintro rfl
    cases hturns
    rfl
  have hkept' : s' ≠ .free → s ≠ .free := by
    rintro hs rfl
    cases hturns
    exact hs rfl
  exact {
    envs := henvs
    chain := rfl
    live := hlive
    records := hrecords
    sound := fun hopens => hsound (hturns.opens_eq ▸ hopens)
    alone := fun hclosed => by
      rw [hturns.opens_eq] at hclosed
      rcases hopen with rfl | rfl | ⟨rfl, hchain, -⟩
      · cases hclosed
      · cases hclosed
      · exact ⟨a, names, by rw [hchain], ha, fun hsolo => hseeks hsolo rfl⟩
    own := fun hs _ => hs
    free := fun hs => by
      obtain ⟨hrecords, hsolo⟩ := hfree (hnone hs)
      refine ⟨hrecords, fun h => ?_, hsolo⟩
      rw [hsolo] at h
      cases h
    kept := fun hs => by
      obtain ⟨hrecords, hmode⟩ := hkept (hkept' hs)
      exact ⟨hrecords, hmode, hregistry ▸ ready.registered (hkept' hs)⟩
    quiet := by
      rintro rfl
      cases hturns
      exact absurd rfl hinner.1
    bare := Stance.called_bare hinner.1 hturns hinner.2 _
    halts := fun hspared => by
      rcases hopen with rfl | rfl | ⟨-, -, hnone⟩
      · exact ⟨hturns.opens_eq, hT.halting hspared, fun hs => by cases hturns; cases hs⟩
      · exact ⟨hturns.opens_eq, hT.halting hspared, fun hs => by cases hturns; cases hs⟩
      · exact absurd hnone hspared
    sorted := fun hsolo cache hcache => (hcache hsolo).1
    anew := fun hsolo hclosed cache hcache => (hcache hsolo).2 hclosed
    dooms := fun hsolo => Stance.called_dooms hT hsolo _ }

theorem SteppedClosure.Ready.walked (hT : T.Coherent)
    (h : Calling T w invoke invoke' fuel fuel' callee this args) (ready : closure.Ready T w s n f)
    (walks : T.Walks s closure.mode) (ha : w.role? a = some (.scope names s.opens)) :
    Walked T s closure.tree ((Stance.called T s closure.tree).opened a closure.chain) w
      (⟨.function, a⟩ :: closure.chain) (closure.fixed invoke fuel this args)
      (closure.fixed invoke' fuel' this args) := by
  have hopen : s = .free ∨ s = .script := by
    cases s with
    | free => exact .inl rfl
    | script => exact .inr rfl
    | own => exact walks.elim
    | apart => exact walks.elim
    | top => exact walks.elim
  refine ready.walks hT h.walked rfl rfl (.same s) ?_ ?_ (hopen.imp_right .inl)
    (fun _ hclosed => by rw [walks.opens] at hclosed; cases hclosed) ha
  · rintro rfl
    exact ⟨by rw [fixed, walks.1]; rfl, walks.2⟩
  · intro hs
    obtain rfl := hopen.resolve_left hs
    exact ⟨by rw [fixed, walks.1]; rfl, walks.2⟩

theorem Stepper.call_sim (hsolo : T.solo = false) (hT : T.Coherent)
    (h : Calling T w invoke invoke' fuel fuel' callee this args) (ready : closure.Ready T w s n f)
    (walks : T.Walks s closure.mode) :
    MSim T w (call invoke fuel closure callee this args)
      (call invoke' fuel' closure callee this args) Valued := by
  rw [call_eq_opening ready.stands ready.func invoke fuel callee this h.args,
    call_eq_opening ready.stands ready.func invoke' fuel' callee this h.args]
  intro m m' hm
  obtain ⟨hbinds, hpresent⟩ := IndexedTree.entered_binds (t := closure.tree) (i := closure.index)
    (n := n) (f := f) h.args h.callee ready.counts
  have hwalked : ∀ w', w ≤ w' → ∀ {names}, w'.role? m.heap.size = some (.scope names s.opens) →
      Walked T s closure.tree ((Stance.called T s closure.tree).opened m.heap.size closure.chain) w' _ _ _ :=
    fun w' hw _ ha => (ready.mono hw.roles).walked hT (h.mono hw) walks ha
  obtain ⟨w₁, x, x', hw₁, ha, hs, -, hleft, hright⟩ | ⟨u, x, hstrays, hleft⟩ := h.walked.opens
    (S := .called T s closure.tree) hm hbinds hpresent (fun d hd => ready.isSome_declared hd)
    (Stance.called_nil (s := s) (t := closure.tree) (a := m.heap.size) closure.chain) closure.chain
    (fun a => instantiate (closure.fixed invoke fuel this args) closure.tree a _)
    (execList (closure.fixed invoke fuel this args) closure.tree (closure.index + 1) f.body)
    (execList (closure.fixed invoke' fuel' this args) closure.tree (closure.index + 1) f.body)
    (fun w' hw ha w'' hw' => instantiate_sim (hwalked w' hw ha)
      (fun d hd => ready.declared (Stance.called_room _) (fun _ => hsolo) hd) hw' (World.role?_mono hw' ha))
  case inr =>
    rw [hleft]
    exact .strayed hstrays
  rw [hleft, hright]
  have hfirst := hwalked w₁ hw₁ ha
  have hsteady := Stance.called_args (a := m.heap.size) (s := s) (t := closure.tree) hsolo closure.chain
  have hrewalked : Rewalked T _ closure.tree _ w₁ _ _ _ _ :=
    { scene := hfirst.toScene
      fuel := h.fuel
      records := fun hargs => absurd hsteady hargs
      free := fun hs => (hfirst.free hs).1
      bare := hfirst.bare
      dooms := hfirst.dooms
      walked := fun _ => hfirst
      left := hfirst }
  have hbody := ChasesFrom.sim hsolo (Stance.not_pausing hsolo)
    (execList_walked (D := fun _ _ _ _ _ => False) (Seated.of_free hsolo) hrewalked _ _
      (ready.body (Stance.called_room _) fun _ => hsolo)) x x' hs
  exact ((h.mono hw₁).walked.leave_ends hbody).of_le hw₁

theorem SteppedClosure.Ready.pictured {scopes : Code.Scopes} (hT : T.Coherent)
    (h : Calling T w invoke invoke' fuel fuel' callee this args)
    (ready : closure.Ready T w s n f) {s' : Manner} (hturns : Manner.Turns T s s')
    (runs : T.Runs closure.chain (closure.tree.ownNames closure.index n f) s)
    (fits : Chain.Fits w scopes closure.chain) (hmode : closure.mode = T.mode)
    (ha : w.role? a = some (.scope (closure.tree.ownNames closure.index n f) s.opens)) :
    Pictured T s' closure.tree ((Stance.called T s' closure.tree).opened a closure.chain) w
      (⟨.function, closure.tree.ownNames closure.index n f⟩ :: scopes)
      (⟨.function, a⟩ :: closure.chain)
      { closure.fixed invoke fuel this args with records := true }
      (closure.fixed invoke' fuel' this args) := by
  have hfits : Chain.Fits w (⟨.function, closure.tree.ownNames closure.index n f⟩ :: scopes)
      (⟨.function, a⟩ :: closure.chain) := ⟨⟨rfl, s.opens, ha⟩, fits⟩
  have hmanner : s = .script ∨ s = .own := by
    cases s with
    | free => exact runs.elim
    | script => exact .inl rfl
    | own => exact .inr rfl
    | apart => exact runs.elim
    | top => exact runs.elim
  have hinner : s ≠ .top ∧ s ≠ .apart ∧ s ≠ .free := by
    rcases hmanner with rfl | rfl <;> exact ⟨nofun, nofun, nofun⟩
  exact {
    envs := h.lowered hT hmode
    chain := rfl
    live := hfits.live
    fits := hfits
    records := rfl
    mode := by rw [SteppedClosure.fixed, hmode]
    registered := ready.registered hinner.2.2
    manner := by
      rintro rfl
      cases hturns
      exact hinner.2.2 rfl
    sound := fun hopens => by
      rw [hturns.opens_eq] at hopens
      exact ready.chain.opened (List.prefix_refl _) (hopens ▸ ha)
    alone := fun hclosed => by
      rw [hturns.opens_eq] at hclosed
      rcases hmanner with rfl | rfl
      · cases hclosed
      · exact ⟨a, _, by rw [runs.1], ha⟩
    own := by
      rintro rfl
      cases hturns
      obtain ⟨hchain, hlacks⟩ := runs
      rw [hchain] at fits
      refine ⟨fun _ => rfl, ?_⟩
      cases scopes with
      | nil =>
          intro entry hentry
          cases List.mem_singleton.1 hentry
          exact ⟨rfl, hlacks⟩
      | cons entry scopes => exact fits.elim
    unhooked := fun hopens => by
      rw [hturns.opens_eq] at hopens
      rcases hmanner with rfl | rfl
      · exact runs
      · cases hopens
    bare := Stance.called_bare hinner.1 hturns hinner.2.1 _
    sorted := fun hsolo cache hcache => (hcache hsolo).1
    dooms := fun hsolo => Stance.called_dooms hT hsolo _ }

theorem Instrumented.call_sim {scopes : Code.Scopes} {code : Code.Func} (hsolo : T.solo = false)
    (hT : T.Coherent) (h : Calling T w invoke invoke' fuel fuel' callee this args)
    (ready : closure.Ready T w s n f)
    (runs : T.Runs closure.chain (closure.tree.ownNames closure.index n f) s)
    (lowered : Code.lowerFunc closure.tree scopes closure.index n.selfName? f = .ok code)
    (fits : Chain.Fits w scopes closure.chain) (hmode : closure.mode = T.mode) :
    MSim T w (call invoke fuel ⟨code, closure.chain, closure.registry⟩ callee this args)
      (Stepper.call invoke' fuel' closure callee this args) Valued := by
  rw [call_eq_opening lowered invoke fuel callee this args,
    Stepper.call_eq_opening ready.stands ready.func invoke' fuel' callee this h.args]
  obtain ⟨hhoisted, hcode, -⟩ := Code.lowerFunc_body lowered
  intro m m' hm
  obtain ⟨hbinds, hpresent⟩ := IndexedTree.entered_binds (t := closure.tree) (i := closure.index)
    (n := n) (f := f) h.args h.callee ready.counts
  have hpictured : ∀ w', w ≤ w' →
      w'.role? m.heap.size = some (.scope (closure.tree.ownNames closure.index n f) s.opens) →
      Pictured T s closure.tree ((Stance.called T s closure.tree).opened m.heap.size closure.chain) w' _ _ _ _ :=
    fun w' hw ha => (ready.mono hw.roles).pictured hT (h.mono hw) (.same s) runs (fits.mono hw.roles)
      hmode ha
  obtain ⟨w₁, x, x', hw₁, ha, hs, -, hleft, hright⟩ | ⟨u, x, hstrays, hleft⟩ :=
    (h.lowered hT hmode).opens (S := .called T s closure.tree) hm hbinds hpresent
    (fun d hd => ready.isSome_declared hd) (Stance.called_nil (s := s) (t := closure.tree) (a := m.heap.size) closure.chain)
    closure.chain
    (fun a => instantiate { closure.fixed invoke fuel this args with records := true } a code.hoisted)
    (execList { closure.fixed invoke fuel this args with records := true } code.body)
    (Stepper.execList (closure.fixed invoke' fuel' this args) closure.tree (closure.index + 1) f.body)
    (fun w' hw ha w'' hw' => instantiate_sim (hpictured w' hw ha)
      (Code.lowerStmts_finds _ _ _ hcode) (ready.body (Stance.called_room _) fun _ => hsolo)
      (fun d hd => ⟨(ready.declared (fun _ _ => .of_vacant Vacant.any) (fun _ => hsolo) hd).1, Declarations.mem_ofList hd⟩) hhoisted hw'
      (World.role?_mono hw' ha))
  case inr =>
    rw [hleft]
    exact .strayed hstrays
  rw [hleft, hright]
  have hfirst := hpictured w₁ hw₁ ha
  have hsteady := Stance.called_args (a := m.heap.size) (s := s) (t := closure.tree) hsolo closure.chain
  have hdepicted : Depicted T _ closure.tree _ w₁ _ _ _ (closure.fixed invoke fuel this args) _ :=
    { scene := hfirst.toScene
      fuel := h.fuel
      records := fun hargs => absurd hsteady hargs
      free := fun hs => absurd hs hfirst.manner
      bare := hfirst.bare
      dooms := hfirst.dooms
      walked := fun hpausing => absurd hpausing (Stance.not_pausing hsolo)
      left := hfirst }
  have hbody := ChasesFrom.sim hsolo (Stance.not_pausing hsolo)
    (execList_lowered (D := fun _ _ _ _ _ => False) (Seated.of_free hsolo) hdepicted _ _ hcode
      (ready.body (Stance.called_room _) fun _ => hsolo)) x x' hs
  exact (((h.mono hw₁).lowered hT hmode).leave_ends hbody).of_le hw₁

end

/-! ## All calls -/

/-- Where calls may stand anywhere, they run alike. -/
theorem Machine.call_alike (hsolo : T.solo = false) (hT : T.Coherent) {fuel fuel' : Nat}
    (hfuel : T.Fuels fuel fuel') : (call fuel).Alike T (call fuel') := by
  induction fuel' generalizing fuel with
  | zero =>
      intro w hw f this args _ _ _
      rcases hfuel.zero with hloose | rfl
      · exact .of_loose hloose
      · exact .exhausted
  | succ fuel' ih =>
      obtain ⟨fuel, rfl, hrest⟩ := hfuel.succ
      intro w hw f this args hf hthis hargs
      refine .bind_rel (callable?_sim hf) fun w₁ hw₁ g g' hg => ?_
      have hbuilding := hw₁.building.trans hw
      have hargs₁ : ∀ v ∈ args, v.Shown w₁ := fun v hv => (hargs v hv).mono hw₁.roles
      rcases hg with ⟨rfl, rfl⟩ | ⟨g, g', rfl, rfl, htwin⟩
      · exact .bind (inspect_sim f) fun w₂ hw₂ name _ => typeError_sim _
      · refine .bind (enter_sim hsolo) fun w₂ hw₂ _ _ => closing_sim ?_
        have hcalling : Calling T w₂ (call fuel) (call fuel') fuel fuel' f this args :=
          { invoke := fun _ => ih hrest
            counts := fun hsolo' => by
              rw [hsolo] at hsolo'
              cases hsolo'
            fuel := hrest
            callee := (hf.mono hw₁.roles).mono hw₂.roles
            this := (hthis.mono hw₁.roles).mono hw₂.roles
            args := fun v hv => (hargs₁ v hv).mono hw₂.roles
            building := hw₂.building.trans hbuilding }
        cases htwin.mono hw₂.roles with
        | native g _ =>
            exact runNative_sim hcalling.invoke hcalling.building hrest
              (fun hsolo' => by rw [hsolo] at hsolo'; cases hsolo') hcalling.this hcalling.args
        | walked ready walks => exact Stepper.call_sim hsolo hT hcalling ready walks
        | instrumented ready runs lowered fits hmode =>
            exact Instrumented.call_sim hsolo hT hcalling ready runs lowered fits hmode

end Resumption
