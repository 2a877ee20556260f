import Resumption.Proofs.Match.Elements

/-!
# Calls get replies

Where calls stand alone, a function that has been called may be paused on the left, by itself or in a call
that it makes.  When it is taken up it comes to the result that it has on the right.
-/

namespace Resumption

open Script

variable {T : Terms} {s : Manner} {t : IndexedTree} {S : Stance} {w w' : World} {c : Chain}
  {env env' env₂ : Env} {i lo hi fuel fuel' : Nat} {m m' mid : Machine} {u : Unwind} {v : Value}
  {scopes : Code.Scopes}

namespace Instrumented

open ActM

/-! ## Instrumented calls in their places -/

/-- The function to call with its receiver, and what it is given. -/
def operands (env : Env) (callee : Code.Expr) (args : List Code.Expr) :
    ActM ((Value × Value) × List Value) := do
  let f ← evalCallee env callee
  let vs ← evalList env args
  return (f, vs)

section

variable {callee : Script.Expr} {args : List Script.Expr} {x : Code.Expr} {xs : List Code.Expr}

theorem operands_sim (h : Pictured T s t S w scopes c env env')
    (hparts : t.Along (Calmly T s t S.books) (i + 1) (Node.expr callee :: Node.ofExprs args))
    (hx : Code.lowerExpr t scopes (i + 1) callee = .ok x)
    (hxs : Code.lowerExprs t scopes (t.after (i + 1)) args = .ok xs) :
    ASim T S w (operands env x xs) (Stepper.operands env' t i callee args) Stepper.Handed := by
  obtain ⟨hcallee, hargs⟩ := hparts
  refine .bind (evalCallee_sim h hx (fun target htarget => evalTarget_sim h (i + 1) callee htarget hcallee)
    (eval_sim h (i + 1) callee hx hcallee)) fun w₁ hw₁ p hp => ?_
  refine .bind (evalList_sim (h.mono hw₁) _ args hxs hargs) fun w₂ hw₂ vs hvs => .pure ⟨rfl, ?_⟩
  exact ⟨hp.1.mono hw₂.roles, hp.2.mono hw₂.roles, hvs⟩

/-- A call is lowered with its operands. -/
theorem exists_lowered_call {code : Code.Expr} (h : Code.lowerExpr t scopes i (.call callee args) = .ok code) :
    ∃ x xs, code = .call i x xs ∧ Code.lowerExpr t scopes (i + 1) callee = .ok x ∧
      Code.lowerExprs t scopes (t.after (i + 1)) args = .ok xs := by
  rw [Code.lowerExpr] at h
  obtain ⟨x, hx, h⟩ := Except.bind_eq_ok.1 h
  obtain ⟨xs, hxs, h⟩ := Except.bind_eq_ok.1 h
  cases h
  exact ⟨x, xs, rfl, hx, hxs⟩

/-- A lowered call is made of its operands. -/
theorem eval_call_operands (h : Pictured T s t S w scopes c env env')
    (hplaced : Placed T s t S.books i (.expr (.call callee args)))
    (hx : Code.lowerExpr t scopes (i + 1) callee = .ok x) :
    eval env (.call i x xs) = operands env x xs >>= fun p =>
      recorded env i (callAt env i (Stepper.describe callee) p.1.1 p.1.2 p.2) := by
  rw [eval_call, Code.describe_of_lowerExpr h.manner callee (hplaced.children rfl).1.fair
    (h.admits hplaced.fair).1 hx]
  simp only [operands, bind_assoc, pure_bind]

theorem call_chases (h : Depicted T s t S w scopes c env env₂ env') (ha : Answered T fuel env env₂ env')
    (hplaced : Placed T s t S.books i (.expr (.call callee args))) {code : Code.Expr}
    (hcode : Code.lowerExpr t scopes i (.call callee args) = .ok code) :
    Stepper.EvalChases T (Fulfils T fuel) t S w c env₂ env' i (.call callee args) (eval env code) := by
  obtain ⟨x, xs, rfl, hx, hxs⟩ := exists_lowered_call hcode
  refine Stepper.call_chases h.toChased ha h.left.manner hplaced
    (fun _ hw' => operands_sim (h.left.reach hw') (hplaced.operands fun _ => h.left.manner) hx hxs) fun s _ => ?_
  rw [eval_call_operands h.left hplaced hx]

end

/-- An assignment is lowered with its parts. -/
theorem eval_assign (env : Env) (i : Nat) (target : Code.Target) (value : Code.Expr) :
    eval env (.assign i none target value) =
      evalTarget env target >>= fun spot => eval env value >>=
        Stepper.assigned env i (writeSpot env spot) := by
  rw [eval]
  simp only [assigning, bind_assoc, pure_bind]
  rfl

/-- Where calls stand alone and get replies, every instrumented expression chases. -/
theorem Seated.of_answered (ha : Answered T fuel env env₂ env') :
    Seated T (Fulfils T fuel) s t env env₂ env' := by
  intro S w scopes c i e code h hplaced hconstruct hcode
  have hs := h.left.manner
  cases hplaced.sits ha.solo hs (hconstruct ha.solo) with
  | calm hcalm => exact calm_chases h ⟨hplaced, fun _ => ⟨hs, hcalm⟩⟩ hcode
  | call callee args => exact call_chases h ha hplaced hcode
  | name x callee args =>
      rw [Code.lowerExpr] at hcode
      obtain ⟨l, hl, hcode⟩ := Except.bind_eq_ok.1 hcode
      obtain ⟨r, hr, hcode⟩ := Except.bind_eq_ok.1 hcode
      cases hcode
      cases hl
      have heval : eval env (.assign i none (.ref (scopes.resolve x)) r) =
          eval env r >>= Stepper.assigned env i (writeRef env (scopes.resolve x)) := by
        rw [eval_assign]
        rfl
      refine Stepper.assignName_chases h.toChased hplaced
        (call_chases h ha (hplaced.children rfl).2.1 hr) (fun s _ => congrFun heval s)
        fun w' hw' v hv hnum => ?_
      exact writeRef_sim (h.scene.reach hw') (h.left.reach hw').fits x hv
        (hplaced.fair.keepsCount.suits (h.left.reach hw').sound (fun _ => hnum) x rfl)
  | element happart object callee args hreads =>
      subst happart
      obtain ⟨htarget, hvalue, -⟩ := hplaced.children rfl
      rw [Code.lowerExpr] at hcode
      obtain ⟨l, hl, hcode⟩ := Except.bind_eq_ok.1 hcode
      obtain ⟨r, hr, hcode⟩ := Except.bind_eq_ok.1 hcode
      cases hcode
      obtain ⟨x, xs, rfl, hx, hxs⟩ := exists_lowered_call hr
      have hcalm : Calmly T .apart t S.books (i + 1)
          (.expr (.index (.ident object) (.ident counterName))) := ⟨htarget, fun _ => ⟨nofun, rfl⟩⟩
      have hcall : eval env (.call (t.after (i + 1)) x xs) = _ := eval_call_operands h.left hvalue hx
      have heval := eval_assign env i l (.call (t.after (i + 1)) x xs)
      refine Stepper.element_chases h.toChased ha hplaced hreads
        (fun _ hw' => evalTarget_sim (h.left.reach hw') _ _ hl hcalm)
        (fun _ hw' => operands_sim (h.left.reach hw') (hvalue.operands fun _ => hs) hx hxs) ?_
        (fun s _ => congrFun hcall s) fun s _ => congrFun heval s
      intro w₁ w₂ hw₂ hw₁ spot spot' hspot v hv
      exact writeSpot_sim (h.left.reach (hw₁.trans hw₂.reaches)) (hspot.mono hw₂) hv nofun

end Instrumented

/-! ## The end of a call -/

theorem Env.isPause_note (env : Env) (u : Unwind) (act : Activation) :
    (env.note u act).isPause = u.isPause := by
  rw [note]
  split <;> rfl

theorem Machine.faults_escape_pos (m : Machine) : 0 < m.escape.faults :=
  Nat.add_pos_left (Nat.succ_pos _) _

/-- An exception that leaves a function is a fault. -/
theorem Env.faulty_unwind (env' : Env) (u : Unwind) (s : Activation × Machine) :
    Faulty (Machine.closed (env'.leave (.error (.unwind u) s))) := by
  obtain ⟨act, m⟩ := s
  have hpause := env'.isPause_note u act
  rw [Env.leave_unwind]
  cases h : u.isPause with
  | true => exact .inl (hpause.trans h)
  | false => exact .inr m.faults_escape_pos

/-- Nothing is said of a function of which nothing is said while it runs. -/
theorem Excused.faulty {r' : ActResult Flow} (h : Excused T S r') : Faulty (Machine.closed (env'.leave r')) := by
  obtain ⟨-, -, h⟩ := h
  match r', h with
  | .ok .normal (_, _), h => exact h
  | .ok (.ret _) (_, _), h => exact h
  | .ok .brk (_, _), h => exact h
  | .ok .cont (_, _), h => exact h
  | .error .exhausted (_, _), _ => trivial
  | .error (.unwind u) s, _ => exact env'.faulty_unwind u s

/-- A function either has a result without faults, or nothing is said of it. -/
theorem Env.faulty_or_ok (env' : Env) (r' : ActResult Flow) :
    Faulty (Machine.closed (env'.leave r')) ∨
      ∃ v mid, Machine.closed (env'.leave r') = .ok v mid ∧ mid.faults = 0 := by
  have hok : ∀ v (m : Machine), Faulty (.ok v m) ∨ ∃ v' mid,
      (.ok v m : EStateM.Result Stop Machine Value) = .ok v' mid ∧ mid.faults = 0 := fun v m =>
    (Nat.eq_zero_or_pos m.faults).symm.imp_right fun h => ⟨v, m, rfl, h⟩
  match r' with
  | .ok .normal (_, _) => exact hok _ _
  | .ok (.ret _) (_, _) => exact hok _ _
  | .ok .brk (_, _) => exact hok _ _
  | .ok .cont (_, _) => exact hok _ _
  | .error .exhausted (_, _) => exact .inl trivial
  | .error (.unwind u) s => exact .inl (env'.faulty_unwind u s)

open Machine in
/-- A function that pursues another one gets a reply. -/
theorem Pursues.replies {f : Func} {site : Site} {a : Address} {outer : Chain} {r r' : ActResult Flow}
    {s : Activation × Machine} (hsolo : T.solo = true) (hspared : T.spared = none)
    (hsite : site.Stands T t f)
    (h : Pursues T (Fulfils T fuel) S (⟨.function, a⟩ :: outer) lo hi
      (Stepper.execList (site.again fuel) t (site.index + 1) f.body) Flowing r' w r)
    (henv : env.toSite = site) (hfirst : env.Match T w env') (hagain : (site.again fuel).Match T w env')
    (hopen : 0 < s.2.depth)
    (hdepth : ∀ v mid, closed (env'.leave r') = .ok v mid → s.2.depth ≤ mid.depth + 1)
    (hlimit : s.2.depth ≤ s.2.config.maxCallDepth) (hobeys : Policy.standing.activation.Ends s r) :
    Replies T fuel w (closed (env.leave r)) (closed (env'.leave r')) := by
  cases h with
  | ends h => exact .ends (closed_ends (hfirst.leave_ends h))
  | excused h => exact .excused h.faulty
  | paused hw hpaused rest =>
      rcases env'.faulty_or_ok r' with hfaulty | ⟨v, mid, hended, hfaults⟩
      · exact .excused hfaulty
      have hsettles := Pursues.settles hsolo hspared hsite (.paused hw hpaused rest) henv hfirst hagain
        hended hfaults hopen (hdepth v mid hended) hlimit hobeys
      rw [hended]
      rw [Env.leave_unwind] at hsettles ⊢
      exact .paused hsettles.1 hsettles.2

/-! ## Calls of functions -/

/-- A call in which pauses may be taken, with more fuel on the left. -/
theorem Calling.of_solo {k k' : Nat} {callee this : Value} {args : List Value} (hsolo : T.solo = true)
    (hT : T.Coherent) (hk : k' ≤ k) (hcallee : callee.Shown w) (hthis : this.Shown w)
    (hargs : ∀ v ∈ args, v.Shown w) (hw : w.building = none) :
    Calling T w (Machine.call k) (Machine.call k') k k' callee this args where
  invoke h := by
    rw [hsolo] at h
    cases h
  counts _ := Machine.call_obeys k'
  fuel := .of_loose (by rw [Terms.loose, hT.solo hsolo]; rfl) hk
  callee := hcallee
  this := hthis
  args := hargs
  building := hw

/-- What is given where pauses may be taken in a function that has been called, and in those that it
calls. -/
structure Replying (T : Terms) (w : World) (fuel k k' : Nat) (callee this : Value) (args : List Value) :
    Prop where
  solo : T.solo = true
  spared : T.spared = none
  mode : T.mode = .recording
  coherent : T.Coherent
  calling : Calling T w (Machine.call k) (Machine.call k') k k' callee this args
  again : Calling T w (Machine.call fuel) (Machine.call k') fuel k' callee this args
  replies : (Machine.call k).Replies T fuel (Machine.call k')
  repliesAgain : (Machine.call fuel).Replies T fuel (Machine.call k')

/-- A function that has been called keeps the books. -/
def SteppedClosure.called (closure : SteppedClosure) (fuel : Nat) (this : Value) (args : List Value) : Env :=
  { closure.fixed (Machine.call fuel) fuel this args with records := true }

section

variable {closure : SteppedClosure} {n : Node} {f : Func} {k k' : Nat} {callee this : Value}
  {args : List Value} {names : List String} {a : Address}

theorem Replying.mono (hw : w ≤ w') (h : Replying T w fuel k k' callee this args) :
    Replying T w' fuel k k' callee this args :=
  { h with
    calling := h.calling.mono hw
    again := h.again.mono hw }

theorem SteppedClosure.called_eq (hmode : closure.mode = .recording) :
    closure.called fuel this args = closure.fixed (Machine.call fuel) fuel this args := by
  rw [called, fixed, hmode]
  rfl

/-- The calls of a function that has been called get replies. -/
theorem Replying.answered (h : Replying T w fuel k k' callee this args) :
    Answered T fuel (closure.called k this args) (closure.called fuel this args)
      (closure.called k' this args) :=
  ⟨h.solo, h.spared, h.replies, h.repliesAgain⟩

theorem Replying.first (h : Replying T w fuel k k' callee this args) :
    (closure.called k this args).Match T w (closure.called k' this args) :=
  { h.calling.walked with
    records := fun _ => rfl
    site := fun _ => rfl }

theorem Replying.second (h : Replying T w fuel k k' callee this args) :
    (closure.called fuel this args).Match T w (closure.called k' this args) :=
  { h.again.walked with
    records := fun _ => rfl
    site := fun _ => rfl }

/-- A function that keeps the books stands in its tree. -/
theorem SteppedClosure.Ready.called_stands (ready : closure.Ready T w s n f) (hs : s ≠ .free) :
    (closure.called k this args).toSite.Stands T closure.tree f where
  ns := rfl
  func := ready.func?_eq
  registered := ready.registered hs _ ready.stands.owns
  records := rfl

open Machine in
/-- A function is called on both sides, and its body pursues the walk on the right. -/
theorem SteppedClosure.Ready.replies (L : Stance) {make : Address → ActM Unit} {body : ActM Flow}
    (ready : closure.Ready T w s n f) (hs : s ≠ .free) (hmode : closure.mode = .recording)
    (h : Replying T w fuel k k' callee this args) (hm : m.Match T w m') (hopen : 0 < m.depth)
    (hlimit : m.depth ≤ m.config.maxCallDepth) (hbooks : S.books [])
    (hmake : ∀ w', w ≤ w' →
      w'.role? m.heap.size = some (.scope (closure.tree.ownNames closure.index n f) s.opens) →
      ∀ w'', w'.roles <+: w''.roles → ASim T (S.opened m.heap.size closure.chain) w'' (make m.heap.size)
        (Stepper.instantiate (closure.called k' this args) closure.tree m.heap.size
          (closure.tree.declarationsOf f closure.index).functions) Equal)
    (hmakes : Policy.standing.activation.Obeyed (make m.heap.size))
    (hbody : Policy.standing.activation.Obeyed body)
    (hpursues : ∀ w₁, w ≤ w₁ →
      w₁.role? m.heap.size = some (.scope (closure.tree.ownNames closure.index n f) s.opens) →
      ∃ lo hi, FollowsFrom T (Fulfils T fuel) (Activation.tie T (S.opened m.heap.size closure.chain)).holds
        L (⟨.function, m.heap.size⟩ :: closure.chain) lo hi w₁ body
        (Stepper.execList (closure.called fuel this args) closure.tree (closure.index + 1) f.body)
        (Stepper.execList (closure.called k' this args) closure.tree (closure.index + 1) f.body) Flowing) :
    Replies T fuel w
      (closed ((closure.called k this args).opening (closure.tree.entered closure.index n f args callee)
        closure.chain make body m))
      (closed (Stepper.call (call k') k' closure callee this args m')) := by
  have hcall : Stepper.call (call k') k' closure callee this args m' =
      (closure.called k' this args).opening (closure.tree.entered closure.index n f args callee) closure.chain
        (fun a => Stepper.instantiate (closure.called k' this args) closure.tree a
          (closure.tree.declarationsOf f closure.index).functions)
        (Stepper.execList (closure.called k' this args) closure.tree (closure.index + 1) f.body) m' := by
    rw [Stepper.call_eq_opening ready.stands ready.func _ _ callee this h.calling.args, called_eq hmode]
  have hobeys := Stepper.call_obeyed (P := .standing) (call_obeys k') k' closure callee this args m'
  rw [hcall] at hobeys ⊢
  obtain ⟨hbinds, hpresent⟩ := IndexedTree.entered_binds (t := closure.tree) (i := closure.index)
    (n := n) (f := f) h.calling.args h.calling.callee ready.counts
  obtain ⟨w₁, x, x', hw₁, ha, hx, hmade, hleft, hright⟩ | ⟨u, x, hstrays, -⟩ :=
    h.first.opens (S := S) hm hbinds hpresent (fun d hd => ready.isSome_declared hd) hbooks
      closure.chain make body
      (Stepper.execList (closure.called k' this args) closure.tree (closure.index + 1) f.body) hmake
  case inr => exact absurd hstrays (T.not_strays h.spared _)
  have hstart : m.Stays x.2 := by
    have hmade' := hmakes ((closure.called k this args).toSite.start (⟨.function, m.heap.size⟩ :: closure.chain),
      { m with heap := (m.heap.alloc (closure.tree.entered closure.index n f args callee)).2 })
    rw [hmade] at hmade'
    have hlater : Stays { m with heap := _ } x.2 := hmade'
    exact { hlater with }
  obtain ⟨lo, hi, hfollows⟩ := hpursues w₁ hw₁ ha
  rw [hright] at hobeys
  rw [hleft, hright]
  refine ((hfollows x x' hx).replies h.solo h.spared (ready.called_stands (k := k) hs) rfl (h.mono hw₁).first
    (h.mono hw₁).second (hstart.depth ▸ hopen) (fun v mid hended => ?_)
    (by rw [hstart.depth, hstart.config]; exact hlimit) (hbody x)).of_le hw₁
  have hless : x.2.depth ≤ m'.depth := hstart.depth ▸ hm.depth.1
  revert hobeys hended
  generalize (closure.called k' this args).leave _ = r
  intro hobeys hended
  cases r with
  | error e m₁ => cases hended
  | ok v₁ m₁ =>
      have hsame : m₁.depth = m'.depth := Stays.depth hobeys
      cases hended
      change _ ≤ m₁.depth - 1 + 1
      omega

/-! ## Functions that make scopes -/

/-- The function is walked on both sides. -/
theorem Replying.walks {j : Nat} (h : Replying T w fuel k k' callee this args)
    (ready : closure.Ready T w s n f) (hmanner : s = .script ∨ s = .own ∧ closure.chain = []) {s' : Manner}
    (hturns : Manner.Turns T s s')
    (henvs : (closure.called j this args).Match T w (closure.called k' this args))
    (ha : w.role? a = some (.scope (closure.tree.ownNames closure.index n f) s.opens)) :
    Walked T s' closure.tree ((Stance.called T s' closure.tree).opened a closure.chain) w
      (⟨.function, a⟩ :: closure.chain) (closure.called j this args) (closure.called k' this args) := by
  refine ready.walks h.coherent henvs rfl rfl hturns ?_ (fun _ => ⟨rfl, h.mode⟩)
    (.inr (hmanner.imp_right fun hown => ⟨hown.1, hown.2, h.spared⟩)) (fun _ => ready.seeks) ha
  rintro rfl
  rcases hmanner with hs | ⟨hs, -⟩ <;> cases hs

/-- The function's code runs on the left. -/
theorem Replying.pictured {scopes : Code.Scopes} (h : Replying T w fuel k k' callee this args)
    (ready : closure.Ready T w s n f) (hmode : closure.mode = .recording) {s' : Manner}
    (hturns : Manner.Turns T s s')
    (runs : T.Runs closure.chain (closure.tree.ownNames closure.index n f) s)
    (fits : Chain.Fits w scopes closure.chain)
    (ha : w.role? a = some (.scope (closure.tree.ownNames closure.index n f) s.opens)) :
    Pictured T s' closure.tree ((Stance.called T s' closure.tree).opened a closure.chain) w
      (⟨.function, closure.tree.ownNames closure.index n f⟩ :: scopes) (⟨.function, a⟩ :: closure.chain)
      (closure.called k this args) (closure.called k' this args) := by
  have hcalled : closure.called k' this args = _ := SteppedClosure.called_eq hmode
  rw [hcalled]
  exact ready.pictured h.coherent h.calling hturns runs fits (hmode.trans h.mode.symm) ha

theorem Stepper.call_replies (h : Replying T w fuel k k' callee this args)
    (ready : closure.Ready T w .script n f) (hmode : closure.mode = .recording) (hm : m.Match T w m')
    (hopen : 0 < m.depth) (hlimit : m.depth ≤ m.config.maxCallDepth) :
    Replies T fuel w (Machine.closed (call (Machine.call k) k closure callee this args m))
      (Machine.closed (call (Machine.call k') k' closure callee this args m')) := by
  have hwalked : ∀ {j w'}, w ≤ w' → (closure.called j this args).Match T w' (closure.called k' this args) →
      w'.role? m.heap.size = some (.scope (closure.tree.ownNames closure.index n f) true) →
      Walked T .script closure.tree ((Stance.called T .script closure.tree).opened m.heap.size closure.chain)
        w' _ (closure.called j this args) (closure.called k' this args) :=
    fun hw' henvs ha => (h.mono hw').walks (ready.mono hw'.roles) (.inl rfl) (.same .script) henvs ha
  rw [call_eq_opening ready.stands ready.func (Machine.call k) k callee this h.calling.args,
    ← SteppedClosure.called_eq hmode]
  refine ready.replies _ (S := .called T .script closure.tree) nofun hmode h hm hopen hlimit
    (Stance.called_nil (s := .script) (a := m.heap.size) closure.chain)
    (fun w' hw' ha w'' hroles => instantiate_sim (hwalked hw' (h.mono hw').first ha)
      (fun d hd => ready.declared (Stance.called_room _) nofun hd) hroles (World.role?_mono hroles ha))
    (instantiate_obeyed _ _ _) (execList_obeyed (Machine.call_obeys k) _ _) fun w₁ hw₁ ha => ⟨_, _,
      (execList_walked (Seated.of_answered h.answered) ?_ _ _ (ready.body (Stance.called_room _) nofun)).first⟩
  have hfirst := hwalked hw₁ (h.mono hw₁).first ha
  exact {
    scene := hfirst.toScene
    fuel := h.again.fuel
    records := fun _ => rfl
    free := nofun
    bare := hfirst.bare
    dooms := hfirst.dooms
    walked := fun _ => hwalked hw₁ (h.mono hw₁).second ha
    left := hfirst }

/-- What is known where a function's code runs on the left and its tree is walked when it is taken up. -/
theorem Replying.depicted {scopes : Code.Scopes} (h : Replying T w fuel k k' callee this args)
    (ready : closure.Ready T w s n f) (hmode : closure.mode = .recording) {s' : Manner}
    (hturns : Manner.Turns T s s')
    (runs : T.Runs closure.chain (closure.tree.ownNames closure.index n f) s)
    (fits : Chain.Fits w scopes closure.chain)
    (ha : w.role? a = some (.scope (closure.tree.ownNames closure.index n f) s.opens)) :
    Depicted T s' closure.tree ((Stance.called T s' closure.tree).opened a closure.chain) w
      (⟨.function, closure.tree.ownNames closure.index n f⟩ :: scopes) (⟨.function, a⟩ :: closure.chain)
      (closure.called k this args) (closure.called fuel this args) (closure.called k' this args) := by
  have hfirst := h.pictured ready hmode hturns runs fits ha
  have hmanner : s = .script ∨ s = .own ∧ closure.chain = [] := by
    cases s with
    | script => exact .inl rfl
    | own => exact .inr ⟨rfl, runs.1⟩
    | free => exact runs.elim
    | apart => exact runs.elim
    | top => exact runs.elim
  exact {
    scene := hfirst.toScene
    fuel := h.again.fuel
    records := fun _ => rfl
    free := fun hs => absurd hs hfirst.manner
    bare := hfirst.bare
    dooms := hfirst.dooms
    walked := fun _ => h.walks ready hmanner hturns h.second ha
    left := hfirst }

/-- A function of the script, whose code runs on the left. -/
theorem Instrumented.call_replies {scopes : Code.Scopes} {code : Code.Func}
    (h : Replying T w fuel k k' callee this args) (ready : closure.Ready T w .script n f)
    (hmode : closure.mode = .recording)
    (lowered : Code.lowerFunc closure.tree scopes closure.index n.selfName? f = .ok code)
    (fits : Chain.Fits w scopes closure.chain) (hm : m.Match T w m') (hopen : 0 < m.depth)
    (hlimit : m.depth ≤ m.config.maxCallDepth) :
    Replies T fuel w
      (Machine.closed (call (Machine.call k) k ⟨code, closure.chain, closure.registry⟩ callee this args m))
      (Machine.closed (Stepper.call (Machine.call k') k' closure callee this args m')) := by
  obtain ⟨hhoisted, hcode, -⟩ := Code.lowerFunc_body lowered
  have hdepicted : ∀ {w'}, w ≤ w' →
      w'.role? m.heap.size = some (.scope (closure.tree.ownNames closure.index n f) true) →
      Depicted T .script closure.tree ((Stance.called T .script closure.tree).opened m.heap.size closure.chain)
        w' _ _ _ (closure.called fuel this args) _ := fun hw' ha =>
    (h.mono hw').depicted (ready.mono hw'.roles) hmode (.same .script) h.spared (fits.mono hw'.roles) ha
  rw [call_eq_opening lowered (Machine.call k) k callee this args]
  exact ready.replies _ (S := .called T .script closure.tree) nofun hmode h hm hopen hlimit
    (Stance.called_nil (s := .script) (a := m.heap.size) closure.chain)
    (fun w' hw' ha w'' hroles => instantiate_sim (hdepicted hw' ha).left (Code.lowerStmts_finds _ _ _ hcode)
      (ready.body (Stance.called_room _) nofun)
      (fun d hd => ⟨(ready.declared (fun _ _ => .of_vacant Vacant.any) nofun hd).1,
        Declarations.mem_ofList hd⟩) hhoisted hroles (World.role?_mono hroles ha))
    (instantiate_obeyed (Machine.call_obeys k) _ _) (execList_obeyed (Machine.call_obeys k) _)
    fun w₁ hw₁ ha => ⟨_, _, (execList_lowered (Seated.of_answered h.answered) (hdepicted hw₁ ha) _ _ hcode
      (ready.body (Stance.called_room _) nofun)).first⟩

end

end Resumption
