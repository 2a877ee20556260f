import Resumption.Proofs.Match.Answers

/-!
# All calls get replies

The array methods ask for their arguments first, when they call nobody yet; behind that they may be paused.
With them every call gets a reply where calls stand alone, by induction on the fuel.
-/

namespace Resumption

open Script

variable {α α' β β' : Type} {T : Terms} {D : Unwind → World → Machine → Value → Machine → Prop}
  {s : Manner} {t : IndexedTree} {S S₁ : Stance} {w w' : World} {c c₁ : Chain} {env env' env₂ : Env}
  {i lo hi lo₁ hi₁ p fuel : Nat} {m m' : Machine} {scopes home : Code.Scopes} {n : Node} {f : Func}

/-! ## Bodies in two parts -/

namespace Stepper

theorem ifNormal_bind (next after : ActM Flow) :
    (fun flow => ifNormal next flow >>= ifNormal after) = ifNormal (next >>= ifNormal after) := by
  funext flow
  cases flow <;> rfl

theorem execList_append (env : Env) (t : IndexedTree) (i : Nat) (front back : List Stmt) :
    execList env t i (front ++ back) =
      execList env t i front >>= ifNormal (execList env t (t.afterMany front.length i) back) := by
  induction front generalizing i with
  | nil => rfl
  | cons stmt front ih =>
      rw [List.cons_append, execList_eq, execList_eq, ih, bind_assoc, ifNormal_bind, List.length_cons,
        IndexedTree.afterMany_succ]

/-- The first part has been passed. -/
theorem execList_behind {act : Activation} {front back : List Stmt} (hpc : act.pc = some p)
    (h : t.afterMany front.length i ≤ p) :
    execList env t i (front ++ back) (act, m) =
      execList env t (t.afterMany front.length i) back (act, m) := by
  induction front generalizing i with
  | nil => rfl
  | cons stmt front ih =>
      have hle := t.le_afterMany front.length (t.after i)
      rw [List.cons_append, execList_passed hpc (Nat.le_trans hle h), ih h]
      rfl

end Stepper

theorem Instrumented.execList_append (env : Env) (front back : List Code.Stmt) :
    execList env (front ++ back) = execList env front >>= Stepper.ifNormal (execList env back) := by
  induction front with
  | nil => rfl
  | cons stmt front ih =>
      rw [List.cons_append, execList_eq, execList_eq, ih, bind_assoc, Stepper.ifNormal_bind]

theorem Code.lowerStmts_append {front back : List Script.Stmt} {codes : List Stmt}
    (h : (lowerStmts t home scopes i (front ++ back)).code = .ok codes) :
    ∃ first second, codes = first ++ second ∧ (lowerStmts t home scopes i front).code = .ok first ∧
      (lowerStmts t home scopes (t.afterMany front.length i) back).code = .ok second := by
  induction front generalizing i codes with
  | nil => exact ⟨[], codes, rfl, rfl, h⟩
  | cons stmt front ih =>
      obtain ⟨code, rest, hstmt, hrest, rfl⟩ := LoweredBody.both_eq_ok h
      obtain ⟨first, second, rfl, hfirst, hsecond⟩ := ih hrest
      refine ⟨code :: first, second, rfl, ?_, hsecond⟩
      change (do
        let x ← (lowerStmt t home scopes i stmt).code
        return x :: (← (lowerStmts t home scopes (t.after i) front).code) : Lowered (List Stmt)) = _
      rw [hstmt, hfirst]
      rfl

/-- A part in which no pauses are taken comes first. -/
theorem FollowsFrom.bind_steady {P : World → Activation × Machine → Activation × Machine → Prop}
    {x part : ActM α} {x' : ActM α'} {R : World → α → α' → Prop} {f : α → ActM β} {f' : α' → ActM β'}
    {again : ActM β} {R' : World → β → β' → Prop} (hx : FollowsFrom T D P S₁ c₁ lo₁ hi₁ w x part x' R)
    (hsteady : ¬ S₁.Pausing T)
    (hholds : ∀ w s s', (Activation.tie T S₁).holds w s s' → (Activation.tie T S).holds w s s')
    (hthrown : ∀ w s s', (Activation.tie T S₁).thrown w s s' → (Activation.tie T S).thrown w s s')
    (hdoomed : S₁.doomed → S.doomed) (hcounts : ∀ a', T.Counts (f' a'))
    (hf : ∀ w₁, w ≤ w₁ → ∀ a a', R w₁ a a' → Follows T D S c lo hi w₁ (f a) again (f' a') R') :
    FollowsFrom T D P S c lo hi w (x >>= f) again (x' >>= f') R' := by
  intro s s' hs
  have hpursues := hx s s' hs
  rw [bind_apply, bind_apply]
  revert hpursues
  generalize x s = r
  generalize x' s' = r'
  intro hpursues
  cases hpursues with
  | ends hends =>
      rcases hends with ⟨w₁, hw₁, hs₁, hR⟩ | ⟨hu, w₁, hw₁, hs₁, hv⟩ | _ | hloose | hstrays
      · exact .of_le hw₁ (hf w₁ hw₁ _ _ hR _ _ (hholds _ _ _ hs₁))
      · exact .ends (.thrown hu ⟨w₁, hw₁, hthrown _ _ _ hs₁, hv⟩)
      · exact .ends .exhausted
      · exact .ends (.loose hloose)
      · exact .ends (.strayed hstrays)
  | excused h => exact .excused ((h.imp hdoomed).andThen hcounts)
  | paused _ h _ => exact absurd h.pausing hsteady

/-! ## The array methods -/

theorem IndexedTree.along_of_forall {P : Nat → Node → Prop} {l : List Node} (h : ∀ c ∈ l, ∀ j, P j c)
    (i : Nat) : t.Along P i l := by
  induction l generalizing i with
  | nil => trivial
  | cons c l ih =>
      exact ⟨h c List.mem_cons_self i, ih (fun c hc => h c (List.mem_cons_of_mem _ hc)) _⟩

/-- Where no functions are made none are declared. -/
theorem IndexedTree.functions_eq_nil
    (h : ∀ b ∈ Node.ofStmts f.body, ∃ s : Manner, s.opens = false ∧ T.Fair s b) (i : Nat) :
    (t.declarationsOf f i).functions = [] := by
  refine List.eq_nil_iff_forall_not_mem.2 fun d hd => ?_
  obtain ⟨g, -, s, hclosed, hfair⟩ := Along.exists_declared
    (P := fun _ c => ∃ s : Manner, s.opens = false ∧ T.Fair s c)
    (fun hmay ⟨s, hclosed, hfair⟩ => along_of_forall (fun c hc _ =>
      ⟨s, hclosed, hfair.child (Node.func?_of_mayDeclare hmay) hc⟩) _)
    (along_of_forall (fun b hb _ => h b hb) (i + 1)) (Declarations.mem_ofList hd)
  have hopens := hfair.opens And.left
  rw [hclosed] at hopens
  cases hopens

/-- Where calls stand alone, the body of an array method has two parts. -/
theorem Terms.FairBody.parts {body : List Stmt} (h : T.FairBody .own body) (hsolo : T.solo = true) :
    ∃ front back, body = front ++ back ∧ (∀ b ∈ Node.ofStmts front, T.Fair .own b) ∧
      ∀ b ∈ Node.ofStmts back, T.Fair .apart b := by
  cases h with
  | whole hs h =>
      rw [hs rfl] at hsolo
      cases hsolo
  | parted hsolo hfront hback => exact ⟨_, _, rfl, hfront, hback⟩

section

variable {closure : SteppedClosure} {k k' : Nat} {callee this : Value} {args : List Value}
  {code : Code.Func} {a : Address}

/-- In the second part nobody asks for the arguments any more. -/
theorem Stance.called_turn (hsolo : T.solo = true) (chain : Chain) :
    (∀ w s s', (Activation.tie T ((Stance.called T .own t).opened a chain)).holds w s s' →
      (Activation.tie T ((Stance.called T .apart t).opened a chain)).holds w s s') ∧
    ∀ w s s', (Activation.tie T ((Stance.called T .own t).opened a chain)).thrown w s s' →
      (Activation.tie T ((Stance.called T .apart t).opened a chain)).thrown w s s' :=
  ⟨fun _ _ _ h => ⟨{ h.1 with args := fun hargs => nomatch hargs hsolo }, h.2⟩,
    fun _ _ _ h => ⟨{ h.1 with args := fun hargs => nomatch hargs hsolo }, h.2⟩⟩

/-- An array method, whose code runs on the left. -/
theorem Instrumented.call_replies_own (h : Replying T w fuel k k' callee this args)
    (ready : closure.Ready T w .own n f) (hmode : closure.mode = .recording)
    (runs : T.Runs closure.chain (closure.tree.ownNames closure.index n f) .own)
    (lowered : Code.lowerFunc closure.tree scopes closure.index n.selfName? f = .ok code)
    (fits : Chain.Fits w scopes closure.chain) (hm : m.Match T w m') (hopen : 0 < m.depth)
    (hlimit : m.depth ≤ m.config.maxCallDepth) :
    Replies T fuel w
      (Machine.closed (call (Machine.call k) k ⟨code, closure.chain, closure.registry⟩ callee this args m))
      (Machine.closed (Stepper.call (Machine.call k') k' closure callee this args m')) := by
  obtain ⟨hhoisted, hcode, -⟩ := Code.lowerFunc_body lowered
  obtain ⟨front, back, hbody, hfront, hback⟩ := ready.fair.parts h.solo
  obtain ⟨first, second, hcodes, hfirst, hsecond⟩ := Code.lowerStmts_append (hbody ▸ hcode)
  have hstands := ready.stands.children
  have hlength : (Node.ofStmts front).length = front.length := List.length_map _
  have hsplit : Node.ofStmts f.body = Node.ofStmts front ++ Node.ofStmts back := by
    rw [hbody]
    exact List.map_append
  rw [Node.children_of_func? ready.func, hsplit, IndexedTree.atAll_append, hlength] at hstands
  have hnone : (closure.tree.declarationsOf f closure.index).functions = [] := by
    refine IndexedTree.functions_eq_nil (T := T) (fun b hb => ?_) _
    rw [hsplit] at hb
    exact (List.mem_append.1 hb).elim (fun hb => ⟨.own, rfl, hfront b hb⟩)
      fun hb => ⟨.apart, rfl, hback b hb⟩
  have hempty : code.hoisted = [] := by
    rw [hnone] at hhoisted
    exact (Except.ok.inj hhoisted).symm
  have hdepicted : ∀ {w' s'}, w ≤ w' → Manner.Turns T .own s' →
      w'.role? m.heap.size = some (.scope (closure.tree.ownNames closure.index n f) false) →
      Depicted T s' closure.tree ((Stance.called T s' closure.tree).opened m.heap.size closure.chain)
        w' _ _ _ (closure.called fuel this args) _ := fun hw' hturns ha =>
    (h.mono hw').depicted (ready.mono hw'.roles) hmode hturns runs (fits.mono hw'.roles) ha
  obtain ⟨hholds, hthrown⟩ := Stance.called_turn (t := closure.tree) (a := m.heap.size) h.solo closure.chain
  have hanswered : Answered T fuel (closure.called k this args) (closure.called fuel this args)
      (closure.called k' this args) := h.answered
  rw [call_eq_opening lowered (Machine.call k) k callee this args]
  refine ready.replies (S := .called T .own closure.tree)
    ((Stance.called T .apart closure.tree).opened m.heap.size closure.chain) nofun hmode h hm hopen
    hlimit (Stance.called_nil (s := .own) (a := m.heap.size) closure.chain) (fun w' _ _ w'' _ => ?_)
    (instantiate_obeyed (Machine.call_obeys k) _ _) (execList_obeyed (Machine.call_obeys k) _)
    fun w₁ hw₁ ha => ⟨closure.index + 1,
      closure.tree.afterMany back.length (closure.tree.afterMany front.length (closure.index + 1)), ?_⟩
  · rw [hnone, hempty]
    exact .pure ⟨rfl, trivial⟩
  rw [hbody, hcodes, execList_append, Stepper.execList_append (closure.called k' this args)]
  have hplaced : closure.tree.Along (Placed T .own closure.tree
      ((Stance.called T .own closure.tree).opened m.heap.size closure.chain).books) (closure.index + 1)
      (Node.ofStmts front) :=
    IndexedTree.along_placed hstands.1 (Stance.called_room _ _ _) (Nat.le_refl _) (Nat.le_refl _) hfront nofun
  have hbehind : closure.tree.Along (Placed T .apart closure.tree
      ((Stance.called T .apart closure.tree).opened m.heap.size closure.chain).books)
      (closure.tree.afterMany front.length (closure.index + 1)) (Node.ofStmts back) :=
    IndexedTree.along_placed hstands.2 (Stance.called_room _ _ _) (Nat.le_refl _) (Nat.le_refl _) hback nofun
  refine (execList_lowered (Seated.of_answered hanswered) (hdepicted hw₁ (.same .own) ha) _ front hfirst
    hplaced).first.bind_steady (fun hpausing => hpausing.2 fun _ => rfl) hholds hthrown
    (fun hdoomed => ⟨hdoomed.1, rfl⟩)
    (Stepper.ifNormal_counts fun _ => Stepper.execList_obeyed (Machine.call_obeys k') _ back)
    fun w₂ hw₂ flow _ hflow => ?_
  obtain ⟨rfl, hflow⟩ := hflow
  exact (Stepper.ifNormal_chases hflow ((execList_lowered (Seated.of_answered hanswered)
    (hdepicted (w.le_trans hw₁ hw₂) (.back h.solo) (World.role?_mono hw₂.roles ha)) _ back hsecond
    hbehind).widen (closure.tree.le_afterMany _ _) (Nat.le_refl _)
    (.here fun _ _ _ _ _ _ _ _ hp _ hpc _ _ => Stepper.execList_behind hpc hp))).first

end

/-! ## What the machine does by itself -/

/-- Computations on machines that match: what is on the right replies to what is on the left. -/
def MReplies (T : Terms) (fuel : Nat) (w : World) (x x' : MachineM Value) : Prop :=
  ∀ m m', m.Match T w m' → Replies T fuel w (x m) (x' m')

namespace MReplies

theorem of_sim {x x' : MachineM Value} (h : MSim T w x x' Valued) : MReplies T fuel w x x' :=
  fun m m' hm => .ends (h m m' hm)

theorem bind {x : MachineM α} {x' : MachineM α'} {R : World → α → α' → Prop} {f : α → MachineM Value}
    {f' : α' → MachineM Value} (hx : MSim T w x x' R)
    (hf : ∀ w₁, w ≤ w₁ → ∀ a a', R w₁ a a' → MReplies T fuel w₁ (f a) (f' a')) :
    MReplies T fuel w (x >>= f) (x' >>= f') := by
  intro m m' hm
  have hends := hx m m' hm
  change Replies T fuel w (EStateM.bind x f m) (EStateM.bind x' f' m')
  rw [EStateM.bind, EStateM.bind]
  revert hends
  generalize x m = r
  generalize x' m' = r'
  rintro (⟨w₁, hw₁, hm₁, hR⟩ | ⟨hu, hthrown⟩ | _ | hloose | hstrays)
  · exact (hf w₁ hw₁ _ _ hR _ _ hm₁).of_le hw₁
  · exact .ends (.thrown hu hthrown)
  · exact .ends .exhausted
  · exact .ends (.loose hloose)
  · exact .ends (.strayed hstrays)

end MReplies

/-- A function every machine starts with leaves no frame. -/
theorem Fulfils.closed {u : Unwind} {v : Value} {mid : Machine} (hsolo : T.solo = true)
    (h : Fulfils T fuel u w m v mid) :
    Fulfils T fuel u w (m.atDepth (m.depth - 1)) v (mid.atDepth (mid.depth - 1)) where
  noted := h.noted
  registries := h.registries
  depth := Nat.sub_le_sub_right h.depth 1
  limit := Nat.lt_of_le_of_lt (Nat.sub_le _ _) h.limit
  comes m₁ hm₁ hdepth hlt rest Q hrest := by
    change m₁.depth ≤ m.depth - 1 at hdepth
    refine h.comes m₁ ((Machine.Resting.atDepth m _).trans hm₁) (Nat.le_trans hdepth (Nat.sub_le _ _)) hlt
      rest Q fun w₂ m₂ hw₂ hm₂ hv hstays => hrest w₂ m₂ hw₂ { hm₂ with depth := ⟨?_, fun h => ?_⟩ } hv hstays
    · rw [hstays.depth]
      exact Nat.le_trans hdepth (Nat.sub_le_sub_right h.depth 1)
    · rw [hsolo] at h
      cases h

theorem Replies.closed (hsolo : T.solo = true) {r r' : EStateM.Result Stop Machine Value}
    (h : Replies T fuel w r r') : Replies T fuel w (Machine.closed r) (Machine.closed r') := by
  cases h with
  | ends h => exact .ends (Machine.closed_ends h)
  | paused notes h => exact .paused notes (h.closed hsolo)
  | excused h =>
      refine .excused ?_
      match r', h with
      | .ok _ _, h => exact h
      | .error (.unwind _) _, h => exact h
      | .error .exhausted _, _ => trivial

/-- Faults stay. -/
theorem Faulty.of_ends {r' : EStateM.Result Stop Machine Value} (hm : 0 < m.faults)
    (h : Policy.tally.machine.Ends m r') : Faulty r' := by
  match r', h with
  | .ok _ _, h => exact Nat.lt_of_lt_of_le hm h
  | .error (.unwind _) _, h => exact .inr (Nat.lt_of_lt_of_le hm h.1)
  | .error .exhausted _, _ => trivial

namespace Machine

/-- A call that is refused is a fault. -/
theorem faulty_of_full {x : MachineM Value} (hfull : m.config.maxCallDepth ≤ m.depth) :
    Faulty ((enter >>= fun _ => closing x) m) := by
  rw [enter_of_full hfull]
  refine .of_ends (m := { m with chronicle := { m.chronicle with refused := m.chronicle.refused + 1 } }) ?_
    (fail_obeyed (P := .tally) _ _ _)
  exact Nat.add_pos_right _ (Nat.succ_pos _)

/-- A call is opened on both sides, unless it is refused on the right. -/
theorem opened_replies (hsolo : T.solo = true) {x x' : MachineM Value} (hm : m.Match T w m')
    (h : ∀ m₁ m₁', m₁.Match T w m₁' → 0 < m₁.depth → m₁.depth ≤ m₁.config.maxCallDepth →
      Replies T fuel w (closed (x m₁)) (closed (x' m₁'))) :
    Replies T fuel w ((enter >>= fun _ => closing x) m) ((enter >>= fun _ => closing x') m') := by
  by_cases hfull : m'.config.maxCallDepth ≤ m'.depth
  · exact .excused (faulty_of_full hfull)
  · have hlt' : m'.depth < m'.config.maxCallDepth := Nat.lt_of_not_le hfull
    have hlt : m.depth < m.config.maxCallDepth := by
      rw [← hm.limit]
      exact Nat.lt_of_le_of_lt hm.depth.1 hlt'
    rw [enter_of_lt hlt, enter_of_lt hlt', closing_eq, closing_eq]
    refine h _ _ (hm.atDepth ⟨Nat.succ_le_succ hm.depth.1, fun h => ?_⟩) (Nat.succ_pos _) hlt
    rw [hsolo] at h
    cases h

/-- The functions every machine starts with, those apart that call as often as they like. -/
theorem runNative_replies {invoke invoke' : Invoke} (hsolo : T.solo = true)
    (h : invoke.Replies T fuel invoke') (hw : w.building = none) {k k' : Nat} (hfuel : T.Fuels k k')
    {g : Native} (hg : g.visits = false) {this : Value} {args : List Value} (hthis : this.Shown w)
    (hargs : ∀ v ∈ args, v.Shown w) :
    MReplies T fuel w (runNative invoke k g this args) (runNative invoke' k' g this args) := by
  cases hcalls : g.calls with
  | false =>
      refine .of_sim (runNative_sim (fun h => ?_) hw hfuel (fun _ => hcalls) hthis hargs)
      rw [hsolo] at h
      cases h
  | true =>
      rw [Native.calls, hg, Bool.false_or, Bool.or_eq_true, beq_iff_eq, beq_iff_eq] at hcalls
      have harg := arg_shown hargs
      rcases hcalls with rfl | rfl
      · exact h w hw this _ _ hthis (harg 0) fun v hv => hargs v (List.mem_of_mem_drop hv)
      · simp only [runNative]
        have harg1 := harg 1
        cases hlist : arg args 1 with
        | undefined => exact h w hw this _ _ hthis (harg 0) (by simp)
        | null => exact h w hw this _ _ hthis (harg 0) (by simp)
        | object a =>
            rw [hlist] at harg1
            refine .bind (items_sim harg1) fun w₁ hw₁ _ items hitems => ?_
            obtain ⟨rfl, hitems⟩ := hitems
            exact h w₁ (hw₁.building.trans hw) this _ items (hthis.mono hw₁.roles)
              ((harg 0).mono hw₁.roles) hitems
        | _ => exact .of_sim (typeError_sim _)

/-! ## All calls -/

/-- Where calls stand alone, every call gets a reply. -/
theorem call_replies (hsolo : T.solo = true) (hspared : T.spared = none) (hmode : T.mode = .recording)
    (hT : T.Coherent) {k k' : Nat} (hk : k' ≤ k) (hfuel : k' ≤ fuel) :
    (call k).Replies T fuel (call k') := by
  induction k' generalizing k with
  | zero => exact fun w _ f this args _ _ _ m m' _ => .excused trivial
  | succ k' ih =>
      obtain ⟨k, rfl⟩ : ∃ j, k = j + 1 := ⟨k - 1, by omega⟩
      have hk := Nat.le_of_succ_le_succ hk
      have hfuel := Nat.le_of_succ_le hfuel
      intro w hw f this args hf hthis hargs
      refine MReplies.bind (callable?_sim hf) fun w₁ hw₁ g g' hg => ?_
      have hbuilding := hw₁.building.trans hw
      have hargs₁ : ∀ v ∈ args, v.Shown w₁ := fun v hv => (hargs v hv).mono hw₁.roles
      have hreplying : Replying T w₁ fuel k k' f this args :=
        { solo := hsolo
          spared := hspared
          mode := hmode
          coherent := hT
          calling := .of_solo hsolo hT hk (hf.mono hw₁.roles) (hthis.mono hw₁.roles) hargs₁ hbuilding
          again := .of_solo hsolo hT hfuel (hf.mono hw₁.roles) (hthis.mono hw₁.roles) hargs₁ hbuilding
          replies := ih hk hfuel
          repliesAgain := ih hfuel hfuel }
      rcases hg with ⟨rfl, rfl⟩ | ⟨g, g', rfl, rfl, htwin⟩
      · exact .of_sim (.bind (inspect_sim f) fun w₂ hw₂ name _ => typeError_sim _)
      · refine fun m m' hm => opened_replies hsolo hm fun m₁ m₁' hm₁ hopen hlimit => ?_
        cases htwin with
        | native g hvisits =>
            exact (runNative_replies hsolo (ih hk hfuel) hbuilding hreplying.calling.fuel (hvisits hsolo)
              (hthis.mono hw₁.roles) hargs₁ m₁ m₁' hm₁).closed hsolo
        | @walked s n f c ready walks =>
            cases s with
            | script => exact Stepper.call_replies hreplying ready walks.1 hm₁ hopen hlimit
            | free =>
                have hnone := walks.2
                rw [hsolo] at hnone
                cases hnone
            | own => exact walks.elim
            | apart => exact walks.elim
            | top => exact walks.elim
        | @instrumented s n f c code scopes ready runs lowered fits hsame =>
            have hrecording := hsame.trans hmode
            cases s with
            | script =>
                exact Instrumented.call_replies hreplying ready hrecording lowered fits hm₁ hopen hlimit
            | own =>
                exact Instrumented.call_replies_own hreplying ready hrecording runs lowered fits hm₁ hopen
                  hlimit
            | free => exact runs.elim
            | apart => exact runs.elim
            | top => exact runs.elim

end Machine

end Resumption
