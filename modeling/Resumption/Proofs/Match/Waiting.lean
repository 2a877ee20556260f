import Resumption.Proofs.Match.Sealing

/-!
# Calls are waited for

A call that stands alone may be paused on the left while it has a result on the right.  Then the function
that waits for it is paused at the position of the call, and when it is taken up it finds the result there.
-/

namespace Resumption

open Script

variable {T : Terms} {s : Manner} {t : IndexedTree} {S : Stance} {w w' : World} {c : Chain}
  {env env' env₂ : Env} {i lo hi fuel : Nat} {m m' mid : Machine} {u : Unwind} {v : Value}

/-! ## Replies -/

/-- Nothing is said of runs with faults, nor of those that are paused or out of fuel on the right. -/
def Faulty : EStateM.Result Stop Machine Value → Prop
  | .ok _ m => 0 < m.faults
  | .error (.unwind u) m => u.isPause = true ∨ 0 < m.faults
  | .error .exhausted _ => True

/-- The end of a call on the left, seen from the one on the right. -/
inductive Replies (T : Terms) (fuel : Nat) (w : World) :
    EStateM.Result Stop Machine Value → EStateM.Result Stop Machine Value → Prop
  | ends {r r' : EStateM.Result Stop Machine Value} (h : Ends T (Machine.tie T) w Valued r r') :
      Replies T fuel w r r'
  | excused {r r' : EStateM.Result Stop Machine Value} (h : Faulty r') : Replies T fuel w r r'
  | paused {u : Unwind} {m : Machine} {v : Value} {mid : Machine} (notes : u.infos ≠ [])
      (h : Fulfils T fuel u w m v mid) : Replies T fuel w (.error (.unwind u) m) (.ok v mid)

/-- The ways of calling: on the left a call may be paused. -/
def Invoke.Replies (T : Terms) (fuel : Nat) (invoke invoke' : Invoke) : Prop :=
  ∀ w, w.building = none → ∀ f this args, f.Shown w → this.Shown w → (∀ v ∈ args, v.Shown w) →
    ∀ m m', m.Match T w m' → Resumption.Replies T fuel w (invoke f this args m) (invoke' f this args m')

theorem Replies.of_le {w₁ : World} (hw : w ≤ w₁) {r r' : EStateM.Result Stop Machine Value}
    (h : Replies T fuel w₁ r r') : Replies T fuel w r r' := by
  cases h with
  | ends h => exact .ends (h.of_le hw)
  | excused h => exact .excused h
  | paused notes h => exact .paused notes (h.reach hw.reaches)

/-- The activation that waited goes on. -/
theorem Fulfils.release (h : Fulfils T fuel u w m v mid) : Fulfils T fuel u w m.release v mid.release :=
  { h.resting (m := m.release) ⟨_, _, _, rfl⟩ (Nat.le_refl _) with
    depth := h.depth
    comes := fun m₁ hm₁ hdepth hlt rest Q hrest =>
      (h.resting (m := m.release) ⟨_, _, _, rfl⟩ (Nat.le_refl _)).comes m₁ hm₁ hdepth hlt rest Q
        fun w₂ m₂ hw₂ hm₂ => hrest w₂ m₂ hw₂ { hm₂ with } }

namespace ActM

variable {α β : Type}

/-- The activation goes on with the end of what the machine did. -/
def lifted (act : Activation) : EStateM.Result Stop Machine α → ActResult α
  | .ok a m => .ok a (act, m.release)
  | .error e m => .error e (act, m.release)

theorem lift_apply (x : MachineM α) (act : Activation) (m : Machine) :
    lift x (act, m) = lifted act (x (m.suspend act)) := by
  rw [lift]
  cases x (m.suspend act) <;> rfl

theorem lifted_ends {R : World → α → β → Prop} {r : EStateM.Result Stop Machine α}
    {r' : EStateM.Result Stop Machine β} {act act' : Activation} (hact : act.Match T S w act')
    (h : Ends T (Machine.tie T) w R r r') :
    Ends T (Activation.tie T S) w R (lifted act r) (lifted act' r') := by
  rcases h with ⟨w₁, hw₁, hm₁, hR⟩ | ⟨hu, w₁, hw₁, hm₁, hv⟩ | _ | hloose | hstrays
  · exact .ok ⟨w₁, hw₁, ⟨hact.mono hw₁.roles, hm₁.release⟩, hR⟩
  · exact .thrown hu ⟨w₁, hw₁, ⟨hact.adrift.mono hw₁.roles, hm₁.release⟩, hv⟩
  · exact .exhausted
  · exact .loose hloose
  · exact .strayed hstrays

theorem lifted_excused (hsolo : T.solo = true) (hpauses : T.pauses = .left)
    {r' : EStateM.Result Stop Machine Value} (h : Faulty r') (act' : Activation) :
    Excused T S (lifted act' r') := by
  refine ⟨hsolo, hpauses, ?_⟩
  match r', h with
  | .ok _ _, h => exact h
  | .error (.unwind _) _, h => exact h.imp_right .inr
  | .error .exhausted _, _ => trivial

end ActM

/-- The records that nobody else gets hold of are as they were. -/
def World.Keeps (w : World) (m mid : Machine) : Prop :=
  ∀ a names, w.role? a = some (.scope names false) → mid.heap.object a = m.heap.object a

/-- A call that is paused on the left leaves them as they were on the right. -/
theorem Invoke.Replies.keeps {invoke invoke' : Invoke} (hspared : T.spared = none)
    (h : invoke.Replies T fuel invoke') (hw : w.building = none) {f this : Value} {args : List Value}
    (hf : f.Shown w) (hthis : this.Shown w) (hargs : ∀ v ∈ args, v.Shown w) (hm : m.Match T w m')
    {m₁ : Machine} (hleft : invoke f this args m = .error (.unwind u) m₁)
    (hright : invoke' f this args m' = .ok v mid) :
    0 < mid.faults ∨ w.Keeps m' mid := by
  by_cases hfaults : 0 < mid.faults
  · exact .inl hfaults
  refine .inr fun a names ha => ?_
  have hreplies := h (w.sealed a (m.heap.object a)) hw f this args (hf.sealed ha) (hthis.sealed ha)
    (fun v hv => (hargs v hv).sealed ha) m m' (hm.sealed ha)
  rw [hleft, hright] at hreplies
  cases hreplies with
  | ends hends =>
      cases hends with
      | strayed hstrays => exact absurd hstrays (T.not_strays hspared _)
  | excused hfaulty => exact absurd hfaulty hfaults
  | paused notes hreturns => exact hreturns.preserves ha hm

/-! ## Calls -/

/-- The operation at a position is marked, and it starts. -/
def Activation.marked (act : Activation) (env : Env) (i : Nat) : Activation :=
  let act := if env.records then act.kept (fun cache _ => (cache.erase i, i)) else act
  act.noted ⟨some i, act.last, act.cache⟩

section

variable (act : Activation)

theorem Activation.marked_chain : (act.marked env i).chain = act.chain := by
  unfold marked
  split <;> rfl

theorem Activation.marked_pc : (act.marked env i).pc = act.pc := by
  unfold marked
  split <;> rfl

theorem Activation.marked_cache (h : env.records = true) :
    (act.marked env i).cache = act.cache.erase i := by
  rw [marked, if_pos h]
  rfl

theorem Activation.marked_last (h : env.records = true) : (act.marked env i).last = i := by
  rw [marked, if_pos h]
  rfl

end

namespace ActM

variable {α β : Type}

/-- Calls what can be called. -/
def called (env : Env) (callee : String) (f this : Value) (args : List Value) : ActM Value := do
  if ← lift (Machine.ask (fun h => h.isCallable f)) then lift (env.invoke f this args)
  else lift (Machine.typeError (callee ++ " is not a function"))

theorem callAt_apply (env : Env) (i : Nat) (callee : String) (f this : Value) (args : List Value)
    (act : Activation) (m : Machine) :
    callAt env i callee f this args (act, m) = called env callee f this args (act.marked env i, m) := by
  unfold callAt markPending Activation.marked
  cases env.records <;> rfl

theorem called_apply (env : Env) (callee : String) (f this : Value) (args : List Value)
    (act : Activation) (m : Machine) :
    called env callee f this args (act, m) =
      if m.heap.isCallable f then lifted act (env.invoke f this args (m.suspend act))
      else lift (Machine.typeError (callee ++ " is not a function")) (act, m) := by
  rw [← lift_apply]
  change (if m.heap.isCallable f = true then lift _ else lift _ : ActM Value) (act, m) = _
  split <;> rfl

end ActM

theorem Activation.Match.marked {act act' : Activation} (hi : Vacant S.books i)
    (hT : T.pauses ≠ .together) (h : act.Match T S w act') :
    (act.marked env i).Match T S w (act'.marked env' i) where
  chain c hc := by
    rw [act.marked_chain, act'.marked_chain]
    exact h.chain c hc
  pc := by
    rw [act.marked_pc, act'.marked_pc]
    exact h.pc
  books := by
    unfold Activation.marked
    split
    · exact (hi _ h.books).2
    · exact h.books
  args hargs := by
    have hsame : ∀ (env : Env) (act : Activation), (act.marked env i).arguments = act.arguments := by
      intro env act
      unfold Activation.marked
      split <;> rfl
    rw [hsame, hsame]
    exact h.args hargs
  even heven := absurd heven hT

section

variable {α β : Type} {R : World → α → β → Prop} {again : ActM α} {k g : Value → ActM α}
  {l : Value → ActM β}

/-- What comes after two ends that go together. -/
theorem Pursues.of_ends {D : Unwind → World → Machine → Value → Machine → Prop} {r r' : ActResult Value}
    (h : Ends T (Activation.tie T S) w Valued r r')
    (hk : ∀ w₁, w ≤ w₁ → ∀ v, v.Shown w₁ → ASim T S w₁ (k v) (l v) R) :
    Pursues T D S c lo hi again R (andThen l r') w (andThen k r) := by
  rcases h with ⟨w₁, hw₁, hs, rfl, hv⟩ | ⟨hu, hthrown⟩ | _ | hloose | hstrays
  · exact .of_le hw₁ (.ends (hk w₁ hw₁ _ hv _ _ hs))
  · exact .ends (.thrown hu hthrown)
  · exact .ends .exhausted
  · exact .ends (.loose hloose)
  · exact .ends (.strayed hstrays)

/-- What is known where calls are waited for. -/
structure Awaiting (T : Terms) (fuel : Nat) (S : Stance) (w : World) (c : Chain) (env env' : Env) : Prop where
  solo : T.solo = true
  spared : T.spared = none
  pausing : S.Pausing T
  chain : S.chain = some c
  sorted : ∀ cache, S.books cache → cache.Sorted
  records : env.records = true
  building : w.building = none
  replies : env.invoke.Replies T fuel env'.invoke

/-- The function waits for a call at a position.  `g` is what it does with the result when it is taken up
there, and `again` leads to it. -/
theorem ActM.callAt_pursues (h : Awaiting T fuel S w c env env') (hvacant : Vacant S.books i) (hlo : lo ≤ i)
    (hhi : i < hi) {callee : String} {f this : Value} {args : List Value} (hf : f.Shown w)
    (hthis : this.Shown w) (hargs : ∀ v ∈ args, v.Shown w) {s s' : Activation × Machine}
    (hs : (Activation.tie T S).holds w s s') (hcounts : ∀ v, T.Counts (l v))
    (hk : ∀ w₁, w ≤ w₁ → ∀ v, v.Shown w₁ → ASim T S w₁ (k v) (l v) R)
    (hg : ∀ w₁, w.Reaches w₁ → ∀ v, v.Shown w₁ → ASim T S w₁ (g v) (l v) R)
    (hagain : ∀ w₂ x act m mid, w.Reaches w₂ → Machine.Match T w₂ m mid → w.Keeps s'.2 mid → x.Shown w₂ →
      act.pc = some i → act.chain = c → S.books act.cache → act.cache.get? i = some x →
      again (act, m) = g x ({ act with pc := none }, m)) :
    Pursues T (Fulfils T fuel) S c lo hi again R ((callAt env' i callee f this args >>= l) s') w
      ((callAt env i callee f this args >>= k) s) := by
  obtain ⟨act, m⟩ := s
  obtain ⟨act', m'⟩ := s'
  obtain ⟨hact, hm⟩ := hs
  have htogether := h.pausing.not_together
  have hmarked : (act.marked env i).Match T S w (act'.marked env' i) := hact.marked hvacant htogether
  rw [bind_apply, bind_apply, callAt_apply, callAt_apply, called_apply, called_apply,
    show m'.heap.isCallable f = m.heap.isCallable f from hm.heap.alike.isCallable f]
  by_cases hcallable : m.heap.isCallable f = true
  case neg =>
    rw [if_neg hcallable, if_neg hcallable]
    exact .of_ends (lift_sim (Machine.typeError_sim _) _ _ ⟨hmarked, hm⟩) hk
  rw [if_pos hcallable, if_pos hcallable]
  have hreplies := h.replies w h.building f this args hf hthis hargs _ _
    (hm.suspend (act.marked env i) (act'.marked env' i))
  have hkeeps : ∀ u m₁ v mid, env.invoke f this args (m.suspend (act.marked env i)) = .error (.unwind u) m₁ →
      env'.invoke f this args (m'.suspend (act'.marked env' i)) = .ok v mid →
      0 < mid.faults ∨ w.Keeps (m'.suspend (act'.marked env' i)) mid := fun _ _ _ _ =>
    h.replies.keeps h.spared h.building hf hthis hargs (hm.suspend (act.marked env i) (act'.marked env' i))
  revert hreplies hkeeps
  generalize env.invoke f this args (m.suspend (act.marked env i)) = r
  generalize env'.invoke f this args (m'.suspend (act'.marked env' i)) = r'
  intro hreplies hkeeps
  cases hreplies with
  | ends hends => exact .of_ends (lifted_ends hmarked hends) hk
  | excused hfaulty => exact .excused ((lifted_excused h.solo h.pausing.1 hfaulty _).andThen hcounts)
  | @paused u m₁ v mid hnotes hreturns =>
      rcases hkeeps u m₁ v mid rfl rfl with hfaults | hkeeps
      · have hfaulty : Faulty (.ok v mid) := hfaults
        exact .excused ((lifted_excused h.solo h.pausing.1 hfaulty _).andThen hcounts)
      have hbooks := (hvacant _ hact.books).2
      have hcache := act.marked_cache (i := i) h.records
      have hmissing := (h.sorted _ hact.books).get?_erase_self i
      have hpaused : Paused T (Fulfils T fuel) S c lo hi w u (act.marked env i) m₁.release i (some v)
          mid.release := {
        pausing := h.pausing
        awaited := hreturns.release
        awaits := ⟨hreturns.noted.isPause, hnotes, act.marked_last h.records, by
          rw [Cache.contains, hcache, hmissing]
          rfl⟩
        inside := ⟨hlo, hhi⟩
        scopes := ⟨[], (hmarked.chain c h.chain).1, nofun⟩
        books := by
          rw [hcache]
          exact ⟨hbooks, (hvacant _ hbooks).1⟩ }
      refine .paused w.le_refl hpaused fun w₂ act₂ m₂ hw₂ hm₂ hv hresumed => ?_
      have hcache₂ : act₂.cache = (act.cache.erase i).insert i v := by rw [hresumed.cache, hcache]; rfl
      have hbooks₂ : S.books act₂.cache := by rw [hcache₂]; exact (hvacant _ hbooks).1 v
      rw [hagain w₂ v act₂ m₂ mid.release hw₂ hm₂ hkeeps (hv v rfl) hresumed.pc hresumed.chain hbooks₂
        (by rw [hcache₂]; exact Cache.get?_insert_self i v _)]
      refine .ends (hg w₂ hw₂ v (hv v rfl) _ _ ⟨{
        chain := fun c' hc' => ?_
        pc := ⟨rfl, hmarked.pc.2⟩
        books := hbooks₂
        args := fun hS => absurd hS h.pausing.2
        even := fun heven => absurd heven htogether }, hm₂⟩)
      have hright := (hmarked.chain c' hc').2
      rw [h.chain] at hc'
      cases hc'
      exact ⟨hresumed.chain, hright⟩

end

end Resumption
