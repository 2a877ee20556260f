import Resumption.Proofs.Conduct.Tally
import Resumption.Proofs.Match.Walking

/-!
# Pursuits

A run with pauses pursues one without.  Where it does not come to the same end it is paused, at a
position that it can get back to, and it goes on pursuing when it is taken up there.  There is
always one computation to take it up with: the walk over the same part of the source.

A function that called another one which was paused is taken up when that one has a result.  What is
known about the time in between is left open here.
-/

namespace Resumption

variable {α α' β β' : Type} {T : Terms} {D : Unwind → World → Machine → Value → Machine → Prop}
  {S S₁ : Stance} {c : Chain} {lo hi lo₁ hi₁ : Nat} {w w' : World}

abbrev ActResult (α : Type) := EStateM.Result Stop (Activation × Machine) α

/-! ## Excuses -/

/-- Where calls stand alone, nothing is said of runs with faults, nor of those that are paused on the
right.  If exceptions are not caught, one of them will be a fault. -/
def Excused (T : Terms) (S : Stance) (r' : ActResult α') : Prop :=
  T.solo = true ∧ T.pauses = .left ∧
    match r' with
    | .ok _ s' => 0 < s'.2.faults
    | .error (.unwind u) s' => u.isPause = true ∨ S.doomed ∨ 0 < s'.2.faults
    | .error .exhausted _ => True

/-- Faults are counted, if it matters. -/
def Terms.Counts (T : Terms) (x' : ActM β') : Prop :=
  T.solo = true → Policy.tally.activation.Obeyed x'

/-- What a computation does after another one. -/
def andThen (f : α → ActM β) : ActResult α → ActResult β
  | .ok a s => f a s
  | .error e s => .error e s

theorem bind_apply (x : ActM α) (f : α → ActM β) (s : Activation × Machine) :
    (x >>= f) s = andThen f (x s) := by
  change EStateM.bind x f s = _
  rw [EStateM.bind]
  cases x s <;> rfl

theorem Excused.of_ends {r' : ActResult α'} {s' : Activation × Machine} (hsolo : T.solo = true)
    (hpauses : T.pauses = .left) (hs : 0 < s'.2.faults)
    (hends : Policy.tally.activation.Ends s' r') : Excused T S r' := by
  have hmore := Upkeep.ends_iff.1 hends
  refine ⟨hsolo, hpauses, ?_⟩
  match r', hmore with
  | .ok _ _, hmore => exact Nat.lt_of_lt_of_le hs hmore
  | .error (.unwind _) _, hmore => exact .inr (.inr (Nat.lt_of_lt_of_le hs hmore))
  | .error .exhausted _, _ => trivial

theorem Excused.andThen {r' : ActResult α'} {f' : α' → ActM β'} (h : Excused T S r')
    (hf : ∀ a, T.Counts (f' a)) : Excused T S (andThen f' r') := by
  obtain ⟨hsolo, hpauses, hfaults⟩ := h
  match r', hfaults with
  | .ok a s', hfaults => exact .of_ends hsolo hpauses hfaults (hf a hsolo s')
  | .error (.unwind _) _, hfaults => exact ⟨hsolo, hpauses, hfaults⟩
  | .error .exhausted _, _ => exact ⟨hsolo, hpauses, trivial⟩

theorem Excused.imp {r' : ActResult α'} (hS : S₁.doomed → S.doomed) (h : Excused T S₁ r') :
    Excused T S r' := by
  obtain ⟨hsolo, hpauses, hfaults⟩ := h
  match r', hfaults with
  | .ok _ _, hfaults => exact ⟨hsolo, hpauses, hfaults⟩
  | .error (.unwind _) _, hfaults => exact ⟨hsolo, hpauses, hfaults.imp_right (Or.imp_left hS)⟩
  | .error .exhausted _, _ => exact ⟨hsolo, hpauses, trivial⟩

/-! ## Getting back -/

/-- The results with the one that was waited for. -/
def Cache.seed (p : Nat) : Option Value → Cache → Cache
  | none, cache => cache
  | some v, cache => cache.insert p v

/-- The activation on the way back to a position, with the result that it waited for. -/
structure Activation.Resumed (c : Chain) (p : Nat) (v : Option Value) (act act₁ : Activation) :
    Prop where
  chain : act₁.chain = c
  pending : act.chain = act₁.pending.reverse ++ c
  pc : act₁.pc = some p
  cache : act₁.cache = act.cache.seed p v

/-- The activation can get back to the position: it was paused there by itself, or it waits for the
result of a call. -/
def Activation.Awaits (act : Activation) (u : Unwind) (p : Nat) : Option Value → Prop
  | none => u = .ofSignal (.pause p)
  | some _ => u.isPause = true ∧ u.infos ≠ [] ∧ act.last = p ∧ act.cache.contains p = false

/-- What has to happen before an activation is taken up again: nothing, or a result is found. -/
def Awaited (T : Terms) (D : Unwind → World → Machine → Value → Machine → Prop) (u : Unwind)
    (w : World) (m mid : Machine) : Option Value → Prop
  | none => m.Match T w.paused mid
  | some v => D u w m v mid

/-- Pauses may be taken: the object of the arguments is not kept for the time after a pause, so nobody
may ask for it. -/
def Stance.Pausing (T : Terms) (S : Stance) : Prop := T.pauses = .left ∧ ¬ S.args

theorem Stance.Pausing.not_together {S : Stance} (h : S.Pausing T) : T.pauses ≠ .together := fun heven => by
  cases h.1.symm.trans heven

/-- A pause inside of a part of the source from `lo` up to `hi`, in scopes inside of the given
ones. -/
structure Paused (T : Terms) (D : Unwind → World → Machine → Value → Machine → Prop) (S : Stance)
    (c : Chain) (lo hi : Nat) (w : World) (u : Unwind) (act : Activation) (m : Machine) (p : Nat)
    (v : Option Value) (mid : Machine) : Prop where
  pausing : S.Pausing T
  awaited : Awaited T D u w m mid v
  awaits : act.Awaits u p v
  inside : lo ≤ p ∧ p < hi
  scopes : ∃ inner : Chain, act.chain = inner ++ c ∧ ∀ link ∈ inner, link.kind ≠ .function
  books : S.books act.cache ∧ ∀ v, S.books (act.cache.insert p v)

/-- The end of a computation on the left, seen from the one on the right; `again` is the computation
by which it is taken up. -/
inductive Pursues (T : Terms) (D : Unwind → World → Machine → Value → Machine → Prop) (S : Stance)
    (c : Chain) (lo hi : Nat) (again : ActM α) (R : World → α → α' → Prop) (r' : ActResult α') :
    World → ActResult α → Prop
  | ends {w : World} {r : ActResult α} (h : Ends T (Activation.tie T S) w R r r') :
      Pursues T D S c lo hi again R r' w r
  | excused {w : World} {r : ActResult α} (h : Excused T S r') : Pursues T D S c lo hi again R r' w r
  | paused {w w₁ : World} {u : Unwind} {act : Activation} {m : Machine} {p : Nat} {v : Option Value}
      {mid : Machine} (hw : w ≤ w₁) (h : Paused T D S c lo hi w₁ u act m p v mid)
      (rest : ∀ w₂ act₁ m₁, w₁.Reaches w₂ → Machine.Match T w₂ m₁ mid →
        (∀ x, v = some x → x.Shown w₂) → act.Resumed c p v act₁ →
        Pursues T D S c lo hi again R r' w₂ (again (act₁, m₁))) :
      Pursues T D S c lo hi again R r' w (.error (.unwind u) (act, m))

/-- From states that go together, the computation on the left pursues the one on the right. -/
def FollowsFrom (T : Terms) (D : Unwind → World → Machine → Value → Machine → Prop)
    (P : World → Activation × Machine → Activation × Machine → Prop) (S : Stance) (c : Chain)
    (lo hi : Nat) (w : World) (x again : ActM α) (x' : ActM α') (R : World → α → α' → Prop) : Prop :=
  ∀ s s', P w s s' → Pursues T D S c lo hi again R (x' s') w (x s)

/-- The usual case: the states are tied all the way. -/
abbrev Follows (T : Terms) (D : Unwind → World → Machine → Value → Machine → Prop) (S : Stance)
    (c : Chain) (lo hi : Nat) (w : World) (x again : ActM α) (x' : ActM α')
    (R : World → α → α' → Prop) : Prop :=
  FollowsFrom T D (Activation.tie T S).holds S c lo hi w x again x' R

/-- The computation `x` on the left follows from now on, and so does `y`, which stands in its place
once the run has been taken up. -/
def ChasesFrom (T : Terms) (D : Unwind → World → Machine → Value → Machine → Prop)
    (P : World → Activation × Machine → Activation × Machine → Prop) (S : Stance) (c : Chain)
    (lo hi : Nat) (w : World) (x y again : ActM α) (x' : ActM α') (R : World → α → α' → Prop) :
    Prop :=
  ∀ w', w.Reaches w' → FollowsFrom T D P S c lo hi w' x again x' R ∧
    (S.Pausing T → FollowsFrom T D P S c lo hi w' y again x' R)

abbrev Chases (T : Terms) (D : Unwind → World → Machine → Value → Machine → Prop) (S : Stance)
    (c : Chain) (lo hi : Nat) (w : World) (x y again : ActM α) (x' : ActM α')
    (R : World → α → α' → Prop) : Prop :=
  ChasesFrom T D (Activation.tie T S).holds S c lo hi w x y again x' R

/-! ## Parts of a computation -/

theorem Activation.Awaits.isPause {act : Activation} {u : Unwind} {p : Nat} {v : Option Value}
    (h : act.Awaits u p v) : u.isPause = true := by
  cases v with
  | none =>
      rw [Awaits] at h
      rw [h]
      rfl
  | some v => exact h.1

/-- A whole is taken up where a part of it was paused: it leads into the part, by way of the scopes in
front of it, and then `G` is done with what the part comes to. -/
def Reenters (T : Terms) (S : Stance) (c front : Chain) (lo hi : Nat) (w : World)
    (again : ActM β) (G : ActResult α → ActResult β) (part : ActM α) : Prop :=
  S.Pausing T → ∀ w₂ act m mid p pending, w.Reaches w₂ → Machine.Match T w₂ m mid → lo ≤ p → p < hi →
    act.pc = some p → act.chain = c → act.pending = front.reverse ++ pending → S.books act.cache →
    again (act, m) = G (part ({ act with chain := front ++ c, pending }, m))

theorem Reenters.mono {front : Chain} {again : ActM β} {G : ActResult α → ActResult β}
    {part : ActM α} (hw : w.Reaches w') (h : Reenters T S c front lo hi w again G part) :
    Reenters T S c front lo hi w' again G part :=
  fun hpauses w₂ act m mid p pending hw₂ => h hpauses w₂ act m mid p pending (hw.trans hw₂)

/-- The part is in the same scopes. -/
theorem Reenters.here {again : ActM β} {G : ActResult α → ActResult β} {part : ActM α}
    (h : S.Pausing T → ∀ w₂ act m mid p, w.Reaches w₂ → Machine.Match T w₂ m mid → lo ≤ p →
      p < hi → act.pc = some p → act.chain = c → S.books act.cache →
      again (act, m) = G (part (act, m))) : Reenters T S c [] lo hi w again G part := by
  intro hpauses w₂ act m mid p pending hw hm hlo hhi hpc hchain hpending hK
  rw [h hpauses w₂ act m mid p hw hm hlo hhi hpc hchain hK]
  cases hchain
  cases hpending
  rfl

/-- What is done with the end of a part lets pauses pass, and it leads to ends of the whole. -/
structure Carries (T : Terms) (D : Unwind → World → Machine → Value → Machine → Prop)
    (S S₁ : Stance) (c : Chain) (lo hi : Nat) (again : ActM β) (R₁ : World → α → α' → Prop)
    (R : World → β → β' → Prop) (r' : ActResult α') (F' : ActResult α' → ActResult β') (w : World)
    (F : ActResult α → ActResult β) : Prop where
  pause : ∀ u s, u.isPause = true → F (.error (.unwind u) s) = .error (.unwind u) s
  ends : ∀ r, Ends T (Activation.tie T S₁) w R₁ r r' → Pursues T D S c lo hi again R (F' r') w (F r)

/-- What is done with the end of a part that pursues. -/
theorem Pursues.through (front : Chain) {again₁ : ActM α} {again : ActM β} {R₁ : World → α → α' → Prop}
    {R : World → β → β' → Prop} {r' : ActResult α'} {F' : ActResult α' → ActResult β'}
    {F G : ActResult α → ActResult β} {r : ActResult α}
    (h : Pursues T D S₁ (front ++ c) lo₁ hi₁ again₁ R₁ r' w r) (hlo : lo ≤ lo₁) (hhi : hi₁ ≤ hi)
    (hbooks : ∀ cache, S₁.books cache → S.books cache) (hargs : S.args → S₁.args)
    (hfront : ∀ link ∈ front, link.kind ≠ .function) (hexcuse : Excused T S₁ r' → Excused T S (F' r'))
    (hagain : Reenters T S₁ c front lo₁ hi₁ w again G again₁)
    (hF : Carries T D S S₁ c lo hi again R₁ R r' F' w F)
    (hG : S.Pausing T → ∀ w₂, w.Reaches w₂ → Carries T D S S₁ c lo hi again R₁ R r' F' w₂ G) :
    Pursues T D S c lo hi again R (F' r') w (F r) := by
  induction h generalizing F with
  | ends h => exact hF.ends _ h
  | excused h => exact .excused (hexcuse h)
  | @paused w w₁ u act m p v mid hw h rest ih =>
      obtain ⟨inner, hinner, hkinds⟩ := h.scopes
      have hbooks₁ : S₁.books (act.cache.seed p v) := by
        cases v with
        | none => exact h.books.1
        | some v => exact h.books.2 v
      rw [hF.pause u _ h.awaits.isPause]
      have hpausing : S.Pausing T := ⟨h.pausing.1, fun hS => h.pausing.2 (hargs hS)⟩
      refine .paused hw { h with
          pausing := hpausing
          inside := ⟨Nat.le_trans hlo h.inside.1, Nat.lt_of_lt_of_le h.inside.2 hhi⟩
          scopes := ⟨inner ++ front, by rw [hinner, List.append_assoc], ?_⟩
          books := ⟨hbooks _ h.books.1, fun v => hbooks _ (h.books.2 v)⟩ } fun w₂ act₁ m₁ hw₂ hm hv hresumed => ?_
      · exact fun link hlink => (List.mem_append.1 hlink).elim (hkinds link) (hfront link)
      · have hreaches := hw.reaches.trans hw₂
        have hpending : act₁.pending = front.reverse ++ inner.reverse := by
          have hchain := hresumed.pending
          rw [hinner, ← List.append_assoc, List.append_cancel_right_eq] at hchain
          rw [← List.reverse_append, hchain, List.reverse_reverse]
        rw [hagain h.pausing w₂ act₁ m₁ mid p inner.reverse hreaches hm h.inside.1 h.inside.2 hresumed.pc
          hresumed.chain hpending (hresumed.cache ▸ hbooks₁)]
        refine ih w₂ { act₁ with chain := front ++ c, pending := inner.reverse } m₁ hw₂ hm hv
          ⟨rfl, ?_, hresumed.pc, hresumed.cache⟩ ?_ (hG hpausing w₂ hreaches) ?_
        · simpa using hinner
        · exact fun hpauses w₃ act₂ m₂ mid₂ q pending hw₃ =>
            hagain hpauses w₃ act₂ m₂ mid₂ q pending (hreaches.trans hw₃)
        · exact fun hpauses w₃ hw₃ => hG hpauses w₃ (hreaches.trans hw₃)

/-! ## Pursuits in general -/

variable {x y again : ActM α} {x' : ActM α'} {R : World → α → α' → Prop}
  {P : World → Activation × Machine → Activation × Machine → Prop}
  {B : Tie (Activation × Machine) (Activation × Machine)}

theorem Pursues.of_le {w₁ : World} (hw : w ≤ w₁) {r : ActResult α} {r' : ActResult α'}
    (h : Pursues T D S c lo hi again R r' w₁ r) : Pursues T D S c lo hi again R r' w r := by
  cases h with
  | ends h => exact .ends (h.of_le hw)
  | excused h => exact .excused h
  | paused hw₁ h rest => exact .paused (w.le_trans hw hw₁) h rest

/-- What is known of the result on the right. -/
theorem Pursues.and {r : ActResult α} {r' : ActResult α'} {Q : α' → Prop}
    (h : Pursues T D S c lo hi again R r' w r) (hQ : ∀ a' s', r' = .ok a' s' → Q a') :
    Pursues T D S c lo hi again (fun w a a' => R w a a' ∧ Q a') r' w r := by
  induction h with
  | ends h =>
      refine .ends ?_
      rcases h with ⟨w₁, hw₁, hs, hR⟩ | ⟨hu, hthrown⟩ | _ | hloose | hstrays
      · exact .ok ⟨w₁, hw₁, hs, hR, hQ _ _ rfl⟩
      · exact .thrown hu hthrown
      · exact .exhausted
      · exact .loose hloose
      · exact .strayed hstrays
  | excused h => exact .excused h
  | paused hw h rest ih =>
      exact .paused hw h fun w₂ act₁ m₁ hw₂ hm hv hresumed => ih w₂ act₁ m₁ hw₂ hm hv hresumed

/-- Computations that run alike need not be taken up. -/
theorem SimFrom.follows (h : SimFrom T P (Activation.tie T S) w x x' R) :
    FollowsFrom T D P S c lo hi w x again x' R :=
  fun s s' hs => .ends (h s s' hs)

/-- A part of the whole that is taken up as such. -/
theorem FollowsFrom.widen {part : ActM α} (h : FollowsFrom T D P S c lo₁ hi₁ w x part x' R)
    (hlo : lo ≤ lo₁) (hhi : hi₁ ≤ hi) (hagain : Reenters T S c [] lo₁ hi₁ w again id part) :
    FollowsFrom T D P S c lo hi w x again x' R := by
  intro s s' hs
  have hcarries : ∀ w₂, Carries T D S S c lo hi again R R (x' s') id w₂ (id : ActResult α → _) :=
    fun _ => ⟨fun _ _ _ => rfl, fun _ hends => .ends hends⟩
  exact (h s s' hs).through [] hlo hhi (fun _ => id) id
    (fun _ hl => absurd hl List.not_mem_nil) id hagain (hcarries w) fun _ w₂ _ => hcarries w₂

/-- One computation after another.  What comes second is taken up by `again` as well. -/
theorem FollowsFrom.bind {part : ActM α} {f g : α → ActM β} {f' : α' → ActM β'} {again : ActM β}
    {R' : World → β → β' → Prop} (hx : FollowsFrom T D P S c lo₁ hi₁ w x part x' R)
    (hlo : lo ≤ lo₁) (hhi : hi₁ ≤ hi)
    (hagain : Reenters T S c [] lo₁ hi₁ w again (andThen g) part)
    (hcounts : ∀ a', T.Counts (f' a'))
    (hf : ∀ w₁, w.Reaches w₁ → ∀ a a', R w₁ a a' →
      Follows T D S c lo hi w₁ (f a) again (f' a') R' ∧
        (S.Pausing T → Follows T D S c lo hi w₁ (g a) again (f' a') R')) :
    FollowsFrom T D P S c lo hi w (x >>= f) again (x' >>= f') R' := by
  intro s s' hs
  rw [bind_apply, bind_apply]
  have hcarries : ∀ (k : α → ActM β) w₂, (∀ w₁, w₂ ≤ w₁ → ∀ a a', R w₁ a a' →
      Follows T D S c lo hi w₁ (k a) again (f' a') R') →
      Carries T D S S c lo hi again R R' (x' s') (andThen f') w₂ (andThen k) := by
    refine fun k w₂ hk => ⟨fun _ _ _ => rfl, fun r hends => ?_⟩
    revert hends
    generalize x' s' = r'
    rintro (⟨w₁, hw₁, hs₁, hR⟩ | ⟨hu, hthrown⟩ | _ | hloose | hstrays)
    · exact (hk w₁ hw₁ _ _ hR _ _ hs₁).of_le hw₁
    · exact .ends (.thrown hu hthrown)
    · exact .ends .exhausted
    · exact .ends (.loose hloose)
    · exact .ends (.strayed hstrays)
  refine (hx s s' hs).through [] hlo hhi (fun _ => id) id
    (fun _ hl => absurd hl List.not_mem_nil) (fun h => h.andThen hcounts) hagain
    (hcarries f w fun w₁ hw₁ a a' hR => (hf w₁ hw₁.reaches a a' hR).1) fun hpauses w₂ hw₂ =>
      hcarries g w₂ fun w₁ hw₁ a a' hR => (hf w₁ (hw₂.trans hw₁.reaches) a a' hR).2 hpauses

/-- The first of two computations runs alike. -/
theorem SimFrom.bind_follows {f : α → ActM β} {f' : α' → ActM β'} {again : ActM β}
    {R' : World → β → β' → Prop} (hx : SimFrom T P B w x x' R)
    (hthrown : ∀ w s s', B.thrown w s s' → (Activation.tie T S).thrown w s s')
    (hf : ∀ w₁, w ≤ w₁ → ∀ a a', R w₁ a a' →
      FollowsFrom T D B.holds S c lo hi w₁ (f a) again (f' a') R') :
    FollowsFrom T D P S c lo hi w (x >>= f) again (x' >>= f') R' := by
  intro s s' hs
  have hends := hx s s' hs
  rw [bind_apply, bind_apply]
  revert hends
  generalize x s = r
  generalize x' s' = r'
  rintro (⟨w₁, hw₁, hs₁, hR⟩ | ⟨hu, w₁, hw₁, hs₁, hv⟩ | _ | hloose | hstrays)
  · exact (hf w₁ hw₁ _ _ hR _ _ hs₁).of_le hw₁
  · exact .ends (.thrown hu ⟨w₁, hw₁, hthrown _ _ _ hs₁, hv⟩)
  · exact .ends .exhausted
  · exact .ends (.loose hloose)
  · exact .ends (.strayed hstrays)

namespace ChasesFrom

theorem mono (hw : w.Reaches w') (h : ChasesFrom T D P S c lo hi w x y again x' R) :
    ChasesFrom T D P S c lo hi w' x y again x' R :=
  fun w₂ hw₂ => h w₂ (hw.trans hw₂)

theorem first (h : ChasesFrom T D P S c lo hi w x y again x' R) :
    FollowsFrom T D P S c lo hi w x again x' R :=
  (h w (.refl w)).1

theorem of_sim (h : ∀ w', w.Reaches w' → SimFrom T P (Activation.tie T S) w' x x' R)
    (hy : S.Pausing T → ∀ w', w.Reaches w' → SimFrom T P (Activation.tie T S) w' y x' R) :
    ChasesFrom T D P S c lo hi w x y again x' R :=
  fun w₂ hw₂ => ⟨(h w₂ hw₂).follows, fun hpauses => (hy hpauses w₂ hw₂).follows⟩

theorem and {Q : α' → Prop} (h : ChasesFrom T D P S c lo hi w x y again x' R)
    (hQ : ∀ w s s' a' s₁', P w s s' → x' s' = .ok a' s₁' → Q a') :
    ChasesFrom T D P S c lo hi w x y again x' fun w a a' => R w a a' ∧ Q a' :=
  fun w₂ hw₂ => ⟨fun s s' hs => ((h w₂ hw₂).1 s s' hs).and fun a' s₁' => hQ w₂ s s' a' s₁' hs,
    fun hpauses s s' hs => ((h w₂ hw₂).2 hpauses s s' hs).and fun a' s₁' => hQ w₂ s s' a' s₁' hs⟩

theorem widen {part : ActM α} (h : ChasesFrom T D P S c lo₁ hi₁ w x y part x' R)
    (hlo : lo ≤ lo₁) (hhi : hi₁ ≤ hi) (hagain : Reenters T S c [] lo₁ hi₁ w again id part) :
    ChasesFrom T D P S c lo hi w x y again x' R :=
  fun w₂ hw₂ => ⟨(h w₂ hw₂).1.widen hlo hhi (hagain.mono hw₂),
    fun hpauses => ((h w₂ hw₂).2 hpauses).widen hlo hhi (hagain.mono hw₂)⟩

theorem bind {part : ActM α} {f g : α → ActM β} {f' : α' → ActM β'} {again : ActM β}
    {R' : World → β → β' → Prop} (hx : ChasesFrom T D P S c lo₁ hi₁ w x y part x' R)
    (hlo : lo ≤ lo₁) (hhi : hi₁ ≤ hi)
    (hagain : Reenters T S c [] lo₁ hi₁ w again (andThen g) part)
    (hcounts : ∀ a', T.Counts (f' a'))
    (hf : ∀ w₁, w.Reaches w₁ → ∀ a a', R w₁ a a' →
      Chases T D S c lo hi w₁ (f a) (g a) again (f' a') R') :
    ChasesFrom T D P S c lo hi w (x >>= f) (y >>= g) again (x' >>= f') R' := by
  refine fun w₂ hw₂ => ⟨?_, fun hpauses => ?_⟩
  · exact (hx w₂ hw₂).1.bind hlo hhi (hagain.mono hw₂) hcounts fun w₁ hw₁ a a' hR =>
      hf w₁ (hw₂.trans hw₁) a a' hR w₁ (.refl w₁)
  · refine ((hx w₂ hw₂).2 hpauses).bind hlo hhi (hagain.mono hw₂) hcounts fun w₁ hw₁ a a' hR => ?_
    have hrest := (hf w₁ (hw₂.trans hw₁) a a' hR w₁ (.refl w₁)).2
    exact ⟨hrest hpauses, hrest⟩

/-- The first of two computations runs alike. -/
theorem after {f g : α → ActM β} {f' : α' → ActM β'} {again : ActM β}
    {R' : World → β → β' → Prop} (hx : ∀ w', w.Reaches w' → SimFrom T P B w' x x' R)
    (hy : S.Pausing T → ∀ w', w.Reaches w' → SimFrom T P B w' y x' R)
    (hthrown : ∀ w s s', B.thrown w s s' → (Activation.tie T S).thrown w s s')
    (hf : ∀ w₁, w.Reaches w₁ → ∀ a a', R w₁ a a' →
      ChasesFrom T D B.holds S c lo hi w₁ (f a) (g a) again (f' a') R') :
    ChasesFrom T D P S c lo hi w (x >>= f) (y >>= g) again (x' >>= f') R' := by
  refine fun w₂ hw₂ => ⟨?_, fun hpauses => ?_⟩
  · exact (hx w₂ hw₂).bind_follows hthrown fun w₁ hw₁ a a' hR =>
      (hf w₁ (hw₂.trans hw₁.reaches) a a' hR).first
  · exact (hy hpauses w₂ hw₂).bind_follows hthrown fun w₁ hw₁ a a' hR =>
      (hf w₁ (hw₂.trans hw₁.reaches) a a' hR w₁ (.refl w₁)).2 hpauses

end ChasesFrom

end Resumption
