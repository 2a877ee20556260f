import Resumption.Engine.Construct
import Resumption.Proofs.Match.Native
import Resumption.Proofs.Match.Placed

/-!
# Matching activations

Two activations of one function match if they stand in the same scopes and have no position to get
back to.  The books may be kept differently on both sides: on the right nobody looks into them, and on
the left one may ask that something about them stays.  Only where pauses are taken together they are
the same.
-/

namespace Resumption

/-- What is known of two activations while they run side by side. -/
structure Stance where
  /-- The scopes on both sides, if they are known to be the same. -/
  chain : Option Chain
  /-- What holds of the books on the left. -/
  books : Cache → Prop
  /-- Both have made the object of their arguments, or neither has. -/
  args : Prop
  /-- Exceptions are not caught. -/
  doomed : Prop

namespace Stance

/-- In given scopes. -/
def within (S : Stance) (chain : Chain) : Stance := { S with chain := some chain }

/-- In any scopes. -/
def adrift (S : Stance) : Stance := { S with chain := none }

end Stance

structure Activation.Match (T : Terms) (S : Stance) (w : World) (act act' : Activation) : Prop where
  chain : ∀ c, S.chain = some c → act.chain = c ∧ act'.chain = c
  pc : act.pc = none ∧ act'.pc = none
  books : S.books act.cache
  args : S.args → act'.arguments = act.arguments ∧ ∀ v, act.arguments = some v → v.Shown w
  even : T.pauses = .together →
    act'.chain = act.chain ∧ act'.cache = act.cache ∧ act'.last = act.last

/-- When an exception is under way, scopes may have been left. -/
def Activation.tie (T : Terms) (S : Stance) : Tie (Activation × Machine) (Activation × Machine) where
  holds w s s' := s.1.Match T S w s'.1 ∧ s.2.Match T w s'.2
  thrown w s s' := s.1.Match T S.adrift w s'.1 ∧ s.2.Match T w s'.2

/-- Two computations in activations run alike. -/
abbrev ASim {α β : Type} (T : Terms) (S : Stance) (w : World) (x : ActM α) (x' : ActM β)
    (R : World → α → β → Prop) : Prop :=
  Sim T (Activation.tie T S) w x x' R

variable {α β : Type} {T : Terms} {S : Stance} {w w' : World}

theorem Activation.Match.mono {act act' : Activation} (hw : w.roles <+: w'.roles)
    (h : act.Match T S w act') : act.Match T S w' act' :=
  { h with args := fun hargs => (h.args hargs).imp_right fun hv v harg => (hv v harg).mono hw }

theorem Activation.Match.adrift {act act' : Activation} (h : act.Match T S w act') :
    act.Match T S.adrift w act' :=
  { h with chain := fun _ hc => by cases hc }

theorem Machine.Match.suspend {m m' : Machine} (h : m.Match T w m') (act act' : Activation) :
    (m.suspend act).Match T w (m'.suspend act') :=
  { h with }

theorem Machine.Match.release {m m' : Machine} (h : m.Match T w m') :
    m.release.Match T w m'.release :=
  { h with }

namespace ActM

variable {env env' : Env} {R : World → α → β → Prop}

/-! ## Small steps -/

theorem lift_sim {x : MachineM α} {x' : MachineM β} (h : MSim T w x x' R) :
    ASim T S w (lift x) (lift x') R := by
  rintro ⟨act, m⟩ ⟨act', m'⟩ ⟨hact, hm⟩
  have hends := h _ _ (hm.suspend act act')
  rw [lift, lift]
  revert hends
  generalize x (m.suspend act) = r
  generalize x' (m'.suspend act') = r'
  rintro (⟨w₁, hw₁, hm₁, hR⟩ | ⟨hu, w₁, hw₁, hm₁, hv⟩ | _ | hloose | hstrays)
  · exact .ok ⟨w₁, hw₁, ⟨hact.mono hw₁.roles, hm₁.release⟩, hR⟩
  · exact .thrown hu ⟨w₁, hw₁, ⟨hact.adrift.mono hw₁.roles, hm₁.release⟩, hv⟩
  · exact .exhausted
  · exact .loose hloose
  · exact .strayed hstrays

theorem update_sim {f f' : Activation → Activation}
    (h : ∀ act act', Activation.Match T S w act act' →
      Activation.Match T S w (f act) (f' act')) :
    ASim T S w (update f) (update f') Equal :=
  fun _ _ hs => .ok ⟨w, w.le_refl, ⟨h _ _ hs.1, hs.2⟩, rfl, trivial⟩

theorem chain_sim {c : Chain} (hS : S.chain = some c) :
    ASim T S w chain chain (Same fun _ c' => c' = c) :=
  fun _ _ hs => .ok ⟨w, w.le_refl, hs, (hs.1.chain c hS).2.trans (hs.1.chain c hS).1.symm,
    (hs.1.chain c hS).1⟩

theorem argumentsObject_sim (hS : S.args) (hargs : env'.args = env.args)
    (hshown : ∀ v ∈ env.args, v.Shown w) :
    ASim T S w (argumentsObject env) (argumentsObject env') (Same fun w v => v.Shown w) := by
  have hact : ASim T S w activation activation (Activation.Match T S) :=
    fun _ _ hs => .ok ⟨w, w.le_refl, hs, hs.1⟩
  refine .bind_rel hact fun w₁ hw₁ act act' hmatch => ?_
  obtain ⟨heq, hv⟩ := hmatch.args hS
  rw [heq]
  cases hmade : act.arguments with
  | some v => exact .pure ⟨rfl, hv v hmade⟩
  | none =>
      rw [hargs]
      refine .bind (lift_sim (Machine.newArray_sim fun v hv => (hshown v hv).mono hw₁.roles))
        fun w₂ hw₂ v hv => ?_
      refine .bind (update_sim fun act act' hmatch => ?_) fun w₃ hw₃ _ _ =>
        .pure ⟨rfl, hv.mono hw₃.roles⟩
      refine { hmatch with args := fun _ => ⟨rfl, fun u hu => ?_⟩ }
      cases hu
      exact hv

/-! ## Keeping the books -/

/-- Nothing but the books changes, whatever else there is, and what is known of them stays. -/
def Bookkeeping (K : Cache → Prop) (y : ActM Unit) : Prop :=
  ∃ (f : Cache → Nat → Cache × Nat) (diary : Activation → Entry → Prop),
    (∀ cache last, K cache → K (f cache last).1) ∧
      ∀ act m, y (act, m) = .ok () ({ act with
        cache := (f act.cache act.last).1, last := (f act.cache act.last).2, diary := diary act }, m)

variable {K : Cache → Prop} {i : Nat}

theorem Bookkeeping.pure : Bookkeeping K (Pure.pure ()) :=
  ⟨fun cache last => (cache, last), Activation.diary, fun _ _ h => h, fun _ _ => rfl⟩

theorem Bookkeeping.seq {y z : ActM Unit} (hy : Bookkeeping K y) (hz : Bookkeeping K z) :
    Bookkeeping K (y >>= fun _ => z) := by
  obtain ⟨f, diary, hf, hy⟩ := hy
  obtain ⟨g, diary', hg, hz⟩ := hz
  refine ⟨fun cache last => g (f cache last).1 (f cache last).2, fun act => diary' { act with
    cache := (f act.cache act.last).1, last := (f act.cache act.last).2, diary := diary act },
    fun cache last h => hg _ _ (hf _ _ h), fun act m => ?_⟩
  change EStateM.bind y (fun _ => z) (act, m) = _
  rw [EStateM.bind, hy]
  exact hz _ m

theorem Bookkeeping.ite {p : Prop} [Decidable p] {y : ActM Unit} (hy : Bookkeeping K y) :
    Bookkeeping K (if p then y else Pure.pure ()) := by
  split
  · exact hy
  · exact .pure

theorem keepBooks_books {f : Cache → Nat → Cache × Nat}
    (hf : ∀ cache last, K cache → K (f cache last).1) : Bookkeeping K (keepBooks f) :=
  ⟨f, _, hf, fun _ _ => rfl⟩

theorem record_books (hi : Vacant K i) (env : Env) (v : Value) : Bookkeeping K (record env i v) :=
  .ite (keepBooks_books fun _ _ hK => (hi _ hK).1 v)

theorem mark_books (env : Env) (i : Nat) : Bookkeeping K (mark env i) :=
  .ite (keepBooks_books fun _ _ hK => hK)

theorem markPending_books (hi : Vacant K i) (env : Env) : Bookkeeping K (markPending env i) :=
  .ite (keepBooks_books fun _ _ hK => (hi _ hK).2)

theorem forget_books (hi : Vacant K i) : Bookkeeping K (forget i) :=
  keepBooks_books fun _ _ hK => (hi _ hK).2

theorem starting_books (i : Nat) : Bookkeeping K (starting i) :=
  ⟨fun cache last => (cache, last), _, fun _ _ hK => hK, fun _ _ => rfl⟩

/-- The books on both sides are kept in passing, and in the same way if they have to be the same. -/
theorem both_sim {y y' : ActM Unit} {z : ActM α} {z' : ActM β} (hy : Bookkeeping S.books y)
    (hy' : Bookkeeping (fun _ => True) y') (heven : T.pauses = .together → y' = y)
    (h : ASim T S w z z' R) : ASim T S w (y >>= fun _ => z) (y' >>= fun _ => z') R := by
  rintro ⟨act, m⟩ ⟨act', m'⟩ ⟨hact, hm⟩
  obtain ⟨f, diary, hf, hy⟩ := hy
  obtain ⟨f', diary', -, hy'⟩ := hy'
  change Ends T _ w R (EStateM.bind y (fun _ => z) (act, m)) (EStateM.bind y' (fun _ => z') (act', m'))
  rw [EStateM.bind, EStateM.bind, hy, hy']
  refine h _ _ ⟨⟨hact.chain, hact.pc, hf _ _ hact.books, hact.args, fun hT => ?_⟩, hm⟩
  obtain ⟨hchain, hcache, hlast⟩ := hact.even hT
  have hsame := hy' act' m'
  rw [heven hT, hy act' m', hcache, hlast] at hsame
  simp only [EStateM.Result.ok.injEq, Prod.mk.injEq, Activation.mk.injEq, true_and, and_true] at hsame
  rw [hcache, hlast]
  exact ⟨hchain, hsame.1.symm, hsame.2.1.symm⟩

/-- The books on the left are kept in passing. -/
theorem left_sim {y : ActM Unit} {z : ActM α} {x' : ActM β} (hT : T.pauses ≠ .together)
    (hy : Bookkeeping S.books y) (h : ASim T S w z x' R) : ASim T S w (y >>= fun _ => z) x' R := by
  have hboth := both_sim hy .pure (fun h => absurd h hT) h
  simpa only [pure_bind] using hboth

/-- The books on the right are kept in passing. -/
theorem right_sim {y' : ActM Unit} {x : ActM α} {z' : ActM β} (hT : T.pauses ≠ .together)
    (hy : Bookkeeping (fun _ => True) y') (h : ASim T S w x z' R) :
    ASim T S w x (y' >>= fun _ => z') R := by
  have hboth := both_sim .pure hy (fun h => absurd h hT) h
  simpa only [pure_bind] using hboth

/-- The result goes into the books. -/
theorem kept_sim {x x' : ActM Value} {y y' : Value → ActM Unit} {R : World → Value → Value → Prop}
    (hR : ∀ w v v', R w v v' → v' = v) (hy : ∀ v, Bookkeeping S.books (y v))
    (hy' : ∀ v, Bookkeeping (fun _ => True) (y' v))
    (heven : T.pauses = .together → ∀ v, y' v = y v) (h : ASim T S w x x' R) :
    ASim T S w (x >>= fun v => y v >>= fun _ => pure v) (x' >>= fun v => y' v >>= fun _ => pure v)
      R :=
  .bind_rel h fun w₁ _ v v' hv => by
    cases hR w₁ v v' hv
    exact both_sim (hy v) (hy' v) (fun hT => heven hT v) (.pure hv)

end ActM

end Resumption
