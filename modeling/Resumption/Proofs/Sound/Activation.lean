import Resumption.Proofs.Conduct.Construct
import Resumption.Proofs.Sound.Machine

/-!
# Walks in an activation

What a computation inside of an activation may rely on and what it has to leave behind.  It starts at a
footing, a chain and positions whose results are there, and ends at another.  It may be left by what comes
from the machine.  Or it is left by a pause of its own: then there is a way to the statement that
paused it, and the scopes that were entered on this way are the front of the chain.
-/

namespace Resumption

open Script

variable {w w' : Realm} {α β : Type}

/-! ## Footings and stages -/

structure Footing where
  chain : Chain
  /-- The positions whose results are there. -/
  held : Nat → Prop

namespace Footing

variable {F : Footing} {t : IndexedTree} {i j lo hi : Nat} {n : Node}

/-- The result of one more position is there. -/
def holding (F : Footing) (i : Nat) : Footing := { F with held := fun k => k = i ∨ F.held k }

/-- One more link is entered. -/
def enter (F : Footing) (link : Link) : Footing := { F with chain := link :: F.chain }

/-- No position from `lo` up to `hi` is held. -/
def Clear (F : Footing) (lo hi : Nat) : Prop := ∀ k, F.held k → k < lo ∨ hi ≤ k

theorem Clear.mono {lo' hi' : Nat} (h : F.Clear lo hi) (hlo : lo ≤ lo') (hhi : hi' ≤ hi) :
    F.Clear lo' hi' := fun k hk => by
  have := h k hk
  omega

theorem Clear.holding (h : F.Clear lo hi) (hi' : i < lo ∨ hi ≤ i) : (F.holding i).Clear lo hi :=
  fun k hk => hk.elim (fun heq => heq ▸ hi') (h k)

theorem Clear.not_held (h : F.Clear lo hi) (hlo : lo ≤ i) (hhi : i < hi) : ¬ F.held i := fun hi' => by
  have := h i hi'
  omega

/-- The node stands at the position, and nothing in its subtree is held. -/
def Frees (F : Footing) (t : IndexedTree) (i : Nat) (n : Node) : Prop :=
  t.At i n ∧ F.Clear i (t.after i)

theorem Frees.not_held (h : F.Frees t i n) : ¬ F.held i :=
  h.2.not_held (Nat.le_refl i) (t.lt_after i)

theorem along_of_atAll {l : List Node} (hat : t.AtAll i l) (h : F.Clear i (t.afterMany l.length i)) :
    t.Along (F.Frees t) i l := by
  induction l generalizing i with
  | nil => trivial
  | cons c l ih =>
      have hhead : t.after i ≤ t.afterMany l.length (t.after i) := t.le_afterMany _ _
      rw [List.length_cons, IndexedTree.afterMany_succ] at h
      exact ⟨⟨hat.1, h.mono (Nat.le_refl i) hhead⟩,
        ih hat.2 (h.mono (Nat.le_of_lt (t.lt_after i)) (Nat.le_refl _))⟩

/-- Nodes in the subtree of a node. -/
theorem Frees.parts {l : List Node} (h : F.Frees t i n) (hat : t.AtAll j l) (hlo : i ≤ j)
    (hhi : t.afterMany l.length j ≤ t.after i) : t.Along (F.Frees t) j l :=
  along_of_atAll hat (h.2.mono hlo hhi)

theorem Frees.holding (h : F.Frees t i n) (hj : j < i ∨ t.after i ≤ j) : (F.holding j).Frees t i n :=
  ⟨h.1, h.2.holding hj⟩

theorem Frees.children (h : F.Frees t i n) : t.Along (F.Frees t) (i + 1) n.children :=
  h.parts h.1.children (Nat.le_succ i) (Nat.le_of_eq h.1.after_eq.symm)

end Footing

namespace IndexedTree

theorem Along.stands {F : Footing} {t : IndexedTree} {i : Nat} {l : List Node}
    (h : t.Along (F.Frees t) i l) : t.AtAll i l :=
  atAll_iff_along.2 (h.imp fun _ _ _ h => h.1)

/-- The first of siblings, and the others right behind its subtree. -/
theorem Along.uncons {F : Footing} {t : IndexedTree} {i : Nat} {n : Node} {l : List Node}
    (h : t.Along (F.Frees t) i (n :: l)) :
    F.Frees t i n ∧ t.after i = i + n.size ∧ t.Along (F.Frees t) (i + n.size) l :=
  ⟨h.1, h.1.1.after, h.1.1.after ▸ h.2⟩

variable (t : IndexedTree) (i : Nat)

/-- The ways from a statement at a position to the statements inside of it. -/
abbrev ways (s : Stmt) (cache : Cache) (p : Nat) (target : Stmt) (n : Nat) : Prop :=
  t.Within cache p target i s n

abbrev waysOfList (l : List Stmt) (cache : Cache) (p : Nat) (target : Stmt) (n : Nat) : Prop :=
  t.WithinList cache p target i l n

abbrev waysOfCases (l : List Case) (cache : Cache) (p : Nat) (target : Stmt) (n : Nat) : Prop :=
  t.WithinCases cache p target i l n

end IndexedTree

/-- How a walk may be left by a pause of its own. -/
structure Stage where
  /-- Books are kept. -/
  records : Bool
  /-- The chain at which the ways begin. -/
  base : Chain
  /-- The ways to a statement at a position, through so many scopes. -/
  way : Cache → Nat → Stmt → Nat → Prop

/-- One more scope is entered: the ways inside are shorter by this one. -/
def Stage.enter (S : Stage) (link : Link) : Stage where
  records := S.records
  base := link :: S.base
  way cache p target n := S.way cache p target (n + 1)

/-- A pause may be raised at the end of any of these ways. -/
structure Stage.Covers (S : Stage) (F : Footing) (ways : Cache → Nat → Stmt → Nat → Prop) : Prop where
  base : S.base = F.chain
  way : ∀ {cache : Cache} {p target n}, (∀ k, F.held k → cache.contains k = true) →
    ways cache p target n → S.way cache p target n

theorem Stage.Covers.imp {S : Stage} {F : Footing} {ways ways' : Cache → Nat → Stmt → Nat → Prop}
    (h : S.Covers F ways) (himp : ∀ cache p target n, ways' cache p target n → ways cache p target n) :
    S.Covers F ways' :=
  ⟨h.base, fun hheld hway => h.way hheld (himp _ _ _ _ hway)⟩

/-- A pause has been raised at the end of a way. -/
def Stage.Paused (S : Stage) (act : Activation) (u : Unwind) : Prop :=
  ∃ p target inner, u = .ofSignal (.pause p) ∧ S.records = true ∧
    S.way act.cache p target inner.length ∧ act.chain = inner ++ S.base ∧
      ∀ link ∈ inner, link.kind ≠ .function

theorem Stage.Paused.isPause {S : Stage} {act : Activation} {u : Unwind} (h : S.Paused act u) :
    u.isPause = true := by
  obtain ⟨p, target, inner, rfl, -⟩ := h
  rfl

def Stage.Holds (S : Stage) (held : Nat → Prop) (act : Activation) : Prop :=
  S.records = true → ∀ k, held k → act.cache.contains k = true

/-- An activation and its machine are in order. -/
structure Stands (S : Stage) (held : Nat → Prop) (w : Realm) (act : Activation) (m : Machine) :
    Prop where
  machine : m.Sound
  grown : w ≤ m.realm
  activation : act.In m.realm
  holds : S.Holds held act

variable {S : Stage} {F F' F₁ : Footing} {held held' : Nat → Prop} {act : Activation} {m : Machine}

theorem Stands.of_le (hw : w ≤ w') (h : Stands S held w' act m) : Stands S held w act m :=
  { h with grown := le_trans hw h.grown }

theorem Stands.of_held (hheld : ∀ k, held' k → held k) (h : Stands S held w act m) :
    Stands S held' w act m :=
  { h with holds := fun hrecords k hk => h.holds hrecords k (hheld k hk) }

/-- The end of a walk from one footing to another that started in a realm. -/
def Reaches (S : Stage) (F F' : Footing) (w : Realm) (R : Realm → α → Prop) :
    EStateM.Result Stop (Activation × Machine) α → Prop
  | .ok a (act, m) => Stands S F'.held w act m ∧ act.chain = F'.chain ∧ R m.realm a
  | .error (.unwind u) (act, m) =>
      Stands S (fun k => F.held k ∧ F'.held k) w act m ∧ (u.In m.realm ∨ S.Paused act u)
  | .error .exhausted (_, m) => m.Sound ∧ w ≤ m.realm

def Walks (S : Stage) (F F' : Footing) (w : Realm) (x : ActM α) (R : Realm → α → Prop) : Prop :=
  ∀ act m, Stands S F.held w act m → act.chain = F.chain → Reaches S F F' m.realm R (x (act, m))

theorem Reaches.of_le {w₀ : Realm} {R : Realm → α → Prop}
    {r : EStateM.Result Stop (Activation × Machine) α} (hw : w₀ ≤ w) (h : Reaches S F F' w R r) :
    Reaches S F F' w₀ R r := by
  match r, h with
  | .ok _ _, h => exact ⟨h.1.of_le hw, h.2⟩
  | .error (.unwind _) _, h => exact ⟨h.1.of_le hw, h.2⟩
  | .error .exhausted _, h => exact ⟨h.1, le_trans hw h.2⟩

theorem Reaches.of_held {R : Realm → α → Prop} {r : EStateM.Result Stop (Activation × Machine) α}
    (h : Reaches S F₁ F' w R r) (hF : ∀ k, F.held k → F'.held k → F₁.held k) :
    Reaches S F F' w R r := by
  match r, h with
  | .ok _ _, h => exact h
  | .error (.unwind _) _, h => exact ⟨h.1.of_held fun k hk => ⟨hF k hk.1 hk.2, hk.2⟩, h.2⟩
  | .error .exhausted _, h => exact h

namespace Walks

variable {R : Realm → α → Prop} {R' : Realm → β → Prop} {x : ActM α}

theorem mono (h : Walks S F F' w x R) (hw : w ≤ w') : Walks S F F' w' x R :=
  fun act m hs hc => h act m (hs.of_le hw) hc

theorem imp {R' : Realm → α → Prop} (h : Walks S F F' w x R)
    (hR : ∀ w' a, w ≤ w' → R w' a → R' w' a) : Walks S F F' w x R' := by
  intro act m hs hc
  have hends := h act m hs hc
  match x (act, m), hends with
  | .ok _ _, hends => exact ⟨hends.1, hends.2.1, hR _ _ (le_trans hs.grown hends.1.grown) hends.2.2⟩
  | .error (.unwind _) _, hends => exact hends
  | .error .exhausted _, hends => exact hends

theorem pure {a : α} (h : ∀ w', w ≤ w' → R w' a) : Walks S F F w (Pure.pure a) R :=
  fun _ _ hs hc => ⟨{ hs with grown := le_rfl }, hc, h _ hs.grown⟩

theorem done {a : α} : Walks S F F w (Pure.pure a) (Any : Realm → α → Prop) :=
  pure fun _ _ => trivial

theorem value {v : Value} (h : v.In w) : Walks S F F w (Pure.pure v) Value.In :=
  pure fun _ hw => h.mono hw

/-- One walk after the other; what is held in the end is held in between. -/
theorem bindTo {f : α → ActM β} (hx : Walks S F F₁ w x R)
    (hF : ∀ k, F.held k → F'.held k → F₁.held k)
    (hf : ∀ w' a, w ≤ w' → R w' a → Walks S F₁ F' w' (f a) R') : Walks S F F' w (x >>= f) R' := by
  intro act m hs hc
  have hends := hx act m hs hc
  change Reaches S F F' m.realm R' (EStateM.bind x f (act, m))
  rw [EStateM.bind]
  match x (act, m), hends with
  | .ok a (act', m'), ⟨hs', hc', ha⟩ =>
      have hrest : Reaches S F₁ F' m'.realm R' (f a (act', m')) :=
        hf _ a (le_trans hs.grown hs'.grown) ha act' m' { hs' with grown := le_rfl } hc'
      exact (hrest.of_le hs'.grown).of_held hF
  | .error (.unwind _) _, hends =>
      exact ⟨hends.1.of_held fun k hk => ⟨hk.1, hF k hk.1 hk.2⟩, hends.2⟩
  | .error .exhausted _, hends => exact hends

theorem bind {f : α → ActM β} (hx : Walks S F F w x R)
    (hf : ∀ w' a, w ≤ w' → R w' a → Walks S F F' w' (f a) R') : Walks S F F' w (x >>= f) R' :=
  bindTo hx (fun _ h _ => h) hf

/-- The result does not matter for what follows. -/
theorem next {f : α → ActM β} (hx : Walks S F F w x R) (hf : ∀ a, Walks S F F' w (f a) R') :
    Walks S F F' w (x >>= f) R' :=
  hx.bind fun _ a hw _ => (hf a).mono hw

theorem exhausted : Walks S F F' w (throw .exhausted : ActM α) R :=
  fun _ _ hs _ => ⟨hs.machine, le_rfl⟩

theorem throw {u : Unwind} (hu : u.In w) : Walks S F F' w (throw (.unwind u) : ActM α) R :=
  fun _ _ hs _ => ⟨{ hs.of_held fun _ hk => hk.1 with grown := le_rfl }, .inl (hu.mono hs.grown)⟩

theorem reaches_lift {y : MachineM α} (hs : Stands S F.held w act m) (hc : act.chain = F.chain)
    (hends : Machine.Ended m.realm R (y (m.suspend act))) :
    Reaches S F F m.realm R (ActM.lift y (act, m)) := by
  unfold ActM.lift
  dsimp only
  generalize y (m.suspend act) = ended at hends ⊢
  rcases ended with ⟨a, m'⟩ | ⟨u | _, m'⟩
  · obtain ⟨hm, hle, ha⟩ := hends
    exact ⟨⟨⟨hm.heap, hm.built, hm.methods⟩, hle, hs.activation.mono hle, hs.holds⟩, hc, ha⟩
  · obtain ⟨hm, hle, hu⟩ := hends
    exact ⟨⟨⟨hm.heap, hm.built, hm.methods⟩, hle, hs.activation.mono hle,
      fun hrecords k hk => hs.holds hrecords k hk.1⟩, .inl hu⟩
  · obtain ⟨hm, hle⟩ := hends
    exact ⟨⟨hm.heap, hm.built, hm.methods⟩, hle⟩

/-- The activation waits for the machine. -/
theorem lift {y : MachineM α} (hy : Upright w y R) : Walks S F F w (ActM.lift y) R :=
  fun act m hs hc => reaches_lift hs hc (hy (m.suspend act)
    ⟨hs.machine.heap, hs.machine.built, hs.machine.methods⟩ hs.grown)

end Walks

/-- What a function is called with. -/
structure Env.In (w : Realm) (env : Env) : Prop where
  invoke : env.invoke.Upright
  this : env.this.In w
  args : Values.In w env.args

theorem Env.In.mono (hw : w ≤ w') {env : Env} (h : env.In w) : env.In w' :=
  ⟨h.invoke, h.this.mono hw, h.args.mono hw⟩

/-- What the functions of a tree are run with: the registry leads to the tree. -/
structure Env.For (t : IndexedTree) (w : Realm) (env : Env) : Prop extends env.In w where
  kept : ∃ r, w.Keeps env.registry r ∧ t ∈ r.trees

theorem Env.For.mono {t : IndexedTree} {w w' : Realm} {env : Env} (hw : w ≤ w') (h : env.For t w) :
    env.For t w' where
  toIn := h.toIn.mono hw
  kept := by
    obtain ⟨r, hkept, ht⟩ := h.kept
    exact ⟨r, hkept.mono hw, ht⟩

def Flow.In (w : Realm) : Flow → Prop
  | .ret v => v.In w
  | .normal | .brk | .cont => True

theorem lasting_flow : Lasting Flow.In := fun _ _ flow hw h => by
  cases flow with
  | ret v => exact Value.In.mono hw h
  | normal | brk | cont => trivial

theorem Walks.value_flow {flow : Flow} (h : flow.In w) : Walks S F F w (Pure.pure flow) Flow.In :=
  pure fun _ hw => lasting_flow hw h

theorem Walks.normal : Walks S F F w (Pure.pure .normal) Flow.In := pure fun _ _ => trivial

theorem Walks.brk : Walks S F F w (Pure.pure .brk) Flow.In := pure fun _ _ => trivial

theorem Walks.cont : Walks S F F w (Pure.pure .cont) Flow.In := pure fun _ _ => trivial

theorem Walks.ret {v : Value} (hv : v.In w) : Walks S F F w (Pure.pure (.ret v)) Flow.In :=
  pure fun _ hw => hv.mono hw

/-! ## Books -/

open Walks

namespace ActM

variable {env : Env} {i k : Nat} {v : Value} {R : Realm → α → Prop}

theorem update_walks {f : Activation → Activation}
    (hf : ∀ w' act, w ≤ w' → act.In w' → act.chain = F.chain →
      (f act).In w' ∧ (f act).chain = F'.chain)
    (hheld : ∀ act, S.Holds F.held act → S.Holds F'.held (f act)) :
    Walks S F F' w (update f) Any := fun act m hs hc =>
  have hin := hf m.realm act hs.grown hs.activation hc
  ⟨⟨hs.machine, le_rfl, hin.1, hheld act hs.holds⟩, hin.2, trivial⟩

/-- Neither the chain nor the results change. -/
theorem update_aside {f : Activation → Activation}
    (hf : ∀ w' act, w ≤ w' → act.In w' → (f act).In w') (hchain : ∀ act, (f act).chain = act.chain)
    (hcache : ∀ act, (f act).cache = act.cache) : Walks S F F w (update f) Any :=
  update_walks (fun w' act hw hact hc => ⟨hf w' act hw hact, (hchain act).trans hc⟩)
    fun act hheld hrecords k hk => (hcache act).symm ▸ hheld hrecords k hk

theorem activation_walks :
    Walks S F F w activation
      (fun w' act => act.In w' ∧ act.chain = F.chain ∧ S.Holds F.held act) :=
  fun _ _ hs hc => ⟨{ hs with grown := le_rfl }, hc, hs.activation, hc, hs.holds⟩

theorem chain_walks :
    Walks S F F w chain (fun w' c => c = F.chain ∧ Chain.In w' c ∧ c.Anchored) :=
  activation_walks.bind fun _ _ _ hact => pure fun _ hw =>
    ⟨hact.2.1, hact.1.chain.mono hw, hact.1.anchored⟩

theorem cached?_walks (i : Nat) :
    Walks S F F w (cached? i) (fun w' v => ∀ u, v = some u → u.In w') :=
  activation_walks.bind fun _ _ _ hact => pure fun _ hw _ hu => (hact.1.cache.get? hu).mono hw

theorem setChain_walks {c : Chain} {held : Nat → Prop} {saved : Chain} (hsaved : Chain.In w saved)
    (hanchored : saved.Anchored) : Walks S ⟨c, held⟩ ⟨saved, held⟩ w (setChain saved) Any :=
  update_walks (fun _ _ hw hact _ =>
    ⟨{ hact with chain := hsaved.mono hw, anchored := hanchored }, rfl⟩) fun _ hheld => hheld

theorem keepBooks_walks {f : Cache → Nat → Cache × Nat}
    (hin : ∀ w' c last, w ≤ w' → Cache.In w' c → Cache.In w' (f c last).1)
    (hheld : ∀ c last k, F.held k → c.contains k = true → (f c last).1.contains k = true) :
    Walks S F F w (keepBooks f) Any :=
  update_walks (fun w' _ hw hact hc => ⟨{ hact with cache := hin w' _ _ hw hact.cache }, hc⟩)
    fun _ hold hrecords k hk => hheld _ _ k hk (hold hrecords k hk)

theorem record_walks (hv : v.In w) : Walks S F F w (record env i v) Any := by
  unfold record
  split
  · exact keepBooks_walks (fun _ _ _ hw hc => hc.insert i (hv.mono hw))
      fun _ _ _ _ hk => Cache.contains_insert hk i v
  · exact done

theorem mark_walks (env : Env) (i : Nat) : Walks S F F w (mark env i) Any := by
  unfold mark
  split
  · exact keepBooks_walks (fun _ _ _ _ hc => hc) fun _ _ _ _ hk => hk
  · exact done

theorem forget_walks (hi : ¬ F.held i) : Walks S F F w (forget i) Any :=
  keepBooks_walks (fun _ _ _ _ hc => hc.erase i)
    fun _ _ _ hk hc => Cache.contains_erase hc fun heq => hi (heq ▸ hk)

theorem markPending_walks (hi : ¬ F.held i) : Walks S F F w (markPending env i) Any := by
  unfold markPending
  split
  · exact keepBooks_walks (fun _ _ _ _ hc => hc.erase i)
      fun _ _ _ hk hc => Cache.contains_erase hc fun heq => hi (heq ▸ hk)
  · exact done

theorem starting_walks (i : Nat) : Walks S F F w (starting i) Any :=
  update_aside (fun _ _ _ hact => ⟨hact.1, hact.2, hact.3, hact.4, hact.5, hact.6⟩) (fun _ => rfl) fun _ => rfl

theorem clearPc_walks : Walks S F F w clearPc Any :=
  update_aside (fun _ _ _ hact => ⟨hact.1, hact.2, hact.3, hact.4, hact.5, hact.6⟩) (fun _ => rfl) fun _ => rfl

theorem argumentsObject_walks (henv : env.In w) : Walks S F F w (argumentsObject env) Value.In := by
  refine activation_walks.bind fun w₁ act hw₁ hact => ?_
  split
  · rename_i v hv
    exact value (hact.1.arguments v hv)
  · refine (Walks.lift (Machine.newArray_upright (henv.args.mono hw₁))).bind fun w₂ v hw₂ hv => ?_
    refine Walks.next (update_aside (fun w' act hw hact => ?_) (fun _ => rfl) fun _ => rfl)
      fun _ => value hv
    exact ⟨hact.chain, hact.anchored, hact.cache, fun u hu => by cases hu; exact hv.mono hw,
      hact.pending, hact.inner⟩

/-- From the moment that a result is stored it is held. -/
theorem record_holding (henv : env.records = S.records) (hv : v.In w) :
    Walks S F (F.holding i) w (record env i v) Any := by
  unfold record
  split
  · refine update_walks (fun w' act hw hact hc =>
      ⟨{ hact with cache := hact.cache.insert i (hv.mono hw) }, hc⟩) fun act hheld hrecords k hk => ?_
    rcases hk with rfl | hk
    · exact Cache.contains_insert_self k v act.cache
    · exact Cache.contains_insert (hheld hrecords k hk) i v
  · rename_i hrecords
    refine fun act m hs hc => ⟨⟨hs.machine, le_rfl, hs.activation, fun h => ?_⟩, hc, trivial⟩
    exact absurd (henv.trans h) hrecords

/-- A result that is forgotten is not held any more. -/
theorem forget_held (hi : ¬ F.held i) : Walks S (F.holding i) F w (forget i) Any :=
  update_walks (fun _ _ _ hact hc => ⟨{ hact with cache := hact.cache.erase i }, hc⟩)
    fun _ hheld hrecords k hk =>
      Cache.contains_erase (hheld hrecords k (.inr hk)) fun heq => hi (heq ▸ hk)

/-! ## Catching -/

/-- A computation that hands over what stopped it returns if going on with that walks. -/
def Returns (S : Stage) (F F' : Footing) (w : Realm) (x : ActM (Except Unwind α))
    (R : Realm → α → Prop) : Prop :=
  Walks S F F' w (x >>= proceed) R

theorem caught_returns {x : ActM α} (hx : Walks S F F' w x R) : Returns S F F' w (caught x) R := by
  rw [Returns, caught_bind_proceed]
  exact hx

/-- What follows may look at the ending as long as it lets pauses pass.  What an exception leaves behind
may have any chain. -/
theorem Returns.bind {x : ActM (Except Unwind α)} {f : Except Unwind α → ActM β}
    {R' : Realm → β → Prop} (hx : Returns S F F' w x R) (hF : ∀ k, F.held k → F'.held k)
    (hok : ∀ w' a, w ≤ w' → R w' a → Walks S F' F' w' (f (.ok a)) R')
    (herror : ∀ w' u c, w ≤ w' → u.In w' → u.isPause = false →
      Walks S ⟨c, F.held⟩ F' w' (f (.error u)) R')
    (hpause : ∀ u : Unwind, u.isPause = true → f (.error u) = throw (.unwind u)) :
    Walks S F F' w (x >>= f) R' := by
  intro act m hs hc
  have hends := hx act m hs hc
  change Reaches S F F' m.realm R' (EStateM.bind x f (act, m))
  change Reaches S F F' m.realm R (EStateM.bind x proceed (act, m)) at hends
  rw [EStateM.bind] at hends ⊢
  match x (act, m), hends with
  | .ok (.ok a) (act', m'), ⟨hs', hc', ha⟩ =>
      have hrest : Reaches S F' F' m'.realm R' (f (.ok a) (act', m')) :=
        hok _ a (le_trans hs.grown hs'.grown) ha act' m' { hs' with grown := le_rfl } hc'
      exact (hrest.of_le hs'.grown).of_held fun k _ hk => hk
  | .ok (.error u) (act', m'), ⟨hs', hu⟩ =>
      dsimp only
      cases hpaused : u.isPause with
      | true =>
          rw [hpause u hpaused]
          exact ⟨hs', hu⟩
      | false =>
          have hin : u.In m'.realm := hu.resolve_right fun h => by
            rw [h.isPause] at hpaused
            cases hpaused
          have hstands := hs'.of_held fun k hk => ⟨hk, hF k hk⟩
          have hrest : Reaches S ⟨act'.chain, F.held⟩ F' m'.realm R' (f (.error u) (act', m')) :=
            herror _ u act'.chain (le_trans hs.grown hs'.grown) hin hpaused act' m'
              { hstands with grown := le_rfl } rfl
          exact hrest.of_le hs'.grown
  | .error (.unwind _) _, hends => exact hends
  | .error .exhausted _, hends => exact hends

theorem guarding_returns {block : ActM Flow} {handler : Unwind → ActM (Except Unwind Flow)}
    (hblock : Walks S F F w block Flow.In)
    (hhandler : ∀ w' u c, w ≤ w' → u.In w' → u.isPause = false →
      Returns S ⟨c, F.held⟩ F w' (handler u) Flow.In) :
    Returns S F F w (guarding block handler) Flow.In := by
  rw [Returns, guarding, bind_assoc]
  refine (caught_returns hblock).bind (fun _ h => h) (fun w' flow hw hflow => ?_)
    (fun w' u c hw hu hpause => ?_) (fun u hpause => ?_)
  · change Walks S F F w' (Pure.pure flow) Flow.In
    exact Walks.value_flow hflow
  · dsimp only
    rw [hpause]
    exact hhandler w' u c hw hu hpause
  · dsimp only
    rw [hpause]
    rfl

theorem inScope_walks {c : Chain} {link : Link} {body : ActM Flow} (hlink : link.record < w.size)
    (hkind : link.kind ≠ .function) (hchain : Chain.In w F.chain) (hanchored : F.chain.Anchored)
    (hbody : Walks (S.enter link) (F.enter link) (F.enter link) w body Flow.In) :
    Walks S ⟨c, F.held⟩ F w (inScope link F.chain body) Flow.In := by
  refine Walks.bindTo (setChain_walks (.cons hlink hchain) (hanchored.cons link)) (fun _ h _ => h)
    fun w₁ _ hw₁ _ => ?_
  have hwalk : Walks S (F.enter link) (F.enter link) w body Flow.In := by
    intro act m hs hc
    have hends := hbody act m ⟨hs.machine, hs.grown, hs.activation, hs.holds⟩ hc
    match body (act, m), hends with
    | .ok _ _, ⟨hs', hends⟩ => exact ⟨⟨hs'.machine, hs'.grown, hs'.activation, hs'.holds⟩, hends⟩
    | .error (.unwind u) _, ⟨hs', hu⟩ =>
        refine ⟨⟨hs'.machine, hs'.grown, hs'.activation, hs'.holds⟩, hu.imp_right ?_⟩
        rintro ⟨p, target, inner, rfl, hrecords, hposed, hchain', hinner⟩
        refine ⟨p, target, inner ++ [link], rfl, hrecords, ?_, ?_, ?_⟩
        · rw [List.length_append]
          exact hposed
        · rw [hchain', List.append_assoc]
          rfl
        · intro l hl
          rcases List.mem_append.1 hl with hl | hl
          · exact hinner l hl
          · rw [List.mem_singleton.1 hl]
            exact hkind
    | .error .exhausted _, hends => exact hends
  refine (hwalk.mono hw₁).bindTo (fun _ h _ => h) fun w₂ flow hw₂ hflow => ?_
  have hchain' := hchain.mono (le_trans hw₁ hw₂)
  exact Walks.bindTo (setChain_walks hchain' hanchored) (fun _ h _ => h) fun w₃ _ hw₃ _ =>
    Walks.value_flow (lasting_flow hw₃ hflow)

end ActM

end Resumption
