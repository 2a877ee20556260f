import Resumption.Proofs.Conduct.Stepper
import Resumption.Proofs.Match.Books
import Resumption.Proofs.Match.Construct
import Resumption.Proofs.Match.Pursuit

/-!
# Constructs that chase

Loops, scopes and stored results, with a part in which the left may be paused.  Whoever is paused in
the part is taken up in it, and what the construct does with the end of the part is done then.
-/

namespace Resumption

variable {α α' β β' : Type} {T : Terms} {D : Unwind → World → Machine → Value → Machine → Prop}
  {S S₁ : Stance} {c : Chain} {lo hi lo₁ hi₁ i : Nat} {w w' : World} {env env' env₂ : Env}
  {R : World → α → α' → Prop} {P : World → Activation × Machine → Activation × Machine → Prop}

/-! ## What is known of the books -/

/-- The one says no more than the other, but for the books. -/
structure Stance.Entails (S₁ S : Stance) : Prop where
  books : ∀ cache, S₁.books cache → S.books cache
  args : S₁.args ↔ S.args
  doomed : S₁.doomed ↔ S.doomed
  chain : S₁.chain = S.chain

theorem Stance.Entails.refl (S : Stance) : S.Entails S := ⟨fun _ => id, Iff.rfl, Iff.rfl, rfl⟩

/-- Moreover, a result is stored under a position.  Where no pauses are taken nobody looks for it. -/
def Stance.storing (S : Stance) (i : Nat) (v : Value) : Stance :=
  { S with books := fun cache => S.books cache ∧ (¬ S.args → cache.get? i = some v) }

theorem Stance.storing_entails (S : Stance) (i : Nat) (v : Value) : (S.storing i v).Entails S :=
  ⟨fun _ h => h.1, Iff.rfl, Iff.rfl, rfl⟩

theorem Vacant.storing {v : Value} {j : Nat} (h : Vacant S.books j) (hne : i ≠ j) :
    Vacant (S.storing i v).books j := by
  rintro cache ⟨hcache, hstored⟩
  obtain ⟨hinsert, herase⟩ := h cache hcache
  refine ⟨fun u => ⟨hinsert u, fun hargs => ?_⟩, herase, fun hargs => ?_⟩
  · rw [Cache.get?_insert_of_ne hne]
    exact hstored hargs
  · rw [Cache.get?_erase_of_ne hne]
    exact hstored hargs

theorem Room.storing {s : Manner} {t : IndexedTree} {v : Value} (h : Room s t S.books lo hi)
    (hout : i < lo ∨ hi ≤ i) : Room s t (S.storing i v).books lo hi :=
  fun j hlo hhi hname => (h j hlo hhi hname).storing (by omega)

theorem Placed.storing {s : Manner} {t : IndexedTree} {n : Script.Node} {v : Value} {j : Nat}
    (h : Placed T s t S.books j n) (hi : i < j ∨ t.after j ≤ i) :
    Placed T s t (S.storing i v).books j n :=
  { h with room := h.room.storing hi }

theorem Activation.Match.entails {act act' : Activation} (hS : S₁.Entails S)
    (h : act.Match T S₁ w act') : act.Match T S w act' :=
  { h with
    chain := hS.chain ▸ h.chain
    books := hS.books _ h.books
    args := fun hargs => h.args (hS.args.2 hargs) }

theorem Stance.Entails.adrift (hS : S₁.Entails S) : S₁.adrift.Entails S.adrift :=
  ⟨hS.books, hS.args, hS.doomed, rfl⟩

theorem Stance.Entails.thrown (hS : S₁.Entails S) {s s' : Activation × Machine}
    (h : (Activation.tie T S₁).thrown w s s') : (Activation.tie T S).thrown w s s' :=
  ⟨h.1.entails hS.adrift, h.2⟩

/-- A result is stored. -/
theorem ActM.record_storing {v : Value} (henv : env.Match T w env') (hi : Vacant S.books i)
    (hrecords : ¬ S.args → env.records = true) :
    SimFrom T (Activation.tie T S).holds (Activation.tie T (S.storing i v)) w (record env i v)
      (record env' i v) Equal := by
  rintro ⟨act, m⟩ ⟨act', m'⟩ ⟨hact, hm⟩
  have hform : ∀ (env : Env) (act : Activation) (m : Machine), record env i v (act, m) =
      .ok () (if env.records then act.kept (fun cache last => (cache.insert i v, last)) else act, m) := by
    intro env act m
    unfold record
    split <;> rfl
  rw [hform, hform]
  have hbooks : (S.storing i v).books (if env.records then
      act.kept (fun cache last => (cache.insert i v, last)) else act).cache := by
    refine ⟨?_, fun hargs => ?_⟩
    · split
      · exact (hi _ hact.books).1 v
      · exact hact.books
    · rw [hrecords hargs, if_pos rfl]
      exact Cache.get?_insert_self i v act.cache
  refine .ok ⟨w, w.le_refl, ⟨⟨fun c hc => ?_, ?_, hbooks, fun hargs => ?_, fun hT => ?_⟩, hm⟩, rfl,
    trivial⟩
  · have hchain := hact.chain c hc
    constructor <;> split <;> first | exact hchain.1 | exact hchain.2
  · constructor <;> split <;> first | exact hact.pc.1 | exact hact.pc.2
  · have hmade := hact.args hargs
    split <;> split <;> exact hmade
  · obtain ⟨hchain, hcache, hlast⟩ := hact.even hT
    rw [henv.site hT]
    split
    · exact ⟨hchain, congrArg (Cache.insert i v) hcache, hlast⟩
    · exact ⟨hchain, hcache, hlast⟩

/-- Leaves a scope. -/
def ActM.leaving (saved : Chain) (flow : Flow) : ActM Flow := do
  setChain saved
  return flow

theorem ActM.inScope_eq (link : Link) (saved : Chain) (body : ActM Flow) :
    inScope link saved body = (setChain (link :: saved) >>= fun _ => body) >>= leaving saved := by
  rw [bind_assoc]
  rfl

namespace ChasesFrom

variable {x y part again : ActM α} {x' : ActM α'}

/-- Something is done with the end of a part, and something when the part has been taken up. -/
theorem through (front : Chain) {X Y again : ActM β} {X' : ActM β'} {R' : World → β → β' → Prop}
    {F G H : ActResult α → ActResult β} {F' : ActResult α' → ActResult β'}
    (h : ChasesFrom T D P S₁ (front ++ c) lo₁ hi₁ w x y part x' R)
    (hX : ∀ s, X s = F (x s)) (hY : ∀ s, Y s = H (y s)) (hX' : ∀ s, X' s = F' (x' s))
    (hlo : lo ≤ lo₁) (hhi : hi₁ ≤ hi) (hbooks : ∀ cache, S₁.books cache → S.books cache)
    (hargs : S₁.args ↔ S.args) (hfront : ∀ link ∈ front, link.kind ≠ .function)
    (hexcuse : ∀ r', Excused T S₁ r' → Excused T S (F' r'))
    (hagain : Reenters T S₁ c front lo₁ hi₁ w again G part)
    (hF : ∀ w', w.Reaches w' → ∀ r', Carries T D S S₁ c lo hi again R R' r' F' w' F)
    (hG : S.Pausing T → ∀ w', w.Reaches w' → ∀ r', Carries T D S S₁ c lo hi again R R' r' F' w' G)
    (hH : S.Pausing T → ∀ w', w.Reaches w' → ∀ r', Carries T D S S₁ c lo hi again R R' r' F' w' H) :
    ChasesFrom T D P S c lo hi w X Y again X' R' := by
  refine fun w₁ hw₁ => ⟨fun s s' hs => ?_, fun hpausing s s' hs => ?_⟩
  · rw [hX, hX']
    exact ((h w₁ hw₁).1 s s' hs).through front hlo hhi hbooks hargs.2 hfront (hexcuse _) (hagain.mono hw₁)
      (hF w₁ hw₁ _) fun hpausing w₂ hw₂ => hG hpausing w₂ (hw₁.trans hw₂) _
  · have hpausing₁ : S₁.Pausing T := ⟨hpausing.1, fun hS => hpausing.2 (hargs.1 hS)⟩
    rw [hY, hX']
    exact ((h w₁ hw₁).2 hpausing₁ s s' hs).through front hlo hhi hbooks hargs.2 hfront (hexcuse _)
      (hagain.mono hw₁) (hH hpausing w₁ hw₁ _) fun _ w₂ hw₂ => hG hpausing w₂ (hw₁.trans hw₂) _

/-- Less is known about the books. -/
theorem weaken (h : ChasesFrom T D P S₁ c lo hi w x y again x' R) (hS : S₁.Entails S) :
    ChasesFrom T D P S c lo hi w x y again x' R := by
  have hends : ∀ {w : World} {r : ActResult α} {r' : ActResult α'},
      Ends T (Activation.tie T S₁) w R r r' → Ends T (Activation.tie T S) w R r r' := by
    rintro w r r' (⟨w₁, hw₁, hs, hR⟩ | ⟨hu, w₁, hw₁, hs, hv⟩ | _ | hloose | hstrays)
    · exact .ok ⟨w₁, hw₁, ⟨hs.1.entails hS, hs.2⟩, hR⟩
    · exact .thrown hu ⟨w₁, hw₁, hS.thrown hs, hv⟩
    · exact .exhausted
    · exact .loose hloose
    · exact .strayed hstrays
  have hcarries : ∀ w' r', Carries T D S S₁ c lo hi again R R r' id w' (id : ActResult α → _) :=
    fun w' r' => ⟨fun _ _ _ => rfl, fun r h => .ends (hends h)⟩
  exact h.through [] (fun _ => rfl) (fun _ => rfl) (fun _ => rfl) (Nat.le_refl lo)
    (Nat.le_refl hi) hS.books hS.args (fun _ hl => absurd hl List.not_mem_nil)
    (fun _ h => h.imp hS.doomed.1)
    (.here fun _ _ _ _ _ _ _ _ _ _ _ _ _ => rfl) (fun w' _ r' => hcarries w' r')
    (fun _ w' _ r' => hcarries w' r') fun _ w' _ r' => hcarries w' r'

/-- What comes second runs alike, and then less is known about the books.  Once the run has been taken
up, it may be something else on the left. -/
theorem bind_sim {f g k : α → ActM β} {f' : α' → ActM β'} {again : ActM β}
    {R' : World → β → β' → Prop} (hx : ChasesFrom T D P S₁ c lo₁ hi₁ w x y part x' R)
    (hS : S₁.Entails S) (hlo : lo ≤ lo₁) (hhi : hi₁ ≤ hi)
    (hagain : Reenters T S₁ c [] lo₁ hi₁ w again (andThen g) part) (hcounts : ∀ a', T.Counts (f' a'))
    (hf : ∀ w₁, w.Reaches w₁ → ∀ a a', R w₁ a a' → ASim T S w₁ (f a) (f' a') R')
    (hg : S.Pausing T → ∀ w₁, w.Reaches w₁ → ∀ a a', R w₁ a a' → ASim T S w₁ (g a) (f' a') R')
    (hk : S.Pausing T → ∀ w₁, w.Reaches w₁ → ∀ a a', R w₁ a a' → ASim T S w₁ (k a) (f' a') R') :
    ChasesFrom T D P S c lo hi w (x >>= f) (y >>= k) again (x' >>= f') R' := by
  have hcarries : ∀ (j : α → ActM β) w', (∀ w₁, w' ≤ w₁ → ∀ a a', R w₁ a a' →
      ASim T S w₁ (j a) (f' a') R') →
      ∀ r', Carries T D S S₁ c lo hi again R R' r' (andThen f') w' (andThen j) := by
    refine fun j w' hj r' => ⟨fun _ _ _ => rfl, ?_⟩
    rintro r (⟨w₁, hw₁, hs, hR⟩ | ⟨hu, w₁, hw₁, hs, hv⟩ | _ | hloose | hstrays)
    · exact .ends ((hj w₁ hw₁ _ _ hR _ _ ⟨hs.1.entails hS, hs.2⟩).of_le hw₁)
    · exact .ends (.thrown hu ⟨w₁, hw₁, hS.thrown hs, hv⟩)
    · exact .ends .exhausted
    · exact .ends (.loose hloose)
    · exact .ends (.strayed hstrays)
  exact hx.through [] (bind_apply _ _) (bind_apply _ _) (bind_apply _ _) hlo hhi hS.books
    hS.args (fun _ hl => absurd hl List.not_mem_nil) (fun r' h => (h.imp hS.doomed.1).andThen hcounts) hagain
    (fun w' hw' => hcarries f w' fun w₁ hw₁ => hf w₁ (hw'.trans hw₁.reaches))
    (fun hpausing w' hw' => hcarries g w' fun w₁ hw₁ => hg hpausing w₁ (hw'.trans hw₁.reaches))
    fun hpausing w' hw' => hcarries k w' fun w₁ hw₁ => hk hpausing w₁ (hw'.trans hw₁.reaches)

/-- Where they start, the computations are others. -/
theorem congr {X Y : ActM α} {X' : ActM α'} (h : ChasesFrom T D P S c lo hi w x y again x' R)
    (hX : ∀ w s s', P w s s' → X s = x s) (hY : S.Pausing T → ∀ w s s', P w s s' → Y s = y s)
    (hX' : ∀ w s s', P w s s' → X' s' = x' s') : ChasesFrom T D P S c lo hi w X Y again X' R := by
  refine fun w₁ hw₁ => ⟨fun s s' hs => ?_, fun hpausing s s' hs => ?_⟩
  · rw [hX _ _ _ hs, hX' _ _ _ hs]
    exact (h w₁ hw₁).1 s s' hs
  · rw [hY hpausing _ _ _ hs, hX' _ _ _ hs]
    exact (h w₁ hw₁).2 hpausing s s' hs

/-- More is known about the states at the beginning. -/
theorem of_imp {P₁ : World → Activation × Machine → Activation × Machine → Prop}
    (h : ChasesFrom T D P₁ S c lo hi w x y again x' R) (hP : ∀ w s s', P w s s' → P₁ w s s') :
    ChasesFrom T D P S c lo hi w x y again x' R :=
  fun w₁ hw₁ => ⟨fun s s' hs => (h w₁ hw₁).1 s s' (hP _ _ _ hs),
    fun hpausing s s' hs => (h w₁ hw₁).2 hpausing s s' (hP _ _ _ hs)⟩

/-- From states that have drifted apart more is possible. -/
theorem of_adrift (h : ChasesFrom T D (Activation.tie T S).thrown S c lo hi w x y again x' R) :
    Chases T D S c lo hi w x y again x' R :=
  h.of_imp fun _ _ _ hs => ⟨hs.1.adrift, hs.2⟩

/-! ## Scopes -/

/-- A body in one more scope. -/
theorem inScope {x y part x' again : ActM Flow} {link : Link} (hS : S.chain = some c)
    (hkind : link.kind ≠ .function) (hlo : lo ≤ lo₁) (hhi : hi₁ ≤ hi)
    (hbody : Chases T D (S.within (link :: c)) (link :: c) lo₁ hi₁ w x y part x' Flowing)
    (hagain : Reenters T (S.within (link :: c)) c [link] lo₁ hi₁ w again
      (andThen (ActM.leaving c)) part) :
    ChasesFrom T D (Activation.tie T S).thrown S c lo hi w (ActM.inScope link c x)
      (ActM.inScope link c y) again (ActM.inScope link c x') Flowing := by
  have hset : ∀ w', SimFrom T (Activation.tie T S).thrown (Activation.tie T (S.within (link :: c))) w'
      (ActM.setChain (link :: c)) (ActM.setChain (link :: c)) Equal :=
    fun w' => ActM.setChain_sim (S := S.adrift) (link :: c)
  have hinner : ChasesFrom T D (Activation.tie T S).thrown (S.within (link :: c)) (link :: c) lo₁ hi₁ w
      (ActM.setChain (link :: c) >>= fun _ => x) (ActM.setChain (link :: c) >>= fun _ => y) part
      (ActM.setChain (link :: c) >>= fun _ => x') Flowing :=
    .after (fun w' _ => hset w') (fun _ w' _ => hset w') (fun _ _ _ hs => hs)
      fun w₁ hw₁ _ _ _ => hbody.mono hw₁
  have hleave : ∀ w' (flow : Flow), flow.Shown w' →
      SimFrom T (Activation.tie T (S.within (link :: c))).holds (Activation.tie T S) w'
        (ActM.leaving c flow) (ActM.leaving c flow) Flowing := by
    intro w' flow hflow
    have hback := ActM.setChain_sim (T := T) (S := S.within (link :: c)) (w := w') c
    rw [show (S.within (link :: c)).within c = S from ActM.within_eq hS] at hback
    exact hback.bind (fun _ _ _ hs => hs) fun w₁ hw₁ _ _ _ =>
      Sim.pure ⟨rfl, hflow.mono hw₁.roles⟩
  have hcarries : ∀ w' r', Carries T D S (S.within (link :: c)) c lo hi again Flowing Flowing r'
      (andThen (ActM.leaving c)) w' (andThen (ActM.leaving c)) := by
    refine fun w' r' => ⟨fun _ _ _ => rfl, ?_⟩
    rintro r (⟨w₁, hw₁, hs, rfl, hflow⟩ | ⟨hu, hthrown⟩ | _ | hloose | hstrays)
    · exact .ends ((hleave w₁ _ hflow _ _ hs).of_le hw₁)
    · exact .ends (.thrown hu hthrown)
    · exact .ends .exhausted
    · exact .ends (.loose hloose)
    · exact .ends (.strayed hstrays)
  refine hinner.through [link] (fun s => ?_) (fun s => ?_) (fun s => ?_) hlo hhi
    (fun _ => id) Iff.rfl (fun l hl => ?_) (fun r' h => (h.imp id).andThen fun flow _ => ?_) hagain
    (fun w' _ r' => hcarries w' r') (fun _ w' _ r' => hcarries w' r') fun _ w' _ r' => hcarries w' r'
  · rw [← bind_apply, ActM.inScope_eq]
  · rw [← bind_apply, ActM.inScope_eq]
  · rw [← bind_apply, ActM.inScope_eq]
  · rw [List.mem_singleton.1 hl]
    exact hkind
  · exact (ActM.setChain_obeyed c).bind fun _ => .pure _

/-! ## Loops -/

theorem bodyThen {x y part x' : ActM Flow} {next next₂ next' : ActM (Option Flow)}
    (hbody : Chases T D S c lo hi w x y part x' Flowing)
    (hcounts : T.Counts next')
    (hnext : ∀ w', w.Reaches w' → ASim T S w' next next' Turning)
    (hnext₂ : S.Pausing T → ∀ w', w.Reaches w' → ASim T S w' next₂ next' Turning) :
    Chases T D S c lo hi w (ActM.bodyThen x next) (ActM.bodyThen y next₂)
      (ActM.bodyThen part next₂) (ActM.bodyThen x' next') Turning := by
  refine hbody.bind (Nat.le_refl lo) (Nat.le_refl hi)
    (.here fun _ _ _ _ _ _ _ _ _ _ _ _ _ => bind_apply _ _ _) (fun flow hsolo => ?_)
    fun w₁ hw₁ flow flow' hflow => ?_
  · split
    · exact .pure _
    · exact hcounts hsolo
  · obtain ⟨rfl, hshown⟩ := hflow
    cases hend : flow'.endsLoop? with
    | none =>
        exact .of_sim (fun w₂ hw₂ => hnext w₂ (hw₁.trans hw₂)) fun hpausing w₂ hw₂ =>
          hnext₂ hpausing w₂ (hw₁.trans hw₂)
    | some flow =>
        have hdone : ∀ w₂, w₁.Reaches w₂ → ASim T S w₂ (pure (some flow)) (pure (some flow)) Turning :=
          fun w₂ hw₂ => .pure ⟨rfl, fun _ h => by
            cases h
            exact ActM.endsLoop?_shown (hshown.mono hw₂.roles) hend⟩
        exact .of_sim hdone fun _ => hdone

/-- What stands in the place of a computation once the run has been taken up. -/
theorem resumed (h : ChasesFrom T D P S c lo hi w x y again x' R) (hpausing : S.Pausing T) :
    ChasesFrom T D P S c lo hi w y y again x' R :=
  fun w₁ hw₁ => ⟨(h w₁ hw₁).2 hpausing, (h w₁ hw₁).2⟩

end ChasesFrom

/-- What a loop does after a turn. -/
def ActM.afterTurn (other : ActM (Option α)) (fuel : Nat) : Option α → ActM α
  | some a => pure a
  | none => turning other other fuel

theorem ActM.turning_succ (first other : ActM (Option α)) (fuel : Nat) :
    turning first other (fuel + 1) = first >>= afterTurn other fuel :=
  rfl

/-- A loop whose turns chase. -/
theorem Follows.turning {first other other₂ part first' other' : ActM (Option Flow)}
    {fuel fuel₂ fuel' : Nat} (hfirst : Follows T D S c lo hi w first part first' Turning)
    (hother : Chases T D S c lo hi w other other₂ part other' Turning) (hcounts : T.Counts other')
    (hfuel : T.Fuels fuel fuel') (hfuel₂ : fuel' ≤ fuel₂) :
    Follows T D S c lo hi w (ActM.turning first other fuel) (ActM.turning part other₂ fuel₂)
      (ActM.turning first' other' fuel') Flowing := by
  induction fuel' generalizing w first other first' fuel with
  | zero =>
      rcases hfuel.zero with hloose | rfl
      · exact SimFrom.follows (Sim.of_loose hloose)
      · exact SimFrom.follows Sim.exhausted
  | succ fuel' ih =>
      obtain ⟨rest, rfl, hrest⟩ := hfuel.succ
      obtain ⟨rest₂, rfl⟩ : ∃ k, fuel₂ = k + 1 := ⟨fuel₂ - 1, by omega⟩
      -- All that is left of the turns to come, when the run is taken up, is what is left of the fuel
      -- that it is taken up with.
      have hdone : ∀ w₁ flow, flow.Shown w₁ → Follows T D S c lo hi w₁ (pure flow)
          (part >>= ActM.afterTurn other₂ rest₂) (pure flow) Flowing :=
        fun w₁ flow hflow => SimFrom.follows (Sim.pure ⟨rfl, hflow⟩)
      rw [ActM.turning_succ, ActM.turning_succ, ActM.turning_succ]
      refine hfirst.bind (Nat.le_refl lo) (Nat.le_refl hi)
        (.here fun _ _ _ _ _ _ _ _ _ _ _ _ _ => bind_apply _ _ _) (fun end? hsolo => ?_)
        fun w₁ hw₁ end? end?' hend => ?_
      · cases end? with
        | some flow => exact .pure _
        | none => exact ActM.turning_obeyed (hcounts hsolo) (hcounts hsolo) fuel'
      · obtain ⟨rfl, hshown⟩ := hend
        cases end?' with
        | some flow => exact ⟨hdone w₁ flow (hshown flow rfl), fun _ => hdone w₁ flow (hshown flow rfl)⟩
        | none =>
            refine ⟨?_, fun hpausing => ?_⟩
            · exact ih (hother.mono hw₁).first (hother.mono hw₁) hrest (by omega)
            · have hagain := (hother.mono hw₁).resumed hpausing
              exact ih hagain.first hagain (.of_loose (by simp [Terms.loose, hpausing.1]) (by omega))
                (by omega)

namespace ChasesFrom

theorem turning {first other first₂ other₂ part first' other' : ActM (Option Flow)}
    {fuel fuel₂ fuel' : Nat}
    (hfirst : Chases T D S c lo hi w first first₂ part first' Turning)
    (hother : Chases T D S c lo hi w other other₂ part other' Turning)
    (hcounts : T.Counts other') (hfuel : T.Fuels fuel fuel') (hfuel₂ : T.Fuels fuel₂ fuel') :
    Chases T D S c lo hi w (ActM.turning first other fuel) (ActM.turning first₂ other₂ fuel₂)
      (ActM.turning part other₂ fuel₂) (ActM.turning first' other' fuel') Flowing := by
  refine fun w₁ hw₁ => ⟨?_, fun hpausing => ?_⟩
  · exact Follows.turning (hfirst w₁ hw₁).1 (hother.mono hw₁) hcounts hfuel hfuel₂.le
  · exact Follows.turning ((hfirst w₁ hw₁).2 hpausing) ((hother.mono hw₁).resumed hpausing) hcounts hfuel₂
      hfuel₂.le

end ChasesFrom

end Resumption
