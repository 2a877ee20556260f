import Resumption.Proofs.Match.Heap

/-!
# Computations that run alike

Two computations run alike from a world on if from states that are tied in this world they come to
states that are tied in a later one: both with results that go together, or both with the same
exception.  Neither pauses, unless pauses are taken together.  They also run out of fuel together,
unless the terms are loose.  Nothing is said once the left has been halted where it was not expected.
-/

namespace Resumption

variable {α α' β β' σ σ' : Type} {T : Terms} {w : World}

/-- How states on both sides are tied: while things go well, and when an exception is thrown. -/
structure Tie (σ σ' : Type) where
  holds : World → σ → σ' → Prop
  thrown : World → σ → σ' → Prop

/-- What travels up on both sides is the same exception, or one pause that is taken together. -/
inductive Unwind.Pairs (T : Terms) : Value → Unwind → Unwind → Prop
  | thrown {u u' : Unwind} {v : Value} (hu : u.thrown? = some v) (hu' : u'.thrown? = some v)
      (hsame : T.pauses = .together → u' = u) : Pairs T v u u'
  | paused {u : Unwind} (hpauses : T.pauses = .together) (hu : u.isPause = true) :
      Pairs T .undefined u u

/-- Two ends that go together. -/
inductive Agree (T : Terms) (ok : α → σ → α' → σ' → Prop) (thrown : Value → σ → σ' → Prop) :
    EStateM.Result Stop σ α → EStateM.Result Stop σ' α' → Prop
  | ok {a : α} {s : σ} {a' : α'} {s' : σ'} (h : ok a s a' s') : Agree T ok thrown (.ok a s) (.ok a' s')
  | thrown {u u' : Unwind} {s : σ} {s' : σ'} {v : Value} (hu : u.Pairs T v u')
      (h : thrown v s s') :
      Agree T ok thrown (.error (.unwind u) s) (.error (.unwind u') s')
  | exhausted {s : σ} {s' : σ'} : Agree T ok thrown (.error .exhausted s) (.error .exhausted s')
  | loose {r : EStateM.Result Stop σ α} {s' : σ'} (h : T.loose = true) :
      Agree T ok thrown r (.error .exhausted s')
  | strayed {u : Unwind} {s : σ} {r' : EStateM.Result Stop σ' α'} (h : T.Strays u) :
      Agree T ok thrown (.error (.unwind u) s) r'

/-- Two ends that go together in a later world. -/
abbrev Ends (T : Terms) (B : Tie σ σ') (w : World) (R : World → α → α' → Prop) :
    EStateM.Result Stop σ α → EStateM.Result Stop σ' α' → Prop :=
  Agree T (fun a s a' s' => ∃ w', w ≤ w' ∧ B.holds w' s s' ∧ R w' a a')
    (fun v s s' => ∃ w', w ≤ w' ∧ B.thrown w' s s' ∧ v.Shown w')

/-- From states that go together, the computations come to ends that do. -/
def SimFrom (T : Terms) (P : World → σ → σ' → Prop) (B : Tie σ σ') (w : World)
    (x : EStateM Stop σ α) (x' : EStateM Stop σ' α') (R : World → α → α' → Prop) : Prop :=
  ∀ s s', P w s s' → Ends T B w R (x s) (x' s')

/-- The usual case: the states are tied all the way. -/
abbrev Sim (T : Terms) (B : Tie σ σ') (w : World) (x : EStateM Stop σ α) (x' : EStateM Stop σ' α')
    (R : World → α → α' → Prop) : Prop :=
  SimFrom T B.holds B w x x' R

/-- The same result, with a property. -/
def Same (Q : World → α → Prop) (w : World) (a a' : α) : Prop := a' = a ∧ Q w a

/-- The same result. -/
abbrev Equal : World → α → α → Prop := Same fun _ _ => True

/-- Ends in a world are ends in an earlier one. -/
theorem Ends.of_le {B : Tie σ σ'} {R : World → α → α' → Prop} {w₁ : World} (hw : w ≤ w₁)
    {r : EStateM.Result Stop σ α} {r' : EStateM.Result Stop σ' α'} (h : Ends T B w₁ R r r') :
    Ends T B w R r r' := by
  cases h with
  | ok h =>
      obtain ⟨w₂, hw₂, h⟩ := h
      exact .ok ⟨w₂, w.le_trans hw hw₂, h⟩
  | thrown hu h =>
      obtain ⟨w₂, hw₂, h⟩ := h
      exact .thrown hu ⟨w₂, w.le_trans hw hw₂, h⟩
  | exhausted => exact .exhausted
  | loose h => exact .loose h
  | strayed h => exact .strayed h

theorem SimFrom.bind {P : World → σ → σ' → Prop} {B B₁ : Tie σ σ'} {x : EStateM Stop σ α}
    {x' : EStateM Stop σ' α'} {R : World → α → α' → Prop} {R' : World → β → β' → Prop}
    {f : α → EStateM Stop σ β} {f' : α' → EStateM Stop σ' β'} (hx : SimFrom T P B₁ w x x' R)
    (hthrown : ∀ w s s', B₁.thrown w s s' → B.thrown w s s')
    (hf : ∀ w', w ≤ w' → ∀ a a', R w' a a' → SimFrom T B₁.holds B w' (f a) (f' a') R') :
    SimFrom T P B w (x >>= f) (x' >>= f') R' := by
  intro s s' hs
  have hends := hx s s' hs
  change Ends T B w R' (EStateM.bind x f s) (EStateM.bind x' f' s')
  rw [EStateM.bind, EStateM.bind]
  revert hends
  generalize x s = r
  generalize x' s' = r'
  rintro (⟨w₁, hw₁, hs₁, hR⟩ | ⟨hu, w₁, hw₁, hs₁, hv⟩ | _ | hloose | hstrays)
  · exact (hf w₁ hw₁ _ _ hR _ _ hs₁).of_le hw₁
  · exact .thrown hu ⟨w₁, hw₁, hthrown _ _ _ hs₁, hv⟩
  · exact .exhausted
  · exact .loose hloose
  · exact .strayed hstrays

namespace Sim

variable {B : Tie σ σ'} {x : EStateM Stop σ α} {x' : EStateM Stop σ' α'}
  {R : World → α → α' → Prop} {R' : World → β → β' → Prop}

theorem pure {a : α} {a' : α'} (h : R w a a') : Sim T B w (Pure.pure a) (Pure.pure a') R :=
  fun _ _ hs => .ok ⟨w, w.le_refl, hs, h⟩

theorem bind_rel {f : α → EStateM Stop σ β} {f' : α' → EStateM Stop σ' β'} (hx : Sim T B w x x' R)
    (hf : ∀ w', w ≤ w' → ∀ a a', R w' a a' → Sim T B w' (f a) (f' a') R') :
    Sim T B w (x >>= f) (x' >>= f') R' :=
  SimFrom.bind hx (fun _ _ _ h => h) hf

/-- The usual case: the first part has the same result on both sides. -/
theorem bind {Q : World → α → Prop} {x' : EStateM Stop σ' α} {f : α → EStateM Stop σ β}
    {f' : α → EStateM Stop σ' β'} (hx : Sim T B w x x' (Same Q))
    (hf : ∀ w', w ≤ w' → ∀ a, Q w' a → Sim T B w' (f a) (f' a) R') :
    Sim T B w (x >>= f) (x' >>= f') R' := by
  refine hx.bind_rel ?_
  rintro w' hw _ a ⟨rfl, ha⟩
  exact hf w' hw a ha

theorem imp {R₂ : World → α → α' → Prop} (hx : Sim T B w x x' R)
    (h : ∀ w', w ≤ w' → ∀ a a', R w' a a' → R₂ w' a a') : Sim T B w x x' R₂ := by
  intro s s' hs
  have hagree := hx s s' hs
  revert hagree
  generalize x s = r
  generalize x' s' = r'
  rintro (⟨w₁, hw₁, hs₁, hR⟩ | ⟨hu, hthrown⟩ | _ | hloose | hstrays)
  · exact .ok ⟨w₁, hw₁, hs₁, h w₁ hw₁ _ _ hR⟩
  · exact .thrown hu hthrown
  · exact .exhausted
  · exact .loose hloose
  · exact .strayed hstrays

/-- What is known of the result on the left. -/
theorem and {P : World → α → Prop} {Q : α → Prop} {x' : EStateM Stop σ' α}
    (hx : Sim T B w x x' (Same P))
    (hQ : ∀ s s' a s₁, B.holds w s s' → x s = .ok a s₁ → Q a) :
    Sim T B w x x' (Same fun w a => P w a ∧ Q a) := by
  intro s s' hs
  have hends := hx s s' hs
  have hQ := fun a s₁ => hQ s s' a s₁ hs
  revert hends hQ
  generalize x s = r
  generalize x' s' = r'
  rintro (⟨w₁, hw₁, hs₁, hR⟩ | ⟨hu, hthrown⟩ | _ | hloose | hstrays) hQ
  · exact .ok ⟨w₁, hw₁, hs₁, hR.1, hR.2, hQ _ _ rfl⟩
  · exact .thrown hu hthrown
  · exact .exhausted
  · exact .loose hloose
  · exact .strayed hstrays

theorem exhausted : Sim T B w (throw .exhausted) (throw .exhausted) R := fun _ _ _ => .exhausted

theorem of_loose (h : T.loose = true) : Sim T B w x (throw .exhausted) R := fun _ _ _ => .loose h

theorem get {R : World → σ → σ' → Prop} (h : ∀ s s', B.holds w s s' → R w s s') :
    Sim T B w MonadState.get MonadState.get R :=
  fun s s' hs => .ok ⟨w, w.le_refl, hs, h s s' hs⟩

theorem modifyGet {f : σ → α × σ} {f' : σ' → α' × σ'}
    (h : ∀ s s', B.holds w s s' →
      ∃ w', w ≤ w' ∧ B.holds w' (f s).2 (f' s').2 ∧ R w' (f s).1 (f' s').1) :
    Sim T B w (MonadStateOf.modifyGet f) (MonadStateOf.modifyGet f') R :=
  fun s s' hs => .ok (h s s' hs)

theorem mapM {γ : Type} {f f' : γ → EStateM Stop σ β} {B : Tie σ σ} {Q : World → β → Prop}
    {P : World → γ → Prop} (hP : ∀ {w w'}, w ≤ w' → ∀ {c}, P w c → P w' c)
    (hQ : ∀ {w w'}, w ≤ w' → ∀ {b}, Q w b → Q w' b)
    (hf : ∀ w', w ≤ w' → ∀ c, P w' c → Sim T B w' (f c) (f' c) (Same Q)) (l : List γ)
    (hl : ∀ c ∈ l, P w c) :
    Sim T B w (l.mapM f) (l.mapM f') (Same fun w bs => ∀ b ∈ bs, Q w b) := by
  induction l generalizing w with
  | nil => exact .pure ⟨rfl, fun _ hb => absurd hb List.not_mem_nil⟩
  | cons c l ih =>
      rw [List.mapM_cons, List.mapM_cons]
      refine .bind (hf w w.le_refl c (hl c List.mem_cons_self)) fun w₁ hw₁ b hb => ?_
      refine .bind (ih (fun w₂ hw₂ => hf w₂ (w.le_trans hw₁ hw₂)) fun c hc =>
        hP hw₁ (hl c (List.mem_cons_of_mem _ hc))) fun w₂ hw₂ bs hbs => .pure ⟨rfl, ?_⟩
      intro b' hb'
      rcases List.mem_cons.1 hb' with rfl | hb'
      · exact hQ hw₂ hb
      · exact hbs b' hb'

end Sim

end Resumption
