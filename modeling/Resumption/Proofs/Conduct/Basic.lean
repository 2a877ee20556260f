import Resumption.Engine.Drive

/-!
# Conduct

A conduct says what a computation may do to its state: what it keeps when it ends or when an
exception leaves it, and how things stand when a pause leaves it.  Computations that obey a conduct
are closed under everything that scripts are run with, so a whole run obeys it as soon as its
smallest steps do.

A policy is a conduct for the machine with one for activations that goes with it.  What runs scripts
is gone through once, for every policy.
-/

namespace Resumption

variable {σ α β : Type}

structure Conduct (σ : Type) where
  keeps : σ → σ → Prop
  /-- How things stand at the end of a computation that is left by a pause. -/
  paused : σ → σ → Unwind → Prop
  /-- How things stand when the fuel has run out. -/
  stuck : σ → σ → Prop := fun _ _ => True
  refl : ∀ s, keeps s s
  trans : ∀ {s₁ s₂ s₃}, keeps s₁ s₂ → keeps s₂ s₃ → keeps s₁ s₃
  paused_trans : ∀ {s₁ s₂ s₃ u}, keeps s₁ s₂ → paused s₂ s₃ u → paused s₁ s₃ u
  stuck_refl : ∀ s, stuck s s := by exact fun _ => trivial
  stuck_trans : ∀ {s₁ s₂ s₃}, keeps s₁ s₂ → stuck s₂ s₃ → stuck s₁ s₃ := by
    exact fun _ _ => trivial

namespace Conduct

variable {d : Conduct σ}

/-- The end of a computation, seen from its beginning. -/
def Ends (d : Conduct σ) (s : σ) : EStateM.Result Stop σ α → Prop
  | .ok _ s' => d.keeps s s'
  | .error (.unwind u) s' => d.keeps s s' ∧ (u.isPause = true → d.paused s s' u)
  | .error .exhausted s' => d.stuck s s'

def Obeyed (d : Conduct σ) (x : EStateM Stop σ α) : Prop := ∀ s, d.Ends s (x s)

theorem Ends.of_keeps {s s' : σ} {r : EStateM.Result Stop σ α} (hkeeps : d.keeps s s')
    (hends : d.Ends s' r) : d.Ends s r := by
  match r, hends with
  | .ok _ _, hends => exact d.trans hkeeps hends
  | .error (.unwind _) _, hends =>
      exact ⟨d.trans hkeeps hends.1, fun hpause => d.paused_trans hkeeps (hends.2 hpause)⟩
  | .error .exhausted _, hends => exact d.stuck_trans hkeeps hends

namespace Obeyed

theorem pure (a : α) : d.Obeyed (Pure.pure a : EStateM Stop σ α) := fun s => d.refl s

theorem bind {x : EStateM Stop σ α} {f : α → EStateM Stop σ β} (hx : d.Obeyed x)
    (hf : ∀ a, d.Obeyed (f a)) : d.Obeyed (x >>= f) := by
  intro s
  have hends := hx s
  change d.Ends s (EStateM.bind x f s)
  rw [EStateM.bind]
  match x s, hends with
  | .ok a s', hends => exact .of_keeps hends (hf a s')
  | .error (.unwind u) s', hends => exact hends
  | .error .exhausted s', hends => exact hends

/-- An exception that is no pause may leave a computation at any time. -/
theorem throw_error {u : Unwind} (hu : u.isPause = false) :
    d.Obeyed (throw (.unwind u) : EStateM Stop σ α) := by
  intro s
  refine ⟨d.refl s, fun hpause => ?_⟩
  rw [hu] at hpause
  cases hpause

theorem exhausted : d.Obeyed (throw .exhausted : EStateM Stop σ α) := fun s => d.stuck_refl s

theorem get : d.Obeyed (MonadState.get : EStateM Stop σ σ) := fun s => d.refl s

theorem modifyGet {f : σ → α × σ} (hf : ∀ s, d.keeps s (f s).2) :
    d.Obeyed (MonadStateOf.modifyGet f : EStateM Stop σ α) := fun s => hf s

theorem mapM {γ : Type} {f : γ → EStateM Stop σ β} (hf : ∀ a, d.Obeyed (f a)) (l : List γ) :
    d.Obeyed (l.mapM f) := by
  induction l with
  | nil => exact pure _
  | cons a l ih =>
      rw [List.mapM_cons]
      exact (hf a).bind fun _ => ih.bind fun _ => pure _

theorem forM {γ : Type} {f : γ → EStateM Stop σ Unit} (hf : ∀ a, d.Obeyed (f a)) (l : List γ) :
    d.Obeyed (l.forM f) := by
  induction l with
  | nil => exact pure _
  | cons a l ih => exact (hf a).bind fun _ => ih

theorem filterMapM {γ : Type} {f : γ → EStateM Stop σ (Option β)} (hf : ∀ a, d.Obeyed (f a))
    (l : List γ) : d.Obeyed (l.filterMapM f) := by
  induction l with
  | nil => exact pure _
  | cons a l ih =>
      rw [List.filterMapM_cons]
      refine (hf a).bind fun b => ?_
      cases b with
      | none => exact ih
      | some b => exact ih.bind fun _ => pure _

end Obeyed

end Conduct

/-! ## Policies -/

/-- Nothing happens to the activations that wait, nothing is taken out of the chronicle, no call is
opened or closed, and the machine stays set up as it is and keeps its array methods. -/
structure Machine.Quietly (m m' : Machine) : Prop where
  setting : m'.config = m.config ∧ m'.debugging = m.debugging ∧
    m'.debugBuiltins = m.debugBuiltins ∧ m'.active = m.active
  depth : m'.depth = m.depth
  depths : m'.chronicle.depths = m.chronicle.depths
  waiting : m'.chronicle.waiting = m.chronicle.waiting
  escaped : m.chronicle.escaped ≤ m'.chronicle.escaped
  refused : m.chronicle.refused ≤ m'.chronicle.refused
  methods : m.debugMethods.isSome = true → m'.debugMethods.isSome = true

/-- A conduct for the machine and one for activations that belong together: an activation waits for
the machine, and the machine runs activations. -/
structure Policy where
  machine : Conduct Machine
  activation : Conduct (Activation × Machine)
  quietly : ∀ {m m'}, m.Quietly m' → machine.keeps m m'
  pauseAt : ∀ {α : Type} (i : Nat), machine.Obeyed (Machine.pauseAt i : MachineM α)
  opened : ∀ {α : Type} {x : MachineM α} {m : Machine}, machine.Obeyed x →
    m.depth < m.config.maxCallDepth →
      machine.Ends m (Machine.closing x (m.atDepth (m.depth + 1)))
  update : ∀ (act : Activation) (m : Machine) (f : Activation → Activation),
    (f act).site = act.site → activation.keeps (act, m) (f act, m)
  lift : ∀ {α : Type} {x : MachineM α}, machine.Obeyed x → activation.Obeyed (ActM.lift x)
  run : ∀ {env : Env} {act : Activation} {body : ActM Flow}, activation.Obeyed body →
    act.site = env.toSite → machine.Obeyed (runActivation env act body)

/-- The way to call functions obeys. -/
def Invoke.Obeys (P : Policy) (invoke : Invoke) : Prop :=
  ∀ f this args, P.machine.Obeyed (invoke f this args)

end Resumption
