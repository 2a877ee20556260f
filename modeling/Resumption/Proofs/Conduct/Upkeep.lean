import Resumption.Proofs.Conduct.Machine

/-!
# Upkeep

Something about the machine that is kept up whatever happens: a relation between an earlier and a
later state that changes to what scripts can see respect.  A pause is nothing special to it, and the
machine is all that counts of an activation, so every upkeep makes a policy.
-/

namespace Resumption

structure Upkeep where
  keeps : Machine → Machine → Prop
  /-- How things stand when the fuel has run out. -/
  stuck : Machine → Machine → Prop := fun _ _ => True
  refl : ∀ m, keeps m m
  trans : ∀ {m₁ m₂ m₃}, keeps m₁ m₂ → keeps m₂ m₃ → keeps m₁ m₃
  stuck_refl : ∀ m, stuck m m := by exact fun _ => trivial
  keeps_stuck : ∀ {m₁ m₂ m₃}, keeps m₁ m₂ → stuck m₂ m₃ → stuck m₁ m₃ := by exact fun _ _ => trivial
  stuck_keeps : ∀ {m₁ m₂ m₃}, stuck m₁ m₂ → keeps m₂ m₃ → stuck m₁ m₃ := by exact fun _ _ => trivial
  quietly : ∀ {m m'}, m.Quietly m' → keeps m m'
  suspend : ∀ (act : Activation) (m : Machine), keeps m (m.suspend act)
  release : ∀ m : Machine, keeps m m.release

namespace Upkeep

variable {k : Upkeep} {σ α : Type}

/-- The conduct of those whose state has a machine in it. -/
def conduct (k : Upkeep) (machine : σ → Machine) : Conduct σ where
  keeps s s' := k.keeps (machine s) (machine s')
  paused _ _ _ := True
  stuck s s' := k.stuck (machine s) (machine s')
  refl _ := k.refl _
  trans := k.trans
  paused_trans _ _ := trivial
  stuck_refl _ := k.stuck_refl _
  stuck_trans := k.keeps_stuck

theorem ends_iff {machine : σ → Machine} {s : σ} {r : EStateM.Result Stop σ α} :
    (k.conduct machine).Ends s r ↔
      match r with
      | .ok _ s' | .error (.unwind _) s' => k.keeps (machine s) (machine s')
      | .error .exhausted s' => k.stuck (machine s) (machine s') := by
  match r with
  | .ok _ _ => exact Iff.rfl
  | .error (.unwind _) _ => exact ⟨fun h => h.1, fun h => ⟨h, fun _ => trivial⟩⟩
  | .error .exhausted _ => exact Iff.rfl

/-- A change afterwards, which may take back what was done beforehand. -/
theorem ends_afterwards {x : MachineM α} {f : Machine → Machine} {m m₁ : Machine}
    (hx : (k.conduct id).Ends m₁ (x m₁)) (hkeeps : ∀ m', k.keeps m₁ m' → k.keeps m (f m'))
    (hstuck : ∀ m', k.stuck m₁ m' → k.stuck m (f m')) :
    (k.conduct id).Ends m (Machine.afterwards x f m₁) := by
  rw [Machine.afterwards]
  have hends := ends_iff.1 hx
  match x m₁, hends with
  | .ok _ m', hends => exact hkeeps m' hends
  | .error (.unwind _) m', hends => exact ⟨hkeeps m' hends, fun _ => trivial⟩
  | .error .exhausted m', hends => exact hstuck m' hends

theorem lift_obeyed {x : MachineM α} (hx : (k.conduct id).Obeyed x) :
    (k.conduct Prod.snd).Obeyed (ActM.lift x) := by
  intro (act, m)
  have hback : ∀ m', k.keeps (m.suspend act) m' → k.keeps m m'.release := fun m' h =>
    k.trans (k.trans (k.suspend act m) h) (k.release m')
  have hends := ends_iff.1 (hx (m.suspend act))
  rw [ActM.lift]
  match x (m.suspend act), hends with
  | .ok _ m', hends => exact hback m' hends
  | .error (.unwind _) m', hends => exact ⟨hback m' hends, fun _ => trivial⟩
  | .error .exhausted m', hends =>
      exact k.stuck_keeps (k.keeps_stuck (k.suspend act m) hends) (k.release m')

theorem quietly_escape (m : Machine) : m.Quietly m.escape :=
  ⟨⟨rfl, rfl, rfl, rfl⟩, rfl, rfl, rfl, Nat.le_succ _, Nat.le_refl _, id⟩

theorem quietly_raised (m : Machine) (raised : Option Instant) :
    m.Quietly { m with chronicle := { m.chronicle with raised } } :=
  ⟨⟨rfl, rfl, rfl, rfl⟩, rfl, rfl, rfl, Nat.le_refl _, Nat.le_refl _, id⟩

theorem runActivation_obeyed {env : Env} {act : Activation} {body : ActM Flow}
    (hbody : (k.conduct Prod.snd).Obeyed body) : (k.conduct id).Obeyed (runActivation env act body) := by
  intro m
  have hends := ends_iff.1 (hbody (act, m))
  rw [runActivation]
  match body (act, m), hends with
  | .ok (.ret _) _, hends => exact hends
  | .ok .normal _, hends => exact hends
  | .ok .brk _, hends => exact hends
  | .ok .cont _, hends => exact hends
  | .error .exhausted _, hends => exact hends
  | .error (.unwind u) (act', m'), hends =>
      have hleft : k.keeps m (if u.isPause then m' else m'.escape) := by
        split
        · exact hends
        · exact k.trans hends (k.quietly (quietly_escape m'))
      dsimp only
      split
      · exact ⟨hleft, fun _ => trivial⟩
      · exact ⟨hleft, fun _ => trivial⟩

/-- What is kept up makes a policy, if opening a call and closing it again keeps it up. -/
def policy (k : Upkeep) (opened : ∀ {α : Type} {x : MachineM α} {m : Machine},
    (k.conduct id).Obeyed x → m.depth < m.config.maxCallDepth →
      (k.conduct id).Ends m (Machine.closing x (m.atDepth (m.depth + 1)))) : Policy where
  machine := k.conduct id
  activation := k.conduct Prod.snd
  quietly := k.quietly
  pauseAt _ _ := ⟨k.quietly (quietly_raised ..), fun _ => trivial⟩
  opened := opened
  update _ m _ _ := k.refl m
  lift := lift_obeyed
  run hbody _ := runActivation_obeyed hbody

end Upkeep

end Resumption
