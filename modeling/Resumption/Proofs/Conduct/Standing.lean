import Resumption.Proofs.Conduct.Run
import Resumption.Proofs.Conduct.Upkeep

/-!
# What a run stands on

While scripts run, the machine stays set up as it is, the calls that they open are closed again, and the
instrumented array methods, once made, are there to stay.  So a machine on which a call was under way is
as good as ever for taking it up.
-/

namespace Resumption

namespace Machine

variable {m m' m₁ m₂ m₃ : Machine}

/-- The machine is set up as it was, as many calls are open, and it still has its array methods. -/
structure Stays (m m' : Machine) : Prop where
  config : m'.config = m.config
  debugging : m'.debugging = m.debugging
  debugBuiltins : m'.debugBuiltins = m.debugBuiltins
  depth : m'.depth = m.depth
  methods : m.debugMethods.isSome = true → m'.debugMethods.isSome = true

theorem Stays.refl (m : Machine) : m.Stays m := ⟨rfl, rfl, rfl, rfl, id⟩

theorem Stays.trans (h : m₁.Stays m₂) (hlater : m₂.Stays m₃) : m₁.Stays m₃ where
  config := hlater.config.trans h.config
  debugging := hlater.debugging.trans h.debugging
  debugBuiltins := hlater.debugBuiltins.trans h.debugBuiltins
  depth := hlater.depth.trans h.depth
  methods hmethods := hlater.methods (h.methods hmethods)

theorem Quietly.stays (h : m.Quietly m') : m.Stays m' where
  config := h.setting.1
  debugging := h.setting.2.1
  debugBuiltins := h.setting.2.2.1
  depth := h.depth
  methods := h.methods

/-- A call is under way on a machine that is set up as its configuration asks for. -/
structure Underway (m : Machine) : Prop where
  debugging : m.debugging = m.config.debuggingEnabled
  debugBuiltins : m.debugBuiltins = m.config.debugBuiltins
  methods : m.config.debugBuiltins = true → m.debugMethods.isSome = true
  open_pos : 0 < m.depth
  open_le : m.depth ≤ m.config.maxCallDepth

theorem Underway.stays (h : m.Underway) (hstays : m.Stays m') : m'.Underway where
  debugging := by rw [hstays.debugging, hstays.config, h.debugging]
  debugBuiltins := by rw [hstays.debugBuiltins, hstays.config, h.debugBuiltins]
  methods hwanted := hstays.methods (h.methods (hstays.config ▸ hwanted))
  open_pos := hstays.depth ▸ h.open_pos
  open_le := by
    rw [hstays.depth, hstays.config]
    exact h.open_le

theorem Underway.withHeap (h : m.Underway) (heap : Heap) : Underway { m with heap } := { h with }

end Machine

/-- Machines stay set up. -/
def Upkeep.standing : Upkeep where
  keeps := Machine.Stays
  refl := .refl
  trans := .trans
  quietly := Machine.Quietly.stays
  suspend _ _ := ⟨rfl, rfl, rfl, rfl, id⟩
  release _ := ⟨rfl, rfl, rfl, rfl, id⟩

/-- The policy under which machines stay set up. -/
def Policy.standing : Policy :=
  Upkeep.standing.policy fun hx _ => Upkeep.ends_afterwards (hx _)
    (fun _ h => ⟨h.config, h.debugging, h.debugBuiltins, congrArg (· - 1) h.depth, h.methods⟩)
    fun _ _ => trivial

end Resumption
