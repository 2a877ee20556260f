import Resumption.Code.Scopes
import Resumption.Proofs.Match.Alike
import Resumption.Proofs.Value.Slots

/-!
# Worlds

A world says what the objects of a heap are used for.  Most are shown to scripts.  The records of
scopes are not, nor are the arrays in which a completion waits, so nobody can tamper with them.  A
world grows when objects are made, and what it says of the old ones stays.
-/

namespace Resumption

/-- What the object at an address is used for. -/
inductive Role where
  /-- Scripts may get hold of it. -/
  | shown
  /-- Scripts never get hold of it. -/
  | hidden
  /-- The record of a scope that binds the names.  Closures may hold on to it if it is shared. -/
  | scope (names : List String) (shared : Bool)
  /-- An object that stays as it is. -/
  | fixed (o : Object)

structure World where
  /-- By address. -/
  roles : List Role
  /-- The record that does not have all of its names yet. -/
  building : Option Address
  /-- How many pauses one run has taken that the other has passed. -/
  lag : Nat

namespace World

def role? (w : World) (a : Address) : Option Role := w.roles[a]?

/-- A later world. -/
structure Le (w w' : World) : Prop where
  roles : w.roles <+: w'.roles
  building : w'.building = w.building
  lag : w'.lag = w.lag

instance : LE World := ⟨Le⟩

theorem le_refl (w : World) : w ≤ w := ⟨List.prefix_refl _, rfl, rfl⟩

theorem le_trans {w₁ w₂ w₃ : World} (h : w₁ ≤ w₂) (h' : w₂ ≤ w₃) : w₁ ≤ w₃ :=
  ⟨h.roles.trans h'.roles, h'.building.trans h.building, h'.lag.trans h.lag⟩

/-- A later world, with pauses in between. -/
structure Reaches (w w' : World) : Prop where
  roles : w.roles <+: w'.roles
  building : w'.building = w.building

theorem Le.reaches {w w' : World} (h : w ≤ w') : w.Reaches w' := ⟨h.roles, h.building⟩

theorem Reaches.refl (w : World) : w.Reaches w := ⟨List.prefix_refl _, rfl⟩

theorem Reaches.trans {w₁ w₂ w₃ : World} (h : w₁.Reaches w₂) (h' : w₂.Reaches w₃) : w₁.Reaches w₃ :=
  ⟨h.roles.trans h'.roles, h'.building.trans h.building⟩

/-- One more pause. -/
def paused (w : World) : World := { w with lag := w.lag + 1 }

theorem reaches_paused (w : World) : w.Reaches w.paused := ⟨List.prefix_refl _, rfl⟩

/-- One more object. -/
def grow (w : World) (r : Role) : World := { w with roles := w.roles ++ [r] }

theorem le_grow (w : World) (r : Role) : w ≤ w.grow r := ⟨List.prefix_append _ _, rfl, rfl⟩

theorem role?_mono {w w' : World} {a : Address} {r : Role} (hw : w.roles <+: w'.roles)
    (h : w.role? a = some r) : w'.role? a = some r := by
  obtain ⟨more, hmore⟩ := hw
  have hlt : a < w.roles.length := (List.getElem?_eq_some_iff.1 h).1
  rw [role?, ← hmore, List.getElem?_append_left hlt]
  exact h

theorem role?_grow_of_lt {w : World} {r : Role} {a : Address} (ha : a < w.roles.length) :
    (w.grow r).role? a = w.role? a :=
  List.getElem?_append_left ha

theorem role?_grow_self (w : World) (r : Role) : (w.grow r).role? w.roles.length = some r := by
  rw [role?, grow, List.getElem?_append_right (Nat.le_refl _), Nat.sub_self]
  rfl

theorem lt_of_role? {w : World} {a : Address} {r : Role} (h : w.role? a = some r) :
    a < w.roles.length :=
  (List.getElem?_eq_some_iff.1 h).1

end World

/-! ## What is shown -/

/-- Scripts may have the value. -/
def Value.Shown (w : World) : Value → Prop
  | .object a => w.role? a = some .shown
  | _ => True

def Slot.Shown (w : World) : Slot → Prop
  | .data v => v.Shown w
  | .accessor getter setter =>
    (∀ v, getter = some v → v.Shown w) ∧ ∀ v, setter = some v → v.Shown w

/-- Everything in the object may be had. -/
structure Object.Shown (w : World) (o : Object) : Prop where
  slots : ∀ p ∈ o.props, p.2.Shown w
  items : ∀ items, o.elements? = some items → ∀ v ∈ items, v.Shown w

variable {w w' : World}

theorem Value.Shown.mono {v : Value} (hw : w.roles <+: w'.roles) (h : v.Shown w) : v.Shown w' := by
  cases v with
  | object a => exact World.role?_mono hw h
  | _ => trivial

theorem Slot.Shown.mono {slot : Slot} (hw : w.roles <+: w'.roles) (h : slot.Shown w) : slot.Shown w' := by
  cases slot with
  | data v => exact Value.Shown.mono hw h
  | accessor getter setter =>
      exact ⟨fun v hv => (h.1 v hv).mono hw, fun v hv => (h.2 v hv).mono hw⟩

theorem Object.Shown.mono {o : Object} (hw : w.roles <+: w'.roles) (h : o.Shown w) : o.Shown w' :=
  ⟨fun p hp => (h.slots p hp).mono hw, fun items hitems v hv => (h.items items hitems v hv).mono hw⟩

theorem Object.Shown.new (kind : ObjectKind) (proto : Option Address)
    (hitems : ∀ items, kind = .array items → ∀ v ∈ items, v.Shown w) :
    (Object.new kind proto).Shown w := by
  refine ⟨fun p hp => absurd hp List.not_mem_nil, fun items h => ?_⟩
  cases kind with
  | array items' =>
      cases h
      exact hitems _ rfl
  | _ => cases h

theorem Object.Shown.own? {o : Object} (h : o.Shown w) {key : String} {slot : Slot}
    (hslot : o.own? key = some slot) : slot.Shown w := by
  obtain ⟨kind, proto, props⟩ := o
  cases kind with
  | array items =>
      rw [Object.own?] at hslot
      dsimp only at hslot
      split at hslot
      · cases hslot
        trivial
      · split at hslot
        · rename_i i _
          cases hitem : items[i]? with
          | none =>
              rw [hitem] at hslot
              cases hslot
          | some v =>
              rw [hitem] at hslot
              cases hslot
              exact h.items items rfl v (Array.mem_of_getElem? hitem)
        · exact h.slots _ (Props.mem_of_get? hslot)
  | plain => exact h.slots _ (Props.mem_of_get? hslot)
  | function f => exact h.slots _ (Props.mem_of_get? hslot)
  | error => exact h.slots _ (Props.mem_of_get? hslot)

/-! ## Scope chains in a world -/

def Code.ScopeKind.link : Code.ScopeKind → LinkKind
  | .function => .function
  | .handler => .handler
  | .withObject => .withObject

/-- The link is what it claims to be: a scope's record, or an object that a script has made a scope
of. -/
def Link.Live (w : World) (link : Link) : Prop :=
  match link.kind with
  | .withObject => w.role? link.record = some .shown
  | _ => ∃ names shared, w.role? link.record = some (.scope names shared)

/-- Moreover, closures may hold on to it. -/
def Link.Sound (w : World) (link : Link) : Prop :=
  match link.kind with
  | .withObject => w.role? link.record = some .shown
  | _ => ∃ names, w.role? link.record = some (.scope names true)

def Chain.Live (w : World) (chain : Chain) : Prop := ∀ link ∈ chain, link.Live w

def Chain.Sound (w : World) (chain : Chain) : Prop := ∀ link ∈ chain, link.Sound w

/-- The record is the one that the entry of a picture stands for. -/
def Code.ScopeEntry.Holds (w : World) (entry : Code.ScopeEntry) (a : Address) : Prop :=
  match entry.kind with
  | .withObject => w.role? a = some .shown
  | _ => ∃ shared, w.role? a = some (.scope entry.names shared)

/-- The link is the one that the entry of a picture stands for. -/
structure Link.Fits (w : World) (entry : Code.ScopeEntry) (link : Link) : Prop where
  kind : link.kind = entry.kind.link
  record : entry.Holds w link.record

/-- A picture of the chain, entry by entry. -/
def Chain.Fits (w : World) : Code.Scopes → Chain → Prop
  | [], [] => True
  | entry :: scopes, link :: chain => link.Fits w entry ∧ Chain.Fits w scopes chain
  | _, _ => False

theorem Link.Live.mono {link : Link} (hw : w.roles <+: w'.roles) (h : link.Live w) :
    link.Live w' := by
  obtain ⟨kind, record⟩ := link
  cases kind with
  | withObject => exact World.role?_mono hw h
  | function => exact h.imp fun _ => Exists.imp fun _ => World.role?_mono hw
  | handler => exact h.imp fun _ => Exists.imp fun _ => World.role?_mono hw

theorem Link.Sound.mono {link : Link} (hw : w.roles <+: w'.roles) (h : link.Sound w) :
    link.Sound w' := by
  obtain ⟨kind, record⟩ := link
  cases kind with
  | withObject => exact World.role?_mono hw h
  | function => exact h.imp fun _ => World.role?_mono hw
  | handler => exact h.imp fun _ => World.role?_mono hw

theorem Link.Sound.live {link : Link} (h : link.Sound w) : link.Live w := by
  obtain ⟨kind, record⟩ := link
  cases kind with
  | withObject => exact h
  | function => exact h.imp fun _ h => ⟨true, h⟩
  | handler => exact h.imp fun _ h => ⟨true, h⟩

theorem Chain.Live.mono {chain : Chain} (hw : w.roles <+: w'.roles) (h : Chain.Live w chain) :
    Chain.Live w' chain :=
  fun link hlink => (h link hlink).mono hw

theorem Chain.Sound.mono {chain : Chain} (hw : w.roles <+: w'.roles) (h : Chain.Sound w chain) :
    Chain.Sound w' chain :=
  fun link hlink => (h link hlink).mono hw

theorem Chain.Sound.live {chain : Chain} (h : Chain.Sound w chain) : Chain.Live w chain :=
  fun link hlink => (h link hlink).live

theorem Code.ScopeEntry.Holds.mono {entry : Code.ScopeEntry} {a : Address}
    (hw : w.roles <+: w'.roles) (h : entry.Holds w a) : entry.Holds w' a := by
  obtain ⟨kind, names⟩ := entry
  cases kind with
  | withObject => exact World.role?_mono hw h
  | function => exact h.imp fun _ => World.role?_mono hw
  | handler => exact h.imp fun _ => World.role?_mono hw

theorem Link.Fits.mono {entry : Code.ScopeEntry} {link : Link} (hw : w.roles <+: w'.roles)
    (h : link.Fits w entry) : link.Fits w' entry :=
  ⟨h.kind, h.record.mono hw⟩

theorem Chain.Fits.mono {scopes : Code.Scopes} {chain : Chain} (hw : w.roles <+: w'.roles)
    (h : Chain.Fits w scopes chain) : Chain.Fits w' scopes chain := by
  induction scopes generalizing chain with
  | nil =>
      cases chain with
      | nil => trivial
      | cons link chain => exact h
  | cons entry scopes ih =>
      cases chain with
      | nil => exact h
      | cons link chain => exact ⟨h.1.mono hw, ih h.2⟩

end Resumption
