import Resumption.Proofs.Match.Returning

/-!
# Records that nobody else gets hold of

Where no scopes are made, the record of a function cannot be found by anybody else.  So a function that it
calls runs as it would if the record had to stay as it is, and when the function returns, everything in the
record is as it was.
-/

namespace Resumption

open Script

variable {T : Terms} {w w₁ : World} {a b : Address} {o o₁ o' : Object} {r : Role} {names : List String}

namespace World

/-- The object at the address is to stay as it is. -/
def sealed (w : World) (a : Address) (o : Object) : World :=
  { w with roles := w.roles.set a (.fixed o) }

theorem role?_sealed_of_ne (w : World) (o : Object) (hne : b ≠ a) :
    (w.sealed a o).role? b = w.role? b := by
  rw [role?, sealed, List.getElem?_set_ne hne.symm]
  rfl

theorem role?_sealed_self (ha : w.role? a = some r) (o : Object) :
    (w.sealed a o).role? a = some (.fixed o) := by
  rw [role?, sealed, List.getElem?_set_self (lt_of_role? ha)]

/-- Whatever else is known of an address is known of it still. -/
theorem role?_sealed (ha : w.role? a = some (.scope names false)) (o : Object) (hb : w.role? b = some r)
    (hr : r ≠ .scope names false) : (w.sealed a o).role? b = some r := by
  rw [role?_sealed_of_ne, hb]
  rintro rfl
  rw [ha] at hb
  cases hb
  exact hr rfl

end World

section

variable (ha : w.role? a = some (.scope names false))
include ha

theorem Value.Shown.sealed {v : Value} (h : v.Shown w) : v.Shown (w.sealed a o) := by
  cases v with
  | object b => exact World.role?_sealed ha o h nofun
  | _ => trivial

theorem Slot.Shown.sealed {slot : Slot} (h : slot.Shown w) : slot.Shown (w.sealed a o) := by
  cases slot with
  | data v => exact Value.Shown.sealed ha h
  | accessor getter setter => exact ⟨fun v hv => (h.1 v hv).sealed ha, fun v hv => (h.2 v hv).sealed ha⟩

theorem Object.Shown.sealed (h : o₁.Shown w) : o₁.Shown (w.sealed a o) :=
  ⟨fun p hp => (h.slots p hp).sealed ha, fun items hitems v hv => (h.items items hitems v hv).sealed ha⟩

theorem Link.Sound.sealed {link : Link} (h : link.Sound w) : link.Sound (w.sealed a o) := by
  obtain ⟨kind, record⟩ := link
  cases kind with
  | withObject => exact World.role?_sealed ha o h nofun
  | function => exact h.imp fun _ h => World.role?_sealed ha o h (by simp)
  | handler => exact h.imp fun _ h => World.role?_sealed ha o h (by simp)

theorem Chain.Sound.sealed {c : Chain} (h : Chain.Sound w c) : Chain.Sound (w.sealed a o) c :=
  fun link hlink => (h link hlink).sealed ha

/-- What is pictured is shared. -/
theorem Link.Fits.sealed {entry : Code.ScopeEntry} {link : Link} (hsound : link.Sound w)
    (h : link.Fits w entry) : link.Fits (w.sealed a o) entry := by
  obtain ⟨kind, record⟩ := link
  obtain ⟨kind', names'⟩ := entry
  obtain ⟨hkind, hrecord⟩ := h
  refine ⟨hkind, ?_⟩
  cases hkind
  cases kind' with
  | withObject => exact World.role?_sealed ha o hrecord nofun
  | function | handler =>
    obtain ⟨shared, hrole⟩ := hrecord
    obtain ⟨others, hshared⟩ := hsound
    dsimp only at hrole hshared
    rw [hrole] at hshared
    cases hshared
    exact ⟨true, World.role?_sealed ha o hrole (by simp)⟩

theorem Chain.Fits.sealed {scopes : Code.Scopes} {c : Chain} (hsound : Chain.Sound w c)
    (h : Chain.Fits w scopes c) : Chain.Fits (w.sealed a o) scopes c := by
  induction scopes generalizing c with
  | nil =>
      cases c with
      | nil => trivial
      | cons link c => exact h
  | cons entry scopes ih =>
      cases c with
      | nil => exact h
      | cons link c =>
          exact ⟨h.1.sealed ha (hsound link List.mem_cons_self),
            ih (fun l hl => hsound l (List.mem_cons_of_mem _ hl)) h.2⟩

theorem SteppedClosure.Ready.sealed {s : Manner} {n : Node} {f : Func} {closure : SteppedClosure}
    (h : closure.Ready T w s n f) : closure.Ready T (w.sealed a o) s n f :=
  { h with chain := h.chain.sealed ha }

theorem Callable.Twin.sealed {f f' : Callable} (h : f.Twin T w f') : f.Twin T (w.sealed a o) f' := by
  cases h with
  | native g h => exact .native g h
  | walked ready walks => exact .walked (ready.sealed ha) walks
  | instrumented ready runs lowered fits mode =>
      exact .instrumented (ready.sealed ha) runs lowered (fits.sealed ha ready.chain) mode

theorem Object.Matches.sealed (h : o₁.Matches T w o') : o₁.Matches T (w.sealed a o) o' where
  alike := h.alike
  shown := h.shown.sealed ha
  plain := h.plain
  proto p hp := (h.proto p hp).imp_left fun hshown =>
    ⟨World.role?_sealed ha o hshown.1 nofun, hshown.2⟩
  twin f f' hf hf' := (h.twin f f' hf hf').sealed ha

theorem Object.Binds.sealed {others : List String} {shared : Bool} (h : o₁.Binds w others shared) :
    o₁.Binds (w.sealed a o) others shared :=
  { h with data := fun p hp => (h.data p hp).imp fun _ hv => ⟨hv.1, hv.2.sealed ha⟩ }

theorem Object.Lends.sealed (h : o₁.Lends w) : o₁.Lends (w.sealed a o) :=
  { h with data := fun p hp => (h.data p hp).imp fun _ hv => ⟨hv.1, fun hkey => (hv.2 hkey).sealed ha⟩ }

theorem Role.Suits.sealed {r : Role} (h : r.Suits T w b o₁ o') : r.Suits T (w.sealed a o) b o₁ o' := by
  cases r with
  | shown => exact ⟨h.1.sealed ha, h.2⟩
  | hidden => trivial
  | scope others shared => exact ⟨h.1.sealed ha, h.2⟩
  | fixed p => exact h

theorem World.Grounded.sealed (h : w.Grounded T) : (w.sealed a o).Grounded T := by
  intro b hb
  refine World.role?_sealed ha o (h b hb) ?_
  unfold Terms.ground
  split <;> nofun

theorem Heap.Match.sealed {h h' : Heap} (hh : h.Match T w h') :
    h.Match T (w.sealed a (h.object a)) h' where
  alike := hh.alike
  size := by rw [← hh.size]; exact List.length_set
  suits b r hb := by
    by_cases hba : b = a
    · subst hba
      rw [World.role?_sealed_self ha] at hb
      cases hb
      rfl
    · rw [World.role?_sealed_of_ne w _ hba] at hb
      exact (hh.suits b r hb).sealed ha
  ground := hh.ground.sealed ha
  lends hsolo := (hh.lends hsolo).sealed ha

theorem Machine.Match.sealed {m m' : Machine} (hm : m.Match T w m') :
    m.Match T (w.sealed a (m.heap.object a)) m' :=
  { hm with
    heap := hm.heap.sealed ha
    shown := fun methods hmethods p hp => (hm.shown methods hmethods p hp).sealed ha }

end

/-! ## Functions that return -/

/-- There is an end to come to. -/
theorem Comes.exists {fuel : Nat} {Q : Value → Machine → Prop} {frames : List Frame} {x : Option Value}
    {m : Machine} (h : Comes fuel Q frames x m) : ∃ v m₁, Q v m₁ := by
  induction h with
  | done h => exact ⟨_, _, h⟩
  | returned _ _ _ _ ih => exact ih
  | paused _ _ _ _ _ ih => exact ih

/-- What a function returns to matches a machine of its own. -/
theorem Fulfils.exists {fuel : Nat} {u : Unwind} {m mid : Machine} {v : Value}
    (h : Fulfils T fuel u w m v mid) : ∃ w₂ m₂, w.Reaches w₂ ∧ Machine.Match T w₂ m₂ mid ∧ v.Shown w₂ := by
  obtain ⟨-, m₂, w₂, hend⟩ := (h.comes m (.refl m) (Nat.le_refl _) h.limit []
    (fun _ m₂ => ∃ w₂, w.Reaches w₂ ∧ Machine.Match T w₂ m₂ mid ∧ v.Shown w₂)
    fun w₂ m₂ hw₂ hm₂ hv _ => .done ⟨w₂, hw₂, hm₂, hv⟩).exists
  exact ⟨w₂, m₂, hend⟩

/-- Plain objects that look alike are the same. -/
theorem Object.Alike.eq_of_plain (h : o.Alike o') (hkind : o.kind = .plain) : o' = o := by
  obtain ⟨kind, proto, props⟩ := o
  obtain ⟨kind', proto', props'⟩ := o'
  obtain ⟨halike, rfl, rfl⟩ := h
  cases hkind
  cases halike
  rfl

/-- A record that has had to stay as it is has stayed as it was on the other side, too. -/
theorem Machine.Match.preserves {w₂ : World} {m₀ m₀' m mid : Machine} (hm : m.Match T w₂ mid)
    (ha : w.role? a = some (.scope names false)) (hm₀ : m₀.Match T w m₀')
    (hw : (w.sealed a (m₀.heap.object a)).roles <+: w₂.roles) :
    mid.heap.object a = m₀'.heap.object a := by
  have hfixed : m.heap.object a = m₀.heap.object a :=
    hm.heap.suits a _ (World.role?_mono hw (World.role?_sealed_self ha _))
  have hkind : (m₀.heap.object a).kind = .plain := (hm₀.heap.suits a _ ha).1.kind
  have hright := (hm.heap.alike.object a).eq_of_plain (by rw [hfixed]; exact hkind)
  have hleft := (hm₀.heap.alike.object a).eq_of_plain hkind
  rw [hright, hleft, hfixed]

/-- A record that nobody else gets hold of is as it was when the function returns. -/
theorem Fulfils.preserves {fuel : Nat} {u : Unwind} {m₀ m₀' m mid : Machine} {v : Value}
    (ha : w.role? a = some (.scope names false)) (hm₀ : m₀.Match T w m₀')
    (h : Fulfils T fuel u (w.sealed a (m₀.heap.object a)) m v mid) :
    mid.heap.object a = m₀'.heap.object a := by
  obtain ⟨w₂, m₂, hw₂, hm₂, -⟩ := h.exists
  exact hm₂.preserves ha hm₀ hw₂.roles

end Resumption
