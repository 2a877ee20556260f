import Resumption.Machine.Setup
import Resumption.Proofs.Match.Calls

/-!
# New machines match themselves

Everything in the heap of a new machine may be had by scripts: there are only plain objects and
built-in functions, and they hold on to nothing that is not there.
-/

namespace Resumption

/-- Nothing about the object is out of the ordinary. -/
structure Object.Groomed (size : Nat) (o : Object) : Prop where
  kind : o.kind = .plain ∨ ∃ g, o.kind = .function (.native g)
  proto : ∀ p, o.proto = some p → p < size
  slots : ∀ q ∈ o.props, ∃ v, q.2 = .data v ∧ ∀ a, v = .object a → a < size

structure Heap.Groomed (h : Heap) : Prop where
  ground : Intrinsic.globalObject < h.size
  object : ∀ a < h.size, (h.object a).Groomed h.size

theorem Object.Groomed.mono {o : Object} {size size' : Nat} (h : o.Groomed size) (hle : size ≤ size') :
    o.Groomed size' where
  kind := h.kind
  proto p hp := Nat.lt_of_lt_of_le (h.proto p hp) hle
  slots q hq := (h.slots q hq).imp fun _ hv => ⟨hv.1, fun a ha => Nat.lt_of_lt_of_le (hv.2 a ha) hle⟩

namespace Setup

open Heap

variable {h : Heap} {a : Address} {v : Value}

theorem size_set (a : Address) (key : String) (v : Value) (h : Heap) : (set a key v h).size = h.size :=
  size_modify h a _

theorem groomed_set (hh : h.Groomed) (a : Address) (key : String)
    (hv : ∀ b, v = .object b → b < h.size) : (set a key v h).Groomed := by
  refine ⟨by rw [size_set]; exact hh.ground, fun b hb => ?_⟩
  rw [size_set] at hb ⊢
  have hold := hh.object b hb
  by_cases hab : a < h.size
  · rw [set, object_modify h a b _ hab]
    split
    · rename_i heq
      subst heq
      revert hold
      generalize h.object b = o
      intro hold
      obtain ⟨kind, proto, props⟩ := o
      have hset : Object.setOwn ⟨kind, proto, props⟩ key v =
          ⟨kind, proto, Props.set key (.data v) props⟩ := by
        rcases hold.kind with hkind | ⟨g, hkind⟩
        · cases hkind
          rfl
        · cases hkind
          rfl
      rw [hset]
      refine ⟨hold.kind, hold.proto, fun q hq => ?_⟩
      rcases Props.mem_set hq with rfl | hq
      · exact ⟨v, rfl, hv⟩
      · exact hold.slots q hq
    · exact hold
  · have hne : a ≠ b := fun heq => hab (heq ▸ hb)
    have hsame : (set a key v h).object b = h.object b := by
      simp only [set, Heap.modify, Heap.object, Array.getD_eq_getD_getElem?, Array.getElem?_modify,
        if_neg hne]
    rw [hsame]
    exact hold

theorem groomed_alloc (hh : h.Groomed) {o : Object} (ho : o.Groomed (h.size + 1)) :
    (h.alloc o).2.Groomed := by
  refine ⟨by rw [size_alloc]; exact Nat.lt_succ_of_lt hh.ground, fun b hb => ?_⟩
  rw [size_alloc] at hb ⊢
  rw [object_alloc]
  split
  · exact ho
  · rename_i hne
    have hlt : b < h.size := Nat.lt_of_le_of_ne (Nat.lt_succ_iff.1 hb) hne
    exact (hh.object b hlt).mono (Nat.le_succ _)

/-- A new object inherits from one of the prototypes. -/
theorem groomed_new {kind : ObjectKind} {proto : Address}
    (hkind : kind = .plain ∨ ∃ g, kind = .function (.native g)) (hh : h.Groomed)
    (hproto : proto ≤ Intrinsic.globalObject) :
    (Object.new kind (some proto)).Groomed (h.size + 1) where
  kind := hkind
  proto p hp := by
    cases hp
    exact Nat.lt_succ_of_lt (Nat.lt_of_le_of_lt hproto hh.ground)
  slots q hq := absurd hq List.not_mem_nil

/-- What a step of the setup does: the heap stays in order and loses nothing. -/
def Grooms (h h' : Heap) : Prop := h.Groomed → h'.Groomed ∧ h.size ≤ h'.size

namespace Grooms

variable {h₁ h₂ h₃ : Heap}

theorem trans (h : Grooms h₁ h₂) (h' : Grooms h₂ h₃) : Grooms h₁ h₃ := fun hh =>
  ⟨(h' (h hh).1).1, Nat.le_trans (h hh).2 (h' (h hh).1).2⟩

theorem foldl {β : Type} {g : Heap → β → Heap} (hg : ∀ h b, Grooms h (g h b)) (l : List β) (h : Heap) :
    Grooms h (l.foldl g h) := by
  induction l generalizing h with
  | nil => exact fun hh => ⟨hh, Nat.le_refl _⟩
  | cons b l ih => exact (hg h b).trans (ih _)

theorem set (a : Address) (key : String) (h : Heap) (hv : ∀ b, v = .object b → b < h.size) :
    Grooms h (Setup.set a key v h) :=
  fun hh => ⟨groomed_set hh a key hv, Nat.le_of_eq (size_set a key v h).symm⟩

/-- The value is no object. -/
theorem setPlain (a : Address) (key : String) (v : Value) (h : Heap) (hv : ∀ b, v ≠ .object b) :
    Grooms h (Setup.set a key v h) :=
  set a key h fun b hb => absurd hb (hv b)

/-- A new object goes somewhere once something has been done with it. -/
theorem alloc {o : Object} {g : Heap → Heap} (h : Heap) (a : Address) (key : String)
    (ho : h.Groomed → o.Groomed (h.size + 1))
    (hthen : Grooms (h.alloc o).2 (g (h.alloc o).2)) :
    Grooms h (Setup.set a key (.object h.size) (g (h.alloc o).2)) := by
  intro hh
  obtain ⟨hgroomed, hle⟩ := hthen (groomed_alloc hh (ho hh))
  rw [size_alloc] at hle
  refine ⟨groomed_set hgroomed a key fun b hb => ?_, by rw [size_set]; omega⟩
  cases hb
  exact hle

theorem method (a : Address) (h : Heap) (f : Native) : Grooms h (Setup.method a h f) :=
  alloc (g := id) h a f.name (fun hh => groomed_new (.inr ⟨f, rfl⟩) hh (by decide))
    fun hh => ⟨hh, Nat.le_refl _⟩

theorem methods (a : Address) (fs : List Native) (h : Heap) : Grooms h (Setup.methods a fs h) :=
  foldl (fun h f => method a h f) fs h

theorem setGlobal (name : String) (h : Heap) (hv : ∀ b, v ≠ .object b) :
    Grooms h (Setup.setGlobal name v h) :=
  setPlain _ name v h hv

theorem globalFunction (f : Native) (statics : List Native) (h : Heap) :
    Grooms h (Setup.globalFunction f statics h) :=
  alloc (g := fun h' => Setup.methods h.size statics h') h _ f.name
    (fun hh => groomed_new (.inr ⟨f, rfl⟩) hh (by decide)) (methods _ _ _)

theorem errorKind (h : Heap) (kind : ErrorKind) : Grooms h (Setup.errorKind h kind) := by
  have hproto : Intrinsic.errorProto kind < Intrinsic.globalObject := by cases kind <;> decide
  refine alloc (g := fun h' => Setup.set h.size "prototype" (.object (Intrinsic.errorProto kind))
    (Setup.set (Intrinsic.errorProto kind) "message" (.str "")
      (Setup.set (Intrinsic.errorProto kind) "name" (.str kind.name) h'))) h _ kind.name
    (fun hh => groomed_new (.inr ⟨.error kind, rfl⟩) hh (by decide)) ?_
  have hnamed := fun h => setPlain (Intrinsic.errorProto kind) "name" (.str kind.name) h nofun
  have htext := fun h => setPlain (Intrinsic.errorProto kind) "message" (.str "") h nofun
  refine ((hnamed _).trans (htext _)).trans fun hh => ?_
  refine set _ _ _ (fun b hb => ?_) hh
  cases hb
  exact Nat.lt_trans hproto hh.ground

theorem mathObject (h : Heap) : Grooms h (Setup.mathObject h) :=
  alloc (g := fun h' => Setup.methods h.size _ (Setup.set h.size "PI" _ h')) h _ "Math"
    (fun hh => groomed_new (.inl rfl) hh (by decide))
    ((setPlain _ _ (.num circleRatio) _ nofun).trans (methods _ _ _))

theorem consoleObject (h : Heap) : Grooms h (Setup.consoleObject h) :=
  alloc (g := fun h' => Setup.methods h.size [.log] h') h _ "console"
    (fun hh => groomed_new (.inl rfl) hh (by decide)) (methods _ _ _)

end Grooms

theorem groomed_skeleton : skeleton.Groomed := by
  refine ⟨by decide, fun a ha => ?_⟩
  have hsize : skeleton.size = 11 := rfl
  rw [hsize] at ha ⊢
  have hobject : skeleton.object a = .new .plain none ∨ ∃ p < 11, skeleton.object a = .new .plain (some p) := by
    match a, ha with
    | 0, _ => exact .inl rfl
    | 1, _ | 2, _ | 3, _ | 4, _ | 5, _ | 10, _ => exact .inr ⟨0, by decide, rfl⟩
    | 6, _ | 7, _ | 8, _ | 9, _ => exact .inr ⟨5, by decide, rfl⟩
  rcases hobject with heq | ⟨p, hp, heq⟩
  · rw [heq]
    exact ⟨.inl rfl, nofun, nofun⟩
  · rw [heq]
    refine ⟨.inl rfl, fun q hq => ?_, nofun⟩
    cases hq
    exact hp

/-- The heap of a new machine is in order. -/
theorem groomed_heap : heap.Groomed := by
  have hrest : Grooms skeleton heap := by
    refine .trans (.methods _ _ _) (.trans (.methods _ _ _) (.trans (.methods _ _ _)
      (.trans (.methods _ _ _) (.trans (.setGlobal _ _ ?_) (.trans (.setGlobal _ _ ?_)
        (.trans (.setGlobal _ _ ?_) (.trans (.globalFunction _ _ _) (.trans (.globalFunction _ _ _)
          (.trans (.globalFunction _ _ _) (.trans (.globalFunction _ _ _)
            (.trans (.foldl Grooms.errorKind _ _) (.trans (.mathObject _)
              (.consoleObject _)))))))))))))
    all_goals nofun
  exact (hrest groomed_skeleton).1

end Setup

/-- What is in order may be shown if everything that it holds on to is. -/
theorem Object.Groomed.matches {T : Terms} {w : World} {o : Object} {size : Nat} (h : o.Groomed size)
    (hslots : ∀ q ∈ o.props, ∀ v, q.2 = .data v → v.Shown w)
    (hproto : ∀ p, o.proto = some p →
      w.role? p = some .shown ∧ (T.solo = true → Intrinsic.isPrototype p = true))
    (hvisits : ∀ g, o.callable? = some (.native g) → T.solo = true → g.visits = false) :
    o.Matches T w o ∧ o.isArray = false := by
  have hplain : o.elements? = none ∧ ∀ f, o.callable? = some f → ∃ g, f = .native g := by
    rw [Object.elements?, Object.callable?]
    rcases h.kind with hkind | ⟨g, hkind⟩
    · rw [hkind]
      exact ⟨rfl, fun f hf => by cases hf⟩
    · rw [hkind]
      exact ⟨rfl, fun f hf => ⟨g, by cases hf; rfl⟩⟩
  refine ⟨⟨.refl _, ⟨fun q hq => ?_, fun items hitems => ?_⟩, fun _ q hq => ?_, fun p hp => .inl (hproto p hp),
    fun f f' hf hf' => ?_⟩, ?_⟩
  · obtain ⟨v, hv, -⟩ := h.slots q hq
    rw [hv]
    exact hslots q hq v hv
  · rw [hplain.1] at hitems
    cases hitems
  · exact (h.slots q hq).imp fun _ => And.left
  · rw [hf] at hf'
    cases hf'
    obtain ⟨g, rfl⟩ := hplain.2 f hf
    exact .native g (hvisits g hf)
  · rw [Object.isArray, hplain.1]
    rfl

/-- In a heap in order everything is shown. -/
theorem Heap.Groomed.match {T : Terms} {h : Heap} (hh : h.Groomed) (hsolo : T.solo = false) :
    h.Match T ⟨List.replicate h.size .shown, none, 0⟩ h := by
  have hrole : ∀ a < h.size,
      World.role? ⟨List.replicate h.size .shown, none, 0⟩ a = some .shown := by
    intro a ha
    simp [World.role?, ha]
  refine ⟨.refl h, List.length_replicate, fun a r ha => ?_, fun a ha => ?_, fun h => ?_⟩
  · have hlt : a < h.size := by simpa using World.lt_of_role? ha
    rw [hrole a hlt] at ha
    cases ha
    have hobject := hh.object a hlt
    have hfree : ∀ {p : Prop}, T.solo = true → p := fun hT => by
      rw [hsolo] at hT
      cases hT
    have hslots : ∀ q ∈ (h.object a).props, ∀ v, q.2 = .data v →
        v.Shown ⟨List.replicate h.size .shown, none, 0⟩ := by
      intro q hq v hv
      obtain ⟨v', hv', hlt⟩ := hobject.slots q hq
      rw [hv] at hv'
      cases hv'
      cases v with
      | object b => exact hrole b (hlt b rfl)
      | _ => trivial
    exact (hobject.matches hslots (fun p hp => ⟨hrole p (hobject.proto p hp), hfree⟩)
      fun _ _ => hfree).imp_right fun harray _ => harray
  · rw [hrole a (Nat.lt_of_le_of_lt ha hh.ground), Terms.ground, hsolo]
    rfl
  · rw [hsolo] at h
    cases h

/-! ## Where calls stand alone -/

/-- Scripts must not get hold of the array prototype, nor of functions that call others as often as they
like. -/
def Heap.withheld (h : Heap) (a : Address) : Bool :=
  a == Intrinsic.arrayProto ||
    match (h.object a).callable? with
    | some (.native g) => g.visits
    | _ => false

/-- The object in the slot. -/
def Slot.target? : Slot → Option Address
  | .data (.object a) => some a
  | _ => none

/-- What is withheld is held by the array prototype alone, under the names of the instrumented methods. -/
structure Heap.Guards (h : Heap) : Prop where
  ground : ∀ a ≤ Intrinsic.globalObject, h.withheld a = (a == Intrinsic.arrayProto)
  proto : ∀ a < h.size,
    (h.object a).proto.all (fun p => Intrinsic.isPrototype p && p != Intrinsic.arrayProto) = true
  slots : ∀ a < h.size, ∀ q ∈ (h.object a).props, q.2.target?.all (fun b => !h.withheld b ||
    a == Intrinsic.arrayProto && Machine.debugMethodNames.contains q.1) = true
  array : (h.object Intrinsic.arrayProto).callable?.isNone = true ∧
    (h.object Intrinsic.arrayProto).proto = some Intrinsic.objectProto

theorem Setup.guards_heap : Setup.heap.Guards where
  ground := by decide +kernel
  proto := by decide +kernel
  slots := by decide +kernel
  array := by decide +kernel

/-- What is withheld is hidden, and everything else is shown. -/
def World.guarding (h : Heap) : World :=
  ⟨(List.range h.size).map fun a => if h.withheld a then .hidden else .shown, none, 0⟩

theorem World.role?_guarding {h : Heap} {a : Address} (ha : a < h.size) :
    (guarding h).role? a = some (if h.withheld a then .hidden else .shown) := by
  simp [guarding, World.role?, ha]

/-- In a heap in order what is not withheld is shown. -/
theorem Heap.Groomed.match_guarding {T : Terms} {h : Heap} (hh : h.Groomed) (hguards : h.Guards)
    (hsolo : T.solo = true) : h.Match T (.guarding h) h := by
  have hshown : ∀ a < h.size, h.withheld a = false → (World.guarding h).role? a = some .shown := by
    intro a ha hheld
    rw [World.role?_guarding ha, hheld]
    rfl
  -- A slot of an object holds no object, or one that is shown, unless the prototype lends it.
  have hslot : ∀ a < h.size, ∀ q ∈ (h.object a).props, ∃ v, q.2 = .data v ∧
      (v.Shown (.guarding h) ∨ a = Intrinsic.arrayProto ∧ Machine.debugMethodNames.contains q.1 = true) := by
    intro a ha q hq
    obtain ⟨v, hv, hlt⟩ := (hh.object a ha).slots q hq
    refine ⟨v, hv, ?_⟩
    cases v with
    | object b =>
        have hguarded := hguards.slots a ha q hq
        rw [hv, Slot.target?, Option.all_some, Bool.or_eq_true, Bool.not_eq_true', Bool.and_eq_true,
          beq_iff_eq] at hguarded
        exact hguarded.imp_left (hshown b (hlt b rfl))
    | _ => exact .inl trivial
  refine ⟨.refl h, by simp [World.guarding], fun a r ha => ?_, fun a ha => ?_, fun _ => ?_⟩
  · have hlt : a < h.size := by simpa [World.guarding] using World.lt_of_role? ha
    rw [World.role?_guarding hlt] at ha
    cases hheld : h.withheld a with
    | true =>
        rw [hheld] at ha
        cases ha
        trivial
    | false =>
        rw [hheld] at ha
        cases ha
        obtain ⟨hnot, hkind⟩ := Bool.or_eq_false_iff.1 hheld
        have hslots : ∀ q ∈ (h.object a).props, ∀ v, q.2 = .data v → v.Shown (.guarding h) := by
          intro q hq v hv
          obtain ⟨v', hv', hshown⟩ := hslot a hlt q hq
          rw [hv] at hv'
          cases hv'
          exact hshown.resolve_right fun hlent => absurd hlent.1 (beq_eq_false_iff_ne.1 hnot)
        have hproto : ∀ p, (h.object a).proto = some p →
            (World.guarding h).role? p = some .shown ∧ (T.solo = true → Intrinsic.isPrototype p = true) := by
          intro p hp
          have hproto := hguards.proto a hlt
          rw [hp, Option.all_some, Bool.and_eq_true, bne_iff_ne] at hproto
          refine ⟨hshown p ((hh.object a hlt).proto p hp) ?_, fun _ => hproto.1⟩
          rw [hguards.ground p (Nat.le_of_lt (of_decide_eq_true hproto.1)), beq_eq_false_iff_ne]
          exact hproto.2
        exact ((hh.object a hlt).matches hslots hproto fun g hg _ => by rwa [hg] at hkind).imp_right
          fun harray _ => harray
  · have hlt := Nat.lt_of_le_of_lt ha hh.ground
    rw [World.role?_guarding hlt, hguards.ground a ha, Terms.ground]
    simp [hsolo]
  · have hlt : Intrinsic.arrayProto < h.size := Nat.lt_of_le_of_lt (by decide) hh.ground
    have hkind : (h.object Intrinsic.arrayProto).kind = .plain := by
      rcases (hh.object _ hlt).kind with hkind | ⟨g, hkind⟩
      · exact hkind
      · have hnone := hguards.array.1
        rw [Object.callable?, hkind] at hnone
        cases hnone
    refine ⟨hkind, hguards.array.2, fun q hq => ?_⟩
    obtain ⟨v, hv, hv'⟩ := hslot _ hlt q hq
    refine ⟨v, hv, fun hkey => hv'.resolve_right fun hlent => ?_⟩
    rw [hkey] at hlent
    cases hlent.2

/-- The heap of a new machine matches itself. -/
theorem Setup.match_heap (T : Terms) :
    ∃ w : World, w.building = none ∧ w.lag = 0 ∧ heap.Match T w heap := by
  cases hsolo : T.solo with
  | false => exact ⟨_, rfl, rfl, groomed_heap.match hsolo⟩
  | true => exact ⟨_, rfl, rfl, groomed_heap.match_guarding guards_heap hsolo⟩

end Resumption
