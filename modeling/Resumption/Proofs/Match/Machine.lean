import Resumption.Machine.Native
import Resumption.Proofs.Match.Simulation

/-!
# Matching machines

Two machines match if their heaps do, if they have written the same, and if they are set up alike
as far as scripts can tell.  Everything that a machine does by itself runs alike on machines that
match: reading and writing properties, operators, construction, and the functions every machine
starts with.  Where functions are called, this rests on the ways of calling running alike.
-/

namespace Resumption

variable {α β : Type} {T : Terms} {w w' : World}

structure Machine.Match (T : Terms) (w : World) (m m' : Machine) : Prop where
  heap : m.heap.Match T w m'.heap
  output : m'.output = m.output
  limit : m'.config.maxCallDepth = m.config.maxCallDepth
  depth : m.depth ≤ m'.depth ∧ (T.solo = false → m'.depth = m.depth)
  builtins : m'.debugBuiltins = m.debugBuiltins
  methods : m'.debugMethods = m.debugMethods
  shown : ∀ methods, m.debugMethods = some methods → ∀ p ∈ methods, p.2.Shown w
  /-- When calls stand alone, arrays have the instrumented methods. -/
  present : T.solo = true → ∀ key, Machine.debugMethodNames.contains key = true →
    (m.debugMethod? key).isSome = true
  registries : m.registries = T.registries
  debugging : m.debugging = (T.pauses != .nowhere) ∧ m'.debugging = (T.pauses == .together)
  hook : m.debugging = true → ∀ hook, m.hook = some hook →
    ∃ sparing, T.spared = some sparing ∧ sparing.hooks hook
  unhooked : m'.hook = none
  /-- Each pause on the left is at a statement that is passed on the right. -/
  passed : T.mode = .recording → T.spared = none →
    m'.chronicle.passed = m.chronicle.passed + w.lag
  /-- When pauses are taken, nothing is passed on the left. -/
  unpassed : T.pauses ≠ .nowhere → m.chronicle.passed = 0
  faults : T.solo = false → m'.chronicle.escaped = m.chronicle.escaped ∧
    m'.chronicle.refused = m.chronicle.refused

/-- Machines match while they run and when they stop. -/
def Machine.tie (T : Terms) : Tie Machine Machine := ⟨Machine.Match T, Machine.Match T⟩

/-- Two computations on machines run alike. -/
abbrev MSim (T : Terms) (w : World) (x : MachineM α) (x' : MachineM β)
    (R : World → α → β → Prop) : Prop :=
  Sim T (Machine.tie T) w x x' R

/-- The ways of calling run alike. -/
def Invoke.Alike (T : Terms) (invoke invoke' : Invoke) : Prop :=
  ∀ w, w.building = none → ∀ f this args, f.Shown w → this.Shown w → (∀ v ∈ args, v.Shown w) →
    MSim T w (invoke f this args) (invoke' f this args) (Same fun w v => v.Shown w)

namespace Machine.Match

variable {m m' : Machine}

/-- Other heaps. -/
theorem withHeap (hm : m.Match T w m') {h h' : Heap} (hw : w ≤ w') (hh : h.Match T w' h') :
    Machine.Match T w' { m with heap := h } { m' with heap := h' } :=
  { hm with
    heap := hh
    shown := fun methods hmethods p hp => (hm.shown methods hmethods p hp).mono hw.roles
    passed := by rw [hw.lag]; exact hm.passed }

end Machine.Match

namespace Machine

/-! ## Small steps -/

theorem ask_sim {f : Heap → α} {f' : Heap → β} {R : World → α → β → Prop}
    (h : ∀ h h', Heap.Match T w h h' → R w (f h) (f' h')) : MSim T w (ask f) (ask f') R :=
  fun _ _ hm => .ok ⟨w, w.le_refl, hm, h _ _ hm.heap⟩

theorem demand_sim (x : Option α) : MSim T w (demand x) (demand x) Equal := by
  cases x with
  | none => exact .exhausted
  | some a => exact .pure ⟨rfl, trivial⟩

/-- What cannot tell heaps apart that look alike. -/
theorem ask_alike {f : Heap → α} (h : ∀ h h', Heap.Alike h h' → f h' = f h) :
    MSim T w (ask f) (ask f) Equal :=
  ask_sim fun h₁ h₂ hh => ⟨h h₁ h₂ hh.alike, trivial⟩

theorem convert_sim {f : Heap → Option α} (h : ∀ h h', Heap.Alike h h' → f h' = f h) :
    MSim T w (convert f) (convert f) Equal := by
  change MSim T w (ask f >>= demand) (ask f >>= demand) Equal
  exact .bind (ask_alike h) fun _ _ x _ => demand_sim x

theorem text_sim (v : Value) : MSim T w (text v) (text v) Equal := convert_sim fun _ _ h => h.text? v

theorem number_sim (v : Value) : MSim T w (number v) (number v) Equal :=
  convert_sim fun _ _ h => h.number? v

theorem inspect_sim (v : Value) : MSim T w (inspect v) (inspect v) Equal :=
  convert_sim fun _ _ h => h.inspect? v

theorem modifyHeap_sim {f f' : Heap → Heap}
    (h : ∀ h h', Heap.Match T w h h' → (f h).Match T w (f' h')) :
    MSim T w (modifyHeap f) (modifyHeap f') Equal :=
  fun _ _ hm => .ok ⟨w, w.le_refl, hm.withHeap w.le_refl (h _ _ hm.heap), rfl, trivial⟩

theorem alloc_sim {o o' : Object} (r : Role) (halike : o.Alike o')
    (hsuits : (w.grow r).Grounded T → ∀ a > Intrinsic.globalObject,
      r.Suits T (w.grow r) a o o') :
    MSim T w (alloc o) (alloc o') (Same fun w a => w.role? a = some r) := by
  intro m m' hm
  have hlt := hm.heap.lt_size (hm.heap.ground _ (Nat.le_refl _))
  have hground := hm.heap.ground.mono (w.le_grow r).roles
  refine .ok ⟨w.grow r, w.le_grow r, ?_, ?_, ?_⟩
  · exact hm.withHeap (w.le_grow r) (hm.heap.alloc r halike (hsuits hground _ hlt))
  · exact hm.heap.alike.size
  · change (w.grow r).role? m.heap.size = some r
    rw [← hm.heap.size, World.role?_grow_self]

/-- A new object that scripts may get hold of. -/
theorem alloc_shown {o o' : Object} (halike : o.Alike o')
    (hmatches : ∀ w', w ≤ w' → w'.Grounded T → Object.Matches T w' o o') :
    MSim T w (alloc o) (alloc o') (Same fun w a => w.role? a = some .shown) := by
  refine alloc_sim .shown halike fun hground a ha =>
    ⟨hmatches _ (w.le_grow .shown) hground, fun hproto => ?_⟩
  simp only [Intrinsic.isPrototype, decide_eq_true_eq] at hproto
  exact absurd ha (Nat.lt_asymm hproto)

/-- An object that is shown, with nothing but its kind and one of the first prototypes. -/
theorem matches_new {kind kind' : ObjectKind} {proto : Address}
    (hkind : kind.Alike kind') (hitems : ∀ items, kind = .array items → ∀ v ∈ items, v.Shown w)
    (hproto : (w.role? proto = some .shown ∧ (T.solo = true → Intrinsic.isPrototype proto = true)) ∨
      (T.solo = true ∧ proto = Intrinsic.arrayProto ∧ ∃ items, kind = .array items))
    (htwin : ∀ f f', kind = .function f → kind' = .function f' → f.Twin T w f') :
    Object.Matches T w (.new kind (some proto)) (.new kind' (some proto)) where
  alike := ⟨hkind, rfl, rfl⟩
  shown := .new _ _ hitems
  plain _ _ hp := absurd hp List.not_mem_nil
  proto p hp := by
    cases hp
    refine hproto.imp_right fun hsolo => ⟨hsolo.1, hsolo.2.1, ?_⟩
    obtain ⟨items, rfl⟩ := hsolo.2.2
    rfl
  twin f f' hf hf' := by
    cases kind <;> cases hf
    cases kind' <;> cases hf'
    exact htwin _ _ rfl rfl

theorem ground_proto {proto : Address} (hground : w.Grounded T)
    (hlt : Intrinsic.isPrototype proto = true) (hne : proto ≠ Intrinsic.arrayProto) :
    w.role? proto = some .shown ∧ (T.solo = true → Intrinsic.isPrototype proto = true) := by
  refine ⟨hground.shown ?_ hne, fun _ => hlt⟩
  simp only [Intrinsic.isPrototype, decide_eq_true_eq] at hlt
  exact Nat.le_of_lt hlt

theorem newObject_sim : MSim T w newObject newObject (Same fun w a => w.role? a = some .shown) := by
  refine alloc_shown (.refl _) fun w' _ hground => matches_new .plain ?_ ?_ ?_
  · intro _ h
    cases h
  · exact .inl (ground_proto hground rfl (by decide))
  · intro _ _ h
    cases h

theorem newArray_sim {items : List Value} (hitems : ∀ v ∈ items, v.Shown w) :
    MSim T w (newArray items) (newArray items) (Same fun w v => v.Shown w) := by
  refine .bind (alloc_shown (.refl _) fun w' hw hground => matches_new (.array _) ?_ ?_ ?_)
    fun _ _ a ha => .pure ⟨rfl, ha⟩
  · intro _ h v hv
    cases h
    exact (hitems v (List.mem_toArray.1 hv)).mono hw.roles
  · cases hsolo : T.solo with
    | false =>
        refine .inl ⟨?_, fun h => by cases h⟩
        rw [hground _ (by decide), Terms.ground, if_neg (by simp [hsolo])]
    | true => exact .inr ⟨rfl, rfl, _, rfl⟩
  · intro _ _ h
    cases h

theorem newFunction_sim {f f' : Callable} (htwin : f.Twin T w f') :
    MSim T w (newFunction f) (newFunction f') (Same fun w v => v.Shown w) := by
  refine .bind (alloc_shown ⟨.function htwin.alike, rfl, rfl⟩ fun w' hw hground =>
    matches_new (.function htwin.alike) ?_ ?_ ?_) fun _ _ a ha => .pure ⟨rfl, ha⟩
  · intro _ h
    cases h
  · exact .inl (ground_proto hground rfl (by decide))
  · intro _ _ h h'
    cases h
    cases h'
    exact htwin.mono hw.roles

theorem newError_sim (kind : ErrorKind) (message : String) :
    MSim T w (newError kind message) (newError kind message) (Same fun w v => v.Shown w) := by
  have hproto : Intrinsic.isPrototype (Intrinsic.errorProto kind) = true ∧
      Intrinsic.errorProto kind ≠ Intrinsic.arrayProto := by
    cases kind <;> decide
  refine .bind (alloc_shown (.refl _) fun w' _ hground => ?_) fun _ _ a ha => .pure ⟨rfl, ha⟩
  have hnew : Object.Matches T w' (.new .error (some (Intrinsic.errorProto kind)))
      (.new .error (some (Intrinsic.errorProto kind))) := by
    refine matches_new .error ?_ (.inl (ground_proto hground hproto.1 hproto.2)) ?_
    · intro _ h
      cases h
    · intro _ _ h
      cases h
  exact (hnew.setOwn (v := .str message) "message" trivial).fit

/-! ## Throwing -/

theorem throwValue_sim {v : Value} {R : World → α → β → Prop} (hv : v.Shown w) :
    MSim T w (throwValue v) (throwValue v) R :=
  fun _ _ hm => .thrown (.thrown rfl rfl fun _ => rfl) ⟨w, w.le_refl, hm, hv⟩

theorem fail_sim {R : World → α → β → Prop} (kind : ErrorKind) (message : String) :
    MSim T w (fail kind message) (fail kind message) R :=
  .bind (newError_sim kind message) fun _ _ _ hv => throwValue_sim hv

theorem typeError_sim {R : World → α → β → Prop} (message : String) :
    MSim T w (typeError message) (typeError message) R :=
  fail_sim .type message

/-! ## Properties -/

theorem setOwn_sim {a : Address} {v : Value} (key : String) (ha : w.role? a = some .shown)
    (hv : v.Shown w) : MSim T w (setOwn a key v) (setOwn a key v) Equal := by
  refine .bind (ask_alike fun _ _ hh => (hh.object a).isArray) fun w₁ hw₁ isArray _ => ?_
  have ha₁ := World.role?_mono hw₁.roles ha
  split
  · refine .bind (number_sim v) fun w₂ hw₂ n _ => modifyHeap_sim fun h h' hh => ?_
    have ha₂ := World.role?_mono hw₂.roles ha₁
    exact hh.modify_shown ha₂ ((hh.matches_of_shown ha₂).setLength n)
  · refine modifyHeap_sim fun h h' hh => ?_
    exact hh.modify_shown ha₁ ((hh.matches_of_shown ha₁).setOwn key (hv.mono hw₁.roles))

/-- A variable gets a value. -/
theorem setOwn_scope {a : Address} {names : List String} {shared : Bool} {key : String} {v : Value}
    (ha : w.role? a = some (.scope names shared)) (hkey : key ∈ names) (hv : v.Shown w)
    (hcount : shared = false → key = Script.counterName → v.Plain) :
    MSim T w (setOwn a key v) (setOwn a key v) Equal := by
  refine .bind (ask_sim (R := Same fun _ b => b = false) fun h h' hh =>
    ⟨(hh.alike.object a).isArray, ?_⟩) fun w₁ hw₁ isArray harray => ?_
  · rw [Object.isArray, Object.elements?, (hh.suits a _ ha).1.kind]
    rfl
  · rw [harray, Bool.and_false, if_neg Bool.false_ne_true]
    exact modifyHeap_sim fun h h' hh =>
      hh.modify_scope (World.role?_mono hw₁.roles ha) hkey (hv.mono hw₁.roles) hcount

theorem heapM_sim : MSim T w heapM heapM (Heap.Match T) :=
  fun _ _ hm => .ok ⟨w, w.le_refl, hm, hm.heap⟩

theorem prototypeOf_sim {a : Address} (ha : w.role? a = some .shown) :
    MSim T w (prototypeOf a) (prototypeOf a) (Same fun w v => v.Shown w) := by
  refine .bind_rel heapM_sim fun w₁ hw₁ h h' hh => ?_
  have ha₁ := World.role?_mono hw₁.roles ha
  rw [hh.alike.find?]
  split
  · rename_i v hv
    exact .pure ⟨rfl, (hh.find?_mild a ha₁ (fun _ _ => by decide) hv).1⟩
  · exact .pure ⟨rfl, trivial⟩
  · rw [(hh.alike.object a).isSome_callable?]
    split
    · refine .bind newObject_sim fun w₂ hw₂ b hb => ?_
      have ha₂ := World.role?_mono hw₂.roles ha₁
      refine .bind (modifyHeap_sim fun h h' hh => ?_) fun w₃ hw₃ _ _ =>
        .pure ⟨rfl, World.role?_mono hw₃.roles hb⟩
      exact hh.modify_shown ha₂ ((hh.matches_of_shown ha₂).setOwn "prototype" hb)
    · exact .pure ⟨rfl, trivial⟩

variable {invoke invoke' : Invoke}

theorem solo_of_accessor {getter setter : Option Value}
    (h : T.solo = true → ∃ v, Slot.accessor getter setter = .data v) : T.solo = false := by
  cases hT : T.solo with
  | false => rfl
  | true =>
      obtain ⟨v, hv⟩ := h hT
      cases hv

/-- Reads what a slot holds. -/
theorem readSlot_sim (hinvoke : T.solo = false → invoke.Alike T invoke') (hw : w.building = none)
    {this : Value} (hthis : this.Shown w) {slot : Option Slot}
    (hslot : ∀ s, slot = some s → s.Mild T w) :
    MSim T w (readSlot invoke this slot) (readSlot invoke' this slot)
      (Same fun w v => v.Shown w) := by
  cases slot with
  | none => exact .pure ⟨rfl, trivial⟩
  | some slot =>
      obtain ⟨hshown, hsolo⟩ := hslot slot rfl
      cases slot with
      | data v => exact .pure ⟨rfl, hshown⟩
      | accessor getter setter =>
          cases getter with
          | none => exact .pure ⟨rfl, trivial⟩
          | some getter =>
              exact hinvoke (solo_of_accessor hsolo) w hw getter this [] (hshown.1 _ rfl) hthis
                fun _ hv => absurd hv List.not_mem_nil

/-- Reads a property that an object has itself or inherits. -/
theorem inherited_ends (hinvoke : T.solo = false → invoke.Alike T invoke') (hw : w.building = none)
    {m m' : Machine} (hm : m.Match T w m') {this : Value} (hthis : this.Shown w) {key : String}
    {a : Address} (ha : w.role? a = some .shown)
    (hkey : T.solo = true → (m.heap.object a).isArray = true →
      debugMethodNames.contains key = false) :
    Ends T (tie T) w (Same fun w v => v.Shown w)
      ((ask (fun h => h.find? key a) >>= readSlot invoke this) m)
      ((ask (fun h => h.find? key a) >>= readSlot invoke' this) m') := by
  change Ends T (tie T) w _ (readSlot invoke this (m.heap.find? key a) m)
    (readSlot invoke' this (m'.heap.find? key a) m')
  rw [hm.heap.alike.find?]
  exact readSlot_sim hinvoke hw hthis (fun s hs => hm.heap.find?_mild a ha hkey hs) m m' hm

/-- The same for a prototype that machines start with. -/
theorem inherited_sim (hinvoke : T.solo = false → invoke.Alike T invoke') (hw : w.building = none)
    {this : Value} (hthis : this.Shown w) (key : String) {a : Address}
    (hproto : Intrinsic.isPrototype a = true) (hne : a ≠ Intrinsic.arrayProto) :
    MSim T w (ask (fun h => h.find? key a) >>= readSlot invoke this)
      (ask (fun h => h.find? key a) >>= readSlot invoke' this) (Same fun w v => v.Shown w) := by
  intro m m' hm
  have ha := (ground_proto hm.heap.ground hproto hne).1
  refine inherited_ends hinvoke hw hm hthis ha fun _ harray => ?_
  rw [(hm.heap.suits a _ ha).2 hproto] at harray
  cases harray

theorem debugMethod?_eq {m m' : Machine} (hm : m.Match T w m') (key : String) :
    m'.debugMethod? key = m.debugMethod? key := by
  rw [debugMethod?, debugMethod?, hm.builtins, hm.methods]

theorem debugMethod?_shown {m m' : Machine} (hm : m.Match T w m') {key : String} {v : Value}
    (hv : m.debugMethod? key = some v) : v.Shown w := by
  rw [debugMethod?] at hv
  split at hv
  · obtain ⟨methods, hmethods, hv⟩ := Option.bind_eq_some_iff.1 hv
    obtain ⟨front, back, hsplit, -⟩ := List.lookup_eq_some_iff.1 hv
    exact hm.shown methods hmethods (key, v) (by simp [hsplit])
  · cases hv

/-- Reads a property of an object that scripts may get hold of. -/
theorem getProperty_object_sim (hinvoke : T.solo = false → invoke.Alike T invoke')
    (hw : w.building = none) {a : Address} (ha : w.role? a = some .shown) (key : String) :
    MSim T w (getProperty invoke (.object a) key) (getProperty invoke' (.object a) key)
      (Same fun w v => v.Shown w) := by
  intro m m' hm
  have harray : (m'.heap.object a).isArray = (m.heap.object a).isArray :=
    (hm.heap.alike.object a).isArray
  have hfront : m'.methodInFront? a key = m.methodInFront? a key := by
    rw [methodInFront?, methodInFront?, harray, debugMethod?_eq hm]
  cases hmethod : m.methodInFront? a key with
  | some method =>
      rw [getProperty_of_method invoke hmethod, getProperty_of_method invoke' (hfront.trans hmethod)]
      rw [methodInFront?] at hmethod
      have hshown : method.Shown w := by
        split at hmethod
        · exact debugMethod?_shown hm hmethod
        · cases hmethod
      exact .ok ⟨w, w.le_refl, hm, rfl, hshown⟩
  | none =>
      rw [getProperty_of_no_method invoke hmethod,
        getProperty_of_no_method invoke' (hfront.trans hmethod)]
      rw [methodInFront?] at hmethod
      split
      · exact prototypeOf_sim ha m m' hm
      · refine inherited_ends hinvoke hw hm (show (Value.object a).Shown w from ha) ha
          fun hsolo hisArray => ?_
        cases hkey : debugMethodNames.contains key with
        | false => rfl
        | true =>
            have hpresent := hm.present hsolo key hkey
            rw [hkey, hisArray, if_pos (by rfl)] at hmethod
            rw [hmethod] at hpresent
            cases hpresent

theorem getProperty_sim (hinvoke : T.solo = false → invoke.Alike T invoke')
    (hw : w.building = none) {target : Value} (htarget : target.Shown w) (key : String) :
    MSim T w (getProperty invoke target key) (getProperty invoke' target key)
      (Same fun w v => v.Shown w) := by
  cases target with
  | undefined => exact typeError_sim _
  | null => exact typeError_sim _
  | bool b => exact inherited_sim hinvoke hw htarget key rfl (by decide)
  | num x => exact inherited_sim hinvoke hw htarget key rfl (by decide)
  | str s =>
      simp only [getProperty]
      split
      · exact .pure ⟨rfl, trivial⟩
      · split
        · split
          · exact .pure ⟨rfl, trivial⟩
          · exact .pure ⟨rfl, trivial⟩
        · exact inherited_sim hinvoke hw htarget key rfl (by decide)
  | object a => exact getProperty_object_sim hinvoke hw htarget key

/-- What is found as a value is read as it stands, arrays apart. -/
theorem getProperty_data {m : Machine} {a : Address} {key : String} {v : Value}
    (harray : (m.heap.object a).isArray = false) (hfind : m.heap.find? key a = some (.data v)) :
    getProperty invoke (.object a) key m = .ok v m := by
  have hfront : m.methodInFront? a key = none := by
    rw [methodInFront?, harray, Bool.and_false, if_neg Bool.false_ne_true]
  rw [getProperty_of_no_method invoke hfront]
  split
  · rename_i hkey
    rw [eq_of_beq hkey] at hfind
    exact prototypeOf_data hfind
  · rw [ask_bind, hfind]
    rfl

/-- What a scope holds under a name that it binds. -/
theorem find?_of_mem {h h' : Heap} (hh : h.Match T w h') {a : Address} {names : List String}
    {shared : Bool} {key : String} (hw : w.building = none)
    (ha : w.role? a = some (.scope names shared)) (hkey : key ∈ names) :
    ∃ v, h.find? key a = some (.data v) ∧ v.Shown w ∧ (h.object a).isArray = false := by
  obtain ⟨hbinds, hcomplete⟩ := hh.suits a _ ha
  have hown := hcomplete (by simp [hw]) key hkey
  rw [Object.hasOwn, hbinds.own?_eq] at hown
  obtain ⟨slot, hslot⟩ := Option.isSome_iff_exists.1 hown
  obtain ⟨v, hv, hshown⟩ := hbinds.data _ (Props.mem_of_get? hslot)
  dsimp only at hv
  refine ⟨v, ?_, hshown, ?_⟩
  · rw [hh.find?_scope ha, hbinds.own?_eq, hslot, hv]
  · rw [Object.isArray, Object.elements?, hbinds.kind]
    rfl

/-- The record of a scope is read for the names that it binds. -/
theorem getProperty_scope_sim {a : Address} {names : List String} {shared : Bool} {key : String}
    (hw : w.building = none) (ha : w.role? a = some (.scope names shared)) (hkey : key ∈ names) :
    MSim T w (getProperty invoke (.object a) key) (getProperty invoke' (.object a) key)
      (Same fun w v => v.Shown w) := by
  intro m m' hm
  obtain ⟨v, hfind, hshown, harray⟩ := find?_of_mem hm.heap hw ha hkey
  rw [getProperty_data harray hfind, getProperty_data]
  · exact .ok ⟨w, w.le_refl, hm, rfl, hshown⟩
  · rw [(hm.heap.alike.object a).isArray, harray]
  · rw [hm.heap.alike.find?, hfind]

theorem putProperty_sim (hinvoke : T.solo = false → invoke.Alike T invoke')
    (hw : w.building = none) {target : Value} (htarget : target.Shown w) (key : String)
    {v : Value} (hv : v.Shown w) :
    MSim T w (putProperty invoke target key v) (putProperty invoke' target key v) Equal := by
  cases target with
  | undefined => exact typeError_sim _
  | null => exact typeError_sim _
  | bool b => exact .pure ⟨rfl, trivial⟩
  | num x => exact .pure ⟨rfl, trivial⟩
  | str s => exact .pure ⟨rfl, trivial⟩
  | object a =>
      have hask : MSim T w (ask (fun h => h.find? key a)) (ask (fun h => h.find? key a))
          (Same fun w slot => ∀ s, slot = some s → s.Mild T w ∨ ∃ v, s = .data v) :=
        ask_sim fun h h' hh => ⟨hh.alike.find? key a, fun s hs =>
          (hh.find?_cases a htarget hs).imp_right fun hdata => hdata.2.2.2⟩
      refine .bind hask fun w₁ hw₁ slot hslot => ?_
      split
      · rename_i getter setter
        rcases hslot _ rfl with ⟨hshown, hsolo⟩ | ⟨u, hu⟩
        · have hcall := hinvoke (solo_of_accessor hsolo) w₁ (hw₁.building.trans hw) setter
            (.object a) [v] (hshown.2 _ rfl) (htarget.mono hw₁.roles)
            (by simpa using hv.mono hw₁.roles)
          exact .bind hcall fun _ _ _ _ => .pure ⟨rfl, trivial⟩
        · cases hu
      · exact .pure ⟨rfl, trivial⟩
      · exact setOwn_sim key (World.role?_mono hw₁.roles htarget) (hv.mono hw₁.roles)

theorem putProperty_scope_sim {a : Address} {names : List String} {shared : Bool} {key : String}
    {v : Value} (hw : w.building = none) (ha : w.role? a = some (.scope names shared))
    (hkey : key ∈ names) (hv : v.Shown w)
    (hcount : shared = false → key = Script.counterName → v.Plain) :
    MSim T w (putProperty invoke (.object a) key v) (putProperty invoke' (.object a) key v)
      Equal := by
  refine .bind (ask_sim (R := Same fun _ slot => ∃ v, slot = some (.data v)) fun h h' hh => ?_) ?_
  · obtain ⟨u, hfind, -⟩ := find?_of_mem hh hw ha hkey
    exact ⟨hh.alike.find? key a, u, hfind⟩
  · rintro w₁ hw₁ _ ⟨u, rfl⟩
    exact setOwn_scope (World.role?_mono hw₁.roles ha) hkey (hv.mono hw₁.roles) hcount

theorem deleteProperty_sim {target : Value} (htarget : target.Shown w) (key : String) :
    MSim T w (deleteProperty target key) (deleteProperty target key) Equal := by
  cases target with
  | undefined => exact typeError_sim _
  | null => exact typeError_sim _
  | bool b => exact .pure ⟨rfl, trivial⟩
  | num x => exact .pure ⟨rfl, trivial⟩
  | str s => exact .pure ⟨rfl, trivial⟩
  | object a =>
      refine .bind (modifyHeap_sim fun h h' hh => ?_) fun _ _ _ _ => .pure ⟨rfl, trivial⟩
      exact hh.modify_shown htarget ((hh.matches_of_shown htarget).remove key)

/-! ## Global variables -/

theorem hasGlobal_sim (name : String) : MSim T w (hasGlobal name) (hasGlobal name) Equal :=
  ask_alike fun _ _ hh => hh.hasProperty name _

theorem global_shown (hground : w.Grounded T) :
    (Value.object Intrinsic.globalObject).Shown w :=
  hground.shown (Nat.le_refl _) (by decide)

theorem readGlobal_sim (hinvoke : T.solo = false → invoke.Alike T invoke')
    (hw : w.building = none) (name : String) :
    MSim T w (readGlobal invoke name) (readGlobal invoke' name) (Same fun w v => v.Shown w) := by
  refine .bind (hasGlobal_sim name) fun w₁ hw₁ found _ => ?_
  split
  · intro m m' hm
    exact getProperty_sim hinvoke (hw₁.building.trans hw) (global_shown hm.heap.ground) name m m' hm
  · exact fail_sim _ _

theorem writeGlobal_sim (hinvoke : T.solo = false → invoke.Alike T invoke')
    (hw : w.building = none) (name : String) {v : Value} (hv : v.Shown w) :
    MSim T w (writeGlobal invoke name v) (writeGlobal invoke' name v) Equal :=
  fun m m' hm => putProperty_sim hinvoke hw (global_shown hm.heap.ground) name hv m m' hm

/-! ## Operators -/

theorem unary?_shown {h : Heap} {op : Script.UnaryOp} {v u : Value} (hu : h.unary? op v = some u) :
    u.Shown w := by
  cases op <;> simp only [Heap.unary?, Option.map_eq_some_iff, Option.some.injEq] at hu <;>
    (obtain ⟨x, -, rfl⟩ := hu; trivial)

theorem compare?_shown {h : Heap} {a b u : Value} {accept : Ordering → Bool}
    (hu : h.compare? a b accept = some u) : u.Shown w := by
  obtain ⟨o, -, hu⟩ := Option.bind_eq_some_iff.1 hu
  cases o <;> cases hu <;> trivial

theorem arithmetic?_shown {h : Heap} {a b u : Value} {f : Float → Float → Float}
    (hu : h.arithmetic? a b f = some u) : u.Shown w := by
  obtain ⟨x, -, hu⟩ := Option.bind_eq_some_iff.1 hu
  obtain ⟨y, -, hu⟩ := Option.bind_eq_some_iff.1 hu
  cases hu
  trivial

theorem bitwise?_shown {h : Heap} {a b u : Value} {f : Int32 → Int32 → Int32}
    (hu : h.bitwise? a b f = some u) : u.Shown w := by
  obtain ⟨x, -, hu⟩ := Option.bind_eq_some_iff.1 hu
  obtain ⟨y, -, hu⟩ := Option.bind_eq_some_iff.1 hu
  cases hu
  trivial

theorem add?_shown {h : Heap} {a b u : Value} (hu : h.add? a b = some u) : u.Shown w := by
  obtain ⟨x, -, hu⟩ := Option.bind_eq_some_iff.1 hu
  obtain ⟨y, -, hu⟩ := Option.bind_eq_some_iff.1 hu
  split at hu
  · cases hu
    trivial
  · cases hu
    trivial
  · exact arithmetic?_shown hu

theorem binary?_shown {h : Heap} {op : Script.BinaryOp} {a b u : Value}
    (hu : h.binary? op a b = some u) : u.Shown w := by
  cases op with
  | add => exact add?_shown hu
  | sub | mul | div | mod => exact arithmetic?_shown hu
  | eq | notEq =>
      obtain ⟨x, -, rfl⟩ := Option.map_eq_some_iff.1 hu
      trivial
  | strictEq | strictNotEq =>
      cases hu
      trivial
  | lt | ltE | gt | gtE => exact compare?_shown hu
  | bitAnd | bitOr | bitXor | shl | shr => exact bitwise?_shown hu
  | uShr =>
      obtain ⟨x, -, hu⟩ := Option.bind_eq_some_iff.1 hu
      obtain ⟨y, -, hu⟩ := Option.bind_eq_some_iff.1 hu
      cases hu
      trivial
  | isIn | instanceOf =>
      cases hu
      trivial

/-- What is made of the heap, if it ends, with a property. -/
theorem convert_shown {f : Heap → Option Value} (h : ∀ h h', Heap.Alike h h' → f h' = f h)
    (hshown : ∀ h w v, f h = some v → v.Shown w) :
    MSim T w (convert f) (convert f) (Same fun w v => v.Shown w) := by
  intro m m' hm
  change Ends T (tie T) w _ (demand (f m.heap) m) (demand (f m'.heap) m')
  rw [h _ _ hm.heap.alike]
  cases hf : f m.heap with
  | none => exact .exhausted
  | some v => exact .ok ⟨w, w.le_refl, hm, rfl, hshown _ w v hf⟩

theorem unary_sim (op : Script.UnaryOp) (v : Value) :
    MSim T w (unary op v) (unary op v) (Same fun w v => v.Shown w) :=
  convert_shown (fun _ _ hh => hh.unary? op v) fun _ _ _ => unary?_shown

theorem instanceOf_sim (hinvoke : T.solo = false → invoke.Alike T invoke')
    (hw : w.building = none) (v : Value) {ctor : Value} (hctor : ctor.Shown w) :
    MSim T w (instanceOf invoke v ctor) (instanceOf invoke' v ctor) Equal := by
  refine .bind (ask_alike fun _ _ hh => hh.isCallable ctor) fun w₁ hw₁ callable _ => ?_
  split
  · cases v with
    | object a =>
        refine .bind (getProperty_sim hinvoke (hw₁.building.trans hw) (hctor.mono hw₁.roles) _)
          fun w₂ hw₂ proto _ => ?_
        cases proto with
        | object p =>
            refine ask_alike fun _ _ hh => ?_
            rw [hh.ancestors]
        | _ => exact .pure ⟨rfl, trivial⟩
    | _ => exact .pure ⟨rfl, trivial⟩
  · exact typeError_sim _

theorem binary_sim (hinvoke : T.solo = false → invoke.Alike T invoke') (hw : w.building = none)
    (op : Script.BinaryOp) (a : Value) {b : Value} (hb : b.Shown w) :
    MSim T w (binary invoke op a b) (binary invoke' op a b) (Same fun w v => v.Shown w) := by
  have hplain : ∀ op : Script.BinaryOp, MSim T w (convert (fun h => h.binary? op a b))
      (convert (fun h => h.binary? op a b)) (Same fun w v => v.Shown w) := fun op =>
    convert_shown (fun _ _ hh => hh.binary? op a b) fun _ _ _ => binary?_shown
  cases op with
  | isIn =>
      refine .bind (text_sim a) fun w₁ hw₁ key _ => ?_
      cases b with
      | object x =>
          exact .bind (ask_alike fun _ _ hh => hh.hasProperty key x) fun _ _ _ _ =>
            .pure ⟨rfl, trivial⟩
      | _ => exact .bind (text_sim _) fun _ _ _ _ => typeError_sim _
  | instanceOf =>
      exact .bind (instanceOf_sim hinvoke hw a hb) fun _ _ _ _ => .pure ⟨rfl, trivial⟩
  | _ => exact hplain _

/-! ## Construction -/

/-- Twins are of the same sort. -/
theorem callable?_sim {f : Value} (hf : f.Shown w) :
    MSim T w (ask (fun h => h.callable? f)) (ask (fun h => h.callable? f))
      (fun w c c' => (c = none ∧ c' = none) ∨
        ∃ g g', c = some g ∧ c' = some g' ∧ g.Twin T w g') := by
  refine ask_sim fun h h' hh => ?_
  cases f with
  | object a =>
      have hmatches := hh.matches_of_shown hf
      have hsame := hmatches.alike.isSome_callable?
      cases hc : (h.object a).callable? with
      | none =>
          have hnone : (h'.object a).callable? = none := by simpa [hc] using hsame
          exact .inl ⟨hc, hnone⟩
      | some g =>
          rw [hc] at hsame
          obtain ⟨g', hg'⟩ := Option.isSome_iff_exists.1 hsame
          exact .inr ⟨g, g', hc, hg', hmatches.twin g g' hc hg'⟩
  | _ => exact .inl ⟨rfl, rfl⟩

theorem instanceProto_sim (hinvoke : T.solo = false → invoke.Alike T invoke')
    (hw : w.building = none) {f : Value} (hf : f.Shown w) :
    MSim T w (instanceProto invoke f) (instanceProto invoke' f)
      (Same fun w a => w.Grounded T → w.role? a = some .shown) := by
  refine .bind (getProperty_sim hinvoke hw hf _) fun w₁ hw₁ v hv => ?_
  cases v with
  | object a => exact .pure ⟨rfl, fun _ => hv⟩
  | _ => exact .pure ⟨rfl, fun hground => hground.shown (by decide) (by decide)⟩

theorem instanceOn_sim (hsolo : T.solo = false) (hinvoke : invoke.Alike T invoke')
    (hw : w.building = none) {f : Value} (hf : f.Shown w) {args : List Value}
    (hargs : ∀ v ∈ args, v.Shown w) :
    MSim T w (instanceOn invoke f args) (instanceOn invoke' f args)
      (Same fun w v => v.Shown w) := by
  refine .bind (instanceProto_sim (fun _ => hinvoke) hw hf) fun w₁ hw₁ proto hproto => ?_
  have hnew : MSim T w₁ (alloc (.new .plain (some proto))) (alloc (.new .plain (some proto)))
      (Same fun w a => w.role? a = some .shown) := by
    intro m m' hm
    have hrole := hproto hm.heap.ground
    refine alloc_shown (.refl _) (fun w' hw' _ => matches_new .plain ?_ (.inl ⟨?_, ?_⟩) ?_) m m' hm
    · intro _ h
      cases h
    · exact World.role?_mono hw'.roles hrole
    · intro h
      rw [hsolo] at h
      cases h
    · intro _ _ h
      cases h
  refine .bind hnew fun w₂ hw₂ a ha => ?_
  have hle := w.le_trans hw₁ hw₂
  refine .bind (hinvoke w₂ (hle.building.trans hw) f (.object a) args (hf.mono hle.roles) ha
    fun v hv => (hargs v hv).mono hle.roles) fun w₃ hw₃ v hv => ?_
  cases v with
  | object b => exact .pure ⟨rfl, hv⟩
  | _ => exact .pure ⟨rfl, World.role?_mono hw₃.roles ha⟩

/-- Only where calls may stand anywhere. -/
theorem construct_sim (hsolo : T.solo = false) (hinvoke : invoke.Alike T invoke')
    (hw : w.building = none) {f : Value} (hf : f.Shown w) {args : List Value}
    (hargs : ∀ v ∈ args, v.Shown w) :
    MSim T w (construct invoke f args) (construct invoke' f args) (Same fun w v => v.Shown w) := by
  refine .bind_rel (callable?_sim hf) fun w₁ hw₁ c c' hc => ?_
  have hf₁ := hf.mono hw₁.roles
  have hargs₁ : ∀ v ∈ args, v.Shown w₁ := fun v hv => (hargs v hv).mono hw₁.roles
  have hb₁ := hw₁.building.trans hw
  rcases hc with ⟨rfl, rfl⟩ | ⟨g, g', rfl, rfl, htwin⟩
  · exact .bind (inspect_sim f) fun _ _ _ _ => typeError_sim _
  · cases htwin with
    | native => exact hinvoke w₁ hb₁ f .undefined args hf₁ trivial hargs₁
    | walked => exact instanceOn_sim hsolo hinvoke hb₁ hf₁ hargs₁
    | instrumented => exact instanceOn_sim hsolo hinvoke hb₁ hf₁ hargs₁

end Machine

end Resumption
