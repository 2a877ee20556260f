import Resumption.Machine.Access
import Resumption.Proofs.Match.Twin

/-!
# Matching heaps

Two heaps match in a world if they look alike, if every object is fit for its role, and if functions
that scripts may get hold of are twins.  New objects make the world grow; a change to an object has
to leave it fit for its role.
-/

namespace Resumption

variable {T : Terms} {w w' : World}

/-! ## Objects in their roles -/

/-- Two objects that scripts may get hold of. -/
structure Object.Matches (T : Terms) (w : World) (o o' : Object) : Prop where
  alike : o.Alike o'
  shown : o.Shown w
  plain : T.solo = true → ∀ p ∈ o.props, ∃ v, p.2 = .data v
  proto : ∀ p, o.proto = some p →
    (w.role? p = some .shown ∧ (T.solo = true → Intrinsic.isPrototype p = true)) ∨
      (T.solo = true ∧ p = Intrinsic.arrayProto ∧ o.isArray = true)
  twin : ∀ f f', o.callable? = some f → o'.callable? = some f' → f.Twin T w f'

/-- The value is no object. -/
def Value.Plain : Value → Prop
  | .object _ => False
  | _ => True

/-- The record of a scope with none but the given names.  If nobody else gets hold of it, its count is no
object. -/
structure Object.Binds (w : World) (names : List String) (shared : Bool) (o : Object) : Prop where
  kind : o.kind = .plain
  proto : o.proto = none
  data : ∀ p ∈ o.props, ∃ v, p.2 = .data v ∧ v.Shown w
  names : ∀ p ∈ o.props, p.1 ∈ names
  count : shared = false → ∀ v, (Script.counterName, .data v) ∈ o.props → v.Plain

/-- The objects at an address are fit for the role. -/
def Role.Suits (T : Terms) (w : World) (a : Address) (o o' : Object) : Role → Prop
  | .shown => o.Matches T w o' ∧ (Intrinsic.isPrototype a = true → o.isArray = false)
  | .hidden => True
  | .scope names shared =>
    o.Binds w names shared ∧ (w.building ≠ some a → ∀ name ∈ names, o.hasOwn name = true)
  | .fixed p => o = p

/-- The array prototype is out of reach when its methods would get in the way, but what else it has
may be had. -/
structure Object.Lends (w : World) (o : Object) : Prop where
  kind : o.kind = .plain
  proto : o.proto = some Intrinsic.objectProto
  data : ∀ p ∈ o.props, ∃ v, p.2 = .data v ∧
    (Machine.debugMethodNames.contains p.1 = false → v.Shown w)

/-- The role of the objects that every machine starts with. -/
def Terms.ground (T : Terms) (a : Address) : Role :=
  if T.solo = true ∧ a = Intrinsic.arrayProto then .hidden else .shown

/-- They are in the world. -/
def World.Grounded (T : Terms) (w : World) : Prop :=
  ∀ a ≤ Intrinsic.globalObject, w.role? a = some (T.ground a)

structure Heap.Match (T : Terms) (w : World) (h h' : Heap) : Prop where
  alike : h.Alike h'
  size : w.roles.length = h.size
  suits : ∀ a r, w.role? a = some r → r.Suits T w a (h.object a) (h'.object a)
  ground : w.Grounded T
  lends : T.solo = true → (h.object Intrinsic.arrayProto).Lends w

theorem World.Grounded.mono (hw : w.roles <+: w'.roles) (h : w.Grounded T) : w'.Grounded T :=
  fun a ha => World.role?_mono hw (h a ha)

theorem World.Grounded.shown (h : w.Grounded T) {a : Address} (ha : a ≤ Intrinsic.globalObject)
    (hne : a ≠ Intrinsic.arrayProto) : w.role? a = some .shown := by
  rw [h a ha, Terms.ground, if_neg (fun hsolo => hne hsolo.2)]

theorem Object.Matches.mono {o o' : Object} (hw : w.roles <+: w'.roles) (h : o.Matches T w o') :
    o.Matches T w' o' where
  alike := h.alike
  shown := h.shown.mono hw
  plain := h.plain
  proto p hp := (h.proto p hp).imp_left fun hshown => ⟨World.role?_mono hw hshown.1, hshown.2⟩
  twin f f' hf hf' := (h.twin f f' hf hf').mono hw

theorem Object.Binds.mono {names : List String} {shared : Bool} {o : Object}
    (hw : w.roles <+: w'.roles) (h : o.Binds w names shared) : o.Binds w' names shared :=
  { h with data := fun p hp => (h.data p hp).imp fun _ hv => ⟨hv.1, hv.2.mono hw⟩ }

theorem Object.Lends.mono {o : Object} (hw : w.roles <+: w'.roles) (h : o.Lends w) : o.Lends w' :=
  { h with data := fun p hp => (h.data p hp).imp fun _ hv =>
      ⟨hv.1, fun hkey => (hv.2 hkey).mono hw⟩ }

theorem Role.Suits.mono {a : Address} {o o' : Object} {r : Role} (hw : w.roles <+: w'.roles)
    (hb : w'.building = w.building) (h : r.Suits T w a o o') : r.Suits T w' a o o' := by
  cases r with
  | shown => exact ⟨h.1.mono hw, h.2⟩
  | hidden => trivial
  | scope names shared => exact ⟨h.1.mono hw, by rw [hb]; exact h.2⟩
  | fixed p => exact h

/-! ## Changes to an object -/

/-- A change leaves objects that scripts may get hold of fit for that, and arrays are arrays. -/
structure Object.Stays (T : Terms) (w : World) (o p p' : Object) : Prop where
  fit : p.Matches T w p'
  array : p.isArray = o.isArray

/-- The new slot of a changed object is fit for it. -/
def Slot.Mild (T : Terms) (w : World) (slot : Slot) : Prop :=
  slot.Shown w ∧ (T.solo = true → ∃ v, slot = .data v)

theorem Slot.Mild.data {v : Value} (hv : v.Shown w) : (Slot.data v).Mild T w :=
  ⟨hv, fun _ => ⟨v, rfl⟩⟩

/-- A change to the slots. -/
theorem Object.Matches.withProps {o o' : Object} (h : o.Matches T w o')
    {props : List (String × Slot)} (hprops : ∀ q ∈ props, q ∈ o.props ∨ q.2.Mild T w) :
    Object.Matches T w { o with props } { o' with props } where
  alike := ⟨h.alike.kind, h.alike.proto, rfl⟩
  shown := ⟨fun q hq => (hprops q hq).elim (h.shown.slots q) fun hmild => hmild.1, h.shown.items⟩
  plain hsolo q hq := (hprops q hq).elim (h.plain hsolo q) fun hmild => hmild.2 hsolo
  proto := h.proto
  twin := h.twin

/-- A change to the elements. -/
theorem Object.Matches.withItems {o o' : Object} (h : o.Matches T w o') {items : Array Value}
    (hitems : ∀ v ∈ items, v.Shown w) :
    Object.Matches T w { o with kind := .array items } { o' with kind := .array items } where
  alike := ⟨.array items, h.alike.proto, h.alike.props⟩
  shown := ⟨h.shown.slots, fun items' hitems' => by cases hitems'; exact hitems⟩
  plain := h.plain
  proto p hp := (h.proto p hp).imp_right fun hsolo => ⟨hsolo.1, hsolo.2.1, rfl⟩
  twin _ _ hf := by cases hf

theorem mem_resize {items : Array Value} {n : Nat} (hitems : ∀ v ∈ items, v.Shown w) :
    ∀ v ∈ resize items n, v.Shown w := by
  intro v hv
  unfold resize at hv
  split at hv
  · rw [Array.take_eq_extract, Array.mem_extract_iff_getElem] at hv
    obtain ⟨k, hk, rfl⟩ := hv
    exact hitems _ (Array.getElem_mem _)
  · rcases Array.mem_append.1 hv with hv | hv
    · exact hitems v hv
    · rw [Array.eq_of_mem_replicate hv]
      trivial

theorem mem_setIfInBounds {items : Array Value} {i : Nat} {v : Value}
    (hitems : ∀ v ∈ items, v.Shown w) (hv : v.Shown w) :
    ∀ u ∈ items.setIfInBounds i v, u.Shown w := by
  intro u hu
  rcases Array.mem_or_eq_of_mem_setIfInBounds hu with hu | rfl
  · exact hitems u hu
  · exact hv

theorem mem_setElement {items : Array Value} {i : Nat} {v : Value}
    (hitems : ∀ v ∈ items, v.Shown w) (hv : v.Shown w) :
    ∀ u ∈ Object.setElement items i v, u.Shown w := by
  unfold Object.setElement
  split
  · exact mem_setIfInBounds (mem_resize hitems) hv
  · exact mem_setIfInBounds hitems hv

namespace Object.Matches

variable {o o' : Object}

theorem setLength (h : o.Matches T w o') (n : Float) :
    Stays T w o (o.setLength n) (o'.setLength n) := by
  obtain ⟨kind, proto, props⟩ := o
  obtain ⟨kind', proto', props'⟩ := o'
  cases h.alike.kind with
  | array items =>
      simp only [Object.setLength]
      split
      · exact ⟨h.withItems (mem_resize (h.shown.items items rfl)), rfl⟩
      · exact ⟨h, rfl⟩
  | plain => exact ⟨h, rfl⟩
  | function hf => exact ⟨h, rfl⟩
  | error => exact ⟨h, rfl⟩

/-- A new value, or another one, under a key. -/
theorem setOwn {v : Value} (h : o.Matches T w o') (key : String) (hv : v.Shown w) :
    Stays T w o (o.setOwn key v) (o'.setOwn key v) := by
  have hprops : ∀ q ∈ Props.set key (.data v) o.props, q ∈ o.props ∨ q.2.Mild T w := by
    intro q hq
    rcases Props.mem_set hq with rfl | hq
    · exact .inr (.data hv)
    · exact .inl hq
  have hset := h.withProps hprops
  obtain ⟨kind, proto, props⟩ := o
  obtain ⟨kind', proto', props'⟩ := o'
  cases h.alike.props
  cases h.alike.kind with
  | array items =>
      simp only [Object.setOwn]
      split
      · exact ⟨h.withItems (mem_setElement (h.shown.items items rfl) hv), rfl⟩
      · exact ⟨hset, rfl⟩
  | plain => exact ⟨hset, rfl⟩
  | function hf => exact ⟨hset, rfl⟩
  | error => exact ⟨hset, rfl⟩

theorem remove (h : o.Matches T w o') (key : String) :
    Stays T w o (o.remove key).2 (o'.remove key).2 := by
  have hprops : ∀ q ∈ Props.erase key o.props, q ∈ o.props ∨ q.2.Mild T w :=
    fun q hq => .inl (List.mem_filter.1 hq).1
  have herase := h.withProps hprops
  obtain ⟨kind, proto, props⟩ := o
  obtain ⟨kind', proto', props'⟩ := o'
  cases h.alike.props
  cases h.alike.kind with
  | array items =>
      simp only [Object.remove]
      split
      · exact ⟨h.withItems (mem_setIfInBounds (h.shown.items items rfl) trivial), rfl⟩
      · exact ⟨herase, rfl⟩
  | plain => exact ⟨herase, rfl⟩
  | function hf => exact ⟨herase, rfl⟩
  | error => exact ⟨herase, rfl⟩

theorem defineAccessor {get set : Option Value} (h : o.Matches T w o') (key : String)
    (hsolo : T.solo = false) (hget : ∀ v, get = some v → v.Shown w)
    (hset : ∀ v, set = some v → v.Shown w) :
    Stays T w o (o.defineAccessor key get set) (o'.defineAccessor key get set) := by
  have hor : ∀ {x y : Option Value}, (∀ v, x = some v → v.Shown w) → (∀ v, y = some v → v.Shown w) →
      ∀ v, x.or y = some v → v.Shown w := by
    intro x y hx hy v hv
    rcases Option.or_eq_some_iff.1 hv with hv | ⟨-, hv⟩
    · exact hx v hv
    · exact hy v hv
  unfold Object.defineAccessor
  dsimp only
  rw [h.alike.props]
  refine ⟨h.withProps fun q hq => ?_, rfl⟩
  rcases Props.mem_set hq with rfl | hq
  · refine .inr ⟨?_, fun hyes => absurd (hsolo.symm.trans hyes) Bool.false_ne_true⟩
    dsimp only
    split
    · rename_i oldGet oldSet hold
      have hshown := h.shown.slots _ (Props.mem_of_get? hold)
      exact ⟨hor hget hshown.1, hor hset hshown.2⟩
    · exact ⟨hget, hset⟩
  · exact .inl hq

end Object.Matches

/-- Own slots are kept as such, or they are made up of elements. -/
theorem Object.own?_eq_some {o : Object} {key : String} {slot : Slot}
    (h : o.own? key = some slot) : (key, slot) ∈ o.props ∨ ∃ v, slot = .data v := by
  obtain ⟨kind, proto, props⟩ := o
  cases kind with
  | array items =>
      rw [Object.own?] at h
      dsimp only at h
      split at h
      · cases h
        exact .inr ⟨_, rfl⟩
      · split at h
        · obtain ⟨v, -, rfl⟩ := Option.map_eq_some_iff.1 h
          exact .inr ⟨v, rfl⟩
        · exact .inl (Props.mem_of_get? h)
  | plain => exact .inl (Props.mem_of_get? h)
  | function f => exact .inl (Props.mem_of_get? h)
  | error => exact .inl (Props.mem_of_get? h)

theorem Object.Matches.own? {o o' : Object} (h : o.Matches T w o') {key : String} {slot : Slot}
    (hslot : o.own? key = some slot) : slot.Mild T w := by
  refine ⟨h.shown.own? hslot, fun hsolo => ?_⟩
  rcases Object.own?_eq_some hslot with hslot | hdata
  · exact h.plain hsolo _ hslot
  · exact hdata

theorem Object.kind_setOwn {o : Object} (h : o.kind = .plain) (key : String) (v : Value) :
    (o.setOwn key v).kind = .plain := by
  obtain ⟨kind, proto, props⟩ := o
  cases h
  rfl

theorem Object.hasOwn_setOwn {o : Object} (h : o.kind = .plain) (key other : String) (v : Value) :
    (o.setOwn key v).hasOwn other = (key == other || o.hasOwn other) := by
  obtain ⟨kind, proto, props⟩ := o
  cases h
  simp only [Object.setOwn, Object.hasOwn, Object.own?, Props.get?_set]
  cases key == other <;> rfl

namespace Object.Binds

variable {o : Object} {names : List String} {shared : Bool}

/-- A name of its own gets a value. -/
theorem setOwn {key : String} {v : Value} (h : o.Binds w names shared) (hkey : key ∈ names)
    (hv : v.Shown w) (hcount : shared = false → key = Script.counterName → v.Plain) :
    (o.setOwn key v).Binds w names shared := by
  obtain ⟨kind, proto, props⟩ := o
  cases h.kind
  refine ⟨rfl, h.proto, fun p hp => ?_, fun p hp => ?_, fun hshared u hu => ?_⟩
  · rcases Props.mem_set hp with rfl | hp
    · exact ⟨v, rfl, hv⟩
    · exact h.data p hp
  · rcases Props.mem_set hp with rfl | hp
    · exact hkey
    · exact h.names p hp
  · rcases Props.mem_set hu with heq | hu
    · cases heq
      exact hcount hshared rfl
    · exact h.count hshared u hu

theorem own?_eq (h : o.Binds w names shared) (key : String) : o.own? key = Props.get? key o.props := by
  rw [Object.own?, h.kind]

theorem mem_names (h : o.Binds w names shared) {key : String} (hkey : o.hasOwn key = true) :
    key ∈ names := by
  rw [hasOwn, h.own?_eq] at hkey
  obtain ⟨slot, hslot⟩ := Option.isSome_iff_exists.1 hkey
  exact h.names _ (Props.mem_of_get? hslot)

theorem hasOwn_setOwn (h : o.Binds w names shared) (key other : String) (v : Value) :
    (o.setOwn key v).hasOwn other = (key == other || o.hasOwn other) :=
  Object.hasOwn_setOwn h.kind key other v

theorem own? (h : o.Binds w names shared) {key : String} {slot : Slot}
    (hslot : o.own? key = some slot) : slot.Mild T w := by
  rw [h.own?_eq] at hslot
  obtain ⟨v, hv, hshown⟩ := h.data _ (Props.mem_of_get? hslot)
  dsimp only at hv
  subst hv
  exact .data hshown

theorem alike_setOwn {o' : Object} (h : o.Binds w names shared) (halike : o.Alike o') (key : String)
    (v : Value) : (o.setOwn key v).Alike (o'.setOwn key v) := by
  obtain ⟨kind, proto, props⟩ := o
  obtain ⟨kind', proto', props'⟩ := o'
  obtain ⟨hkind, hproto, hprops⟩ := halike
  cases h.kind
  cases hkind
  cases hprops
  exact ⟨.plain, hproto, rfl⟩

end Object.Binds

/-! ## Changes to the heap -/

namespace Heap

theorem object_alloc (h : Heap) (o : Object) (a : Address) :
    (h.alloc o).2.object a = if a = h.size then o else h.object a := by
  simp only [alloc, object, size, Array.getD_eq_getD_getElem?, Array.getElem?_push]
  split <;> rfl

theorem size_alloc (h : Heap) (o : Object) : (h.alloc o).2.size = h.size + 1 :=
  Array.size_push _

theorem object_modify (h : Heap) (a b : Address) (g : Object → Object) (ha : a < h.size) :
    (h.modify a g).object b = if b = a then g (h.object a) else h.object b := by
  simp only [modify, object, Array.getD_eq_getD_getElem?, Array.getElem?_modify]
  by_cases hb : b = a
  · subst hb
    simp [Array.getElem?_eq_getElem ha]
  · simp [hb, Ne.symm hb]

theorem object_modify_of_ne (h : Heap) {a b : Address} (g : Object → Object) (hab : b ≠ a) :
    (h.modify a g).object b = h.object b := by
  simp only [modify, object, Array.getD_eq_getD_getElem?, Array.getElem?_modify, if_neg (Ne.symm hab)]

theorem size_modify (h : Heap) (a : Address) (g : Object → Object) :
    (h.modify a g).size = h.size :=
  Array.size_modify

end Heap

namespace Heap.Match

variable {h h' : Heap} {a : Address}

theorem lt_size (hh : h.Match T w h') {r : Role} (ha : w.role? a = some r) : a < h.size := by
  rw [← hh.size]
  exact World.lt_of_role? ha

/-- A new object, fit for its role. -/
theorem alloc (hh : h.Match T w h') {o o' : Object} (r : Role) (halike : o.Alike o')
    (hsuits : r.Suits T (w.grow r) h.size o o') :
    (h.alloc o).2.Match T (w.grow r) (h'.alloc o').2 := by
  have hsize' : h'.size = h.size := hh.alike.size
  have hgrow := w.le_grow r
  refine ⟨⟨?_, fun a => ?_⟩, ?_, fun a r' ha => ?_, fun a ha => ?_, fun hsolo => ?_⟩
  · rw [size_alloc, size_alloc, hsize']
  · rw [object_alloc, object_alloc, hsize']
    split
    · exact halike
    · exact hh.alike.object a
  · rw [size_alloc, ← hh.size, World.grow, List.length_append]
    rfl
  · rw [object_alloc, object_alloc, hsize']
    split
    · rename_i heq
      rw [heq, ← hh.size, World.role?_grow_self] at ha
      cases ha
      rw [heq]
      exact hsuits
    · rename_i hne
      have hlt : a < w.roles.length := by
        have hle := World.lt_of_role? ha
        rw [World.grow, List.length_append, List.length_singleton] at hle
        exact Nat.lt_of_le_of_ne (Nat.lt_succ_iff.1 hle) (hh.size ▸ hne)
      rw [World.role?_grow_of_lt hlt] at ha
      exact (hh.suits a r' ha).mono hgrow.roles hgrow.building
  · exact hh.ground.mono hgrow.roles a ha
  · have hlt := hh.lt_size (hh.ground Intrinsic.arrayProto (by decide))
    rw [object_alloc, if_neg (Nat.ne_of_lt hlt)]
    exact (hh.lends hsolo).mono hgrow.roles

/-- A change to an object that leaves it fit for its role. -/
theorem modify (hh : h.Match T w h') {r : Role} {g g' : Object → Object}
    (ha : w.role? a = some r) (halike : (g (h.object a)).Alike (g' (h'.object a)))
    (hsuits : r.Suits T w a (g (h.object a)) (g' (h'.object a)))
    (hlends : T.solo = true → a ≠ Intrinsic.arrayProto) :
    (h.modify a g).Match T w (h'.modify a g') := by
  have hlt := hh.lt_size ha
  have hlt' : a < h'.size := by rw [hh.alike.size]; exact hlt
  refine ⟨⟨?_, fun b => ?_⟩, ?_, fun b r' hb => ?_, hh.ground, fun hsolo => ?_⟩
  · rw [size_modify, size_modify, hh.alike.size]
  · rw [object_modify h a b g hlt, object_modify h' a b g' hlt']
    split
    · exact halike
    · exact hh.alike.object b
  · rw [size_modify, hh.size]
  · rw [object_modify h a b g hlt, object_modify h' a b g' hlt']
    split
    · rename_i heq
      cases heq
      rw [ha] at hb
      cases hb
      exact hsuits
    · exact hh.suits b r' hb
  · rw [object_modify h a _ g hlt, if_neg (hlends hsolo).symm]
    exact hh.lends hsolo

theorem ne_arrayProto (hh : h.Match T w h') {r : Role} (ha : w.role? a = some r)
    (hr : r ≠ .hidden) (hsolo : T.solo = true) : a ≠ Intrinsic.arrayProto := by
  rintro rfl
  rw [hh.ground _ (by decide)] at ha
  cases ha
  simp [Terms.ground, hsolo] at hr

theorem matches_of_shown (hh : h.Match T w h') (ha : w.role? a = some .shown) :
    (h.object a).Matches T w (h'.object a) :=
  (hh.suits a _ ha).1

theorem modify_shown (hh : h.Match T w h') {g : Object → Object} (ha : w.role? a = some .shown)
    (hg : (h.object a).Stays T w (g (h.object a)) (g (h'.object a))) :
    (h.modify a g).Match T w (h'.modify a g) := by
  refine hh.modify ha hg.fit.alike ⟨hg.fit, fun hproto => ?_⟩ (hh.ne_arrayProto ha (by simp))
  rw [hg.array]
  exact (hh.suits a _ ha).2 hproto

/-- An array gets other elements. -/
theorem modify_items (hh : h.Match T w h') {items : Array Value} (ha : w.role? a = some .shown)
    (hproto : Intrinsic.isPrototype a = false) (hitems : ∀ v ∈ items, v.Shown w) :
    (h.modify a (fun o => { o with kind := .array items })).Match T w
      (h'.modify a (fun o => { o with kind := .array items })) := by
  have hfit := (hh.matches_of_shown ha).withItems hitems
  refine hh.modify ha hfit.alike ⟨hfit, fun hyes => ?_⟩ (hh.ne_arrayProto ha (by simp))
  rw [hproto] at hyes
  cases hyes

/-- A variable gets a value. -/
theorem modify_scope (hh : h.Match T w h') {names : List String} {shared : Bool} {key : String}
    {v : Value} (ha : w.role? a = some (.scope names shared)) (hkey : key ∈ names)
    (hv : v.Shown w) (hcount : shared = false → key = Script.counterName → v.Plain) :
    (h.modify a (fun o => o.setOwn key v)).Match T w (h'.modify a (fun o => o.setOwn key v)) := by
  obtain ⟨hbinds, hcomplete⟩ := hh.suits a _ ha
  refine hh.modify ha (hbinds.alike_setOwn (hh.alike.object a) key v)
    ⟨hbinds.setOwn hkey hv hcount, fun hbuilding name hname => ?_⟩ (hh.ne_arrayProto ha (by simp))
  rw [hbinds.hasOwn_setOwn, hcomplete hbuilding name hname, Bool.or_true]

/-! ### Looking up -/

/-- What is found in the array prototype when that is out of reach. -/
theorem find?_arrayProto (hh : h.Match T w h') (hsolo : T.solo = true) {key : String} {slot : Slot}
    (hbase : ∀ slot, h.find? key Intrinsic.objectProto = some slot → slot.Mild T w)
    (hslot : h.find? key Intrinsic.arrayProto = some slot) :
    slot.Mild T w ∨ (Machine.debugMethodNames.contains key = true ∧ ∃ v, slot = .data v) := by
  obtain ⟨hkind, hproto, hdata⟩ := hh.lends hsolo
  rw [Heap.find?] at hslot
  split at hslot
  · rename_i found hown
    cases hslot
    rw [Object.own?, hkind] at hown
    obtain ⟨v, hv, hshown⟩ := hdata _ (Props.mem_of_get? hown)
    dsimp only at hv hshown
    subst hv
    cases hkey : Machine.debugMethodNames.contains key with
    | true => exact .inr ⟨rfl, v, rfl⟩
    | false => exact .inl (.data (hshown hkey))
  · have hparent : h.proto? Intrinsic.arrayProto = some Intrinsic.objectProto := by
      rw [Heap.proto?, hproto]
      rfl
    split at hslot
    · rename_i hp
      rw [hparent] at hp
      cases hp
      exact .inl (hbase _ hslot)
    · cases hslot

/-- A slot that is found is one that scripts may have, unless it is one of the array methods that
are out of reach. -/
theorem find?_cases (hh : h.Match T w h') {key : String} {slot : Slot} (a : Address)
    (ha : w.role? a = some .shown) (hslot : h.find? key a = some slot) :
    slot.Mild T w ∨ (T.solo = true ∧ (h.object a).isArray = true ∧
      Machine.debugMethodNames.contains key = true ∧ ∃ v, slot = .data v) := by
  induction a using Nat.strongRecOn generalizing slot with
  | _ a ih =>
      have hmatches := hh.matches_of_shown ha
      rw [Heap.find?] at hslot
      split at hslot
      · rename_i found hown
        cases hslot
        exact .inl (hmatches.own? hown)
      · split at hslot
        · rename_i p hp
          have hlt := proto?_lt hp
          have hproto : (h.object a).proto = some p := (Option.filter_eq_some_iff.1 hp).1
          -- Prototypes are no arrays, so only an array itself could lead to the array methods.
          have hbelow : ∀ b < a, w.role? b = some .shown → (T.solo = true →
              Intrinsic.isPrototype b = true) → ∀ slot, h.find? key b = some slot →
              slot.Mild T w := by
            intro b hb hrole hisProto slot hslot
            rcases ih b hb hrole hslot with hmild | ⟨hsolo, harray, -⟩
            · exact hmild
            · rw [(hh.suits b _ hrole).2 (hisProto hsolo)] at harray
              cases harray
          rcases hmatches.proto p hproto with ⟨hrole, hisProto⟩ | ⟨hsolo, rfl, harray⟩
          · exact .inl (hbelow p hlt hrole hisProto slot hslot)
          · refine (hh.find?_arrayProto hsolo (fun slot => ?_) hslot).imp_right fun hdata =>
              ⟨hsolo, harray, hdata⟩
            exact hbelow _ (Nat.lt_trans (by decide) hlt)
              (hh.ground.shown (by decide) (by decide)) (fun _ => rfl) slot
        · cases hslot

theorem find?_mild (hh : h.Match T w h') {key : String} {slot : Slot} (a : Address)
    (ha : w.role? a = some .shown)
    (hkey : T.solo = true → (h.object a).isArray = true →
      Machine.debugMethodNames.contains key = false)
    (hslot : h.find? key a = some slot) : slot.Mild T w := by
  rcases hh.find?_cases a ha hslot with hmild | ⟨hsolo, harray, hcontains, -⟩
  · exact hmild
  · rw [hkey hsolo harray] at hcontains
    cases hcontains

/-- Scopes inherit nothing. -/
theorem find?_scope (hh : h.Match T w h') {names : List String} {shared : Bool} {key : String}
    (ha : w.role? a = some (.scope names shared)) :
    h.find? key a = (h.object a).own? key := by
  have hbinds := (hh.suits a _ ha).1
  have hparent : h.proto? a = none := by
    rw [Heap.proto?, hbinds.proto]
    rfl
  rw [Heap.find?]
  split
  · rename_i hown
    rw [hown]
  · rename_i hown
    split
    · rename_i hp
      rw [hparent] at hp
      cases hp
    · rw [hown]

end Heap.Match

/-! ## Asking the heap -/

namespace Machine

variable {α : Type} {invoke : Invoke} {a : Address} {key : String} {v : Value} {m : Machine}

theorem get_bind (g : Machine → MachineM α) (m : Machine) : (get >>= g) m = g m m := rfl

theorem heapM_bind (g : Heap → MachineM α) (m : Machine) : (heapM >>= g) m = g m.heap m := rfl

theorem registry_bind (id : Nat) (g : Registry → MachineM α) (m : Machine) :
    (registry id >>= g) m = g (m.registries.getD id default) m := rfl

theorem ask_bind {β : Type} (f : Heap → α) (g : α → MachineM β) (m : Machine) :
    (ask f >>= g) m = g (f m.heap) m := rfl

/-- The debug method that stands in front of what an object has under a key. -/
def methodInFront? (m : Machine) (a : Address) (key : String) : Option Value :=
  if debugMethodNames.contains key && (m.heap.object a).isArray then m.debugMethod? key else none

theorem getProperty_of_method (invoke : Invoke) (h : m.methodInFront? a key = some v) :
    getProperty invoke (.object a) key m = .ok v m := by
  rw [methodInFront?] at h
  simp only [getProperty, get_bind, h]
  rfl

/-- With no method in front, the prototype of a function is looked at apart. -/
theorem getProperty_of_no_method (invoke : Invoke) (h : m.methodInFront? a key = none) :
    getProperty invoke (.object a) key m = (if key == "prototype" then prototypeOf a
      else ask (fun h => h.find? key a) >>= readSlot invoke (.object a)) m := by
  rw [methodInFront?] at h
  simp only [getProperty, get_bind, h]

theorem prototypeOf_data (h : m.heap.find? "prototype" a = some (.data v)) :
    prototypeOf a m = .ok v m := by
  rw [prototypeOf, heapM_bind, h]
  rfl

end Machine

end Resumption
