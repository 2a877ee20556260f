import Mathlib.Order.Basic
import Resumption.Machine.Setup
import Resumption.Proofs.Code.Image
import Resumption.Proofs.Index.Registered
import Resumption.Proofs.Match.Heap
import Resumption.Proofs.Value.Slots

/-!
# What refers to what is there

A realm is what values, scopes and functions may refer to: the objects of a heap and the trees of
the registries.  It only ever grows, and what lies in a realm lies in every larger one.  A heap is
sound if its objects lie in its own realm, and if each of them is younger than the one it inherits
from.
-/

namespace Resumption

open Registry

structure Realm where
  /-- The number of objects. -/
  size : Nat
  registries : Array Registry

namespace Realm

def registry (w : Realm) (id : Nat) : Registry := w.registries.getD id default

/-- There are more objects, more trees in the registries, and more registries. -/
instance : Preorder Realm where
  le w w' := w.size ≤ w'.size ∧ (∀ id, (w.registry id).Le (w'.registry id)) ∧
    w.registries.size ≤ w'.registries.size
  le_refl w := ⟨Nat.le_refl _, fun _ => .refl _, Nat.le_refl _⟩
  le_trans _ _ _ h h' := ⟨Nat.le_trans h.1 h'.1, fun id => (h.2.1 id).trans (h'.2.1 id),
    Nat.le_trans h.2.2 h'.2.2⟩

/-- The trees of `r` are found in the registry of the number. -/
structure Keeps (w : Realm) (id : Nat) (r : Registry) : Prop where
  built : r.Built
  le : r.Le (w.registry id)

variable {w w' : Realm}

theorem Keeps.mono (hw : w ≤ w') {id : Nat} {r : Registry} (h : w.Keeps id r) : w'.Keeps id r :=
  ⟨h.built, h.le.trans (hw.2.1 id)⟩

theorem Keeps.tree {id i : Nat} {r : Registry} {ns : String} {t : IndexedTree} (h : w.Keeps id r)
    (ht : r.tree ns i = .ok t) : (w.registry id).tree ns i = .ok t :=
  h.le.tree h.built ht

end Realm

variable {w w' : Realm} {α : Type}

/-! ## Values, scopes and functions -/

def Value.In (w : Realm) : Value → Prop
  | .object a => a < w.size
  | _ => True

theorem Value.In.mono (hw : w ≤ w') {v : Value} (h : v.In w) : v.In w' := by
  cases v with
  | object a => exact Nat.lt_of_lt_of_le h hw.1
  | undefined | null | bool _ | num _ | str _ => trivial

def Values.In (w : Realm) (l : List Value) : Prop := ∀ v ∈ l, v.In w

theorem Values.In.mono (hw : w ≤ w') {l : List Value} (h : Values.In w l) : Values.In w' l :=
  fun v hv => (h v hv).mono hw

theorem Values.In.getD {l : List Value} (h : Values.In w l) (i : Nat) : (l.getD i .undefined).In w := by
  rw [List.getD_eq_getElem?_getD]
  cases hi : l[i]? with
  | none => trivial
  | some v => exact h v (List.mem_of_getElem? hi)

def Chain.In (w : Realm) (c : Chain) : Prop := ∀ link ∈ c, link.record < w.size

theorem Chain.In.mono (hw : w ≤ w') {c : Chain} (h : Chain.In w c) : Chain.In w' c :=
  fun link hlink => Nat.lt_of_lt_of_le (h link hlink) hw.1

theorem Chain.In.cons {c : Chain} {link : Link} (hlink : link.record < w.size) (h : Chain.In w c) :
    Chain.In w (link :: c) :=
  List.forall_mem_cons.2 ⟨hlink, h⟩

/-- A function of a source tree is found where it says it is; instrumented code has the positions of
a tree that is found there. -/
inductive Callable.In (w : Realm) : Callable → Prop
  | native (f : Native) : In w (.native f)
  | instrumented {closure : InstrumentedClosure} {r : Registry} {i : Nat} {n : Script.Node}
      {f : Script.Func} (chain : Chain.In w closure.chain) (kept : w.Keeps closure.registry r)
      (image : Code.FuncImage r closure.func.ns i n f closure.func) : In w (.instrumented closure)
  | stepped {closure : SteppedClosure} {r : Registry} (chain : Chain.In w closure.chain)
      (kept : w.Keeps closure.registry r)
      (tree : r.tree closure.tree.ns closure.index = .ok closure.tree) : In w (.stepped closure)

theorem Callable.In.mono (hw : w ≤ w') {f : Callable} (h : f.In w) : f.In w' := by
  cases h with
  | native f => exact .native f
  | instrumented chain kept image => exact .instrumented (chain.mono hw) (kept.mono hw) image
  | stepped chain kept tree => exact .stepped (chain.mono hw) (kept.mono hw) tree

/-! ## Objects -/

def Slot.In (w : Realm) : Slot → Prop
  | .data v => v.In w
  | .accessor get set => (∀ v, get = some v → v.In w) ∧ ∀ v, set = some v → v.In w

theorem Slot.In.mono (hw : w ≤ w') {s : Slot} (h : s.In w) : s.In w' := by
  cases s with
  | data v => exact Value.In.mono hw h
  | accessor get set => exact ⟨fun v hv => (h.1 v hv).mono hw, fun v hv => (h.2 v hv).mono hw⟩

def Items.In (w : Realm) (items : Array Value) : Prop := ∀ v ∈ items, v.In w

theorem Items.In.toList {items : Array Value} (h : Items.In w items) : Values.In w items.toList :=
  fun v hv => h v (Array.mem_toList_iff.1 hv)

theorem Values.In.toArray {l : List Value} (h : Values.In w l) : Items.In w l.toArray :=
  fun v hv => h v (List.mem_toArray.1 hv)

theorem Items.In.getElem? {items : Array Value} (h : Items.In w items) {i : Nat} {v : Value}
    (hv : items[i]? = some v) : v.In w :=
  h v (Array.mem_of_getElem? hv)

def ObjectKind.In (w : Realm) : ObjectKind → Prop
  | .array items => Items.In w items
  | .function f => f.In w
  | .plain | .error => True

theorem ObjectKind.In.mono (hw : w ≤ w') {k : ObjectKind} (h : k.In w) : k.In w' := by
  cases k with
  | array items => exact fun v hv => (h v hv).mono hw
  | function f => exact Callable.In.mono hw h
  | plain | error => trivial

structure Object.In (w : Realm) (o : Object) : Prop where
  kind : o.kind.In w
  props : ∀ p ∈ o.props, p.2.In w

namespace Object

variable {o : Object}

theorem In.mono (hw : w ≤ w') (h : o.In w) : o.In w' :=
  ⟨h.kind.mono hw, fun p hp => (h.props p hp).mono hw⟩

theorem In.new {kind : ObjectKind} (hkind : kind.In w) (proto : Option Address) :
    (Object.new kind proto).In w :=
  ⟨hkind, fun _ hp => absurd hp List.not_mem_nil⟩

theorem In.items {items : Array Value} (h : o.In w) (hitems : Items.In w items) :
    Object.In w { o with kind := .array items } :=
  ⟨hitems, h.props⟩

theorem In.elements? {items : Array Value} (h : o.In w) (hitems : o.elements? = some items) :
    Items.In w items := by
  obtain ⟨hkind, -⟩ := h
  rw [Object.elements?] at hitems
  split at hitems
  · rename_i heq
    cases hitems
    rw [heq] at hkind
    exact hkind
  · cases hitems

theorem In.callable? {f : Callable} (h : o.In w) (hf : o.callable? = some f) : f.In w := by
  obtain ⟨hkind, -⟩ := h
  rw [Object.callable?] at hf
  split at hf
  · rename_i heq
    cases hf
    rw [heq] at hkind
    exact hkind
  · cases hf

theorem In.get? {key : String} {s : Slot} (h : o.In w) (hs : Props.get? key o.props = some s) :
    s.In w :=
  h.props _ (Props.mem_of_get? hs)

theorem In.own? {key : String} {s : Slot} (h : o.In w) (hs : o.own? key = some s) : s.In w := by
  rw [Object.own?] at hs
  split at hs
  · rename_i items hkind
    have hitems : Items.In w items := h.elements? (by rw [Object.elements?, hkind])
    split at hs
    · cases hs
      trivial
    · split at hs
      · obtain ⟨v, hv, rfl⟩ := Option.map_eq_some_iff.1 hs
        exact hitems.getElem? hv
      · exact h.get? hs
  · exact h.get? hs

theorem In.getOwn? {key : String} {v : Value} (h : o.In w) (hv : o.getOwn? key = some v) : v.In w := by
  rw [Object.getOwn?] at hv
  split at hv
  · rename_i hown
    cases hv
    exact h.own? hown
  · cases hv

theorem In.entries (h : o.In w) {key : String} {v : Value} (hmem : (key, v) ∈ o.entries) :
    v.In w := by
  obtain ⟨k, -, hk⟩ := List.mem_filterMap.1 hmem
  obtain ⟨v', hv', heq⟩ := Option.map_eq_some_iff.1 hk
  cases heq
  exact h.getOwn? hv'

/-! ### Changes -/

theorem resize_in {items : Array Value} (h : Items.In w items) (n : Nat) :
    Items.In w (resize items n) := by
  intro v hv
  rw [resize] at hv
  split at hv
  · rw [Array.take_eq_extract, ← Array.mem_toList_iff, Array.toList_extract] at hv
    exact h v (Array.mem_toList_iff.1 (List.mem_of_mem_drop (List.mem_of_mem_take hv)))
  · rcases Array.mem_append.1 hv with hv | hv
    · exact h v hv
    · rw [(Array.mem_replicate.1 hv).2]
      trivial

theorem setIfInBounds_in {items : Array Value} (h : Items.In w items) (i : Nat) {v : Value}
    (hv : v.In w) : Items.In w (items.setIfInBounds i v) := by
  intro u hu
  rcases Array.mem_or_eq_of_mem_setIfInBounds hu with hu | rfl
  · exact h u hu
  · exact hv

theorem setElement_in {items : Array Value} (h : Items.In w items) (i : Nat) {v : Value}
    (hv : v.In w) : Items.In w (setElement items i v) := by
  refine setIfInBounds_in ?_ i hv
  split
  · exact resize_in h _
  · exact h

theorem In.setProp (h : o.In w) (key : String) {s : Slot} (hs : s.In w) :
    Object.In w { o with props := Props.set key s o.props } :=
  ⟨h.kind, fun p hp => by
    rcases Props.mem_set hp with rfl | hp
    · exact hs
    · exact h.props p hp⟩

theorem In.setOwn (h : o.In w) (key : String) {v : Value} (hv : v.In w) : (o.setOwn key v).In w := by
  obtain ⟨kind, proto, props⟩ := o
  cases kind with
  | array items =>
      rw [Object.setOwn]
      split
      · exact h.items (setElement_in h.kind _ hv)
      · exact h.setProp key hv
  | plain | function _ | error => exact h.setProp key hv

theorem In.setLength (h : o.In w) (x : Float) : (o.setLength x).In w := by
  obtain ⟨kind, proto, props⟩ := o
  cases kind with
  | array items =>
      rw [Object.setLength]
      split
      · exact h.items (resize_in h.kind _)
      · exact h
  | plain | function _ | error => exact h

theorem In.defineAccessor (h : o.In w) (key : String) {get set : Option Value}
    (hget : ∀ v, get = some v → v.In w) (hset : ∀ v, set = some v → v.In w) :
    (o.defineAccessor key get set).In w := by
  have hor : ∀ {new old : Option Value}, (∀ v, new = some v → v.In w) → (∀ v, old = some v → v.In w) →
      ∀ v, new.or old = some v → v.In w := by
    intro new old hnew hold v hv
    rcases Option.or_eq_some_iff.1 hv with hv | ⟨-, hv⟩
    · exact hnew v hv
    · exact hold v hv
  refine h.setProp key ?_
  split
  · rename_i hold
    have hin := h.get? hold
    exact ⟨hor hget hin.1, hor hset hin.2⟩
  · exact ⟨hget, hset⟩

theorem In.remove (h : o.In w) (key : String) : (o.remove key).2.In w := by
  have herase : ∀ p ∈ Props.erase key o.props, p.2.In w := fun p hp =>
    h.props p (List.mem_filter.1 hp).1
  obtain ⟨kind, proto, props⟩ := o
  cases kind with
  | array items =>
      rw [Object.remove]
      split
      · exact h.items (setIfInBounds_in h.kind _ trivial)
      · exact ⟨h.kind, herase⟩
  | plain | function _ | error => exact ⟨h.kind, herase⟩

@[simp] theorem proto_setOwn (o : Object) (key : String) (v : Value) :
    (o.setOwn key v).proto = o.proto := by
  obtain ⟨kind, proto, props⟩ := o
  cases kind with
  | array items =>
      rw [Object.setOwn]
      split <;> rfl
  | plain | function _ | error => rfl

@[simp] theorem proto_setLength (o : Object) (x : Float) : (o.setLength x).proto = o.proto := by
  obtain ⟨kind, proto, props⟩ := o
  cases kind with
  | array items =>
      rw [Object.setLength]
      split <;> rfl
  | plain | function _ | error => rfl

@[simp] theorem proto_remove (o : Object) (key : String) : (o.remove key).2.proto = o.proto := by
  obtain ⟨kind, proto, props⟩ := o
  cases kind with
  | array items =>
      rw [Object.remove]
      split <;> rfl
  | plain | function _ | error => rfl

/-! ### Records -/

/-- A record inherits from nothing. -/
structure Record (w : Realm) (o : Object) : Prop extends o.In w where
  proto : o.proto = none

namespace Record

theorem older (h : o.Record w) {n : Nat} : ∀ p, o.proto = some p → p < n := fun p hp => by
  rw [h.proto] at hp
  cases hp

theorem new : Record w (.new .plain none) where
  kind := trivial
  props _ hp := absurd hp List.not_mem_nil
  proto := rfl

theorem setOwn (h : o.Record w) (name : String) {v : Value} (hv : v.In w) : (o.setOwn name v).Record w :=
  ⟨h.toIn.setOwn name hv, (proto_setOwn o name v).trans h.proto⟩

/-- A name that is bound already keeps its value. -/
theorem bind (h : o.Record w) (name : String) {v : Value} (hv : v.In w) :
    Record w (if o.hasOwn name then o else o.setOwn name v) := by
  split
  · exact h
  · exact h.setOwn name hv

end Record

end Object

/-! ## Heaps -/

namespace Heap

def realm (h : Heap) (rs : Array Registry) : Realm := ⟨h.size, rs⟩

structure Sound (rs : Array Registry) (h : Heap) : Prop where
  /-- The prototypes and the global object are there. -/
  ground : Intrinsic.globalObject < h.size
  object : ∀ a, (h.object a).In (h.realm rs)
  /-- An object is younger than the one it inherits from. -/
  older : ∀ a p, (h.object a).proto = some p → p < a

variable {h : Heap} {rs : Array Registry} {a : Address} {o : Object}

theorem realm_alloc (h : Heap) (rs : Array Registry) (o : Object) :
    (h.alloc o).2.realm rs = ⟨h.size + 1, rs⟩ := by
  rw [realm, size_alloc]

theorem realm_modify (h : Heap) (rs : Array Registry) (a : Address) (f : Object → Object) :
    (h.modify a f).realm rs = h.realm rs := by
  rw [realm, size_modify, realm]

theorem realm_le_alloc (h : Heap) (rs : Array Registry) (o : Object) :
    h.realm rs ≤ (h.alloc o).2.realm rs := by
  rw [realm_alloc]
  exact ⟨Nat.le_succ _, fun _ => .refl _, Nat.le_refl _⟩

theorem alloc_in (h : Heap) (rs : Array Registry) (o : Object) :
    (h.alloc o).1 < ((h.alloc o).2.realm rs).size := by
  rw [realm_alloc]
  exact Nat.lt_succ_self _

namespace Sound

theorem alloc (hh : h.Sound rs) (ho : o.In (h.realm rs)) (hproto : ∀ p, o.proto = some p → p < h.size) :
    (h.alloc o).2.Sound rs where
  ground := by
    rw [size_alloc]
    exact Nat.lt_succ_of_lt hh.ground
  object a := by
    rw [object_alloc]
    split
    · exact ho.mono (realm_le_alloc h rs o)
    · exact (hh.object a).mono (realm_le_alloc h rs o)
  older a p hp := by
    rw [object_alloc] at hp
    split at hp
    · rename_i heq
      exact heq ▸ hproto p hp
    · exact hh.older a p hp

theorem modify (hh : h.Sound rs) (a : Address) {f : Object → Object}
    (hf : (f (h.object a)).In (h.realm rs)) (hproto : (f (h.object a)).proto = (h.object a).proto) :
    (h.modify a f).Sound rs := by
  by_cases ha : a < h.size
  · refine ⟨by rw [size_modify]; exact hh.ground, fun b => ?_, fun b p hp => ?_⟩
    · rw [realm_modify, object_modify h a b f ha]
      split
      · exact hf
      · exact hh.object b
    · rw [object_modify h a b f ha] at hp
      split at hp
      · rename_i heq
        exact heq ▸ hh.older a p (hproto ▸ hp)
      · exact hh.older b p hp
  · have hsame : ∀ b, (h.modify a f).object b = h.object b := fun b => by
      by_cases hb : b = a
      · have hnone : h.objects[a]? = none := Array.getElem?_eq_none (Nat.le_of_not_lt ha)
        simp only [Heap.modify, Heap.object, Array.getD_eq_getD_getElem?, Array.getElem?_modify, hb,
          hnone, if_true, Option.map_none]
      · exact object_modify_of_ne h f hb
    refine ⟨by rw [size_modify]; exact hh.ground, fun b => ?_, fun b p hp => ?_⟩
    · rw [realm_modify, hsame]
      exact hh.object b
    · exact hh.older b p (hsame b ▸ hp)

theorem find? (hh : h.Sound rs) {key : String} {s : Slot} {a : Address} (hs : h.find? key a = some s) :
    s.In (h.realm rs) := by
  fun_induction Heap.find? h key a with
  | case1 a slot hown => exact (hh.object a).own? (hown.trans hs)
  | case2 a hown p hp ih => exact ih hs
  | case3 a hown hp => cases hs

theorem findData? (hh : h.Sound rs) {key : String} {v : Value} (hv : h.findData? key a = some v) :
    v.In (h.realm rs) := by
  rw [Heap.findData?] at hv
  split at hv
  · rename_i hfind
    cases hv
    exact hh.find? hfind
  · cases hv

theorem elements? (hh : h.Sound rs) {v : Value} {items : Array Value}
    (hitems : h.elements? v = some items) : Items.In (h.realm rs) items := by
  cases v with
  | object a => exact (hh.object a).elements? hitems
  | undefined | null | bool _ | num _ | str _ => cases hitems

theorem callable? (hh : h.Sound rs) {v : Value} {f : Callable} (hf : h.callable? v = some f) :
    f.In (h.realm rs) := by
  cases v with
  | object a => exact (hh.object a).callable? hf
  | undefined | null | bool _ | num _ | str _ => cases hf

end Sound

end Heap

/-! ## Looking along a chain -/

theorem Chain.In.find? {h : Heap} {name : String} {c found : Chain} (hc : Chain.In w c)
    (hfound : Chain.find? h name c = some found) : Chain.In w found := by
  induction c with
  | nil => cases hfound
  | cons link c ih =>
      rw [Chain.find?] at hfound
      split at hfound
      · cases hfound
        exact hc
      · exact ih (fun l hl => hc l (List.mem_cons_of_mem _ hl)) hfound

theorem Chain.In.recordOf? {h : Heap} {name : String} {c : Chain} {a : Address} (hc : Chain.In w c)
    (ha : Chain.recordOf? h name c = some a) : a < w.size := by
  obtain ⟨found, hfound, ha⟩ := Option.bind_eq_some_iff.1 ha
  obtain ⟨link, hlink, rfl⟩ := Option.map_eq_some_iff.1 ha
  exact hc.find? hfound link (List.mem_of_head? hlink)

end Resumption
