import Resumption.Value.Chain
import Resumption.Value.Operators

/-!
# Heaps that look alike

Two heaps look alike if they hold the same objects at the same addresses, except that a function may
be run in different ways: what counts is which function it is and which scopes it was made in.  No
conversion, no operator and no look at an object can tell such heaps apart.
-/

namespace Resumption

/-- Which function a function object stands for. -/
inductive Origin where
  | native (f : Native)
  /-- The function at a position, with the scopes it was made in. -/
  | script (registry : Nat) (ns : String) (index : Nat) (chain : Chain)

def Callable.origin : Callable → Origin
  | .native f => .native f
  | .instrumented c => .script c.registry c.func.ns c.func.index c.chain
  | .stepped c => .script c.registry c.tree.ns c.index c.chain

structure Callable.Alike (f f' : Callable) : Prop where
  origin : f'.origin = f.origin
  name : f'.name = f.name

inductive ObjectKind.Alike : ObjectKind → ObjectKind → Prop
  | plain : Alike .plain .plain
  | array (items : Array Value) : Alike (.array items) (.array items)
  | function {f f' : Callable} (h : f.Alike f') : Alike (.function f) (.function f')
  | error : Alike .error .error

structure Object.Alike (o o' : Object) : Prop where
  kind : o.kind.Alike o'.kind
  proto : o'.proto = o.proto
  props : o'.props = o.props

structure Heap.Alike (h h' : Heap) : Prop where
  size : h'.size = h.size
  object : ∀ a, (h.object a).Alike (h'.object a)

theorem Callable.Alike.refl (f : Callable) : f.Alike f := ⟨rfl, rfl⟩

theorem ObjectKind.Alike.refl (k : ObjectKind) : k.Alike k := by
  cases k with
  | plain => exact .plain
  | array items => exact .array items
  | function f => exact .function (.refl f)
  | error => exact .error

theorem Object.Alike.refl (o : Object) : o.Alike o := ⟨.refl o.kind, rfl, rfl⟩

theorem Heap.Alike.refl (h : Heap) : h.Alike h := ⟨rfl, fun _ => .refl _⟩

theorem Callable.Alike.symm {f f' : Callable} (h : f.Alike f') : f'.Alike f :=
  ⟨h.origin.symm, h.name.symm⟩

theorem Callable.Alike.trans {f₁ f₂ f₃ : Callable} (h : f₁.Alike f₂) (h' : f₂.Alike f₃) :
    f₁.Alike f₃ :=
  ⟨h'.origin.trans h.origin, h'.name.trans h.name⟩

theorem ObjectKind.Alike.symm {k k' : ObjectKind} (h : k.Alike k') : k'.Alike k := by
  cases h with
  | plain => exact .plain
  | array items => exact .array items
  | function h => exact .function h.symm
  | error => exact .error

theorem ObjectKind.Alike.trans {k₁ k₂ k₃ : ObjectKind} (h : k₁.Alike k₂) (h' : k₂.Alike k₃) :
    k₁.Alike k₃ := by
  cases h with
  | plain => exact h'
  | array items => exact h'
  | function h =>
      cases h' with
      | function h' => exact .function (h.trans h')
  | error => exact h'

theorem Heap.Alike.symm {h h' : Heap} (hh : h.Alike h') : h'.Alike h :=
  ⟨hh.size.symm, fun a =>
    ⟨(hh.object a).kind.symm, (hh.object a).proto.symm, (hh.object a).props.symm⟩⟩

theorem Heap.Alike.trans {h₁ h₂ h₃ : Heap} (h : h₁.Alike h₂) (h' : h₂.Alike h₃) : h₁.Alike h₃ :=
  ⟨h'.size.trans h.size, fun a =>
    ⟨(h.object a).kind.trans (h'.object a).kind, (h'.object a).proto.trans (h.object a).proto,
      (h'.object a).props.trans (h.object a).props⟩⟩

/-! ## Objects -/

namespace Object.Alike

variable {o o' : Object}

theorem elements? (h : o.Alike o') : o'.elements? = o.elements? := by
  obtain ⟨kind, proto, props⟩ := o
  obtain ⟨kind', proto', props'⟩ := o'
  cases h.kind <;> rfl

theorem isArray (h : o.Alike o') : o'.isArray = o.isArray := by
  rw [Object.isArray, Object.isArray, h.elements?]

theorem isSome_callable? (h : o.Alike o') : o'.callable?.isSome = o.callable?.isSome := by
  obtain ⟨kind, proto, props⟩ := o
  obtain ⟨kind', proto', props'⟩ := o'
  cases h.kind <;> rfl

theorem own? (h : o.Alike o') (key : String) : o'.own? key = o.own? key := by
  obtain ⟨kind, proto, props⟩ := o
  obtain ⟨kind', proto', props'⟩ := o'
  obtain ⟨hkind, -, hprops⟩ := h
  cases hprops
  cases hkind <;> rfl

theorem hasOwn (h : o.Alike o') (key : String) : o'.hasOwn key = o.hasOwn key := by
  rw [Object.hasOwn, Object.hasOwn, h.own?]

theorem getOwn? (h : o.Alike o') (key : String) : o'.getOwn? key = o.getOwn? key := by
  rw [Object.getOwn?, Object.getOwn?, h.own?]

theorem keys (h : o.Alike o') : o'.keys = o.keys := by
  obtain ⟨kind, proto, props⟩ := o
  obtain ⟨kind', proto', props'⟩ := o'
  obtain ⟨hkind, -, hprops⟩ := h
  cases hprops
  cases hkind <;> rfl

theorem entries (h : o.Alike o') : o'.entries = o.entries := by
  rw [Object.entries, Object.entries, h.keys]
  simp only [h.getOwn?]

end Object.Alike

/-! ## Heaps -/

namespace Heap.Alike

variable {h h' : Heap}

theorem proto? (hh : h.Alike h') (a : Address) : h'.proto? a = h.proto? a := by
  rw [Heap.proto?, Heap.proto?, (hh.object a).proto]

theorem find? (hh : h.Alike h') (key : String) (a : Address) : h'.find? key a = h.find? key a := by
  induction a using Nat.strongRecOn with
  | ind a ih =>
      rw [Heap.find?, Heap.find?, (hh.object a).own?]
      cases (h.object a).own? key with
      | some slot => rfl
      | none =>
          dsimp only
          have hproto := hh.proto? a
          split
          · rename_i p hp
            rw [hp] at hproto
            split
            · rename_i q hq
              rw [hq] at hproto
              cases hproto
              exact ih p (Heap.proto?_lt hp)
            · rename_i hq
              rw [hq] at hproto
              cases hproto
          · rename_i hp
            rw [hp] at hproto
            split
            · rename_i q hq
              rw [hq] at hproto
              cases hproto
            · rfl

theorem hasProperty (hh : h.Alike h') (key : String) (a : Address) :
    h'.hasProperty key a = h.hasProperty key a := by
  rw [Heap.hasProperty, Heap.hasProperty, hh.find?]

theorem ancestors (hh : h.Alike h') (a : Address) : h'.ancestors a = h.ancestors a := by
  induction a using Nat.strongRecOn with
  | ind a ih =>
      have hproto := hh.proto? a
      rw [Heap.ancestors, Heap.ancestors]
      split
      · rename_i p hp
        rw [hp] at hproto
        split
        · rename_i q hq
          rw [hq] at hproto
          cases hproto
          rw [ih p (Heap.proto?_lt hp)]
        · rename_i hq
          rw [hq] at hproto
          cases hproto
      · rename_i hp
        rw [hp] at hproto
        split
        · rename_i q hq
          rw [hq] at hproto
          cases hproto
        · rfl

theorem elements? (hh : h.Alike h') (v : Value) : h'.elements? v = h.elements? v := by
  cases v with
  | object a => exact (hh.object a).elements?
  | _ => rfl

theorem isCallable (hh : h.Alike h') (v : Value) : h'.isCallable v = h.isCallable v := by
  cases v with
  | object a => exact (hh.object a).isSome_callable?
  | _ => rfl

theorem typeOf (hh : h.Alike h') (v : Value) : h'.typeOf v = h.typeOf v := by
  cases v with
  | object a => rw [Heap.typeOf, Heap.typeOf, (hh.object a).isSome_callable?]
  | _ => rfl

theorem enumerate (hh : h.Alike h') (v : Value) : h'.enumerate v = h.enumerate v := by
  cases v with
  | object a =>
      rw [Heap.enumerate, Heap.enumerate, hh.ancestors]
      simp only [(hh.object _).keys]
  | _ => rfl

/-! ## Scope chains -/

theorem binds (hh : h.Alike h') (name : String) (link : Link) :
    link.binds h' name = link.binds h name := by
  rw [Link.binds, Link.binds]
  cases link.kind with
  | function => exact (hh.object _).hasOwn name
  | handler => exact (hh.object _).hasOwn name
  | withObject => exact hh.hasProperty name _

theorem recordOf? (hh : h.Alike h') (name : String) (chain : Chain) :
    Chain.recordOf? h' name chain = Chain.recordOf? h name chain := by
  have hfind : Chain.find? h' name chain = Chain.find? h name chain := by
    induction chain with
    | nil => rfl
    | cons link outer ih => rw [Chain.find?, Chain.find?, hh.binds, ih]
  rw [Chain.recordOf?, Chain.recordOf?, hfind]

/-! ## Conversions -/

theorem findData? (hh : h.Alike h') (key : String) (a : Address) :
    h'.findData? key a = h.findData? key a := by
  rw [Heap.findData?, Heap.findData?, hh.find?]

theorem objectText? (hh : h.Alike h') (depth : Nat) (seen : List Address) (a : Address) :
    h'.objectText? depth seen a = h.objectText? depth seen a := by
  induction depth generalizing seen a with
  | zero => rfl
  | succ depth ih =>
      rw [Heap.objectText?, Heap.objectText?]
      split
      · rfl
      · simp only [hh.findData?, ih]
        have hkind := (hh.object a).kind
        revert hkind
        generalize (h.object a).kind = k
        generalize (h'.object a).kind = k'
        intro hkind
        cases hkind with
        | plain => rfl
        | array items => rfl
        | function hf => simp only [hf.name]
        | error => rfl

theorem text? (hh : h.Alike h') (v : Value) : h'.text? v = h.text? v := by
  cases v with
  | object a =>
      have hdepth : h'.textDepth = h.textDepth := by rw [Heap.textDepth, Heap.textDepth, hh.size]
      rw [Heap.text?, Heap.text?, hdepth]
      exact hh.objectText? _ _ a
  | _ => rfl

theorem number? (hh : h.Alike h') (v : Value) : h'.number? v = h.number? v := by
  cases v with
  | object a => rw [Heap.number?, Heap.number?, hh.text?]
  | _ => rfl

theorem primitive? (hh : h.Alike h') (v : Value) : h'.primitive? v = h.primitive? v := by
  cases v with
  | object a => rw [Heap.primitive?, Heap.primitive?, hh.text?]
  | _ => rfl

theorem inspectTo? (hh : h.Alike h') (depth : Nat) (v : Value) :
    h'.inspectTo? depth v = h.inspectTo? depth v := by
  induction depth generalizing v with
  | zero =>
      cases v with
      | object a =>
          unfold Heap.inspectTo?
          rw [hh.text?]
          have hkind := (hh.object a).kind
          revert hkind
          generalize (h.object a).kind = k
          generalize (h'.object a).kind = k'
          intro hkind
          cases hkind <;> rfl
      | _ => rfl
  | succ depth ih =>
      cases v with
      | object a =>
          unfold Heap.inspectTo?
          rw [hh.text?, (hh.object a).entries]
          have hkind := (hh.object a).kind
          have hih : h'.inspectTo? depth = h.inspectTo? depth := funext ih
          revert hkind
          generalize (h.object a).kind = k
          generalize (h'.object a).kind = k'
          intro hkind
          cases hkind with
          | plain => simp only [hih]
          | array items => simp only [hih]
          | function hf => rfl
          | error => rfl
      | _ => rfl

theorem inspect? (hh : h.Alike h') (v : Value) : h'.inspect? v = h.inspect? v :=
  hh.inspectTo? 2 v

/-! ## Operators -/

theorem unary? (hh : h.Alike h') (op : Script.UnaryOp) (v : Value) :
    h'.unary? op v = h.unary? op v := by
  cases op <;> simp only [Heap.unary?, Heap.signedWord?, Heap.word?, hh.number?, hh.typeOf]

theorem looseEquals? (hh : h.Alike h') (a b : Value) :
    h'.looseEquals? a b = h.looseEquals? a b := by
  simp only [Heap.looseEquals?, hh.primitive?]

theorem binary? (hh : h.Alike h') (op : Script.BinaryOp) (a b : Value) :
    h'.binary? op a b = h.binary? op a b := by
  cases op <;>
    simp only [Heap.binary?, Heap.add?, Heap.arithmetic?, Heap.compare?, Heap.order?,
      Heap.bitwise?, Heap.signedWord?, Heap.word?, hh.looseEquals?, hh.number?, hh.primitive?]

end Heap.Alike

end Resumption
