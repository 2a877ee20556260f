import Resumption.Proofs.Conduct.Depth
import Resumption.Proofs.Match.Ground
import Resumption.Proofs.Sound.Drive
import Resumption.Value.Json

/-!
# Machines that can be reached

What a host does with a machine, one deed after the other: it runs scripts, calls what it finds, changes
objects and makes new ones, and resumes and copies what was left of runs.  A deed mentions nothing but
what is there.  Every machine that is reached in this way is sound, and so are the continuations that its
runs have left behind.
-/

namespace Resumption

open Upright Machine

variable {w w' : Realm} {α : Type} {R : Realm → α → Prop}

namespace Heap

variable {rs : Array Registry} {h : Heap}

/-! ## New machines -/

theorem object_of_le {a : Address} (ha : h.size ≤ a) : h.object a = .new .plain none := by
  rw [object, Array.getD_eq_getD_getElem?, Array.getElem?_eq_none ha]
  rfl

/-- The object at each address is younger than the one it inherits from. -/
def protosOlder (h : Heap) : Bool :=
  h.objects.toList.zipIdx.all fun e => e.1.proto.all fun p => decide (p < e.2)

theorem lt_of_protosOlder (hall : h.protosOlder = true) {a p : Address}
    (hp : (h.object a).proto = some p) : p < a := by
  by_cases ha : a < h.size
  · have hmem : (h.object a, a) ∈ h.objects.toList.zipIdx := by
      rw [List.mem_zipIdx_iff_getElem?, Array.getElem?_toList, object, Array.getD_eq_getD_getElem?,
        Array.getElem?_eq_getElem ha]
      rfl
    have hproto := List.all_eq_true.1 hall _ hmem
    rw [hp] at hproto
    exact of_decide_eq_true hproto
  · rw [object_of_le (Nat.le_of_not_lt ha)] at hp
    cases hp

theorem Groomed.sound (hh : h.Groomed) (hall : h.protosOlder = true) (rs : Array Registry) :
    h.Sound rs where
  ground := hh.ground
  object a := by
    by_cases ha : a < h.size
    · obtain ⟨hkind, -, hslots⟩ := hh.object a ha
      refine ⟨?_, fun p hp => ?_⟩
      · rcases hkind with hkind | ⟨g, hkind⟩
        · rw [hkind]
          trivial
        · rw [hkind]
          exact .native g
      · obtain ⟨v, hv, hlt⟩ := hslots p hp
        rw [hv]
        cases v with
        | object b => exact hlt b rfl
        | undefined | null | bool _ | num _ | str _ => trivial
    · rw [object_of_le (Nat.le_of_not_lt ha)]
      exact plain_in none
  older _ _ := lt_of_protosOlder hall

theorem protosOlder_setup : Setup.heap.protosOlder = true := by decide +kernel

/-! ## Documents -/

mutual

theorem sound_ofJson {h : Heap} (hh : h.Sound rs) : ∀ j, (h.ofJson j).2.Sound rs ∧
    h.realm rs ≤ (h.ofJson j).2.realm rs ∧ (h.ofJson j).1.In ((h.ofJson j).2.realm rs)
  | .null | .bool _ | .num _ | .str _ => ⟨hh, le_rfl, trivial⟩
  | .arr items => by
      obtain ⟨hitems, hle, hin⟩ := sound_ofJsonItems hh items
      have hkind : (ObjectKind.array (ofJsonItems h items).1.toArray).In
          ((ofJsonItems h items).2.realm rs) := hin.toArray
      refine ⟨hitems.alloc (.new hkind _) fun p hp => ?_, le_trans hle (realm_le_alloc _ rs _),
        alloc_in _ rs _⟩
      cases hp
      exact Nat.lt_trans (by decide) hitems.ground
  | .obj members => by
      have hnew : (h.alloc (.new .plain (some Intrinsic.objectProto))).2.Sound rs :=
        hh.alloc (plain_in _) fun p hp => by
          cases hp
          exact Nat.lt_trans (by decide) hh.ground
      obtain ⟨hmembers, hle⟩ := sound_ofJsonMembers hnew h.size members
      have hin : (Value.object h.size).In
          ((h.alloc (.new .plain (some Intrinsic.objectProto))).2.realm rs) := alloc_in h rs _
      exact ⟨hmembers, le_trans (realm_le_alloc h rs _) hle, hin.mono hle⟩

theorem sound_ofJsonItems {h : Heap} (hh : h.Sound rs) : ∀ items, (ofJsonItems h items).2.Sound rs ∧
    h.realm rs ≤ (ofJsonItems h items).2.realm rs ∧
      Values.In ((ofJsonItems h items).2.realm rs) (ofJsonItems h items).1
  | [] => ⟨hh, le_rfl, List.forall_mem_nil _⟩
  | j :: rest => by
      obtain ⟨hfirst, hle, hv⟩ := sound_ofJson hh j
      obtain ⟨hrest, hle', hvs⟩ := sound_ofJsonItems hfirst rest
      exact ⟨hrest, le_trans hle hle', List.forall_mem_cons.2 ⟨hv.mono hle', hvs⟩⟩

theorem sound_ofJsonMember {h : Heap} (hh : h.Sound rs) (a : Address) :
    ∀ m, (ofJsonMember h a m).Sound rs ∧ h.realm rs ≤ (ofJsonMember h a m).realm rs
  | (name, j) => by
      obtain ⟨hvalue, hle, hv⟩ := sound_ofJson hh j
      exact ⟨hvalue.modify a ((hvalue.object a).setOwn name hv) (Object.proto_setOwn _ _ _),
        le_trans hle (le_of_eq (realm_modify _ rs a _).symm)⟩

theorem sound_ofJsonMembers {h : Heap} (hh : h.Sound rs) (a : Address) : ∀ members,
    (ofJsonMembers h a members).Sound rs ∧ h.realm rs ≤ (ofJsonMembers h a members).realm rs
  | [] => ⟨hh, le_rfl⟩
  | m :: rest => by
      obtain ⟨hfirst, hle⟩ := sound_ofJsonMember hh a m
      obtain ⟨hrest, hle'⟩ := sound_ofJsonMembers hfirst a rest
      exact ⟨hrest, le_trans hle hle'⟩

end

end Heap

/-! ## Errands -/

/-- Does an errand, and tells what the run came to if there was one. -/
def Errand.conclude (fuel : Nat) : Errand → MachineM (Option Outcome)
  | .compile f registry inherited => do
    let _ ← Machine.compile f registry inherited
    return none
  | .compileProgram p registry => do
    let _ ← Machine.compileProgram p registry
    return none
  | .run f registry args bindings => do
    return (← Machine.run fuel f registry args bindings).toOption
  | .runProgram p registry => do return (← Machine.runProgram fuel p registry).toOption
  | .runClosure f this args => do return some (← Machine.runClosure fuel f this args)
  | .interpret p registry mode => do return some (← Machine.interpret fuel p registry mode)
  | .resume k => do return (← k.resume fuel).toOption

/-- What the errand mentions is there. -/
def Errand.Fits (w : Realm) : Errand → Prop
  | .compile _ registry _ | .compileProgram _ registry | .runProgram _ registry
  | .interpret _ registry _ => w.Has registry
  | .run _ registry args bindings =>
    w.Has registry ∧ Values.In w args ∧ ∀ a, bindings = some a → a < w.size
  | .runClosure f this args => f.In w ∧ this.In w ∧ Values.In w args
  | .resume k => k.In w

/-- The outcome is in order, if there is one. -/
def ConcludedIn (w : Realm) (outcome : Option Outcome) : Prop := ∀ o, outcome = some o → o.In w

theorem concluded_toOption {ε : Type} {x : MachineM (Except ε Outcome)}
    (hx : Upright w x (fun w' r => ∀ o, r = .ok o → o.In w')) :
    Upright w (do return (← x).toOption) ConcludedIn :=
  hx.bind fun _ r _ hr => pure fun _ hw o ho => by
    cases r with
    | error e => cases ho
    | ok o' =>
        cases ho
        exact lasting_outcome hw (hr _ rfl)

theorem concluded_some {x : MachineM Outcome} (hx : Upright w x Outcome.In) :
    Upright w (do return some (← x)) ConcludedIn :=
  hx.bind fun _ _ _ ho => pure fun _ hw o heq => by
    cases heq
    exact lasting_outcome hw ho

theorem Errand.conclude_upright (hready : w.Has builtinRegistry) (fuel : Nat) {errand : Errand}
    (h : errand.Fits w) : Upright w (errand.conclude fuel) ConcludedIn := by
  cases errand with
  | compile f registry inherited =>
      exact (compile_upright h f inherited).next fun _ => pure fun _ _ => nofun
  | compileProgram p registry => exact (compileProgram_upright h p).next fun _ => pure fun _ _ => nofun
  | run f registry args bindings =>
      obtain ⟨hid, hargs, hbindings⟩ := h
      exact concluded_toOption (run_upright hready fuel hid f hargs hbindings)
  | runProgram p registry => exact concluded_toOption (runProgram_upright hready fuel h p)
  | runClosure f this args => exact concluded_some (runClosure_upright hready fuel h.1 h.2.1 h.2.2)
  | interpret p registry mode => exact concluded_some (interpret_upright hready fuel h p mode)
  | resume k => exact concluded_toOption (resume_upright hready fuel h)

/-! ## Deeds -/

/-- What a host may do with a machine. -/
inductive Deed where
  | errand (e : Errand)
  | newRegistry
  | assign (registry : Nat) (f : Script.Func) (ns : String) (isProgram : Bool)
  /-- Calls without setting the machine up for pauses. -/
  | call (f this : Value) (args : List Value)
  | construct (f : Value) (args : List Value)
  | get (target : Value) (key : String)
  | put (target : Value) (key : String) (v : Value)
  | delete (target : Value) (key : String)
  | unary (op : Script.UnaryOp) (v : Value)
  | binary (op : Script.BinaryOp) (left right : Value)
  /-- A new object, which may inherit from any object that is there. -/
  | alloc (o : Object)
  | newError (kind : ErrorKind) (message : String)
  | document (j : Json)
  | setOwn (a : Address) (key : String) (v : Value)
  | remove (a : Address) (key : String)
  | defineAccessor (a : Address) (key : String) (getter setter : Option Value)
  /-- A copy of a continuation. -/
  | copy (k : Continuation)
  | takeOutput
  | setDebugging (on : Bool)
  | setHook (hook : Option Hook)

namespace Deed

/-- Does something that leaves nothing to resume. -/
def idly (x : MachineM α) : MachineM (Option Continuation) := do
  let _ ← x
  return none

/-- Does it, and hands over what a run has left to resume. -/
def perform (fuel : Nat) : Deed → MachineM (Option Continuation)
  | errand e => do return (← e.conclude fuel).bind Outcome.continuation?
  | newRegistry => idly Machine.newRegistry
  | assign registry f ns isProgram => idly (Machine.assign registry f ns isProgram)
  | call f this args => idly (Machine.call fuel f this args)
  | construct f args => idly (Machine.construct (Machine.call fuel) f args)
  | get target key => idly (getProperty (Machine.call fuel) target key)
  | put target key v => idly (putProperty (Machine.call fuel) target key v)
  | delete target key => idly (deleteProperty target key)
  | unary op v => idly (Machine.unary op v)
  | binary op left right => idly (Machine.binary (Machine.call fuel) op left right)
  | alloc o => idly (Machine.alloc o)
  | newError kind message => idly (Machine.newError kind message)
  | document j => idly (modifyHeap fun h => (h.ofJson j).2)
  | setOwn a key v => idly (Machine.setOwn a key v)
  | remove a key => idly (modifyHeap fun h => h.modify a fun o => (o.remove key).2)
  | defineAccessor a key getter setter =>
    idly (modifyHeap fun h => h.modify a fun o => o.defineAccessor key getter setter)
  | copy k => idly k.duplicate
  | takeOutput => idly Machine.takeOutput
  | setDebugging on => idly (Machine.setDebugging on)
  | setHook hook => idly (Machine.setHook hook)

/-- What the deed mentions is there. -/
def Fits (w : Realm) : Deed → Prop
  | errand e => e.Fits w
  | assign registry _ _ _ => w.Has registry
  | call f this args => f.In w ∧ this.In w ∧ Values.In w args
  | construct f args => f.In w ∧ Values.In w args
  | get target _ | delete target _ => target.In w
  | put target _ v => target.In w ∧ v.In w
  | unary _ v => v.In w
  | binary _ left right => left.In w ∧ right.In w
  | alloc o => o.In w ∧ ∀ p, o.proto = some p → p < w.size
  | setOwn a _ v => a < w.size ∧ v.In w
  | remove a _ => a < w.size
  | defineAccessor a _ getter setter =>
    a < w.size ∧ (∀ v, getter = some v → v.In w) ∧ ∀ v, setter = some v → v.In w
  | copy k => k.In w
  | newRegistry | newError _ _ | document _ | takeOutput | setDebugging _ | setHook _ => True

/-- What is left to resume is in order. -/
def Leaves (w : Realm) (left : Option Continuation) : Prop := ∀ k, left = some k → k.In w ∧ k.Posed

theorem idly_upright {x : MachineM α} (hx : Upright w x R) : Upright w (idly x) Leaves :=
  hx.next fun _ => pure fun _ _ => nofun

theorem perform_upright (hready : w.Has builtinRegistry) (fuel : Nat) {deed : Deed} (h : deed.Fits w) :
    Upright w (deed.perform fuel) Leaves := by
  have hinvoke := call_upright fuel
  cases deed with
  | errand e =>
      refine (Errand.conclude_upright hready fuel h).bind fun w₁ outcome hw₁ houtcome =>
        pure fun w₂ hw₂ k hk => ?_
      obtain ⟨o, ho, hk⟩ := Option.bind_eq_some_iff.1 hk
      obtain ⟨hin, hposed⟩ := (houtcome o ho).continuation? hk
      exact ⟨hin.mono hw₂, hposed⟩
  | newRegistry => exact idly_upright newRegistry_upright
  | assign registry f ns isProgram => exact idly_upright (assign_upright h f ns isProgram)
  | call f this args => exact idly_upright (hinvoke h.1 h.2.1 h.2.2)
  | construct f args => exact idly_upright (construct_upright hinvoke h.1 h.2)
  | get target key => exact idly_upright (getProperty_upright hinvoke h key)
  | put target key v => exact idly_upright (putProperty_upright hinvoke h.1 key h.2)
  | delete target key => exact idly_upright (deleteProperty_upright target key)
  | unary op v => exact idly_upright (unary_upright op v)
  | binary op left right => exact idly_upright (binary_upright hinvoke op left h.2)
  | alloc o => exact idly_upright (alloc_upright h.1 h.2)
  | newError kind message => exact idly_upright (newError_upright kind message)
  | document j =>
      refine idly_upright (modifyHeap_upright fun heap rs hheap _ => ?_)
      obtain ⟨hsound, hle, -⟩ := Heap.sound_ofJson hheap j
      exact ⟨hsound, hle⟩
  | setOwn a key v => exact idly_upright (setOwn_upright a key h.2)
  | remove a key =>
      exact idly_upright (modify_upright a fun _ o _ ho => ⟨ho.remove key, Object.proto_remove o key⟩)
  | defineAccessor a key getter setter =>
      refine idly_upright (modify_upright a fun w' o hw ho => ⟨?_, rfl⟩)
      exact ho.defineAccessor key (fun v hv => (h.2.1 v hv).mono hw) fun v hv => (h.2.2 v hv).mono hw
  | copy k => exact idly_upright (duplicate_upright h)
  | takeOutput =>
      refine idly_upright (R := Any) fun m hm _ => ?_
      exact ⟨⟨hm.heap, hm.built, hm.methods⟩, le_rfl, trivial⟩
  | setDebugging on =>
      exact idly_upright (modify_aside (fun _ => rfl) (fun _ => rfl) fun _ => rfl)
  | setHook hook =>
      refine idly_upright (R := Any) fun m hm _ => ?_
      exact ⟨⟨hm.heap, hm.built, hm.methods⟩, le_rfl, trivial⟩

end Deed

/-! ## Reached machines -/

namespace Machine

/-- The machine after some deeds, with the continuations that runs have left behind and copies of them.
Each deed came to its end, or was left by something that nothing caught, or was given up for lack of
fuel. -/
inductive Reached (config : Config) : Machine → List Continuation → Prop
  | new : Reached config (.new config) []
  | done {m m' : Machine} {ks : List Continuation} {left : Option Continuation} (fuel : Nat)
      (deed : Deed) (h : Reached config m ks) (hfits : deed.Fits m.realm)
      (hends : deed.perform fuel m = .ok left m') : Reached config m' (left.toList ++ ks)
  | thrown {m m' : Machine} {ks : List Continuation} {u : Unwind} (fuel : Nat) (deed : Deed)
      (h : Reached config m ks) (hfits : deed.Fits m.realm)
      (hends : deed.perform fuel m = .error (.unwind u) m') :
      Reached config m' (.ofUnwind m'.registries u :: ks)
  | stuck {m m' : Machine} {ks : List Continuation} (fuel : Nat) (deed : Deed)
      (h : Reached config m ks) (hfits : deed.Fits m.realm)
      (hends : deed.perform fuel m = .error .exhausted m') : Reached config m' ks
  | copied {m m' : Machine} {ks : List Continuation} {k k' : Continuation} (h : Reached config m ks)
      (hk : k ∈ ks) (hends : k.duplicate m = .ok k' m') : Reached config m' (k' :: ks)

/-- The machine is sound, and whatever was left behind can be resumed on it. -/
structure Orderly (m : Machine) (ks : List Continuation) : Prop where
  sound : m.Sound
  ready : m.realm.Has builtinRegistry
  left : ∀ k ∈ ks, k.In m.realm ∧ k.Posed

theorem orderly_new (config : Config) : (Machine.new config).Orderly [] where
  sound := {
    heap := Setup.groomed_heap.sound Heap.protosOlder_setup _
    built := fun id => by
      have hempty : (Machine.new config).realm.registry id = .empty := by
        match id with
        | 0 | 1 | _ + 2 => rfl
      exact hempty ▸ .empty
    methods := nofun }
  ready := Nat.lt_succ_self 1
  left := List.forall_mem_nil _

theorem Orderly.grown {m m' : Machine} {ks : List Continuation} (h : m.Orderly ks) (hm' : m'.Sound)
    (hle : m.realm ≤ m'.realm) : m'.Orderly ks where
  sound := hm'
  ready := h.ready.mono hle
  left k hk := ⟨(h.left k hk).1.mono hle, (h.left k hk).2⟩

theorem Orderly.cons {m : Machine} {ks : List Continuation} (h : m.Orderly ks) {k : Continuation}
    (hk : k.In m.realm) (hposed : k.Posed) : m.Orderly (k :: ks) :=
  { h with left := List.forall_mem_cons.2 ⟨⟨hk, hposed⟩, h.left⟩ }

theorem Reached.orderly {config : Config} {m : Machine} {ks : List Continuation}
    (h : Reached config m ks) : m.Orderly ks := by
  induction h with
  | new => exact orderly_new config
  | @done m m' ks left fuel deed _ hfits hends ih =>
      have hended := Deed.perform_upright ih.ready fuel hfits m ih.sound le_rfl
      rw [hends] at hended
      obtain ⟨hm', hle, hleft⟩ := hended
      have hgrown := ih.grown hm' hle
      cases left with
      | none => exact hgrown
      | some k => exact hgrown.cons (hleft k rfl).1 (hleft k rfl).2
  | @thrown m m' ks u fuel deed _ hfits hends ih =>
      have hended := Deed.perform_upright ih.ready fuel hfits m ih.sound le_rfl
      rw [hends] at hended
      obtain ⟨hm', hle, hu⟩ := hended
      exact (ih.grown hm' hle).cons
        (Continuation.in_ofUnwind (w := m'.realm) hm'.built hu.arranged.toStocked)
        (Continuation.posed_ofUnwind (w := m'.realm) hu.arranged)
  | @stuck m m' ks fuel deed _ hfits hends ih =>
      have hended := Deed.perform_upright ih.ready fuel hfits m ih.sound le_rfl
      rw [hends] at hended
      exact ih.grown hended.1 hended.2
  | @copied m m' ks k k' _ hk hends ih =>
      obtain ⟨hin, hposed⟩ := ih.left k hk
      have hended := duplicate_upright hin m ih.sound le_rfl
      rw [hends] at hended
      obtain ⟨hm', hle, hin', hposed'⟩ := hended
      exact (ih.grown hm' hle).cons hin' (hposed' hposed)

end Machine

end Resumption
