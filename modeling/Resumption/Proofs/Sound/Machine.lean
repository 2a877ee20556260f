import Resumption.Engine.Drive
import Resumption.Proofs.Sound.Stack

/-!
# Computations on a sound machine

A computation is upright in a realm if on every sound machine with at least this realm it ends on a
sound machine, whose realm has grown, with a result that lies there.  The same holds of the machine
when a computation is left, or when its fuel runs out; then there is no result, but what unwinds
lies in the realm.
-/

namespace Resumption

variable {w w' : Realm} {α β : Type}

/-! ## Machines -/

def Machine.realm (m : Machine) : Realm := m.heap.realm m.registries

structure Machine.Sound (m : Machine) : Prop where
  heap : m.heap.Sound m.registries
  built : ∀ id, (m.realm.registry id).Built
  methods : ∀ methods, m.debugMethods = some methods → ∀ p ∈ methods, p.2.In m.realm

/-- Something about a result that stays true as the realm grows. -/
def Lasting (R : Realm → α → Prop) : Prop := ∀ ⦃w w' : Realm⦄ ⦃a : α⦄, w ≤ w' → R w a → R w' a

/-- Nothing is said about the result. -/
def Any : Realm → α → Prop := fun _ _ => True

namespace Machine

/-- The end of a computation that started in a realm. -/
def Ended (w : Realm) (R : Realm → α → Prop) : EStateM.Result Stop Machine α → Prop
  | .ok a m => m.Sound ∧ w ≤ m.realm ∧ R m.realm a
  | .error (.unwind u) m => m.Sound ∧ w ≤ m.realm ∧ u.In m.realm
  | .error .exhausted m => m.Sound ∧ w ≤ m.realm

theorem Ended.of_le {w₀ : Realm} {R : Realm → α → Prop} {r : EStateM.Result Stop Machine α}
    (hw : w₀ ≤ w) (h : Ended w R r) : Ended w₀ R r := by
  match r, h with
  | .ok _ _, h => exact ⟨h.1, le_trans hw h.2.1, h.2.2⟩
  | .error (.unwind _) _, h => exact ⟨h.1, le_trans hw h.2.1, h.2.2⟩
  | .error .exhausted _, h => exact ⟨h.1, le_trans hw h.2⟩

end Machine

open Machine

def Upright (w : Realm) (x : MachineM α) (R : Realm → α → Prop) : Prop :=
  ∀ m : Machine, m.Sound → w ≤ m.realm → Ended m.realm R (x m)

namespace Upright

variable {R : Realm → α → Prop} {S : Realm → β → Prop} {x : MachineM α}

theorem mono (h : Upright w x R) (hw : w ≤ w') : Upright w' x R :=
  fun m hm hle => h m hm (le_trans hw hle)

theorem imp {R' : Realm → α → Prop} (h : Upright w x R) (hR : ∀ w' a, w ≤ w' → R w' a → R' w' a) :
    Upright w x R' := by
  intro m hm hle
  have hends := h m hm hle
  match x m, hends with
  | .ok a m', hends => exact ⟨hends.1, hends.2.1, hR _ a (le_trans hle hends.2.1) hends.2.2⟩
  | .error (.unwind _) _, hends => exact hends
  | .error .exhausted _, hends => exact hends

theorem pure {a : α} (h : ∀ w', w ≤ w' → R w' a) : Upright w (Pure.pure a) R :=
  fun _ hm hle => ⟨hm, le_rfl, h _ hle⟩

theorem done {a : α} : Upright w (Pure.pure a) (Any : Realm → α → Prop) := pure fun _ _ => trivial

theorem value {v : Value} (h : v.In w) : Upright w (Pure.pure v) Value.In :=
  pure fun _ hw => h.mono hw

theorem bind {f : α → MachineM β} (hx : Upright w x R)
    (hf : ∀ w' a, w ≤ w' → R w' a → Upright w' (f a) S) : Upright w (x >>= f) S := by
  intro m hm hle
  have hends := hx m hm hle
  change Ended m.realm S (EStateM.bind x f m)
  rw [EStateM.bind]
  match x m, hends with
  | .ok a m', ⟨hm', hle', ha⟩ => exact (hf _ a (le_trans hle hle') ha m' hm' le_rfl).of_le hle'
  | .error (.unwind u) m', hends => exact hends
  | .error .exhausted m', hends => exact hends

/-- The result does not matter for what follows. -/
theorem next {f : α → MachineM β} (hx : Upright w x R) (hf : ∀ a, Upright w (f a) S) :
    Upright w (x >>= f) S :=
  hx.bind fun _ a hw _ => (hf a).mono hw

theorem exhausted : Upright w (throw .exhausted : MachineM α) R := fun _ hm _ => ⟨hm, le_rfl⟩

theorem get : Upright w (MonadState.get : MachineM Machine) (fun w' m => m.Sound ∧ w' = m.realm) :=
  fun _ hm _ => ⟨hm, le_rfl, hm, rfl⟩

/-- A change to the machine that leaves its realm as it is. -/
theorem modifyGet {f : Machine → α × Machine}
    (hf : ∀ m : Machine, m.Sound → w ≤ m.realm → (f m).2.Sound ∧ m.realm ≤ (f m).2.realm ∧
      R (f m).2.realm (f m).1) :
    Upright w (MonadStateOf.modifyGet f) R := fun m hm hle => hf m hm hle

theorem mapM {γ : Type} {f : γ → MachineM α} {l : List γ} (hR : Lasting R)
    (hf : ∀ w', w ≤ w' → ∀ a ∈ l, Upright w' (f a) R) :
    Upright w (l.mapM f) (fun w' found => ∀ b ∈ found, R w' b) := by
  induction l generalizing w with
  | nil => exact pure fun _ _ => List.forall_mem_nil _
  | cons a l ih =>
      rw [List.mapM_cons]
      refine (hf w le_rfl a List.mem_cons_self).bind fun w₁ b hw₁ hb => ?_
      refine (ih fun w' hw' c hc => hf w' (le_trans hw₁ hw') c (List.mem_cons_of_mem _ hc)).bind
        fun w₂ found hw₂ hfound => ?_
      exact pure fun _ hw => List.forall_mem_cons.2
        ⟨hR (le_trans hw₂ hw) hb, fun c hc => hR hw (hfound c hc)⟩

theorem filterMapM {γ : Type} {f : γ → MachineM (Option α)} {l : List γ} (hR : Lasting R)
    (hf : ∀ w', w ≤ w' → ∀ a ∈ l, Upright w' (f a) (fun w' found => ∀ b, found = some b → R w' b)) :
    Upright w (l.filterMapM f) (fun w' found => ∀ b ∈ found, R w' b) := by
  induction l generalizing w with
  | nil => exact pure fun _ _ => List.forall_mem_nil _
  | cons a l ih =>
      rw [List.filterMapM_cons]
      refine (hf w le_rfl a List.mem_cons_self).bind fun w₁ b hw₁ hb => ?_
      have hrest := ih fun w' hw' c hc => hf w' (le_trans hw₁ hw') c (List.mem_cons_of_mem _ hc)
      cases b with
      | none => exact hrest
      | some b =>
          refine hrest.bind fun w₂ found hw₂ hfound => pure fun _ hw => List.forall_mem_cons.2 ?_
          exact ⟨hR (le_trans hw₂ hw) (hb b rfl), fun c hc => hR hw (hfound c hc)⟩

end Upright

/-- The way to call functions is upright, given arguments that are there. -/
def Invoke.Upright (invoke : Invoke) : Prop :=
  ∀ ⦃w : Realm⦄ ⦃f this : Value⦄ ⦃args : List Value⦄, f.In w → this.In w → Values.In w args →
    Resumption.Upright w (invoke f this args) Value.In

namespace Machine

open Upright

variable {invoke : Invoke} {R : Realm → α → Prop}

/-! ## The smallest steps -/

theorem Sound.ground {m : Machine} (hm : m.Sound) : Intrinsic.globalObject < m.realm.size :=
  hm.heap.ground

/-- Only the heap changes. -/
theorem Sound.withHeap {m : Machine} (hm : m.Sound) {heap : Heap} (hheap : heap.Sound m.registries)
    (hle : m.realm ≤ heap.realm m.registries) : Sound { m with heap } where
  heap := hheap
  built := hm.built
  methods methods hmethods p hp := (hm.methods methods hmethods p hp).mono hle

theorem ask_upright {f : Heap → α}
    (hf : ∀ (heap : Heap) (rs : Array Registry), heap.Sound rs → w ≤ heap.realm rs →
      R (heap.realm rs) (f heap)) :
    Upright w (ask f) R :=
  fun m hm hle => ⟨hm, le_rfl, hf m.heap m.registries hm.heap hle⟩

theorem ask_any (f : Heap → α) : Upright w (ask f) Any := ask_upright fun _ _ _ _ => trivial

theorem heapM_upright :
    Upright w heapM (fun w' heap => ∃ rs, heap.Sound rs ∧ w' = heap.realm rs) :=
  fun m hm _ => ⟨hm, le_rfl, m.registries, hm.heap, rfl⟩

theorem convert_upright {f : Heap → Option α}
    (hf : ∀ (heap : Heap) (rs : Array Registry) a, heap.Sound rs → w ≤ heap.realm rs →
      f heap = some a → R (heap.realm rs) a) :
    Upright w (convert f) R := by
  intro m hm hle
  change Ended m.realm R (demand (f m.heap) m)
  cases ha : f m.heap with
  | none => exact ⟨hm, le_rfl⟩
  | some a => exact ⟨hm, le_rfl, hf m.heap m.registries a hm.heap hle ha⟩

theorem convert_any (f : Heap → Option α) : Upright w (convert f) Any :=
  convert_upright fun _ _ _ _ _ _ => trivial

theorem text_upright (v : Value) : Upright w (text v) Any := convert_any _

theorem number_upright (v : Value) : Upright w (number v) Any := convert_any _

theorem inspect_upright (v : Value) : Upright w (inspect v) Any := convert_any _

theorem modifyHeap_upright {f : Heap → Heap}
    (hf : ∀ (heap : Heap) (rs : Array Registry), heap.Sound rs → w ≤ heap.realm rs →
      (f heap).Sound rs ∧ heap.realm rs ≤ (f heap).realm rs) :
    Upright w (modifyHeap f) Any := fun m hm hle => by
  obtain ⟨hsound, hgrown⟩ := hf m.heap m.registries hm.heap hle
  exact ⟨hm.withHeap hsound hgrown, hgrown, trivial⟩

/-- One object changes, and inherits from what it did before. -/
theorem modify_upright (a : Address) {f : Object → Object}
    (hf : ∀ w' (o : Object), w ≤ w' → o.In w' → (f o).In w' ∧ (f o).proto = o.proto) :
    Upright w (modifyHeap fun h => h.modify a f) Any :=
  modifyHeap_upright fun heap rs hheap hle =>
    have hchanged := hf _ _ hle (hheap.object a)
    ⟨hheap.modify a hchanged.1 hchanged.2, le_of_eq (Heap.realm_modify heap rs a f).symm⟩

theorem alloc_upright {o : Object} (ho : o.In w) (hproto : ∀ p, o.proto = some p → p < w.size) :
    Upright w (alloc o) (fun w' a => a < w'.size) := by
  intro m hm hle
  have hsound := hm.heap.alloc (ho.mono hle) fun p hp => Nat.lt_of_lt_of_le (hproto p hp) hle.1
  have hgrown := Heap.realm_le_alloc m.heap m.registries o
  exact ⟨hm.withHeap hsound hgrown, hgrown, Heap.alloc_in m.heap m.registries o⟩

/-- A new object that inherits from one of the objects that every machine starts with. -/
theorem alloc_intrinsic {o : Object} (ho : o.In w)
    (hproto : ∀ p, o.proto = some p → p ≤ Intrinsic.globalObject) :
    Upright w (alloc o) (fun w' a => a < w'.size) := by
  intro m hm hle
  have hlt : ∀ p, o.proto = some p → p < m.realm.size := fun p hp =>
    Nat.lt_of_le_of_lt (hproto p hp) hm.ground
  exact alloc_upright (ho.mono hle) hlt m hm le_rfl

theorem plain_in (proto : Option Address) : Object.In w (.new .plain proto) :=
  have hkind : ObjectKind.plain.In w := trivial
  .new hkind proto

theorem newObject_upright : Upright w newObject (fun w' a => a < w'.size) :=
  alloc_intrinsic (plain_in _) fun p hp => by cases hp; decide

theorem newRecord_upright : Upright w newRecord (fun w' a => a < w'.size) :=
  alloc_intrinsic (plain_in _) nofun

theorem object_upright {x : MachineM Address} (hx : Upright w x (fun w' a => a < w'.size)) :
    Upright w (do return .object (← x)) Value.In :=
  hx.bind fun _ _ _ ha => value ha

theorem newArray_upright {items : List Value} (hitems : Values.In w items) :
    Upright w (newArray items) Value.In :=
  have hkind : (ObjectKind.array items.toArray).In w := hitems.toArray
  object_upright (alloc_intrinsic (.new hkind _) fun p hp => by cases hp; decide)

theorem newFunction_upright {f : Callable} (hf : f.In w) : Upright w (newFunction f) Value.In :=
  have hkind : (ObjectKind.function f).In w := hf
  object_upright (alloc_intrinsic (.new hkind _) fun p hp => by cases hp; decide)

theorem errorProto_le (kind : ErrorKind) : Intrinsic.errorProto kind ≤ Intrinsic.globalObject := by
  cases kind <;> decide

theorem newError_upright (kind : ErrorKind) (message : String) :
    Upright w (newError kind message) Value.In := by
  have hkind : ObjectKind.error.In w := trivial
  have ho : Object.In w (Object.new .error (some (Intrinsic.errorProto kind))) := .new hkind _
  refine object_upright (alloc_intrinsic (ho.setOwn "message" (v := .str message) trivial)
    fun p hp => ?_)
  rw [Object.proto_setOwn] at hp
  cases hp
  exact errorProto_le kind

theorem throwValue_upright {v : Value} (hv : v.In w) : Upright w (throwValue v : MachineM α) R :=
  fun _ hm hle => ⟨hm, le_rfl, (Unwind.in_error hv).mono hle⟩

theorem fail_upright (kind : ErrorKind) (message : String) :
    Upright w (fail kind message : MachineM α) R :=
  (newError_upright kind message).bind fun _ _ _ hv => throwValue_upright hv

theorem typeError_upright (message : String) : Upright w (typeError message : MachineM α) R :=
  fail_upright .type message

/-- A change to what no value refers to. -/
theorem modify_aside {f : Machine → Machine} (hheap : ∀ m, (f m).heap = m.heap)
    (hregistries : ∀ m, (f m).registries = m.registries)
    (hmethods : ∀ m, (f m).debugMethods = m.debugMethods) :
    Upright w (modify f : MachineM Unit) Any := by
  intro m hm _
  have hrealm : (f m).realm = m.realm := by rw [realm, hheap, hregistries, realm]
  refine ⟨⟨?_, fun id => ?_, fun methods h p hp => ?_⟩, le_of_eq hrealm.symm, trivial⟩
  · rw [hheap, hregistries]
    exact hm.heap
  · rw [hrealm]
    exact hm.built id
  · rw [hrealm]
    exact hm.methods methods (hmethods m ▸ h) p hp

theorem chronicling_upright (f : Machine → Chronicle → Chronicle) :
    Upright w (chronicling f) Any :=
  modify_aside (fun _ => rfl) (fun _ => rfl) fun _ => rfl

theorem log_upright (line : String) : Upright w (log line) Any :=
  modify_aside (fun _ => rfl) (fun _ => rfl) fun _ => rfl

theorem registry_upright (id : Nat) :
    Upright w (registry id) (fun w' r => w'.Keeps id r) :=
  fun _ hm _ => ⟨hm, le_rfl, hm.built id, .refl _⟩

/-! ## Properties -/

theorem setOwn_upright (a : Address) (key : String) {v : Value} (hv : v.In w) :
    Upright w (setOwn a key v) Any := by
  refine (ask_any _).next fun isArray => ?_
  split
  · refine (number_upright v).next fun n => modify_upright a fun w' o _ ho => ?_
    exact ⟨ho.setLength n, Object.proto_setLength o n⟩
  · refine modify_upright a fun w' o hw ho => ?_
    exact ⟨ho.setOwn key (hv.mono hw), Object.proto_setOwn o key v⟩

theorem prototypeOf_upright (a : Address) : Upright w (prototypeOf a) Value.In := by
  refine heapM_upright.bind fun w' heap _ hheap => ?_
  obtain ⟨rs, hsound, rfl⟩ := hheap
  split
  · rename_i v hfind
    exact value (hsound.find? hfind)
  · exact value trivial
  · split
    · refine newObject_upright.bind fun w₁ b hw₁ hb => ?_
      refine (modify_upright a fun w₂ o hw₂ ho => ?_).next fun _ => value hb
      exact ⟨ho.setOwn "prototype" (Value.In.mono hw₂ hb), Object.proto_setOwn _ _ _⟩
    · exact value trivial

theorem readSlot_upright (hinvoke : invoke.Upright) {this : Value} (hthis : this.In w)
    {slot : Option Slot} (hslot : ∀ s, slot = some s → s.In w) :
    Upright w (readSlot invoke this slot) Value.In := by
  match slot, hslot with
  | some (.data v), hslot => exact value (hslot _ rfl)
  | some (.accessor (some getter) _), hslot =>
      exact hinvoke ((hslot _ rfl).1 getter rfl) hthis (List.forall_mem_nil _)
  | some (.accessor none _), _ => exact value trivial
  | none, _ => exact value trivial

theorem find?_upright (key : String) (a : Address) :
    Upright w (ask fun h => h.find? key a) (fun w' slot => ∀ s, slot = some s → s.In w') :=
  ask_upright fun _ _ hheap _ _ hs => hheap.find? hs

theorem getProperty_upright (hinvoke : invoke.Upright) {target : Value} (htarget : target.In w)
    (key : String) : Upright w (getProperty invoke target key) Value.In := by
  have hinherited : ∀ {w' : Realm}, w ≤ w' → ∀ proto, Upright w' (do
      readSlot invoke target (← ask (fun h => h.find? key proto))) Value.In := fun hw proto =>
    (find?_upright key proto).bind fun _ _ hw' hslot =>
      readSlot_upright hinvoke (htarget.mono (le_trans hw hw')) hslot
  cases target with
  | undefined => exact typeError_upright _
  | null => exact typeError_upright _
  | bool b => exact hinherited le_rfl _
  | num x => exact hinherited le_rfl _
  | str s =>
      rw [getProperty]
      split
      · exact value trivial
      · split
        · split <;> exact value trivial
        · exact hinherited le_rfl _
  | object a =>
      refine Upright.get.bind fun _ m hw hm => ?_
      obtain ⟨hsound, rfl⟩ := hm
      dsimp only
      cases hmethod : (if debugMethodNames.contains key && (m.heap.object a).isArray then
        m.debugMethod? key else none) with
      | some method =>
          obtain ⟨-, hmethod⟩ := Option.ite_none_right_eq_some.1 hmethod
          rw [debugMethod?] at hmethod
          obtain ⟨-, hmethod⟩ := Option.ite_none_right_eq_some.1 hmethod
          obtain ⟨methods, hmethods, hlookup⟩ := Option.bind_eq_some_iff.1 hmethod
          obtain ⟨front, behind, rfl, -⟩ := List.lookup_eq_some_iff.1 hlookup
          exact value (hsound.methods _ hmethods (key, method) (by simp))
      | none =>
          dsimp only
          split
          · exact prototypeOf_upright a
          · exact hinherited hw _

theorem putProperty_upright (hinvoke : invoke.Upright) {target : Value} (htarget : target.In w)
    (key : String) {v : Value} (hv : v.In w) : Upright w (putProperty invoke target key v) Any := by
  cases target with
  | undefined => exact typeError_upright _
  | null => exact typeError_upright _
  | bool b => exact done
  | num x => exact done
  | str s => exact done
  | object a =>
      refine (find?_upright key a).bind fun w' slot hw hslot => ?_
      split
      · rename_i setter
        refine (hinvoke ((hslot _ rfl).2 setter rfl) (htarget.mono hw) ?_).next fun _ => done
        exact List.forall_mem_singleton.2 (hv.mono hw)
      · exact done
      · exact setOwn_upright a key (hv.mono hw)

theorem deleteProperty_upright (target : Value) (key : String) :
    Upright w (deleteProperty target key) Any := by
  cases target with
  | undefined => exact typeError_upright _
  | null => exact typeError_upright _
  | bool b => exact done
  | num x => exact done
  | str s => exact done
  | object a =>
      refine (modify_upright a fun w' o _ ho => ?_).next fun _ => done
      exact ⟨ho.remove key, Object.proto_remove o key⟩

/-- The global object is always there. -/
theorem globally {x : MachineM α}
    (hx : ∀ w', w ≤ w' → (Value.object Intrinsic.globalObject).In w' → Upright w' x R) :
    Upright w x R :=
  fun m hm hle => hx m.realm hle hm.ground m hm le_rfl

theorem hasGlobal_upright (name : String) : Upright w (hasGlobal name) Any := ask_any _

theorem readGlobal_upright (hinvoke : invoke.Upright) (name : String) :
    Upright w (readGlobal invoke name) Value.In := by
  refine (hasGlobal_upright name).next fun found => ?_
  split
  · exact globally fun _ _ hglobal => getProperty_upright hinvoke hglobal name
  · exact fail_upright _ _

theorem writeGlobal_upright (hinvoke : invoke.Upright) (name : String) {v : Value} (hv : v.In w) :
    Upright w (writeGlobal invoke name v) Any :=
  globally fun _ hw hglobal => putProperty_upright hinvoke hglobal name (hv.mono hw)

/-! ## Operators -/

/-- What may be had whatever there is, is no object. -/
theorem in_of_shown {v : Value} (h : v.Shown ⟨[], none, 0⟩) : v.In w := by
  cases v with
  | object a => cases h
  | undefined | null | bool _ | num _ | str _ => trivial

theorem unary_upright (op : Script.UnaryOp) (v : Value) : Upright w (unary op v) Value.In :=
  convert_upright fun _ _ _ _ _ h => in_of_shown (unary?_shown h)

theorem instanceOf_upright (hinvoke : invoke.Upright) (v : Value) {ctor : Value} (hctor : ctor.In w) :
    Upright w (instanceOf invoke v ctor) Any := by
  refine (ask_any _).next fun callable => ?_
  split
  · split
    · refine (getProperty_upright hinvoke hctor "prototype").next fun proto => ?_
      split
      · exact ask_any _
      · exact done
    · exact done
  · exact typeError_upright _

theorem binary_upright (hinvoke : invoke.Upright) (op : Script.BinaryOp) (a : Value) {b : Value}
    (hb : b.In w) : Upright w (binary invoke op a b) Value.In := by
  unfold binary
  split
  · refine (text_upright a).next fun key => ?_
    split
    · exact (ask_any _).next fun _ => value trivial
    · exact (text_upright _).next fun _ => typeError_upright _
  · exact (instanceOf_upright hinvoke a hb).next fun _ => value trivial
  · exact convert_upright fun _ _ _ _ _ h => in_of_shown (binary?_shown h)

/-! ## Construction -/

theorem undefined_in : Value.undefined.In w := trivial

/-- Whatever object the function has for its `prototype`, it is older than the instance to come. -/
theorem instanceProto_upright (hinvoke : invoke.Upright) {f : Value} (hf : f.In w) :
    Upright w (instanceProto invoke f) (fun w' a => a < w'.size) := by
  refine (getProperty_upright hinvoke hf "prototype").bind fun w' proto hw hproto => ?_
  split
  · exact pure fun _ hw' => Value.In.mono hw' hproto
  · exact globally fun w₁ _ hglobal => pure fun w₂ hw₂ =>
      Nat.lt_of_le_of_lt (by decide) (Nat.lt_of_lt_of_le hglobal hw₂.1)

theorem instanceOn_upright (hinvoke : invoke.Upright) {f : Value} (hf : f.In w) {args : List Value}
    (hargs : Values.In w args) : Upright w (instanceOn invoke f args) Value.In := by
  refine (instanceProto_upright hinvoke hf).bind fun w₁ proto hw₁ hproto => ?_
  refine (alloc_upright (plain_in _) fun p hp => ?_).bind fun w₂ a hw₂ ha => ?_
  · cases hp
    exact hproto
  · have hw := le_trans hw₁ hw₂
    have hthis : (Value.object a).In w₂ := ha
    refine (hinvoke (hf.mono hw) hthis (hargs.mono hw)).bind fun w₃ result hw₃ hresult => ?_
    split
    · exact value hresult
    · exact value (Value.In.mono hw₃ (v := .object a) ha)

theorem construct_upright (hinvoke : invoke.Upright) {f : Value} (hf : f.In w) {args : List Value}
    (hargs : Values.In w args) : Upright w (construct invoke f args) Value.In := by
  refine (ask_any _).next fun callable => ?_
  split
  · exact (inspect_upright f).next fun _ => typeError_upright _
  · exact hinvoke hf undefined_in hargs
  · exact instanceOn_upright hinvoke hf hargs

/-! ## Arrays -/

theorem thisItems_upright {this : Value} (hthis : this.In w) (method : String) :
    Upright w (thisItems this method) (fun w' r => r.1 < w'.size ∧ Items.In w' r.2) := by
  unfold thisItems
  split
  · rename_i a
    refine (ask_upright (R := fun w' items => ∀ l, items = some l → Items.In w' l)
      fun heap rs hheap _ l hl => (hheap.object a).elements? hl).bind fun w' items hw hitems => ?_
    split
    · exact pure fun w'' hw'' => ⟨hthis.mono (le_trans hw hw''), fun v hv => (hitems _ rfl v hv).mono hw''⟩
    · exact typeError_upright _
  · exact typeError_upright _

theorem changeItems_upright {a : Address} {f : Array Value → α × Array Value} {default : α}
    (hR : Lasting R) (hdefault : R w default)
    (hf : ∀ w' items, w ≤ w' → Items.In w' items → R w' (f items).1 ∧ Items.In w' (f items).2) :
    Upright w (changeItems a f default) R := by
  refine (ask_upright (R := fun w' items => ∀ l, items = some l → Items.In w' l)
    fun heap rs hheap _ l hl => (hheap.object a).elements? hl).bind fun w' items hw hitems => ?_
  split
  · exact pure fun _ hw' => hR (le_trans hw hw') hdefault
  · obtain ⟨hresult, hleft⟩ := hf w' _ hw (hitems _ rfl)
    refine (modify_upright a fun w₁ o _ ho => ⟨ho.items fun v hv => ?_, rfl⟩).next fun _ => ?_
    · exact absurd hv (Array.not_mem_empty v)
    · refine (modify_upright a fun w₁ o hw₁ ho => ⟨ho.items fun v hv => ?_, rfl⟩).next fun _ => ?_
      · exact (hleft v hv).mono hw₁
      · exact pure fun _ hw' => hR hw' hresult

theorem relative_upright (v : Value) (length default : Nat) :
    Upright w (relative v length default) Any := by
  unfold relative
  split
  · exact done
  · refine (number_upright v).next fun x => ?_
    dsimp only
    split
    · exact done
    · split <;> exact done

theorem sliceOf_upright (items : List α) (args : List Value) :
    Upright w (sliceOf items args) (fun _ found => ∀ a ∈ found, a ∈ items) := by
  refine (relative_upright _ _ _).next fun start => (relative_upright _ _ _).next fun stop => ?_
  exact pure fun _ _ a ha => List.mem_of_mem_take (List.mem_of_mem_drop ha)

theorem callback_upright {args : List Value} (hargs : Values.In w args) (method : String) :
    Upright w (callback args method) Value.In := by
  refine (ask_any _).next fun callable => ?_
  split
  · exact value (hargs.getD 0)
  · exact (inspect_upright _).next fun _ => typeError_upright _

theorem visit_upright {a : Address} {step : β → Nat → Value → MachineM β} {S : Realm → β → Prop}
    (hS : Lasting S)
    (hstep : ∀ w' acc i v, w ≤ w' → S w' acc → v.In w' → Upright w' (step acc i v) S) (fuel : Nat) :
    ∀ (w' : Realm) (i : Nat) (acc : β), w ≤ w' → S w' acc → Upright w' (visit a step fuel i acc) S := by
  induction fuel with
  | zero => exact fun _ _ _ _ _ => exhausted
  | succ fuel ih =>
      intro w' i acc hw hacc
      refine (ask_upright (R := fun w' v => ∀ u, v = some u → u.In w') fun heap rs hheap _ u hu => ?_).bind
        fun w₁ item hw₁ hitem => ?_
      · obtain ⟨items, hitems, hu⟩ := Option.bind_eq_some_iff.1 hu
        exact ((hheap.object a).elements? hitems).getElem? hu
      · have hacc₁ := hS hw₁ hacc
        split
        · exact pure fun _ hw₂ => hS hw₂ hacc₁
        · refine (hstep w₁ acc i _ (le_trans hw hw₁) hacc₁ (hitem _ rfl)).bind fun w₂ acc hw₂ hacc => ?_
          exact ih w₂ (i + 1) acc (le_trans hw (le_trans hw₁ hw₂)) hacc

theorem foldNumbers_upright (pick : Float → Float → Float) (acc : Float) (args : List Value) :
    Upright w (foldNumbers pick acc args) Any := by
  induction args generalizing acc with
  | nil => exact done
  | cons v rest ih =>
      refine (number_upright v).next fun x => ?_
      split
      · exact done
      · exact ih _

theorem itemText_upright (v : Value) : Upright w (itemText v) Any := by
  unfold itemText
  split
  · exact done
  · exact text_upright v

theorem messageText_upright (v : Value) : Upright w (messageText v) Any := by
  unfold messageText
  split
  · exact done
  · exact text_upright v

theorem logText_upright (v : Value) : Upright w (logText v) Any := by
  unfold logText
  split
  · exact done
  · exact inspect_upright v

end Machine

end Resumption
