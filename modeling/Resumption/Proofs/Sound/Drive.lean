import Resumption.Proofs.Code.Positions
import Resumption.Proofs.Sound.Run

/-!
# The ways into a machine are in order

Compiling, running and resuming keep a machine sound, if what they are given is there.  Whatever is left
to resume is in order, and after a pause it goes on at a statement that there is a way to.
-/

namespace Resumption

open Upright Machine

variable {w w' : Realm} {α : Type} {R : Realm → α → Prop}

/-! ## Registries -/

namespace Realm

variable {rs : Array Registry} {size id : Nat} {r : Registry}

/-- The registry is there. -/
def Has (w : Realm) (id : Nat) : Prop := id < w.registries.size

theorem Has.mono (hw : w ≤ w') (h : w.Has id) : w'.Has id := Nat.lt_of_lt_of_le h hw.2.2

theorem registry_set (i : Nat) :
    registry ⟨size, rs.setIfInBounds id r⟩ i =
      if id = i ∧ id < rs.size then r else registry ⟨size, rs⟩ i := by
  rw [registry, registry, Array.getD_eq_getD_getElem?, Array.getD_eq_getD_getElem?,
    Array.getElem?_setIfInBounds]
  by_cases hid : id = i
  · subst hid
    by_cases hlt : id < rs.size
    · simp [hlt]
    · simp [hlt]
  · simp [hid]

theorem registry_push (i : Nat) : registry ⟨size, rs.push .empty⟩ i = registry ⟨size, rs⟩ i := by
  rw [registry, registry, Array.getD_eq_getD_getElem?, Array.getD_eq_getD_getElem?, Array.getElem?_push]
  split
  · rename_i hi
    rw [hi, Array.getElem?_eq_none (Nat.le_refl _)]
    rfl
  · rfl

theorem keeps_set (hid : id < rs.size) (hr : r.Built) :
    Keeps ⟨size, rs.setIfInBounds id r⟩ id r := by
  refine ⟨hr, ?_⟩
  rw [registry_set, if_pos ⟨rfl, hid⟩]
  exact .refl _

/-- More trees in one registry. -/
theorem le_set (hr : (registry ⟨size, rs⟩ id).Le r) :
    (⟨size, rs⟩ : Realm) ≤ ⟨size, rs.setIfInBounds id r⟩ := by
  refine ⟨Nat.le_refl _, fun i => ?_, by rw [Array.size_setIfInBounds]⟩
  rw [registry_set]
  split
  · rename_i hid
    exact hid.1 ▸ hr
  · exact .refl _

theorem le_push : (⟨size, rs⟩ : Realm) ≤ ⟨size, rs.push .empty⟩ := by
  refine ⟨Nat.le_refl _, fun i => ?_, ?_⟩
  · rw [registry_push]
    exact .refl _
  · rw [Array.size_push]
    exact Nat.le_succ _

end Realm

namespace Machine

variable {m : Machine} {id : Nat} {r : Registry}

/-- Only the registries change. -/
theorem Sound.withRegistries (hm : m.Sound) {registries : Array Registry}
    (hle : m.realm ≤ m.heap.realm registries) : Sound { m with registries } where
  heap := ⟨hm.heap.ground, fun a => (hm.heap.object a).mono hle, hm.heap.older⟩
  built id := (hle.2.1 id).built (hm.built id)
  methods methods hmethods p hp := (hm.methods methods hmethods p hp).mono hle

theorem newRegistry_upright : Upright w newRegistry (fun w' id => w'.Has id) := fun m hm _ => by
  have hle : m.realm ≤ m.heap.realm (m.registries.push .empty) := Realm.le_push
  refine ⟨hm.withRegistries hle, hle, ?_⟩
  change m.registries.size < (m.registries.push .empty).size
  rw [Array.size_push]
  exact Nat.lt_succ_self _

/-- A tree is registered; a function of it may be walked. -/
theorem assign_upright (hid : w.Has id) (f : Script.Func) (ns : String) (isProgram : Bool) :
    Upright w (assign id f ns isProgram) (fun w' t =>
      ∀ chain mode, Chain.In w' chain → Callable.In w' (.stepped ⟨t, t.base, chain, mode, id⟩)) := by
  intro m hm hw
  have hgrown := (m.realm.registry id).le_assign f ns isProgram
  have hle : m.realm ≤ m.heap.realm (m.registries.setIfInBounds id
      ((m.realm.registry id).assign f ns isProgram).2) := Realm.le_set hgrown
  refine ⟨hm.withRegistries hle, hle, fun chain mode hchain => ?_⟩
  have howns : ((m.realm.registry id).assign f ns isProgram).1.owns
      ((m.realm.registry id).assign f ns isProgram).1.base = true :=
    (IndexedTree.at_root _ _ _ _).owns
  exact .stepped hchain (Realm.keeps_set (hid.mono hw) (hgrown.built (hm.built id)))
    ((hm.built id).tree_assign f ns isProgram howns)

/-- What a registry makes of a function, and the registry that comes of it. -/
theorem withRegistry_instrument (id : Nat) (f : Script.Func) (ns : String) (inherited : List String)
    (isProgram : Bool) (m : Machine) :
    withRegistry id (instrument f ns inherited isProgram) m =
      .ok (Code.instrument f (m.realm.registry id) ns inherited isProgram).1
        { m with
          registries := m.registries.setIfInBounds id
            (Code.instrument f (m.realm.registry id) ns inherited isProgram).2 } := rfl

/-- Instrumented code can be made a function in any scopes. -/
theorem instrument_upright (hid : w.Has id) (f : Script.Func) (ns : String) (inherited : List String)
    (isProgram : Bool) :
    Upright w (withRegistry id (instrument f ns inherited isProgram)) (fun w' lowered =>
      ∀ code chain, lowered = .ok code → Chain.In w' chain →
        Callable.In w' (.instrumented ⟨code, chain, id⟩)) := by
  intro m hm hw
  rw [withRegistry_instrument]
  have hgrown := Code.le_instrument f (m.realm.registry id) ns inherited isProgram
  have hle : m.realm ≤ m.heap.realm (m.registries.setIfInBounds id
      (Code.instrument f (m.realm.registry id) ns inherited isProgram).2) := Realm.le_set hgrown
  refine ⟨hm.withRegistries hle, hle, fun code chain hcode hchain => ?_⟩
  obtain ⟨hlowered, hregistry⟩ := Code.instrument_eq_ok hcode
  have himage := Code.funcsImaged (t := ((m.realm.registry id).assign f ns isProgram).1)
    (r := (Code.instrument f (m.realm.registry id) ns inherited isProgram).2) (fun i hi => by
      rw [hregistry, ((hm.built id).assign f ns isProgram).resolve_eq_ok_iff]
      exact ⟨(hm.built id).tree_assign f ns isProgram hi, rfl⟩) 0
    (Nat.zero_le _) (IndexedTree.at_root _ _ _ _) rfl (fun _ hx => by cases hx) hlowered
  have hns : code.ns = ((m.realm.registry id).assign f ns isProgram).1.ns := by
    cases himage with
    | mk _ _ _ _ nameSpace => exact nameSpace
  exact .instrumented hchain (Realm.keeps_set (hid.mono hw) (hgrown.built (hm.built id)))
    (hns ▸ himage)

/-! ## Setting up -/

/-- What is in use for the time of a run is no part of the realm. -/
theorem Sound.setting {m : Machine} (hm : m.Sound) (debugging debugBuiltins : Bool) (active : Nat) :
    Sound { m with debugging, debugBuiltins, active } :=
  ⟨hm.heap, hm.built, hm.methods⟩

theorem caught_upright {x : MachineM α} (hx : Upright w x R) :
    Upright w (caught x) (fun w' r => (∀ a, r = .ok a → R w' a) ∧ ∀ u, r = .error u → u.In w') := by
  intro m hm hle
  have hends := hx m hm hle
  rw [caught]
  generalize x m = ended at hends ⊢
  rcases ended with ⟨a, m'⟩ | ⟨u | _, m'⟩
  · obtain ⟨hm', hle', ha⟩ := hends
    exact ⟨hm', hle', fun _ h => by cases h; exact ha, fun _ h => by cases h⟩
  · obtain ⟨hm', hle', hu⟩ := hends
    exact ⟨hm', hle', fun _ h => (by cases h), fun _ h => by cases h; exact hu⟩
  · exact hends

theorem debugMethod_upright (hid : w.Has builtinRegistry) (f : Script.Func) :
    Upright w (debugMethod f) (fun w' method => ∀ p, method = some p → p.2.In w') := by
  refine (instrument_upright hid f _ _ _).bind fun w₁ lowered hw₁ hlowered => ?_
  cases lowered with
  | error e => exact pure fun _ _ => nofun
  | ok code =>
      cases f.name with
      | none => exact pure fun _ _ => nofun
      | some name =>
          refine (newFunction_upright (hlowered code [] rfl (List.forall_mem_nil _))).bind
            fun w₂ v hw₂ hv => pure fun w₃ hw₃ p hp => ?_
          cases hp
          exact hv.mono hw₃

theorem prepareDebugMethods_upright (hid : w.Has builtinRegistry) :
    Upright w prepareDebugMethods Any := by
  refine Upright.get.next fun m => ?_
  split
  · have hlasting : Lasting (fun w' (p : String × Value) => p.2.In w') := fun _ _ _ hw h => h.mono hw
    refine (Upright.filterMapM hlasting fun w' hw f _ => debugMethod_upright (hid.mono hw) f).bind
      fun w₁ methods _ hmethods m₁ hm₁ hle => ?_
    refine ⟨⟨hm₁.heap, hm₁.built, fun l hl p hp => ?_⟩, le_rfl, trivial⟩
    cases hl
    exact (hmethods p hp).mono hle
  · exact done

theorem withDebugSupport_upright (hid : w.Has builtinRegistry) {x : MachineM α} (hx : Upright w x R) :
    Upright w (withDebugSupport x) R := by
  refine (prepareDebugMethods_upright hid).next fun _ => Upright.get.next fun m => ?_
  refine Upright.next (R := Any) ?_ fun _ => ?_
  · exact modify_aside (fun _ => rfl) (fun _ => rfl) fun _ => rfl
  · exact afterwards_upright hx (fun _ => rfl) (fun _ => rfl) fun _ => rfl

end Machine

/-! ## Outcomes -/

def Outcome.In (w : Realm) : Outcome → Prop
  | .completed v => v.In w
  | .paused k => k.In w ∧ k.Posed
  | .failed error k => error.In w ∧ k.In w ∧ k.Posed

theorem lasting_outcome : Lasting Outcome.In := fun _ _ outcome hw h => by
  cases outcome with
  | completed v => exact Value.In.mono hw h
  | paused k => exact ⟨h.1.mono hw, h.2⟩
  | failed error k => exact ⟨h.1.mono hw, h.2.1.mono hw, h.2.2⟩

theorem Outcome.In.continuation? {outcome : Outcome} (h : outcome.In w) {k : Continuation}
    (hk : outcome.continuation? = some k) : k.In w ∧ k.Posed := by
  cases outcome with
  | completed v => cases hk
  | paused k => cases hk; exact h
  | failed error k => cases hk; exact h.2

theorem Outcome.in_ofUnwind (hbuilt : ∀ id, (w.registry id).Built) {u : Unwind} (hu : u.Arranged w) :
    (Outcome.ofUnwind w.registries u).In w := by
  have hk := Continuation.in_ofUnwind hbuilt hu.toStocked
  have hposed := Continuation.posed_ofUnwind hu
  unfold Outcome.ofUnwind
  split
  · rename_i error herror
    exact ⟨hu.thrown error herror, hk, hposed⟩
  · exact ⟨hk, hposed⟩

namespace Machine

/-- What stopped a run is made an outcome with the registries of the moment. -/
theorem ofUnwind_upright (f : Array Registry → Outcome)
    (hf : ∀ w', w ≤ w' → (∀ id, (w'.registry id).Built) → (f w'.registries).In w') :
    Upright w (do return f (← get).registries) Outcome.In := by
  refine Upright.get.bind fun w' m hw hm => pure fun w₁ hw₁ => lasting_outcome hw₁ ?_
  obtain ⟨hm, rfl⟩ := hm
  exact hf m.realm hw hm.built

theorem settle_upright {x : MachineM Value} (hx : Upright w x Value.In) :
    Upright w (settle x) Outcome.In := by
  refine (caught_upright hx).bind fun w₁ ended hw₁ hended => ?_
  cases ended with
  | ok v => exact pure fun w₂ hw₂ => (hended.1 v rfl).mono hw₂
  | error u =>
      exact ofUnwind_upright (fun registries => .ofUnwind registries u) fun w₂ hw₂ hbuilt =>
        Outcome.in_ofUnwind hbuilt ((hended.2 u rfl).mono hw₂).arranged

/-! ## Compiling and running -/

theorem compile_upright {id : Nat} (hid : w.Has id) (f : Script.Func) (inherited : List String) :
    Upright w (compile f id inherited) (fun w' lowered =>
      ∀ code chain, lowered = .ok code → Chain.In w' chain →
        Callable.In w' (.instrumented ⟨code, chain, id⟩)) :=
  Upright.get.bind fun _ _ hw _ => instrument_upright (hid.mono hw) f _ _ _

theorem compileProgram_upright {id : Nat} (hid : w.Has id) (p : Script.Program) :
    Upright w (compileProgram p id) (fun w' lowered =>
      ∀ code chain, lowered = .ok code → Chain.In w' chain →
        Callable.In w' (.instrumented ⟨code, chain, id⟩)) :=
  Upright.get.bind fun _ _ hw _ => instrument_upright (hid.mono hw) _ _ _ _

section

variable (hready : w.Has builtinRegistry) (fuel : Nat) {id : Nat}
include hready

theorem runClosure_upright {f this : Value} {args : List Value} (hf : f.In w) (hthis : this.In w)
    (hargs : Values.In w args) : Upright w (runClosure fuel f this args) Outcome.In :=
  withDebugSupport_upright hready (settle_upright (call_upright fuel hf hthis hargs))

theorem runCode_upright {code : Code.Func} {chain : Chain} {args : List Value}
    (hcode : Callable.In w (.instrumented ⟨code, chain, id⟩)) (hargs : Values.In w args) :
    Upright w (runCode fuel code chain id args) Outcome.In :=
  withDebugSupport_upright hready (settle_upright
    ((newFunction_upright hcode).bind fun _ _ hw hf => call_upright fuel hf undefined_in (hargs.mono hw)))

/-- What a compiled run comes to. -/
def LoweredIn (w : Realm) (lowered : Code.Lowered Outcome) : Prop :=
  ∀ outcome, lowered = .ok outcome → outcome.In w

theorem runCompiled_upright {chain : Chain} {args : List Value} (hargs : Values.In w args)
    (lowered : Code.Lowered Code.Func) :
    (∀ code, lowered = .ok code → Callable.In w (.instrumented ⟨code, chain, id⟩)) →
      Upright w (match lowered with
        | .error e => Pure.pure (.error e)
        | .ok code => do return .ok (← runCode fuel code chain id args) :
          MachineM (Code.Lowered Outcome)) LoweredIn := by
  intro hcode
  cases lowered with
  | error e => exact pure fun _ _ => nofun
  | ok code =>
      refine (runCode_upright hready fuel (hcode code rfl) hargs).bind fun w₁ outcome hw₁ houtcome =>
        pure fun w₂ hw₂ other hother => ?_
      cases hother
      exact lasting_outcome hw₂ houtcome

theorem run_upright (hid : w.Has id) (f : Script.Func) {args : List Value} (hargs : Values.In w args)
    {bindings : Option Address} (hbindings : ∀ a, bindings = some a → a < w.size) :
    Upright w (run fuel f id args bindings) LoweredIn := by
  have hrest : ∀ w₁ inherited, w ≤ w₁ → Upright w₁ (do
      match ← compile f id inherited with
      | .error e => return .error e
      | .ok code => return .ok (← runCode fuel code
          (bindings.toList.map fun a => Link.mk .function a) id args)) LoweredIn := by
    intro w₁ inherited hw₁
    refine (compile_upright (hid.mono hw₁) f inherited).bind fun w₂ lowered hw₂ hlowered => ?_
    have hw := le_trans hw₁ hw₂
    refine runCompiled_upright (hready.mono hw) fuel (hargs.mono hw) lowered fun code hcode =>
      hlowered code _ hcode fun link hlink => ?_
    obtain ⟨a, ha, rfl⟩ := List.mem_map.1 hlink
    exact Nat.lt_of_lt_of_le (hbindings a (Option.mem_toList.1 ha)) hw.1
  cases bindings with
  | none =>
      exact (pure fun _ _ => trivial : Upright w _ Any).bind fun w₁ inherited hw₁ _ =>
        hrest w₁ inherited hw₁
  | some a => exact (ask_any _).bind fun w₁ inherited hw₁ _ => hrest w₁ inherited hw₁

theorem runProgram_upright (hid : w.Has id) (p : Script.Program) :
    Upright w (runProgram fuel p id) LoweredIn :=
  (compileProgram_upright hid p).bind fun _ lowered hw hlowered =>
    runCompiled_upright (hready.mono hw) fuel (List.forall_mem_nil _) lowered
      fun code hcode => hlowered code _ hcode (List.forall_mem_nil _)

theorem interpret_upright (hid : w.Has id) (p : Script.Program) (mode : Mode) :
    Upright w (interpret fuel p id mode) Outcome.In := by
  refine withDebugSupport_upright hready (settle_upright (Upright.get.bind fun w₁ _ hw₁ _ => ?_))
  refine (assign_upright (hid.mono hw₁) p.toFunc _ true).bind fun w₂ t hw₂ ht => ?_
  refine (newFunction_upright (ht [] mode (List.forall_mem_nil _))).bind fun w₃ f hw₃ hf => ?_
  exact call_upright fuel hf undefined_in (List.forall_mem_nil _)

end

/-! ## Resuming -/

theorem resumeFrames_upright (fuel : Nat) {frames : List Frame} {result : Option Value}
    (hframes : ∀ f ∈ frames, f.In w) (hresult : ∀ v, result = some v → v.In w) :
    Upright w (Continuation.resumeFrames fuel frames result) Outcome.In := by
  induction frames generalizing w result with
  | nil =>
      refine pure fun w' hw => Value.In.mono hw ?_
      cases result with
      | none => trivial
      | some v => exact hresult v rfl
  | cons frame rest ih =>
      have hrest : ∀ f ∈ rest, f.In w := fun f hf => hframes f (List.mem_cons_of_mem _ hf)
      have hframe := ((hframes frame List.mem_cons_self).withParent none).seed hresult
      refine (caught_upright (runFrame_upright fuel hframe)).bind fun w₁ ended hw₁ hended => ?_
      cases ended with
      | ok v =>
          refine ih (fun f hf => (hrest f hf).mono hw₁) fun u hu => ?_
          cases hu
          exact hended.1 v rfl
      | error u =>
          exact ofUnwind_upright (fun registries => .ofUnwind registries
            (rest.foldl (fun u f => (u.shift registries f).2) u)) fun w₂ hw₂ hbuilt =>
              Outcome.in_ofUnwind hbuilt (((hended.2 u rfl).mono hw₂).arranged.shiftAll hbuilt fun f hf =>
              (hrest f hf).mono (le_trans hw₁ hw₂))

theorem obstacle?_upright (k : Continuation) : Upright w k.obstacle? Any := by
  unfold Continuation.obstacle?
  split
  · exact done
  · split
    · exact done
    · split
      · exact done
      · split
        · exact (convert_any _).next fun _ => done
        · exact done

theorem resume_upright (hready : w.Has builtinRegistry) (fuel : Nat) {k : Continuation} (hk : k.In w) :
    Upright w (k.resume fuel) (fun w' resumed => ∀ outcome, resumed = .ok outcome → outcome.In w') := by
  refine (obstacle?_upright k).bind fun w₁ obstacle hw₁ _ => ?_
  cases obstacle with
  | some obstacle => exact pure fun _ _ => nofun
  | none =>
      have hframes : Upright w₁ (Continuation.resumeFrames fuel k.chain none) Outcome.In :=
        resumeFrames_upright fuel (fun f hf => (hk.chain f hf).mono hw₁) nofun
      refine (withDebugSupport_upright (hready.mono hw₁) hframes).bind fun w₂ outcome hw₂ houtcome =>
        pure fun w₃ hw₃ other hother => ?_
      cases hother
      exact lasting_outcome hw₃ houtcome

theorem duplicate_upright {k : Continuation} (hk : k.In w) :
    Upright w k.duplicate (fun w' k' => k'.In w' ∧ (k.Posed → k'.Posed)) := by
  intro m hm hle
  obtain ⟨hcopied, hin, hposed⟩ := Continuation.copied_copy hm.heap (hk.mono hle)
  exact ⟨hm.withHeap hcopied.sound hcopied.grown, hcopied.grown, hin, hposed⟩

end Machine

end Resumption
