import Resumption.Engine.Call
import Resumption.Proofs.Sound.Frames
import Resumption.Proofs.Sound.Instrumented
import Resumption.Proofs.Sound.Stepper

/-!
# Calls are in order

A call and a function that is taken up again: the machine stays sound, however they end.
-/

namespace Resumption

open Upright

variable {w w' : Realm} {α : Type} {R : Realm → α → Prop}

namespace Machine

/-- What is done to the machine in the end, whether there is a result or not, leaves its values alone. -/
theorem afterwards_upright {x : MachineM α} {f : Machine → Machine} (hx : Upright w x R)
    (hheap : ∀ m, (f m).heap = m.heap) (hregistries : ∀ m, (f m).registries = m.registries)
    (hmethods : ∀ m, (f m).debugMethods = m.debugMethods) : Upright w (afterwards x f) R := by
  intro m hm hle
  have haside : ∀ m' : Machine, m'.Sound → (f m').Sound ∧ (f m').realm = m'.realm := fun m' hm' => by
    obtain ⟨hm', hle', -⟩ := modify_aside (w := m'.realm) hheap hregistries hmethods m' hm' le_rfl
    refine ⟨hm', ?_⟩
    rw [realm, hheap, hregistries, realm]
  have hends := hx m hm hle
  rw [afterwards]
  generalize x m = ended at hends ⊢
  rcases ended with ⟨a, m'⟩ | ⟨u | _, m'⟩
  · obtain ⟨hm', hle', ha⟩ := hends
    obtain ⟨hsound, hrealm⟩ := haside m' hm'
    exact ⟨hsound, hrealm ▸ hle', hrealm ▸ ha⟩
  · obtain ⟨hm', hle', hu⟩ := hends
    obtain ⟨hsound, hrealm⟩ := haside m' hm'
    exact ⟨hsound, hrealm ▸ hle', hrealm ▸ hu⟩
  · obtain ⟨hm', hle'⟩ := hends
    obtain ⟨hsound, hrealm⟩ := haside m' hm'
    exact ⟨hsound, hrealm ▸ hle'⟩

theorem closing_upright {x : MachineM α} (hx : Upright w x R) : Upright w (closing x) R :=
  afterwards_upright hx (fun _ => rfl) (fun _ => rfl) fun _ => rfl

theorem enter_upright : Upright w enter Any := by
  refine Upright.get.next fun m => ?_
  split
  · exact (chronicling_upright _).next fun _ => fail_upright _ _
  · exact modify_aside (fun _ => rfl) (fun _ => rfl) fun _ => rfl

theorem call_upright (fuel : Nat) : (call fuel).Upright := by
  induction fuel with
  | zero => exact fun _ _ _ _ _ _ _ => exhausted
  | succ fuel ih =>
      intro w f this args hf hthis hargs
      refine (ask_upright (R := fun w' c => ∀ g, c = some g → Callable.In w' g)
        fun heap rs hheap _ g hg => hheap.callable? hg).bind fun w₁ found hw₁ hfound => ?_
      have hf₁ := hf.mono hw₁
      cases found with
      | none => exact (inspect_upright f).next fun _ => typeError_upright _
      | some callable =>
          refine enter_upright.bind fun w₂ _ hw₂ _ => closing_upright ?_
          have hcallable := (hfound _ rfl).mono hw₂
          have hw := le_trans hw₁ hw₂
          cases callable with
          | native native => exact runNative_upright ih fuel native (hthis.mono hw) (hargs.mono hw)
          | instrumented closure =>
              exact Instrumented.call_upright ih fuel hcallable (hf.mono hw) (hthis.mono hw) (hargs.mono hw)
          | stepped closure =>
              exact Stepper.call_upright ih fuel hcallable (hf.mono hw) (hthis.mono hw) (hargs.mono hw)

/-- The activation in which a frame is taken up. -/
theorem activation_in {frame : Frame} (hframe : frame.In w) (site : Site) (last : Nat) :
    Activation.In w
      { site, chain := frame.scope, cache := frame.cache, last, arguments := none
        pending := frame.pending, pc := frame.pc } where
  chain := hframe.scope
  anchored := by
    obtain ⟨a, outer, hscope⟩ := hframe.headed
    exact hscope ▸ Chain.anchored_function a outer
  cache := hframe.cache
  arguments := nofun
  pending := hframe.pending
  inner := hframe.inner

theorem runFrame_upright (fuel : Nat) {frame : Frame} (hframe : frame.In w) :
    Upright w (runFrame fuel frame) Value.In := by
  obtain ⟨a, outer, hscope⟩ := hframe.headed
  unfold runFrame
  split
  · exact fail_upright _ _
  · rename_i o ho
    obtain ⟨r, hkept, htree⟩ := hframe.origin o ho
    have ht : o.tree ∈ r.trees := (List.mem_filter.1 (hkept.built.tree_eq_ok_iff.1 htree).1).1
    split
    · exact fail_upright _ _
    · rename_i f hf
      obtain ⟨howns, hbody⟩ := hkept.built.at_body ht hf
      refine enter_upright.bind fun w₁ _ hw₁ _ => closing_upright ?_
      have henv : ∀ {w₂ : Realm}, w₁ ≤ w₂ → Env.For o.tree w₂
          { invoke := call fuel, fuel, this := frame.this, args := frame.args, ns := o.tree.ns
            index := o.index, registry := frame.registry, records := true } := fun hw₂ =>
        have hw := le_trans hw₁ hw₂
        ⟨⟨call_upright fuel, hframe.this.mono hw, hframe.args.mono hw⟩, r, hkept.mono hw, ht⟩
      refine runActivation_upright (henv le_rfl) rfl howns hf hbody
        (activation_in (hframe.mono hw₁) _ _) hscope ?_
      exact Stepper.execList_walks rfl (henv le_rfl) _ f.body (Footing.start_along hbody)
        (Stage.covers_body _ _ _ _)

end Machine

end Resumption
