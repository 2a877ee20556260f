import Resumption.Proofs.Conduct.Run
import Resumption.Proofs.Conduct.Upkeep

/-!
# The ways into a machine restore it

Whatever is run, each call that is opened is closed again, and none is opened when as many are open
as there may be.  The chronicle has the number of open calls after each step in or out, so this is
said of every moment of a run, also of one that does not end.  What a run sets the machine up with is
put back when it is over.
-/

namespace Resumption

namespace Machine

variable {m m' m₁ m₂ m₃ : Machine}

/-- Since then so many calls were open, latest first, as others were opened and closed.  There were
never more than there may be. -/
structure Dives (m m' : Machine) (ds : List Nat) : Prop where
  config : m'.config = m.config
  depths : m'.chronicle.depths = ds ++ m.chronicle.depths
  depth : m'.depth = ds.headD m.depth
  bounded : ∀ d ∈ ds, d ≤ m.config.maxCallDepth

theorem Dives.refl (m : Machine) : m.Dives m [] := ⟨rfl, rfl, rfl, nofun⟩

theorem Dives.trans {ds later : List Nat} (h : m₁.Dives m₂ ds) (hlater : m₂.Dives m₃ later) :
    m₁.Dives m₃ (later ++ ds) where
  config := hlater.config.trans h.config
  depths := by rw [hlater.depths, h.depths, List.append_assoc]
  depth := by
    rw [hlater.depth, h.depth]
    cases later <;> rfl
  bounded d hd := by
    rcases List.mem_append.1 hd with hd | hd
    · exact h.config ▸ hlater.bounded d hd
    · exact h.bounded d hd

theorem Dives.atDepth {d : Nat} (hd : d ≤ m.config.maxCallDepth) : m.Dives (m.atDepth d) [d] := by
  refine ⟨rfl, rfl, rfl, ?_⟩
  simpa

theorem Dives.depth_le {ds : List Nat} (h : m.Dives m' ds) (hm : m.depth ≤ m.config.maxCallDepth) :
    m'.depth ≤ m'.config.maxCallDepth := by
  rw [h.depth, h.config]
  cases ds with
  | nil => exact hm
  | cons d ds => exact h.bounded d List.mem_cons_self

/-- All the calls opened since are closed, and the machine is set up as it was. -/
structure Restored (m m' : Machine) : Prop where
  depth : m'.depth = m.depth
  debugging : m'.debugging = m.debugging
  debugBuiltins : m'.debugBuiltins = m.debugBuiltins
  active : m'.active = m.active
  dives : ∃ ds, m.Dives m' ds

theorem Restored.refl (m : Machine) : m.Restored m := ⟨rfl, rfl, rfl, rfl, [], .refl m⟩

theorem Restored.trans (h : m₁.Restored m₂) (hlater : m₂.Restored m₃) : m₁.Restored m₃ := by
  obtain ⟨ds, hdives⟩ := h.dives
  obtain ⟨later, hlaterDives⟩ := hlater.dives
  exact ⟨hlater.depth.trans h.depth, hlater.debugging.trans h.debugging,
    hlater.debugBuiltins.trans h.debugBuiltins, hlater.active.trans h.active, _,
    hdives.trans hlaterDives⟩

theorem Quietly.restored (h : m.Quietly m') : m.Restored m' := by
  obtain ⟨hconfig, hdebugging, hbuiltins, hactive⟩ := h.setting
  exact ⟨h.depth, hdebugging, hbuiltins, hactive, [], hconfig, h.depths, h.depth, nofun⟩

end Machine

/-! ## Runs -/

/-- Machines are restored, and calls are not opened beyond the limit. -/
def Upkeep.restoring : Upkeep where
  keeps := Machine.Restored
  stuck m m' := ∃ ds, m.Dives m' ds
  refl := .refl
  trans := .trans
  stuck_refl m := ⟨[], .refl m⟩
  keeps_stuck := by
    rintro _ _ _ h ⟨later, hlater⟩
    obtain ⟨ds, hdives⟩ := h.dives
    exact ⟨_, hdives.trans hlater⟩
  stuck_keeps := by
    rintro _ _ _ ⟨ds, hdives⟩ h
    obtain ⟨later, hlater⟩ := h.dives
    exact ⟨_, hdives.trans hlater⟩
  quietly := Machine.Quietly.restored
  suspend _ _ := ⟨rfl, rfl, rfl, rfl, [], rfl, rfl, rfl, nofun⟩
  release _ := ⟨rfl, rfl, rfl, rfl, [], rfl, rfl, rfl, nofun⟩

namespace Upkeep

variable {α : Type}

/-- A call that is closed leaves the depth at which it was opened. -/
theorem restoring_opened {x : MachineM α} {m : Machine} (hx : (restoring.conduct id).Obeyed x)
    (hlt : m.depth < m.config.maxCallDepth) :
    (restoring.conduct id).Ends m (Machine.closing x (m.atDepth (m.depth + 1))) := by
  have hopen : m.Dives (m.atDepth (m.depth + 1)) [m.depth + 1] := .atDepth hlt
  have hclose : ∀ {m' ds}, (m.atDepth (m.depth + 1)).Dives m' ds →
      m'.Dives (m'.atDepth (m'.depth - 1)) [m'.depth - 1] := fun hdives =>
    .atDepth (Nat.le_trans (Nat.sub_le _ _) (hdives.depth_le hlt))
  refine ends_afterwards (hx _) (fun m' h => ?_) (fun m' h => ?_)
  · obtain ⟨ds, hdives⟩ := h.dives
    refine ⟨?_, h.debugging, h.debugBuiltins, h.active, _, (hopen.trans hdives).trans (hclose hdives)⟩
    change m'.depth - 1 = m.depth
    rw [h.depth]
    rfl
  · obtain ⟨ds, hdives⟩ := h
    exact ⟨_, (hopen.trans hdives).trans (hclose hdives)⟩

theorem caught_obeyed {k : Upkeep} {x : MachineM α} (hx : (k.conduct id).Obeyed x) :
    (k.conduct id).Obeyed (Machine.caught x) := by
  intro m
  rw [Machine.caught]
  have hends := ends_iff.1 (hx m)
  match x m, hends with
  | .ok _ _, hends => exact hends
  | .error (.unwind _) _, hends => exact hends
  | .error .exhausted _, hends => exact hends

end Upkeep

/-- The policy under which machines are restored. -/
def Policy.restoring : Policy := Upkeep.restoring.policy Upkeep.restoring_opened

namespace Machine

variable {α : Type}

/-- The computation restores the machine. -/
abbrev Restores (x : MachineM α) : Prop := Policy.restoring.machine.Obeyed x

open Conduct

/-- It does not matter for the calls what the machine is set up with. -/
theorem Dives.setting {m m' : Machine} {ds : List Nat} {d d' b b' : Bool} {a a' : Nat}
    (h : Dives { m with debugging := d, debugBuiltins := b, active := a } m' ds) :
    m.Dives { m' with debugging := d', debugBuiltins := b', active := a' } ds :=
  ⟨h.config, h.depths, h.depth, h.bounded⟩

theorem withRegistry_restores {x : MachineM α} (id : Nat) (hx : Restores x) :
    Restores (withRegistry id x) := fun m => by
  refine Upkeep.ends_afterwards (hx { m with active := id }) (fun m' h => ?_) (fun m' h => ?_)
  · obtain ⟨ds, hdives⟩ := h.dives
    exact ⟨h.depth, h.debugging, h.debugBuiltins, rfl, ds, hdives.setting⟩
  · exact h.imp fun _ hdives => hdives.setting

theorem withDebugSupport_restores {x : MachineM α} (hx : Restores x) :
    Restores (withDebugSupport x) := by
  refine .bind (prepareDebugMethods_obeyed withRegistry_restores) fun _ m => ?_
  refine Upkeep.ends_afterwards (hx { m with debugging := m.config.debuggingEnabled
                                             debugBuiltins := m.config.debugBuiltins })
    (fun m' h => ?_) (fun m' h => ?_)
  · obtain ⟨ds, hdives⟩ := h.dives
    exact ⟨h.depth, rfl, rfl, h.active, ds, hdives.setting⟩
  · exact h.imp fun _ hdives => hdives.setting

theorem settle_restores {x : MachineM Value} (hx : Restores x) : Restores (settle x) := by
  refine .bind (Upkeep.caught_obeyed hx) fun result => ?_
  cases result with
  | ok v => exact .pure _
  | error u => exact .bind .get fun _ => .pure _

theorem compile_restores (f : Script.Func) (registry : Nat) (inherited : List String) :
    Restores (compile f registry inherited) :=
  .bind .get fun _ => withRegistry_restores registry (instrument_obeyed _ _ _ _)

theorem compileProgram_restores (p : Script.Program) (registry : Nat) :
    Restores (compileProgram p registry) :=
  .bind .get fun _ => withRegistry_restores registry (instrument_obeyed _ _ _ _)

theorem runClosure_restores (fuel : Nat) (f this : Value) (args : List Value) :
    Restores (runClosure fuel f this args) :=
  withDebugSupport_restores (settle_restores (call_obeys fuel f this args))

theorem runCode_restores (fuel : Nat) (code : Code.Func) (chain : Chain) (registry : Nat)
    (args : List Value) : Restores (runCode fuel code chain registry args) :=
  withDebugSupport_restores (settle_restores
    (.bind (newFunction_obeyed _) fun f => call_obeys fuel f .undefined args))

theorem runCompiled_restores (fuel : Nat) (chain : Chain) (registry : Nat) (args : List Value)
    (code : Code.Lowered Code.Func) :
    Restores (match code with
      | .error e => pure (.error e)
      | .ok code => do return .ok (← runCode fuel code chain registry args) :
        MachineM (Code.Lowered Outcome)) := by
  cases code with
  | error e => exact .pure _
  | ok code => exact .bind (runCode_restores fuel code chain registry args) fun _ => .pure _

theorem run_restores (fuel : Nat) (f : Script.Func) (registry : Nat) (args : List Value)
    (bindings : Option Address) : Restores (run fuel f registry args bindings) := by
  cases bindings with
  | none =>
      exact .bind (.pure _) fun inherited => .bind (compile_restores f registry inherited)
        (runCompiled_restores fuel _ registry args)
  | some a =>
      exact .bind (ask_obeyed _) fun inherited => .bind (compile_restores f registry inherited)
        (runCompiled_restores fuel _ registry args)

theorem runProgram_restores (fuel : Nat) (p : Script.Program) (registry : Nat) :
    Restores (runProgram fuel p registry) := by
  refine .bind (compileProgram_restores p registry) fun code => ?_
  cases code with
  | error e => exact .pure _
  | ok code => exact .bind (runCode_restores fuel code [] registry []) fun _ => .pure _

theorem interpret_restores (fuel : Nat) (p : Script.Program) (registry : Nat) (mode : Mode) :
    Restores (interpret fuel p registry mode) := by
  refine withDebugSupport_restores (settle_restores (.bind .get fun _ => ?_))
  refine .bind (.modifyGet fun _ => Policy.restoring.quietly (quietly_update ..)) fun tree => ?_
  exact .bind (newFunction_obeyed _) fun f => call_obeys fuel f .undefined []

theorem resumeFrames_restores (fuel : Nat) (frames : List Frame) (result : Option Value) :
    Restores (Continuation.resumeFrames fuel frames result) := by
  induction frames generalizing result with
  | nil => exact .pure _
  | cons frame rest ih =>
      refine .bind (Upkeep.caught_obeyed (runFrame_obeyed (P := .restoring) fuel _)) fun ended => ?_
      cases ended with
      | ok v => exact ih (some v)
      | error u => exact .bind .get fun _ => .pure _

theorem resume_restores (fuel : Nat) (k : Continuation) : Restores (k.resume fuel) := by
  refine .bind (obstacle?_obeyed k) fun obstacle => ?_
  cases obstacle with
  | some obstacle => exact .pure _
  | none => exact .bind (withDebugSupport_restores (resumeFrames_restores fuel _ _)) fun _ => .pure _

end Machine

/-! ## The ways into a machine, one after the other -/

/-- What may be asked of a machine from outside. -/
inductive Errand where
  | compile (f : Script.Func) (registry : Nat) (inherited : List String)
  | compileProgram (p : Script.Program) (registry : Nat)
  | run (f : Script.Func) (registry : Nat) (args : List Value) (bindings : Option Address)
  | runProgram (p : Script.Program) (registry : Nat)
  | runClosure (f this : Value) (args : List Value)
  | interpret (p : Script.Program) (registry : Nat) (mode : Mode)
  | resume (k : Continuation)

/-- Does it, and leaves it to the next errand what to make of the result. -/
def Errand.perform (fuel : Nat) : Errand → MachineM Unit
  | .compile f registry inherited => discard (Machine.compile f registry inherited)
  | .compileProgram p registry => discard (Machine.compileProgram p registry)
  | .run f registry args bindings => discard (Machine.run fuel f registry args bindings)
  | .runProgram p registry => discard (Machine.runProgram fuel p registry)
  | .runClosure f this args => discard (Machine.runClosure fuel f this args)
  | .interpret p registry mode => discard (Machine.interpret fuel p registry mode)
  | .resume k => discard (k.resume fuel)

theorem Errand.perform_restores (fuel : Nat) (errand : Errand) :
    Machine.Restores (errand.perform fuel) := by
  have hdiscard : ∀ {α : Type} {x : MachineM α}, Machine.Restores x →
      Machine.Restores (discard x : MachineM Unit) := fun hx => hx.bind fun _ => .pure _
  cases errand with
  | compile f registry inherited => exact hdiscard (Machine.compile_restores f registry inherited)
  | compileProgram p registry => exact hdiscard (Machine.compileProgram_restores p registry)
  | run f registry args bindings =>
      exact hdiscard (Machine.run_restores fuel f registry args bindings)
  | runProgram p registry => exact hdiscard (Machine.runProgram_restores fuel p registry)
  | runClosure f this args => exact hdiscard (Machine.runClosure_restores fuel f this args)
  | interpret p registry mode => exact hdiscard (Machine.interpret_restores fuel p registry mode)
  | resume k => exact hdiscard (Machine.resume_restores fuel k)

namespace Machine

/-- The machine after some errands.  Each of them may depend on what came of those before it, and
each ended, one way or another. -/
inductive After (m : Machine) : Machine → Prop
  | nothing : After m m
  | ended {m₁ m₂ : Machine} (fuel : Nat) (errand : Errand) :
    After m m₁ → errand.perform fuel m₁ = .ok () m₂ → After m m₂
  | left {m₁ m₂ : Machine} (fuel : Nat) (errand : Errand) (u : Unwind) :
    After m m₁ → errand.perform fuel m₁ = .error (.unwind u) m₂ → After m m₂

/-- Whatever is asked of a machine and however it ends, all calls are closed afterwards and the
machine is set up as before, and never on the way were calls opened beyond the limit; nor are they
while an errand does not come to an end. -/
theorem errands_restore {m m' : Machine} (h : After m m') :
    m.Restored m' ∧ ∀ (fuel : Nat) (errand : Errand) (m'' : Machine),
      errand.perform fuel m' = .error .exhausted m'' → ∃ ds, m.Dives m'' ds := by
  have hrestored : m.Restored m' := by
    induction h with
    | nothing => exact .refl m
    | @ended m₁ m₂ fuel errand _ hends ih =>
        have hlast := errand.perform_restores fuel m₁
        rw [hends] at hlast
        exact ih.trans hlast
    | @left m₁ m₂ fuel errand u _ hends ih =>
        have hlast := errand.perform_restores fuel m₁
        rw [hends] at hlast
        exact ih.trans hlast.1
  refine ⟨hrestored, fun fuel errand m'' hends => ?_⟩
  have hlast := errand.perform_restores fuel m'
  rw [hends] at hlast
  exact Upkeep.restoring.keeps_stuck hrestored hlast

/-- A machine with one function, `throw "late";`, and place for two calls. -/
def throwing : Machine :=
  let code : Code.Func := ⟨none, "default", 0, [], [], none, [], [.throwing (.str "late")], false⟩
  { heap := ⟨#[.new (.function (.instrumented ⟨code, [], 0⟩)) none]⟩
    config := { Config.default with debugBuiltins := false, maxCallDepth := 2 }
    debugging := false, debugBuiltins := true, debugMethods := none, registries := #[]
    active := 3, depth := 1, output := [], hook := none, chronicle := .empty }

/-- It is called twice; the exceptions leave no call open. -/
theorem errands_restore_throwing : ∃ m', After throwing m' ∧ m'.chronicle.depths = [1, 2, 1, 2] ∧
    m'.chronicle.escaped = 2 ∧ throwing.Restored m' := by
  have hafter : ∃ m', After throwing m' ∧ m'.chronicle.depths = [1, 2, 1, 2] ∧
      m'.chronicle.escaped = 2 :=
    ⟨_, .ended 1 (.runClosure (.object 0) .undefined [])
      (.ended 1 (.runClosure (.object 0) .undefined []) .nothing rfl) rfl, rfl, rfl⟩
  obtain ⟨m', hm, hdepths, hescaped⟩ := hafter
  exact ⟨m', hm, hdepths, hescaped, (errands_restore hm).1⟩

end Machine

end Resumption
