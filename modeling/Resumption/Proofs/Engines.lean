import Resumption.Proofs.Match.Start

/-!
# Both ways of running a program agree

A program can be instrumented and run, or its source tree can be walked.  Nothing that a script does shows
which of them it was: the two runs end in the same way or not at all, they have written the same, and the
heaps they leave look alike.  Where books are kept they are the same, too, so that a pause leaves the same
frames behind.
-/

namespace Resumption

open Script

/-- The name stands as an expression somewhere in the program. -/
def Script.Program.Mentions (p : Program) (name : String) : Prop :=
  Node.expr (.ident name) ∈ (Node.func p.toFunc).preorder

/-- Both are completed, or both failed, with the same value. -/
inductive Outcome.Agrees : Outcome → Outcome → Prop
  | completed (v : Value) : Agrees (.completed v) (.completed v)
  | failed (error : Value) (k k' : Continuation) : Agrees (.failed error k) (.failed error k')

namespace Machine

/-- The program can be instrumented. -/
def Accepts (m : Machine) (registry : Nat) (p : Program) : Prop :=
  ∃ code m', compileProgram p registry m = .ok (.ok code) m'

/-- Scripts can tell the machines apart neither by the heap nor by what has been written. -/
structure Alike (m m' : Machine) : Prop where
  heap : m.heap.Alike m'.heap
  output : m'.output = m.output

/-- Two runs with the same fuel: both end, with outcomes that go together, or neither does. -/
inductive Concur (R : Outcome → Outcome → Prop) :
    EStateM.Result Stop Machine (Code.Lowered Outcome) → EStateM.Result Stop Machine Outcome → Prop
  | ended {o o' : Outcome} {m m' : Machine} (outcomes : R o o') (machines : m.Alike m') :
      Concur R (.ok (.ok o) m) (.ok o' m')
  | exhausted {m m' : Machine} : Concur R (.error .exhausted m) (.error .exhausted m')

variable {T : Terms} {w : World} {m : Machine} {registry : Nat} {p : Program}

theorem Accepts.instrument (h : m.Accepts registry p) :
    ∃ code, (Code.instrument p.toFunc (m.registries.getD registry default) m.config.ns [] true).1 =
      .ok code := by
  obtain ⟨code, m', h⟩ := h
  refine ⟨code, ?_⟩
  injection h

theorem accepts_of_instrument {code : Code.Func}
    (h : (Code.instrument p.toFunc (m.registries.getD registry default) m.config.ns [] true).1 =
      .ok code) : m.Accepts registry p :=
  ⟨code, _, by rw [← h]; rfl⟩

theorem Match.alike {m' : Machine} (h : m.Match T w m') : m.Alike m' := ⟨h.heap.alike, h.output⟩

theorem Alike.symm {m' : Machine} (h : m.Alike m') : m'.Alike m := ⟨h.heap.symm, h.output.symm⟩

theorem Alike.trans {m₁ m₂ m₃ : Machine} (h : m₁.Alike m₂) (h' : m₂.Alike m₃) : m₁.Alike m₃ :=
  ⟨h.heap.trans h'.heap, h'.output.trans h.output⟩

/-- Two calls that end like one and the same other call make two runs that concur. -/
theorem Concur.of_ends {R : Outcome → Outcome → Prop} {w w' : World}
    {r₁ r₂ r : EStateM.Result Stop Machine Value} (hloose : T.loose = false) (hspared : T.spared = none)
    (hcompleted : ∀ v, R (.completed v) (.completed v))
    (hstopped : ∀ {v₁ v₂ u₁ u₂ u}, Unwind.Pairs T v₁ u₁ u → Unwind.Pairs T v₂ u₂ u →
      R (.ofUnwind T.registries u₁) (.ofUnwind T.registries u₂))
    (h₁ : Ends T (tie T) w (Same fun w v => v.Shown w) r₁ r)
    (h₂ : Ends T (tie T) w' (Same fun w v => v.Shown w) r₂ r) (m : Machine) :
    Concur R (conclude m .ok r₁) (conclude m id r₂) := by
  have halike : ∀ {w₁ w₂ m₁ m₂ m'}, Machine.Match T w₁ m₁ m' → Machine.Match T w₂ m₂ m' →
      (m₁.restore m).Alike (m₂.restore m) := fun h₁ h₂ =>
    have halike := h₁.alike.trans h₂.alike.symm
    ⟨halike.heap, halike.output⟩
  cases h₁ with
  | ok h₁ =>
      obtain ⟨w₁, -, hm₁, rfl, -⟩ := h₁
      cases h₂ with
      | ok h₂ =>
          obtain ⟨w₂, -, hm₂, rfl, -⟩ := h₂
          exact .ended (hcompleted _) (halike hm₁ hm₂)
      | strayed h => exact absurd h (Terms.not_strays hspared _)
  | thrown hu₁ h₁ =>
      obtain ⟨w₁, -, hm₁, -⟩ := h₁
      cases h₂ with
      | thrown hu₂ h₂ =>
          obtain ⟨w₂, -, hm₂, -⟩ := h₂
          refine .ended ?_ (halike hm₁ hm₂)
          rw [hm₁.registries, id, hm₂.registries]
          exact hstopped hu₁ hu₂
      | strayed h => exact absurd h (Terms.not_strays hspared _)
  | exhausted =>
      cases h₂ with
      | exhausted => exact .exhausted
      | loose h => rw [hloose] at h; cases h
      | strayed h => exact absurd h (Terms.not_strays hspared _)
  | loose h => rw [hloose] at h; cases h
  | strayed h => exact absurd h (Terms.not_strays hspared _)

/-- Every node of a program that never asks for the arguments of a function takes part. -/
theorem fair_of_not_mentions (hp : ¬ p.Mentions argumentsName)
    (hsolo : T.solo = false) (hpauses : T.pauses ≠ .left) :
    ∀ b ∈ Node.ofStmts p.body, T.Fair .script b := by
  intro b hb
  refine .of_script hsolo fun c hc => Terms.admits_of_opens hsolo rfl ?_ fun h => absurd h hpauses
  rintro rfl
  exact hp (Node.mem_preorder_of_child hb (b.traced_subset_preorder hc))

theorem Fresh.concur (hm : m.Fresh registry) (hhook : m.hook = none) (haccepts : m.Accepts registry p)
    (hp : ¬ p.Mentions argumentsName) (mode : Mode) (pauses : Pauses) (hleft : pauses ≠ .left)
    (heven : pauses = .together → mode = .recording)
    (hdebugging : m.config.debuggingEnabled = (pauses != .nowhere)) {R : Outcome → Outcome → Prop}
    (hcompleted : ∀ v, R (.completed v) (.completed v))
    (hstopped : ∀ (T : Terms) {v₁ v₂ u₁ u₂ u}, T.pauses = pauses → Unwind.Pairs T v₁ u₁ u →
      Unwind.Pairs T v₂ u₂ u → R (.ofUnwind T.registries u₁) (.ofUnwind T.registries u₂)) (fuel : Nat) :
    Concur R (runProgram fuel p registry m) (interpret fuel p registry mode m) := by
  obtain ⟨code, hcode⟩ := haccepts.instrument
  obtain ⟨methods, h₁, h₁', r₁, hprepares⟩ :=
    prepares m.config.debugBuiltins mode Setup.heap Setup.heap (hm.built builtinRegistry)
  have hstart : m.setUp (pauses != .nowhere) none = m := by
    rw [setUp, ← hdebugging, ← hhook]
  let T : Terms := ⟨mode, pauses, false, m.registriesWith registry p r₁, none⟩
  have hT : T.Coherent := ⟨heven, fun h => absurd rfl h, nofun⟩
  have hfair := fair_of_not_mentions (T := T) hp rfl hleft
  have hwalked : ∀ w, Callable.Twin T w (.stepped (m.walkedProgram registry p mode))
      (.stepped (m.walkedProgram registry p mode)) := by
    intro w
    cases mode with
    | plain => exact hm.walked_twin (s := .free) rfl nofun (fun b _ => .free b) ⟨rfl, rfl⟩
    | recording => exact hm.walked_twin (s := .script) rfl (fun _ => rfl) hfair ⟨rfl, rfl⟩
  have hinstrumented : ∀ w, Callable.Twin T w (.instrumented ⟨code, [], registry⟩)
      (.stepped (m.walkedProgram registry p mode)) :=
    fun w => hm.instrumented_twin rfl rfl hfair hcode
  obtain ⟨w₁, -, hrun⟩ := hm.call_ends (T := T) rfl hT rfl hprepares.makes none
    (fun _ _ h => by cases h) hinstrumented fuel
  obtain ⟨w₂, -, hwalk⟩ := hm.call_ends (T := T) rfl hT rfl hprepares.makes none
    (fun _ _ h => by cases h) hwalked fuel
  rw [hstart] at hrun hwalk
  rw [runProgram_eq hm hprepares hcode, interpret_eq hm hprepares]
  refine .of_ends ?_ rfl hcompleted (hstopped T rfl) hrun hwalk m
  cases pauses <;> first | rfl | exact absurd rfl hleft

/-- Run as instrumented code or walked without books, a program does the same. -/
theorem runProgram_concurs_plain (hm : m.Fresh registry) (hhook : m.hook = none)
    (hdebugging : m.config.debuggingEnabled = false) (haccepts : m.Accepts registry p)
    (hp : ¬ p.Mentions argumentsName) (fuel : Nat) :
    Concur Outcome.Agrees (runProgram fuel p registry m) (interpret fuel p registry .plain m) := by
  refine hm.concur hhook haccepts hp .plain .nowhere nofun nofun hdebugging .completed
    (fun T {v₁ v₂ u₁ u₂ u} hpauses hu₁ hu₂ => ?_) fuel
  have hnever : T.pauses ≠ .together := by rw [hpauses]; nofun
  cases hu₁ with
  | paused htogether _ => exact absurd htogether hnever
  | thrown h₁ h _ =>
      cases hu₂ with
      | paused htogether _ => exact absurd htogether hnever
      | thrown h₂ h' _ =>
          rw [h] at h'
          cases h'
          rw [Outcome.ofUnwind, Outcome.ofUnwind, h₁, h₂]
          exact .failed ..

theorem accepts_selfCalling (debuggingEnabled : Bool) :
    (new { Config.default with debuggingEnabled }).Accepts ownRegistry Code.selfCallingProgram :=
  accepts_of_instrument (congrArg Prod.fst Code.instrument_selfCalling)

/-- The name that a node is. -/
def nameOf? : Node → Option String
  | .expr (.ident name) => some name
  | _ => none

theorem selfCalling_names :
    (Node.func Code.selfCallingProgram.toFunc).preorder.filterMap nameOf? = ["g", "x"] := by
  cbv

theorem selfCalling_mentions : ¬ Code.selfCallingProgram.Mentions argumentsName := by
  intro h
  have hmem : argumentsName ∈ (Node.func Code.selfCallingProgram.toFunc).preorder.filterMap nameOf? :=
    List.mem_filterMap.2 ⟨_, h, rfl⟩
  rw [selfCalling_names] at hmem
  revert hmem
  decide

theorem runProgram_concurs_plain_selfCalling :
    let m := new { Config.default with debuggingEnabled := false }
    m.Fresh ownRegistry ∧ m.Accepts ownRegistry Code.selfCallingProgram ∧
      Concur Outcome.Agrees (runProgram 2 Code.selfCallingProgram ownRegistry m)
        (interpret 2 Code.selfCallingProgram ownRegistry .plain m) :=
  ⟨fresh_new _, accepts_selfCalling false,
    runProgram_concurs_plain (fresh_new _) rfl rfl (accepts_selfCalling false) selfCalling_mentions 2⟩

/-- With pauses, instrumented code and the walker keep the same books: what they leave to be resumed is the
same, frame by frame. -/
theorem runProgram_concurs_recording (hm : m.Fresh registry) (hhook : m.hook = none)
    (hdebugging : m.config.debuggingEnabled = true) (haccepts : m.Accepts registry p)
    (hp : ¬ p.Mentions argumentsName) (fuel : Nat) :
    Concur Eq (runProgram fuel p registry m) (interpret fuel p registry .recording m) := by
  refine hm.concur hhook haccepts hp .recording .together nofun (fun _ => rfl) hdebugging
    (fun _ => rfl) (fun T {v₁ v₂ u₁ u₂ u} htogether hu₁ hu₂ => ?_) fuel
  have hsame : ∀ {v u₁ u}, Unwind.Pairs T v u₁ u → u = u₁ := by
    intro v u₁ u hu
    cases hu with
    | thrown _ _ h => exact h htogether
    | paused _ _ => rfl
  rw [← hsame hu₁, ← hsame hu₂]

theorem runProgram_concurs_recording_selfCalling :
    let m := new { Config.default with debuggingEnabled := true }
    m.Fresh ownRegistry ∧ m.Accepts ownRegistry Code.selfCallingProgram ∧
      Concur Eq (runProgram 2 Code.selfCallingProgram ownRegistry m)
        (interpret 2 Code.selfCallingProgram ownRegistry .recording m) :=
  ⟨fresh_new _, accepts_selfCalling true,
    runProgram_concurs_recording (fresh_new _) rfl rfl (accepts_selfCalling true)
      selfCalling_mentions 2⟩

end Machine

end Resumption
