import Resumption.Proofs.Continuing
import Resumption.Proofs.Interruption
import Resumption.Proofs.Match.Replies

/-!
# A chain of calls that is interrupted

Where every call of a program stands alone, the program may be paused at any depth: in the functions that
it calls, in those that they call, and in those that an array method calls for each element.  A pause leaves
a frame of every function under way.  When the frames are resumed, as often as there is another pause, the
program comes to the end that it comes to by itself.
-/

namespace Resumption

open Script

/-! ## Calls that stand alone -/

namespace Script.Node

/-- All that is left to the node is to keep the result of the call, or to drop it. -/
inductive Hosts (callee : Expr) (args : List Expr) : Node → Prop
  | statement : Hosts callee args (.stmt (.expr (.call callee args)))
  | returned : Hosts callee args (.stmt (.ret (some (.call callee args))))
  | declared (name : String) : Hosts callee args (.declarator ⟨name, some (.call callee args)⟩)
  | assigned (name : String) : Hosts callee args (.expr (.assign none (.ident name) (.call callee args)))

/-- A call among the parts of the node stands alone.  The node constructs nothing, makes no accessor and no
function without books, and does not ask for arguments. -/
structure CallsApart (n : Node) : Prop where
  arguments : n ≠ .expr (.ident argumentsName)
  construct : ∀ callee args, n ≠ .expr (.construct callee args)
  accessor : ∀ p, n = .property p → p.kind = .init
  escaped : n.isEscaped = false
  calls : ∀ callee args, .expr (.call callee args) ∈ n.children → n.Hosts callee args
  /-- An assignment that keeps a result is a statement. -/
  keeps : ∀ name callee args, let kept := Expr.assign none (.ident name) (.call callee args)
    .expr kept ∈ n.children → n = .stmt (.expr kept)

end Script.Node

/-- Every call of the program stands alone. -/
def Script.Program.CallsApart (p : Program) : Prop := ∀ n ∈ (Node.func p.toFunc).preorder, n.CallsApart

variable {T : Terms} {w : World} {m : Machine} {registry : Nat} {p : Program} {n : Node} {fuel fuel' : Nat}

theorem Script.Node.Hosts.seatsCall {callee : Expr} {args : List Expr} (h : n.Hosts callee args) :
    n.seatsCall .script = true := by
  cases h <;> rfl

theorem Script.Node.CallsApart.isInvocation {e : Expr} (h : (Node.expr e).CallsApart)
    (he : e.isInvocation = true) : ∃ callee args, e = .call callee args := by
  unfold Expr.isInvocation at he
  split at he
  · exact ⟨_, _, rfl⟩
  · exact absurd rfl (h.construct _ _)
  · cases he

/-- Whatever is a part of the node has its place there. -/
theorem Script.Node.CallsApart.seats (h : n.CallsApart) (hbelow : ∀ c ∈ n.preorder, c.CallsApart) :
    ∀ c ∈ n.children, n.seats .script c = true := by
  intro c hc
  have hpart := hbelow c (mem_preorder_of_child hc c.mem_preorder_self)
  cases c with
  | expr e =>
      have hcall : e.isInvocation = true → n.seatsCall .script = true := by
        intro he
        obtain ⟨callee, args, rfl⟩ := hpart.isInvocation he
        exact (h.calls callee args hc).seatsCall
      have hconstruct : e.isConstruct = false := by
        unfold Expr.isConstruct
        split
        · exact absurd rfl (hpart.construct _ _)
        · rfl
      have hkept : e.keepsCall = true → n.seatsKept = true := by
        intro he
        have hvalue : ∀ {target value : Expr}, e = .assign none target value → value.isInvocation = true →
            ∃ callee args, value = .call callee args := by
          rintro target value rfl hvalue
          have hmem : Node.expr value ∈ (Node.expr (.assign none target value)).children :=
            List.mem_cons_of_mem _ List.mem_cons_self
          have hpart := hbelow _ (mem_preorder_of_child hc (mem_preorder_of_child hmem (mem_preorder_self _)))
          exact hpart.isInvocation hvalue
        unfold Expr.keepsCall at he
        split at he
        · obtain ⟨callee, args, rfl⟩ := hvalue rfl he
          rw [h.keeps _ callee args hc]
          rfl
        · obtain ⟨callee, args, rfl⟩ := hvalue rfl he
          have hhosts := hpart.calls callee args (List.mem_cons_of_mem _ List.mem_cons_self)
          cases hhosts
        · cases he
      simp only [Node.seats, hconstruct, Bool.and_eq_true, Bool.or_eq_true, Bool.not_eq_true']
      refine ⟨⟨?_, .inl trivial⟩, ?_⟩
      · cases he : e.isInvocation with
        | false => exact .inl rfl
        | true => exact .inr (hcall he)
      · cases he : e.keepsCall with
        | false => exact .inl rfl
        | true => exact .inr (hkept he)
  | _ => rfl

/-- Where calls stand alone, the node itself does not stand in the way. -/
theorem Script.Node.CallsApart.admits (h : n.CallsApart) (hsolo : T.solo = true) : T.Admits .script n := by
  have hcounts : ∀ {target op value}, Terms.KeepsCount .script target op value := nofun
  unfold Terms.Admits
  split
  · rintro rfl
    exact absurd rfl h.arguments
  · exact ⟨nofun, hcounts, nofun⟩
  · exact nofun
  · exact ⟨nofun, fun _ => nofun⟩
  · exact ⟨rfl, fun _ => h.escaped⟩
  · exact ⟨rfl, fun _ => h.escaped⟩
  · exact absurd rfl (h.construct _ _)
  · exact fun _ => h.accessor _ rfl
  · exact fun _ _ => hcounts
  · exact fun _ => .inl ⟨hsolo, rfl⟩
  · rfl
  · rfl
  · rfl
  · rfl
  · trivial

/-- Every node takes part. -/
theorem Terms.Fair.of_callsApart {n : Node} (hsolo : T.solo = true) (h : ∀ c ∈ n.preorder, c.CallsApart) :
    T.Fair .script n := by
  have hself := h n n.mem_preorder_self
  refine .intro ⟨hself.admits hsolo, fun _ => hself.seats h⟩ fun _ c hc => ?_
  rw [Terms.below_script]
  exact Fair.of_callsApart hsolo fun d hd => h d (Node.mem_preorder_of_child hc hd)
termination_by n.weight
decreasing_by exact Node.weight_lt_of_mem_children hc

theorem Script.Program.CallsApart.fair (h : p.CallsApart) (hsolo : T.solo = true) :
    ∀ b ∈ Node.ofStmts p.body, T.Fair .script b :=
  fun _ hb => .of_callsApart hsolo fun n hn => h n (Node.mem_preorder_of_child hb hn)

theorem Script.Program.CallsApart.not_mentions (h : p.CallsApart) : ¬ p.Mentions argumentsName :=
  fun hmem => (h _ hmem).arguments rfl

/-- What can be seen at a node alone. -/
def Script.Node.callsApart (n : Node) : Bool :=
  (match n with
    | .expr (.ident name) => name != argumentsName
    | .expr (.construct _ _) => false
    | .property p => p.kind == .init
    | _ => true) &&
    !n.isEscaped && n.children.all (n.seats .script)

theorem Script.Node.eq_some_of_mem_ofExpr? {e : Expr} {x : Option Expr} (h : .expr e ∈ ofExpr? x) :
    x = some e := by
  obtain ⟨e', he', heq⟩ := List.mem_map.1 h
  cases heq
  exact Option.mem_toList.1 he'

theorem Script.Node.hosts_of_seatsCall {callee : Expr} {args : List Expr} (h : n.seatsCall .script = true)
    (hc : .expr (.call callee args) ∈ n.children) : n.Hosts callee args := by
  unfold Node.seatsCall at h
  split at h
  · cases List.mem_singleton.1 hc
    exact .statement
  · obtain rfl := eq_some_of_mem_ofExpr? hc
    exact .returned
  · rename_i d
    obtain ⟨name, init⟩ := d
    obtain rfl := eq_some_of_mem_ofExpr? hc
    exact .declared name
  · cases h
  · cases h
  · rename_i name value
    obtain hcall | hcall := List.mem_pair.1 hc
    · cases hcall
    · cases hcall
      exact .assigned name
  · cases h
  · cases h

theorem Script.Node.CallsApart.of_check (h : n.callsApart = true) : n.CallsApart := by
  unfold callsApart at h
  rw [Bool.and_eq_true, Bool.and_eq_true, Bool.not_eq_true', List.all_eq_true] at h
  obtain ⟨⟨hself, hescaped⟩, hseats⟩ := h
  refine ⟨?_, ?_, ?_, hescaped, fun callee args hc => ?_, fun name callee args hc => ?_⟩
  · rintro rfl
    cases hself
  · rintro callee args rfl
    cases hself
  · rintro p rfl
    exact beq_iff_eq.1 hself
  · have hseat := hseats _ hc
    simp only [Node.seats, Expr.isInvocation, Bool.not_true, Bool.false_or, Bool.and_eq_true] at hseat
    exact hosts_of_seatsCall hseat.1.1 hc
  · have hseat := hseats _ hc
    simp only [Node.seats, Expr.isInvocation, Expr.keepsCall, Bool.not_true, Bool.false_or,
      Bool.and_eq_true] at hseat
    obtain ⟨-, hkept⟩ := hseat
    unfold Node.seatsKept at hkept
    split at hkept
    · cases List.mem_singleton.1 hc
      rfl
    · cases hkept

theorem Script.Program.CallsApart.of_check
    (h : (Node.func p.toFunc).preorder.all Node.callsApart = true) : p.CallsApart :=
  fun n hn => .of_check (List.all_eq_true.1 h n hn)

/-! ## The walk without pauses -/

/-- A function that is walked has a result without faults, or nothing is said of it. -/
theorem Stepper.call_faulty_or_ok {closure : SteppedClosure} {f : Func}
    (hf : closure.tree.func? closure.index = some f) (invoke : Invoke) (k : Nat) (callee this : Value)
    (args : List Value) (m : Machine) :
    Faulty (Machine.closed (call invoke k closure callee this args m)) ∨ ∃ v mid,
      Machine.closed (call invoke k closure callee this args m) = .ok v mid ∧ mid.faults = 0 := by
  obtain ⟨env, r, hcall⟩ : ∃ env r, call invoke k closure callee this args m = Env.leave env r := by
    rw [call]
    dsimp only
    rw [hf]
    exact ⟨_, _, runActivation_eq_leave _ _ _ _⟩
  rw [hcall]
  exact env.faulty_or_ok r

namespace Machine

section

variable {closure : SteppedClosure} {f : Func}

/-- So does the call of such a function that has just been made. -/
theorem call_alloc_faulty_or_ok (h : Heap) (hm : m.heap = (h.alloc (.ofCallable (.stepped closure))).2)
    (hf : closure.tree.func? closure.index = some f) (fuel : Nat) :
    Faulty (call fuel (.object h.size) .undefined [] m) ∨ ∃ v mid,
      call fuel (.object h.size) .undefined [] m = .ok v mid ∧ mid.faults = 0 := by
  cases fuel with
  | zero => exact .inl trivial
  | succ fuel =>
      rw [call_alloc hm]
      by_cases hfull : m.config.maxCallDepth ≤ m.depth
      · exact .inl (faulty_of_full hfull)
      · rw [enter_of_lt (Nat.lt_of_not_le hfull), closing_eq]
        exact Stepper.call_faulty_or_ok hf _ _ _ _ _ _

variable {methods : Option (List (String × Value))} {h₁ h₁' : Heap} {r r₁ : Registry} {o : Outcome} {mf : Machine}

/-- The terms of a comparison with a run that may be paused at any depth. -/
def interruptedAnywhere (m : Machine) (registry : Nat) (p : Program) (r : Registry) : Terms :=
  ⟨.recording, .left, true, m.registriesWith registry p r, none⟩

theorem coherent_interruptedAnywhere (m : Machine) (registry : Nat) (p : Program) (r : Registry) :
    (m.interruptedAnywhere registry p r).Coherent :=
  ⟨nofun, fun h => absurd rfl h, fun _ => rfl⟩

theorem Match.faults_eq {m' : Machine} (hm : m.Match T w m') (hsolo : T.solo = false) :
    m'.faults = m.faults := by
  rw [Machine.faults, Machine.faults, (hm.faults hsolo).1, (hm.faults hsolo).2]

theorem faults_restore (m m₀ : Machine) : (m.restore m₀).faults = m.faults := rfl

/-- A run without pauses that ends without faults is completed, and the walk has the same result. -/
theorem completed_of_ends {x' : EStateM.Result Stop Machine Value} {x : EStateM.Result Stop Machine Value}
    {m₀ : Machine} (hpauses : T.pauses = .nowhere) (hsolo : T.solo = false) (hspared : T.spared = none)
    (h : Ends T (tie T) w (Same fun w v => v.Shown w) x x')
    (hended : Faulty x' ∨ ∃ v mid, x' = .ok v mid ∧ mid.faults = 0)
    (hrun : conclude m₀ id x = .ok o mf) (hfaults : mf.faults = 0) :
    ∃ v mid, o = .completed v ∧ x' = .ok v mid ∧ mid.faults = 0 ∧ mf.Alike mid := by
  cases h with
  | @ok v m v' m' h =>
      obtain ⟨w₁, -, hm, rfl, -⟩ := h
      cases hrun
      rw [faults_restore, ← hm.faults_eq hsolo] at hfaults
      exact ⟨_, _, rfl, rfl, hfaults, hm.heap.alike, hm.output⟩
  | @thrown u u' m m' v hu h =>
      obtain ⟨w₁, -, hm, -⟩ := h
      cases hrun
      -- The exception has left the program's function.
      have hfaulty : u'.isPause = true ∨ 0 < m'.faults := by
        obtain hfaulty | ⟨v, mid, hok, -⟩ := hended
        · exact hfaulty
        · cases hok
      cases hu with
      | thrown hu hu' hsame =>
          rw [ActM.isPause_of_thrown? hu'] at hfaulty
          rw [faults_restore, ← hm.faults_eq hsolo] at hfaults
          exact absurd hfaults (Nat.ne_of_gt (hfaulty.resolve_left nofun))
      | paused htogether _ =>
          rw [hpauses] at htogether
          cases htogether
  | exhausted => cases hrun
  | loose h =>
      rw [Terms.loose, hpauses] at h
      cases h
  | strayed h => exact absurd h (T.not_strays hspared _)

/-- The program's function is called on both sides, and may be paused on the left. -/
theorem Fresh.call_replies (hm : m.Fresh registry) (hsolo : T.solo = true) (hspared : T.spared = none)
    (hmode : T.mode = .recording) (hT : T.Coherent)
    (hregistries : T.registries = m.registriesWith registry p r₁)
    (hprepares : Prepares m.config.debugBuiltins T.mode Setup.heap Setup.heap r methods h₁ h₁' r₁)
    (hbuiltins : m.config.debugBuiltins = true) {g : Callable}
    (htwin : ∀ w, g.Twin T w (.stepped (m.walkedProgram registry p T.mode))) (hfuel : fuel' ≤ fuel) :
    ∃ w, Replies T fuel w
      (call fuel (.object h₁.size) .undefined []
        ((m.setUp true none).staged (h₁.alloc (.ofCallable g)).2 (m.registriesWith registry p r₁) methods))
      (call fuel' (.object h₁.size) .undefined []
        (m.counterpart (h₁'.alloc (.ofCallable (.stepped (m.walkedProgram registry p T.mode)))).2
          (m.registriesWith registry p r₁) methods false)) := by
  obtain ⟨w, hbuilding, -, hshown, hmatch⟩ := hm.match_function hregistries hprepares.makes
    (fun _ => ⟨hbuiltins, hprepares.named hbuiltins⟩) none nofun htwin
  rw [hT.solo hsolo] at hmatch
  exact ⟨w, Machine.call_replies hsolo hspared hmode hT hfuel hfuel w hbuilding _ .undefined [] hshown trivial
    (fun _ hv => absurd hv List.not_mem_nil) _ _ hmatch⟩

/-- A call that gets a reply, and is resumed as often as it is paused, comes to the result that it has on the
other side. -/
theorem completes_of_replies {x x' : EStateM.Result Stop Machine Value} {v : Value} {mid : Machine} (m₀ : Machine)
    (hspared : T.spared = none) (h : Replies T fuel w x x') (hended : x' = .ok v mid) (hfaults : mid.faults = 0)
    (hm : m.Geared) (hobeys : Policy.standing.machine.Ends m x) :
    ∃ o m₁, conclude m₀ id x = .ok o (m₁.restore m₀) ∧
      o.Completes fuel (fun v₁ m₂ => v₁ = v ∧ m₂.Alike mid) m₀ m₁ := by
  subst hended
  cases h with
  | ends h =>
      cases h with
      | ok h =>
          obtain ⟨w₁, -, hmatch, rfl, -⟩ := h
          exact ⟨_, _, rfl, 0, _, _, .here _ _, rfl, hmatch.alike⟩
      | strayed h => exact absurd h (T.not_strays hspared _)
  | excused h => exact absurd hfaults (Nat.ne_of_gt h)
  | @paused u m₁ v mid hnotes h =>
      obtain ⟨n, v₁, m₂, hcontinued, rfl, w₁, -, hmatch, -⟩ := h.completes (hm.stays hobeys.1) m₀
      exact ⟨_, _, rfl, n, _, _, hcontinued, rfl, hmatch.alike⟩

/-- However deep in its calls a program is paused, and however often, when it is resumed each time it is
completed with the value with which it is completed without pauses. -/
theorem runProgram_continued_callsApart (hm : m.Fresh registry) (hbuiltins : m.config.debugBuiltins = true)
    (haccepts : m.Accepts registry p) (hp : p.CallsApart) (hfuel : fuel' ≤ fuel)
    (hrun : runProgram fuel' p registry (m.setUp false none) = .ok (.ok o) mf)
    (hescaped : mf.chronicle.escaped = 0) (hrefused : mf.chronicle.refused = 0) :
    ∃ v, o = .completed v ∧ ∃ o₁ m₁ n m₂,
      runProgram fuel p registry (m.setUp true none) = .ok (.ok o₁) m₁ ∧
        Continued fuel o₁ m₁ n (.completed v) m₂ ∧ mf.Alike m₂ := by
  obtain ⟨code, hcode⟩ := haccepts.instrument
  obtain ⟨methods, h₁, h₁', r₁, hprepares⟩ :=
    prepares m.config.debugBuiltins .recording Setup.heap Setup.heap (hm.built builtinRegistry)
  rw [runProgram_eq (fresh_setUp hm false none) hprepares hcode] at hrun
  rw [runProgram_eq (fresh_setUp hm true none) hprepares hcode]
  -- The run without pauses goes along with a walk.
  have hfair₀ := fair_of_not_mentions (T := m.uninterrupted registry p r₁) hp.not_mentions rfl nofun
  obtain ⟨w₀, -, hplain⟩ := hm.call_ends rfl (m.coherent_uninterrupted registry p r₁) rfl hprepares.makes none
    (fun h => absurd rfl h) (fun w => hm.instrumented_twin (w := w) rfl rfl hfair₀ hcode) fuel'
  have hfunc := (hm.ready (w := w₀) p r₁ rfl hfair₀ (fun _ => rfl) .recording).func?_eq
  have hsize : h₁'.size = h₁.size := by
    obtain ⟨w, -, -, hmatch⟩ := hm.match (T := m.uninterrupted registry p r₁) hprepares.makes nofun
      (hm.le_registriesWith p r₁) none nofun
    exact hmatch.heap.alike.size
  have hended := call_alloc_faulty_or_ok h₁' (m := m.counterpart _ (m.registriesWith registry p r₁)
    methods false) rfl hfunc fuel'
  rw [hsize] at hended
  obtain ⟨v, mid, rfl, hwalk, hfaults, halike⟩ := completed_of_ends rfl rfl rfl hplain hended
    (conclude_ok.1 hrun) (by rw [Machine.faults, hescaped, hrefused])
  -- So does the run with pauses, when it is resumed.
  have hfair := hp.fair (T := m.interruptedAnywhere registry p r₁) rfl
  obtain ⟨w, hreplies⟩ := hm.call_replies (T := m.interruptedAnywhere registry p r₁) rfl rfl rfl
    (m.coherent_interruptedAnywhere registry p r₁) rfl hprepares hbuiltins
    (fun w => hm.instrumented_twin (w := w) rfl rfl hfair hcode) hfuel
  obtain ⟨o₁, m₁, hfirst, n, v₁, m₂, hcontinued, rfl, halike'⟩ := completes_of_replies (m.setUp true none)
    rfl hreplies hwalk hfaults ⟨rfl, rfl, hprepares.present⟩ (call_obeys fuel _ _ _ _)
  exact ⟨v₁, rfl, o₁, _, n, _, conclude_ok.2 hfirst, hcontinued,
    halike.trans ⟨halike'.symm.heap, halike'.symm.output⟩⟩

end

/-! ## A program that is paused in the calls of an array method -/

/-- The program

    function f(x) { debugger; return x; }
    function g(x) { var y = f(x); return y; }
    var a = ["u", "v"];
    return a.map(g);
-/
def mapPaused : Program :=
  ⟨[.function ⟨some "f", ["x"], [.debugger, .ret (some (.ident "x"))]⟩,
    .function ⟨some "g", ["x"],
      [.var [⟨"y", some (.call (.ident "f") [.ident "x"])⟩], .ret (some (.ident "y"))]⟩,
    .var [⟨"a", some (.array [.str "u", .str "v"])⟩],
    .ret (some (.call (.member (.ident "a") "map") [.ident "g"]))]⟩

theorem mapPaused_callsApart : mapPaused.CallsApart := .of_check (by with_unfolding_all decide)

/-- It is accepted, it completes without pauses, and it is paused first in four functions. -/
theorem mapPaused_runs :
    (arrives (fun _ _ => true) (compileProgram mapPaused ownRegistry (new .default)) &&
      (arrives (fun o mf => o.continuation?.isNone && (mf.chronicle.passed == 2 &&
          (mf.chronicle.escaped == 0 && mf.chronicle.refused == 0)))
        (runProgram 9 mapPaused ownRegistry ((new .default).setUp false none)) &&
      arrives (fun o _ => o.isPaused && o.continuation?.all fun k => k.chain.length == 4)
        (runProgram 9 mapPaused ownRegistry ((new .default).setUp true none)))) = true := by
  decide +kernel

theorem accepts_mapPaused : (new .default).Accepts ownRegistry mapPaused := by
  obtain ⟨code, m', hcompile, -⟩ := exists_of_arrives (Bool.and_eq_true_iff.1 mapPaused_runs).1
  exact ⟨code, m', hcompile⟩

/-- Without pauses the statement is passed once for each element. -/
theorem runProgram_mapPaused : ∃ v mf,
    runProgram 9 mapPaused ownRegistry ((new .default).setUp false none) = .ok (.ok (.completed v)) mf ∧
      mf.chronicle.passed = 2 ∧ mf.chronicle.escaped = 0 ∧ mf.chronicle.refused = 0 := by
  obtain ⟨hplain, -⟩ := Bool.and_eq_true_iff.1 (Bool.and_eq_true_iff.1 mapPaused_runs).2
  obtain ⟨o, mf, hrun, hends⟩ := exists_of_arrives hplain
  simp only [Bool.and_eq_true, beq_iff_eq] at hends
  cases o with
  | completed v => exact ⟨v, mf, hrun, hends.2⟩
  | paused k => cases hends.1
  | failed error k => cases hends.1

/-- With pauses four functions are left first: the one that is paused, the one that calls it, the array method
and the program. -/
theorem runProgram_mapPaused_paused : ∃ k m₁,
    runProgram 9 mapPaused ownRegistry ((new .default).setUp true none) = .ok (.ok (.paused k)) m₁ ∧
      k.chain.length = 4 := by
  obtain ⟨-, hpaused⟩ := Bool.and_eq_true_iff.1 (Bool.and_eq_true_iff.1 mapPaused_runs).2
  obtain ⟨o, m₁, hrun, hends⟩ := exists_of_arrives hpaused
  rw [Bool.and_eq_true] at hends
  cases o with
  | completed v => cases hends.1
  | paused k => exact ⟨k, m₁, hrun, beq_iff_eq.1 hends.2⟩
  | failed error k => cases hends.1

theorem runProgram_continued_mapPaused :
    (new .default).Fresh ownRegistry ∧ (new .default).config.debugBuiltins = true ∧
      (new .default).Accepts ownRegistry mapPaused ∧ mapPaused.CallsApart ∧
      ∃ v mf, runProgram 9 mapPaused ownRegistry ((new .default).setUp false none) =
          .ok (.ok (.completed v)) mf ∧
        mf.chronicle.escaped = 0 ∧ mf.chronicle.refused = 0 ∧
        ∃ k m₁ n m₂, runProgram 9 mapPaused ownRegistry ((new .default).setUp true none) =
            .ok (.ok (.paused k)) m₁ ∧ k.chain.length = 4 ∧
          Continued 9 (.paused k) m₁ n (.completed v) m₂ ∧ mf.Alike m₂ := by
  obtain ⟨v, mf, hrun, -, hescaped, hrefused⟩ := runProgram_mapPaused
  obtain ⟨k, m₁, hpaused, hfour⟩ := runProgram_mapPaused_paused
  obtain ⟨v', heq, o₁, m₁', n, m₂, hfirst, hcontinued, halike⟩ :=
    runProgram_continued_callsApart (fresh_new .default) rfl accepts_mapPaused mapPaused_callsApart
      (Nat.le_refl 9) hrun hescaped hrefused
  cases heq
  rw [hpaused] at hfirst
  cases hfirst
  exact ⟨fresh_new _, rfl, accepts_mapPaused, mapPaused_callsApart, v, mf, hrun, hescaped, hrefused,
    k, m₁, n, m₂, hpaused, hfour, hcontinued, halike⟩

/-! ## What the conditions keep out

A call inside of a larger expression, a construction and an accessor: in each of them a resumed run can come
to something else than the run without pauses. -/

/-- Without pauses the program returns a text, and it passes one `debugger` statement on the way.  With
pauses it returns another one, after it has been resumed so many times. -/
def ComesApart (p : Program) (s : String) (n : Nat) (s' : String) : Prop :=
  ∃ mf o m₁ m₂,
    runProgram 9 p ownRegistry (unequipped.setUp false none) = .ok (.ok (.completed (.str s))) mf ∧
    mf.chronicle.passed = 1 ∧
    runProgram 9 p ownRegistry (unequipped.setUp true none) = .ok (.ok o) m₁ ∧
    Continued 9 o m₁ n (.completed (.str s')) m₂

def comesApart (p : Program) (s : String) (n : Nat) (s' : String) : Bool :=
  arrives (fun o m => comesTo s o && m.chronicle.passed == 1)
    (runProgram 9 p ownRegistry (unequipped.setUp false none)) &&
  arrives (resumes 9 (fun o _ => comesTo s' o) n)
    (runProgram 9 p ownRegistry (unequipped.setUp true none))

theorem comesApart_of_check {s s' : String} {n : Nat} (h : comesApart p s n s' = true) :
    ComesApart p s n s' := by
  rw [comesApart, Bool.and_eq_true] at h
  obtain ⟨o, mf, hplain, hends⟩ := exists_of_arrives h.1
  obtain ⟨o₁, m₁, hpaused, hresumed⟩ := exists_of_arrives h.2
  obtain ⟨o₂, m₂, hcontinued, hcomes⟩ := exists_of_resumes hresumed
  rw [Bool.and_eq_true, beq_iff_eq] at hends
  rw [eq_of_comesTo hends.1] at hplain
  rw [eq_of_comesTo hcomes] at hcontinued
  exact ⟨mf, o₁, m₁, m₂, hplain, hends.2, hpaused, hcontinued⟩

/-- The program

    var x = "a";
    function f() { debugger; x = "b"; return "c"; }
    return x + f();
-/
def operandBefore : Program :=
  ⟨[.var [⟨"x", some (.str "a")⟩],
    .function ⟨some "f", [],
      [.debugger, .expr (.assign none (.ident "x") (.str "b")), .ret (some (.str "c"))]⟩,
    .ret (some (.binary .add (.ident "x") (.call (.ident "f") [])))]⟩

/-- The program

    function F() { debugger; }
    var o = new F();
    return typeof o;
-/
def constructed : Program :=
  ⟨[.function ⟨some "F", [], [.debugger]⟩,
    .var [⟨"o", some (.construct (.ident "F") [])⟩],
    .ret (some (.unary .typeOf (.ident "o")))]⟩

/-- The program

    var o = { get x() { debugger; return "u"; } };
    var y = o.x;
    return typeof y;
-/
def accessed : Program :=
  ⟨[.var [⟨"o", some (.object
      [⟨"x", .getter, .function ⟨none, [], [.debugger, .ret (some (.str "u"))]⟩⟩])⟩],
    .var [⟨"y", some (.member (.ident "o") "x")⟩],
    .ret (some (.unary .typeOf (.ident "y")))]⟩

/-- What the runs of the three programs come to. -/
theorem comesApart_runs : (comesApart operandBefore "ac" 1 "bc" &&
    (comesApart constructed "object" 1 "undefined" && comesApart accessed "string" 2 "undefined")) = true := by
  decide +kernel

/-- The operand before the call is a variable.  It has not been recorded, so it is read again after the call
has written it. -/
theorem operandBefore_comesApart : ComesApart operandBefore "ac" 1 "bc" :=
  comesApart_of_check (Bool.and_eq_true_iff.1 comesApart_runs).1

/-- No frame knows that the function was called to construct something: what it returns takes the place of
the instance. -/
theorem constructed_comesApart : ComesApart constructed "object" 1 "undefined" :=
  comesApart_of_check (Bool.and_eq_true_iff.1 (Bool.and_eq_true_iff.1 comesApart_runs).2).1

/-- The property that is read has no place for what the accessor returns.  The accessor is called once more,
and pauses once more. -/
theorem accessed_comesApart : ComesApart accessed "string" 2 "undefined" :=
  comesApart_of_check (Bool.and_eq_true_iff.1 (Bool.and_eq_true_iff.1 comesApart_runs).2).2

end Machine

end Resumption
