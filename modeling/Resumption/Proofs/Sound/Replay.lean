import Resumption.Proofs.Match.Reentry
import Resumption.Proofs.Sound.Host

/-!
# Taking a frame up again

A frame is taken up by walking its function from the beginning.  The walk gets back to where the frame was
paused without evaluating anything: what it does is what the constructs around this statement do once the
statement is over.  On the way it re-enters the pending scopes, one for each scope that it gets into, so
it gets there in the innermost scope of the frame and with no scope left to re-enter.
-/

namespace Resumption

open Script

namespace Stepper

open ActM

variable {env : Env} {t : IndexedTree} {i p : Nat} {act act' : Activation} {m m' : Machine}

/-! ## What is around a statement -/

/-- One construct around a statement, with what is left to do in it once the statement is over. -/
inductive Layer where
  /-- The statements behind it, the first of them at a position. -/
  | sequence (i : Nat) (rest : List Stmt)
  /-- The arms behind it. -/
  | arms (i : Nat) (rest : List Case)
  | switch
  | forLoop (testAt updateAt bodyAt : Nat) (test update : Option Expr) (body : Stmt)
  | forIn (i rightAt : Nat) (keys : Value) (left : ForTarget) (body : Stmt)
  | whileLoop (testAt bodyAt : Nat) (test : Expr) (body : Stmt)
  | doLoop (bodyAt testAt : Nat) (body : Stmt) (test : Expr)
  | tryBlock (i catchAt finallyAt : Nat) (saved : Chain) (handler : Option Handler)
      (finalizer : Option (List Stmt))
  /-- The body of a `catch`, in a scope inside of the chain. -/
  | catchBody (i finallyAt : Nat) (saved : Chain) (finalizer : Option (List Stmt))
  | finallyBody (i : Nat) (waiting : Option Completion)
  /-- The body of a `with`, in a scope inside of the chain. -/
  | scope (saved : Chain)

namespace Layer

/-- The rest of a scope from its body on. -/
def leaving (saved : Chain) (x : ActM Flow) : ActM Flow := do
  let flow ← x
  setChain saved
  return flow

/-- Runs what is inside of the construct, and then what is left to do in it. -/
def around (env : Env) (t : IndexedTree) (x : ActM Flow) : Layer → ActM Flow
  | sequence i rest => do
    match ← x with
    | .normal => execList env t i rest
    | abrupt => return abrupt
  | arms i rest => do
    match ← x with
    | .normal => execArms env t 0 i rest
    | abrupt => return abrupt
  | switch => do return (← x).endSwitch
  | forLoop testAt updateAt bodyAt test update body =>
    turning (bodyThen x (updateTurn (evalOptional env t updateAt update)))
      (forTurn (testLoop env t testAt test) (exec env t bodyAt body) (evalOptional env t updateAt update))
      env.fuel
  | forIn i rightAt keys left body => do
    let flow ← turning (keyBody keys x)
      (keyTurn keys (assignKey env t (i + 1) left) (exec env t (t.after rightAt) body)) env.fuel
    leaveKeys env rightAt flow
  | whileLoop testAt bodyAt test body =>
    turning (bodyThen x endTurn) (whileTurn (eval env t testAt test) (exec env t bodyAt body)) env.fuel
  | doLoop bodyAt testAt body test =>
    turning (doTurn x (eval env t testAt test))
      (doTurn (exec env t bodyAt body) (eval env t testAt test)) env.fuel
  | tryBlock i catchAt finallyAt saved handler finalizer => do
    let result ← guarding x (fun u => execHandler env t saved u catchAt handler)
    concluding env i saved finalizer.isSome (execFinally env t finallyAt finalizer) result
  | catchBody i finallyAt saved finalizer => do
    let result ← caught (leaving saved x)
    concluding env i saved finalizer.isSome (execFinally env t finallyAt finalizer) result
  | finallyBody i waiting =>
    finallyThen i x (match waiting with
      | some c => proceed c.toResult
      | none => return .normal)
  | scope saved => leaving saved x

theorem bind_congr {α β : Type} {x y : ActM α} {f : α → ActM β} (h : x (act, m) = y (act', m')) :
    (x >>= f) (act, m) = (y >>= f) (act', m') := by
  change EStateM.bind x f (act, m) = EStateM.bind y f (act', m')
  rw [EStateM.bind, EStateM.bind, h]

theorem caught_congr {α : Type} {x y : ActM α} (h : x (act, m) = y (act', m')) :
    caught x (act, m) = caught y (act', m') := by
  rw [caught, caught, h]

/-- The first turn of a loop counts if there are turns at all. -/
theorem turning_congr {α : Type} {first first' other : ActM (Option α)} {fuel : Nat} (hfuel : fuel ≠ 0)
    (h : first (act, m) = first' (act', m')) :
    turning first other fuel (act, m) = turning first' other fuel (act', m') := by
  obtain ⟨fuel, rfl⟩ := Nat.exists_eq_succ_of_ne_zero hfuel
  exact bind_congr h

/-- A construct does nothing before what is inside of it. -/
theorem around_congr (hfuel : env.fuel ≠ 0) {x y : ActM Flow} (h : x (act, m) = y (act', m'))
    (layer : Layer) : layer.around env t x (act, m) = layer.around env t y (act', m') := by
  cases layer with
  | sequence i rest => exact bind_congr h
  | arms i rest => exact bind_congr h
  | switch => exact bind_congr h
  | forLoop testAt updateAt bodyAt test update body => exact turning_congr hfuel (bind_congr h)
  | forIn i rightAt keys left body => exact bind_congr (turning_congr hfuel (bind_congr h))
  | whileLoop testAt bodyAt test body => exact turning_congr hfuel (bind_congr h)
  | doLoop bodyAt testAt body test => exact turning_congr hfuel (bind_congr h)
  | tryBlock i catchAt finallyAt saved handler finalizer =>
      exact bind_congr (bind_congr (caught_congr h))
  | catchBody i finallyAt saved finalizer => exact bind_congr (caught_congr (bind_congr h))
  | finallyBody i waiting => exact bind_congr h
  | scope saved => exact bind_congr h

end Layer

/-- Runs what is inside of the constructs, the outermost of them first in the list. -/
def plug (env : Env) (t : IndexedTree) (x : ActM Flow) : List Layer → ActM Flow
  | [] => x
  | layer :: layers => layer.around env t (plug env t x layers)

/-! ## The way back -/

/-- A walk gets back to the position through so many of the pending scopes, outermost first: it does what
is left to do around the statement there, in the innermost of these scopes, on the machine as it is. -/
def Replays (env : Env) (t : IndexedTree) (cache : Cache) (p : Nat) (target : Stmt) (n : Nat)
    (x : ActM Flow) : Prop :=
  ∀ (act : Activation) (m : Machine) (links more : List Link), act.pc = some p → act.cache = cache →
    act.pending = links ++ more → links.length = n → ∃ layers, x (act, m) =
      plug env t (exec env t p target) layers
        ({ act with chain := links.reverse ++ act.chain, pending := more }, m)

namespace Replays

variable {cache : Cache} {target : Stmt} {n : Nat} {x y : ActM Flow}

theorem same (hx : Replays env t cache p target n x)
    (h : ∀ act m, act.pc = some p → act.cache = cache → y (act, m) = x (act, m)) :
    Replays env t cache p target n y := by
  intro act m links more hpc hcache hpending hlength
  rw [h act m hpc hcache]
  exact hx act m links more hpc hcache hpending hlength

/-- One more construct is around. -/
theorem under (hfuel : env.fuel ≠ 0) (hx : Replays env t cache p target n x)
    (h : ∀ act m, act.pc = some p → act.cache = cache →
      ∃ layer : Layer, y (act, m) = layer.around env t x (act, m)) :
    Replays env t cache p target n y := by
  intro act m links more hpc hcache hpending hlength
  obtain ⟨layer, hlayer⟩ := h act m hpc hcache
  obtain ⟨layers, hx⟩ := hx act m links more hpc hcache hpending hlength
  exact ⟨layer :: layers, hlayer.trans (Layer.around_congr hfuel hx layer)⟩

/-- One more construct is around that makes a scope. -/
theorem entered (hfuel : env.fuel ≠ 0) (hx : Replays env t cache p target n x)
    (h : ∀ act m link more, act.pc = some p → act.pending = link :: more →
      ∃ layer : Layer, y (act, m) =
        layer.around env t x ({ act with chain := link :: act.chain, pending := more }, m)) :
    Replays env t cache p target (n + 1) y := by
  intro act m links more hpc hcache hpending hlength
  obtain ⟨link, links, rfl⟩ := List.exists_cons_of_length_eq_add_one hlength
  obtain ⟨layer, hlayer⟩ := h act m link (links ++ more) hpc hpending
  obtain ⟨layers, hx⟩ := hx { act with chain := link :: act.chain, pending := links ++ more } m links more
    hpc hcache rfl (Nat.succ.inj hlength)
  refine ⟨layer :: layers, hlayer.trans ?_⟩
  rw [List.reverse_cons, List.append_assoc]
  exact Layer.around_congr hfuel hx layer

end Replays

/-- A scope is re-entered: its link is the next one. -/
theorem reenter_pending {link : Link} {more : List Link} {fresh : ActM Link}
    (hpending : act.pending = link :: more) :
    reenter true fresh (act, m) = .ok link ({ act with pending := more }, m) := by
  obtain ⟨site, chain, cache, last, arguments, pending, pc, diary⟩ := act
  cases hpending
  rfl

/-- A statement is entered that the way leads through. -/
theorem executing_within {cache : Cache} {s target : Stmt} {n : Nat} {body : Option Nat → ActM Flow}
    (way : t.Within cache p target i s n) (hat : t.At i (.stmt s)) (hlt : i < p) (hpc : act.pc = some p) :
    executing env t i s body (act, m) = body (some p) (act, m) :=
  executing_inside hpc hlt (IndexedTree.contains_iff.1 (way.inside hat).1).2

theorem ofEntry_body {test update : Option Expr} {j k l : Nat} (hlo : l ≤ p) (hhi : p < t.after l) :
    Phase.ofEntry t (some p) test update j k l = .body := by
  rw [Phase.ofEntry, entering_of_mem hlo hhi]
  rfl

theorem storedKeys?_of_entering {i j : Nat} {v : Value} (hentering : entering t (some p) j = true)
    (hv : act.cache.get? i = some v) :
    storedKeys? t (some p) i j (act, m) = .ok (some v) (act, m) := by
  rw [storedKeys?, hentering, if_pos rfl, ← hv]
  rfl

theorem chain_apply : chain (act, m) = .ok act.chain (act, m) := rfl

theorem reached_of_lt {j : Nat} (h : p < j) : reached (some p) j = false :=
  decide_eq_false (Nat.not_le.2 h)

theorem reached_of_le {j : Nat} (h : j ≤ p) : reached (some p) j = true :=
  decide_eq_true h

theorem bind_apply {α β : Type} {x : ActM α} {f : α → ActM β} {a : α} (h : x (act, m) = .ok a (act', m')) :
    (x >>= f) (act, m) = f a (act', m') := by
  change EStateM.bind x f (act, m) = _
  rw [EStateM.bind, h]

section

variable {cache : Cache} {target : Stmt} (hfuel : env.fuel ≠ 0)
include hfuel

open IndexedTree (Within WithinList WithinCases)

mutual

theorem exec_replays : ∀ {i s n}, t.Within cache p target i s n → t.At i (.stmt s) →
    Replays env t cache p target n (exec env t i s)
  | _, _, _, .here, _ => by
      intro act m links more hpc hcache hpending hlength
      obtain rfl := List.length_eq_zero_iff.1 hlength
      obtain ⟨site, chain, cache, last, arguments, pending, pc, diary⟩ := act
      cases hpending
      exact ⟨[], rfl⟩
  | i, .block body, _, .block way, hat => by
      obtain ⟨hlo, -⟩ := way.inside hat.children
      refine (execList_replays way hat.children).same fun act m hpc _ => ?_
      rw [exec, executing_within (.block way) hat hlo hpc]
  | i, .branch test cons alt, _, .cons way, hat => by
      obtain ⟨htest, hcons, -⟩ := hat.children
      obtain ⟨hlo, hhi⟩ := IndexedTree.contains_iff.1 (way.inside hcons).1
      have hlt := t.lt_after (i + 1)
      refine (exec_replays way hcons).same fun act m hpc _ => ?_
      rw [exec, executing_within (.cons way) hat (by omega) hpc]
      rw [entering_of_mem hlo hhi, if_pos rfl]
  | i, .branch test cons (some alt), _, .alt way, hat => by
      obtain ⟨htest, hcons, halt, -⟩ := hat.children
      obtain ⟨hlo, hhi⟩ := IndexedTree.contains_iff.1 (way.inside halt).1
      have hlt := t.lt_after (i + 1)
      have hlt' := t.lt_after (t.after (i + 1))
      refine (exec_replays way halt).same fun act m hpc _ => ?_
      rw [exec, executing_within (.alt way) hat (by omega) hpc]
      rw [entering_of_le hlo, if_neg Bool.false_ne_true, entering_of_mem hlo hhi]
      rfl
  | i, .forLoop init test update body, _, @Within.forBody _ _ _ _ _ j k l _ _ _ _ _ hj hk hl way, hat => by
      obtain ⟨hbody, hlt, -⟩ := hat.forLoop hj hk hl
      obtain ⟨hlo, hhi⟩ := IndexedTree.contains_iff.1 (way.inside hbody).1
      refine (exec_replays way hbody).under hfuel fun act m hpc _ => ?_
      refine ⟨.forLoop j k l test update body, ?_⟩
      rw [exec, executing_within (.forBody hj hk hl way) hat (Nat.lt_of_lt_of_le hlt hlo) hpc]
      rw [← hj, ← hk, ← hl, ofEntry_body hlo hhi]
      rfl
  | i, .forIn left right body, _, @Within.keyBody _ _ _ _ _ j _ _ _ _ hj hkeys way, hat => by
      obtain ⟨hbody, hlt, hlt', -⟩ := hat.forIn hj
      obtain ⟨hlo, hhi⟩ := IndexedTree.contains_iff.1 (way.inside hbody).1
      refine (exec_replays way hbody).under hfuel fun act m hpc hcache => ?_
      obtain ⟨keys, hqueue⟩ := Option.isSome_iff_exists.1 (hcache ▸ hkeys)
      refine ⟨.forIn i j keys left body, ?_⟩
      rw [exec, executing_within (.keyBody hj hkeys way) hat (by omega) hpc]
      rw [← hj, bind_apply (storedKeys?_of_entering (entering_of_mem hlo hhi) hqueue)]
      rfl
  | i, .whileLoop test body, _, .whileBody way, hat => by
      obtain ⟨htest, hbody, -⟩ := hat.children
      obtain ⟨hlo, hhi⟩ := IndexedTree.contains_iff.1 (way.inside hbody).1
      have hlt := t.lt_after (i + 1)
      refine (exec_replays way hbody).under hfuel fun act m hpc _ => ?_
      refine ⟨.whileLoop (i + 1) (t.after (i + 1)) test body, ?_⟩
      rw [exec, executing_within (.whileBody way) hat (by omega) hpc]
      rw [entering_of_mem hlo hhi, if_pos rfl]
      rfl
  | i, .doLoop body test, _, .doBody way, hat => by
      obtain ⟨hbody, -⟩ := hat.children
      obtain ⟨hlo, hhi⟩ := IndexedTree.contains_iff.1 (way.inside hbody).1
      refine (exec_replays way hbody).under hfuel fun act m hpc _ => ?_
      refine ⟨.doLoop (i + 1) (t.after (i + 1)) body test, ?_⟩
      rw [exec, executing_within (.doBody way) hat hlo hpc]
      rw [entering_of_lt hhi, if_neg Bool.false_ne_true]
      rfl
  | i, .attempt block handler finalizer, _, .tryBlock way, hat => by
      obtain ⟨hblock, -⟩ := IndexedTree.along_attempt (IndexedTree.atAll_iff_along.1 hat.children) rfl rfl
      obtain ⟨-, hle, -⟩ := hat.attempt rfl rfl
      obtain ⟨hlo, hhi, -⟩ := way.inside (IndexedTree.atAll_iff_along.2 hblock)
      refine (execList_replays way (IndexedTree.atAll_iff_along.2 hblock)).under hfuel fun act m hpc _ => ?_
      refine ⟨.tryBlock i (t.afterMany block.length (i + 1)) (if handler.isSome then
        t.after (t.afterMany block.length (i + 1)) else t.afterMany block.length (i + 1)) act.chain handler
        finalizer, ?_⟩
      rw [exec, executing_within (.tryBlock way) hat hlo hpc]
      simp only [reached_of_lt (Nat.lt_of_lt_of_le hhi hle), entering_of_lt hhi, Bool.and_false,
        Bool.false_eq_true, if_false]
      rfl
  | i, .attempt block (some ⟨param, body⟩) finalizer, _, .handler way, hat => by
      obtain ⟨-, ⟨hhandler, -⟩, -⟩ := IndexedTree.along_attempt
        (IndexedTree.atAll_iff_along.1 hat.children) rfl rfl
      obtain ⟨hlt, -⟩ := hat.attempt rfl rfl
      obtain ⟨hlo, hhi, -⟩ := way.inside hhandler.children
      have hafter : t.after (t.afterMany block.length (i + 1)) = _ := hhandler.after_eq
      rw [Node.children, Node.ofStmts, List.length_map] at hafter
      rw [← hafter] at hhi
      refine (execList_replays way hhandler.children).entered hfuel fun act m link more hpc hpending => ?_
      refine ⟨.catchBody i (t.after (t.afterMany block.length (i + 1))) act.chain finalizer, ?_⟩
      rw [exec, executing_within (.handler way) hat (by omega) hpc]
      simp only [Option.isSome_some, if_true, reached_of_lt hhi,
        entering_of_mem (Nat.le_of_succ_le hlo) hhi, Bool.and_false, Bool.and_true, Bool.false_eq_true, if_false]
      rw [bind_apply chain_apply, bind_apply (reenter_pending hpending)]
      rfl
  | i, .attempt block handler (some body), _, @Within.finalizer _ _ _ _ _ j _ _ _ _ hj way, hat => by
      obtain ⟨-, -, hbody⟩ := IndexedTree.along_attempt (IndexedTree.atAll_iff_along.1 hat.children) rfl hj
      obtain ⟨hlt, hle, -⟩ := hat.attempt rfl hj
      obtain ⟨hlo, -⟩ := way.inside (IndexedTree.atAll_iff_along.2 hbody)
      refine (execList_replays way (IndexedTree.atAll_iff_along.2 hbody)).under hfuel fun act m hpc _ => ?_
      refine ⟨.finallyBody i ((act.cache.get? i).bind (Completion.decode? m.heap)), ?_⟩
      rw [exec, executing_within (.finalizer hj way) hat (by omega) hpc]
      simp only [← hj, reached_of_le hlo, Option.isSome_some, Bool.and_true, if_true]
      rfl
  | i, .switch discriminant cases, _, .arm way, hat => by
      obtain ⟨-, hcases⟩ := hat.children
      obtain ⟨hlo, -⟩ := way.inside hcases
      have hlt := t.lt_after (i + 1)
      obtain ⟨k, j, c, hresumed, hdirect, harms⟩ := execArms_replays way hcases 0
      rw [Nat.zero_add] at hresumed hdirect
      refine harms.under hfuel fun act m hpc _ => ⟨.switch, ?_⟩
      rw [exec, executing_within (.arm way) hat (by omega) hpc]
      simp only [startingCase?, hresumed, hdirect]
      rfl
  | i, .withScope object body, _, .scope way, hat => by
      obtain ⟨hobject, hbody, -⟩ := hat.children
      obtain ⟨hlo, hhi⟩ := IndexedTree.contains_iff.1 (way.inside hbody).1
      have hlt := t.lt_after (i + 1)
      refine (exec_replays way hbody).entered hfuel fun act m link more hpc hpending => ?_
      refine ⟨.scope act.chain, ?_⟩
      rw [exec, executing_within (.scope way) hat (by omega) hpc]
      rw [entering_of_mem hlo hhi, bind_apply (reenter_pending hpending)]
      rfl

theorem execList_replays : ∀ {i l n}, t.WithinList cache p target i l n → t.AtAll i (Node.ofStmts l) →
    Replays env t cache p target n (execList env t i l)
  | i, s :: rest, _, .head way, hat => by
      refine (exec_replays way hat.1).under hfuel fun act m _ _ => ⟨.sequence (t.after i) rest, ?_⟩
      rw [execList]
      rfl
  | i, s :: rest, _, .tail way, hat => by
      obtain ⟨hlo, -⟩ := way.inside hat.2
      exact (execList_replays way hat.2).same fun act m hpc _ => execList_passed hpc hlo

/-- The case that contains the position is found without looking at its test. -/
theorem execArms_replays : ∀ {i l n}, t.WithinCases cache p target i l n → t.AtAll i (l.map .case) →
    ∀ k₀, ∃ k j c, resumedCase? t (some p) k₀ i l = some (k₀ + k, j, c) ∧
      directCase? t (some p) (some (k₀ + k, j, c)) = some (k₀ + k) ∧
      Replays env t cache p target n (execArms env t k i l)
  | i, ⟨test, body⟩ :: rest, _, .head way, hat => by
      intro k₀
      obtain ⟨hlt, hafter⟩ := hat.1.case rfl
      have hbody := IndexedTree.atAll_iff_along.2
        (IndexedTree.along_case (IndexedTree.atAll_iff_along.1 hat.1.children) rfl).2
      obtain ⟨hlo, hhi, -⟩ := way.inside hbody
      refine ⟨0, i, ⟨test, body⟩, ?_, ?_, ?_⟩
      · rw [resumedCase?, entering_of_mem (by omega) (hafter ▸ hhi), if_pos rfl, Nat.add_zero]
      · cases test with
        | none => rfl
        | some test =>
            rw [directCase?, entering_of_le hlo]
            rfl
      · refine (execList_replays way hbody).under hfuel fun act m _ _ => ⟨.arms (t.after i) rest, ?_⟩
        rw [execArms, execArm]
        rfl
  | i, c :: rest, _, .tail way, hat => by
      intro k₀
      obtain ⟨hlo, -⟩ := way.inside hat.2
      obtain ⟨k, j, c', hresumed, hdirect, harms⟩ := execArms_replays way hat.2 (k₀ + 1)
      rw [Nat.add_assoc, Nat.add_comm 1 k] at hresumed hdirect
      refine ⟨k + 1, j, c', ?_, hdirect, harms⟩
      rw [resumedCase?, entering_of_le hlo, if_neg Bool.false_ne_true, hresumed]

end

end

end Stepper

/-! ## Frames that are taken up -/

namespace Frame

variable {frame : Frame} {o : NodeHandle} {f : Func} {fuel : Nat}

/-- The fixed part of the activation in which a frame is taken up. -/
def env (fuel : Nat) (o : NodeHandle) (frame : Frame) : Env :=
  { invoke := Machine.call fuel, fuel, this := frame.this, args := frame.args, ns := o.tree.ns
    index := o.index, registry := frame.registry, records := true }

/-- The activation in which a frame is taken up. -/
def activation (fuel : Nat) (o : NodeHandle) (frame : Frame) : Activation :=
  { site := (frame.env fuel o).toSite, chain := frame.scope, cache := frame.cache
    last := frame.pc.getD o.index, arguments := none, pending := frame.pending, pc := frame.pc }

/-- The walk of a function from the beginning in which a frame is taken up. -/
def walk (fuel : Nat) (o : NodeHandle) (f : Func) (frame : Frame) : ActM Flow :=
  Stepper.execList (frame.env fuel o) o.tree (o.index + 1) f.body

theorem runFrame_eq_walk (horigin : frame.origin = some o) (hfunc : o.func? = some f) :
    Machine.runFrame fuel frame = (do
      Machine.enter
      Machine.closing (runActivation (frame.env fuel o) (frame.activation fuel o) (frame.walk fuel o f))) := by
  unfold Machine.runFrame
  rw [horigin]
  dsimp only
  rw [hfunc]
  rfl

end Frame

namespace Machine

variable {config : Config} {m : Machine} {ks : List Continuation} {k : Continuation}

/-- The innermost frame of a computation that was paused is taken up by walking its function.  On any
machine the walk gets back to the statement at the position of the frame: it does what is left to do
around that statement, which runs in the innermost scope of the frame, with no scope left to re-enter.
The machine and the books are as they were in the beginning. -/
theorem Reached.gets_back (h : Reached config m ks) (hk : k ∈ ks) (hpaused : k.error = none) :
    ∃ frame o f p target, k.currentFrame? = some frame ∧ frame.origin = some o ∧ o.func? = some f ∧
      frame.pc = some p ∧ o.tree.node? p = some (.stmt target) ∧ ∀ fuel,
        (runFrame (fuel + 1) frame = do
          enter
          closing (runActivation (frame.env (fuel + 1) o) (frame.activation (fuel + 1) o)
            (frame.walk (fuel + 1) o f))) ∧
        ∀ m', ∃ layers, frame.walk (fuel + 1) o f (frame.activation (fuel + 1) o, m') =
          Stepper.plug (frame.env (fuel + 1) o) o.tree
            (Stepper.exec (frame.env (fuel + 1) o) o.tree p target) layers
            ({ frame.activation (fuel + 1) o with chain := frame.innermost, pending := [] }, m') := by
  obtain ⟨frame, p, hcurrent, horigin, hfunc, hpc, hbody, hway⟩ := (h.orderly.left k hk).2 hpaused
  rename_i o f target
  obtain ⟨-, -, htarget⟩ := hway.inside hbody
  refine ⟨frame, o, f, p, target, hcurrent, horigin, hfunc, hpc, htarget.node?, fun fuel =>
    ⟨frame.runFrame_eq_walk horigin hfunc, fun m' => ?_⟩⟩
  exact Stepper.execList_replays (Nat.succ_ne_zero fuel) hway hbody (frame.activation (fuel + 1) o) m'
    frame.pending [] hpc rfl (List.append_nil _).symm rfl

/-- The program `with (\x7b\x7d) try \x7b throw 1; \x7d catch (e) \x7b debugger; \x7d`. -/
def nested : Program :=
  ⟨[.withScope (.object []) (.attempt [.throwing (.num 1)] (some ⟨"e", [.debugger]⟩) none)]⟩

/-- A host walks this program on a new machine, without instrumented array methods. -/
def walkNested : EStateM.Result Stop Machine (Option Continuation) :=
  (Deed.errand (.interpret nested ownRegistry .recording)).perform 2
    (.new { Config.default with debugBuiltins := false })

/-- The deed leaves a continuation that passes a check. -/
def leaves (check : Continuation → Bool) : EStateM.Result Stop Machine (Option Continuation) → Bool
  | .ok (some k) _ => check k
  | _ => false

theorem exists_of_leaves {check : Continuation → Bool}
    {r : EStateM.Result Stop Machine (Option Continuation)} (h : leaves check r = true) :
    ∃ k m, r = .ok (some k) m ∧ check k = true := by
  unfold leaves at h
  split at h
  · exact ⟨_, _, rfl, h⟩
  · cases h

/-- It is paused at the `debugger` statement, in two scopes. -/
theorem walkNested_leaves : leaves (fun k => k.error.isNone && k.currentFrame?.all fun frame =>
    frame.pc == some 7 && frame.pending.map Link.kind == [.withObject, .handler]) walkNested = true := by
  decide +kernel

theorem Reached.gets_back_nested : ∃ m k frame o f target,
    Reached { Config.default with debugBuiltins := false } m [k] ∧ k.error = none ∧
      k.currentFrame? = some frame ∧ frame.pending.map Link.kind = [.withObject, .handler] ∧
      o.tree.node? 7 = some (.stmt target) ∧ ∃ layers,
        frame.walk 1 o f (frame.activation 1 o, m) =
          Stepper.plug (frame.env 1 o) o.tree (Stepper.exec (frame.env 1 o) o.tree 7 target) layers
            ({ frame.activation 1 o with chain := frame.innermost, pending := [] }, m) := by
  obtain ⟨k, m, hends, hleft⟩ := exists_of_leaves walkNested_leaves
  rw [Bool.and_eq_true, Option.isNone_iff_eq_none] at hleft
  obtain ⟨hpaused, hleft⟩ := hleft
  have hreached : Reached { Config.default with debugBuiltins := false } m [k] :=
    Reached.new.done 2 (.errand (.interpret nested ownRegistry .recording)) (Nat.zero_lt_succ 1) hends
  obtain ⟨frame, o, f, p, target, hcurrent, -, -, hpc, htarget, hback⟩ :=
    gets_back hreached (List.mem_singleton_self k) hpaused
  rw [hcurrent, Option.all_some, Bool.and_eq_true, beq_iff_eq, beq_iff_eq, hpc, Option.some_inj] at hleft
  obtain ⟨rfl, hpending⟩ := hleft
  exact ⟨m, k, frame, o, f, target, hreached, hpaused, hcurrent, hpending, htarget, (hback 0).2 m⟩

end Machine

end Resumption
