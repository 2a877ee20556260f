import Resumption.Proofs.Match.Evaluation
import Resumption.Proofs.Match.Pursuit

/-!
# Getting back to a position

As long as there is a position to get back to, a walk passes by the statements in front of it and
enters those around it.  At the position itself it goes on as if it had come there by itself.
-/

namespace Resumption.Stepper

open Script ActM

variable {env : Env} {t : IndexedTree} {i p : Nat} {act : Activation} {m : Machine} {s : Stmt}
  {body : Option Nat → ActM Flow}

/-! ## One node -/

theorem resumeState_of_pc (hpc : act.pc = some p) :
    resumeState t i (act, m) =
      if i = p then .ok (.here (act.cache.get? i)) ({ act with pc := none }, m)
      else if t.contains i p then .ok (.inside p) (act, m)
      else if p < i then .ok .fresh ({ act with pc := none }, m)
      else .ok (.finished (act.cache.get? i)) (act, m) := by
  cases act
  cases hpc
  change (if i == p then clearPc >>= fun _ => (cached? i >>= fun v => pure (.here v))
    else if t.contains i p then pure (.inside p)
    else if p < i then clearPc >>= fun _ => pure .fresh
    else cached? i >>= fun v => pure (.finished v) : ActM Resume) _ = _
  simp only [beq_iff_eq]
  split
  · rfl
  · split
    · rfl
    · split <;> rfl

theorem resumeState_inside (hpc : act.pc = some p) (hlo : i < p) (hhi : p < t.after i) :
    resumeState t i (act, m) = .ok (.inside p) (act, m) := by
  have hcontains : t.contains i p = true := IndexedTree.contains_iff.2 ⟨Nat.le_of_lt hlo, hhi⟩
  rw [resumeState_of_pc hpc, if_neg (Nat.ne_of_lt hlo), if_pos hcontains]

theorem resumeState_finished (hpc : act.pc = some p) (h : t.after i ≤ p) :
    resumeState t i (act, m) = .ok (.finished (act.cache.get? i)) (act, m) := by
  have hlt := t.lt_after i
  have hcontains : ¬ t.contains i p = true := fun hc => by
    have := (IndexedTree.contains_iff.1 hc).2
    omega
  rw [resumeState_of_pc hpc, if_neg (by omega), if_neg hcontains, if_neg (by omega)]

theorem resumeState_here (hpc : act.pc = some i) :
    resumeState t i (act, m) = .ok (.here (act.cache.get? i)) ({ act with pc := none }, m) := by
  rw [resumeState_of_pc hpc, if_pos rfl]

/-! ## Statements -/

/-- What a statement does in the state that it is found in. -/
def found (env : Env) (t : IndexedTree) (i : Nat) (s : Stmt) (body : Option Nat → ActM Flow) :
    Resume → ActM Flow
  | .finished _ => return .normal
  | .here v => if s.isDebugger && v.isSome then return .normal else body none
  | .inside pc => body (some pc)
  | .fresh => do
    haltCheck env t i s
    body none

theorem executing_eq_found :
    executing env t i s body = resumeState t i >>= found env t i s body := rfl

theorem executing_apply {state : Resume} {act₁ : Activation} {m₁ : Machine}
    (h : resumeState t i (act, m) = .ok state (act₁, m₁)) :
    executing env t i s body (act, m) = found env t i s body state (act₁, m₁) := by
  rw [executing_eq_found]
  change EStateM.bind (resumeState t i) _ (act, m) = _
  rw [EStateM.bind, h]

theorem executing_inside (hpc : act.pc = some p) (hlo : i < p) (hhi : p < t.after i) :
    executing env t i s body (act, m) = body (some p) (act, m) :=
  executing_apply (resumeState_inside hpc hlo hhi)

theorem executing_finished (hpc : act.pc = some p) (h : t.after i ≤ p) :
    executing env t i s body (act, m) = .ok .normal (act, m) :=
  executing_apply (resumeState_finished hpc h)

theorem executing_here (hpc : act.pc = some i)
    (hnew : (s.isDebugger && (act.cache.get? i).isSome) = false) :
    executing env t i s body (act, m) = body none ({ act with pc := none }, m) := by
  rw [executing_apply (resumeState_here hpc), found, hnew]
  rfl

/-- The statement was a `debugger` statement that has been passed. -/
theorem executing_passed (hpc : act.pc = some i)
    (hdone : (s.isDebugger && (act.cache.get? i).isSome) = true) :
    executing env t i s body (act, m) = .ok .normal ({ act with pc := none }, m) := by
  rw [executing_apply (resumeState_here hpc), found, hdone]
  rfl

/-- Statements in front of the position are passed by. -/
theorem exec_finished (hpc : act.pc = some p) (h : t.after i ≤ p) :
    exec env t i s (act, m) = .ok .normal (act, m) := by
  cases s with
  | brk label => cases label <;> exact executing_finished hpc h
  | cont label => cases label <;> exact executing_finished hpc h
  | _ => exact executing_finished hpc h

theorem execList_passed {rest : List Stmt} (hpc : act.pc = some p) (h : t.after i ≤ p) :
    execList env t i (s :: rest) (act, m) = execList env t (t.after i) rest (act, m) := by
  rw [execList]
  change EStateM.bind (exec env t i s) _ (act, m) = _
  rw [EStateM.bind, exec_finished hpc h]

/-! ## Parts -/

theorem entering_of_mem {j : Nat} (hlo : j ≤ p) (hhi : p < t.after j) :
    entering t (some p) j = true :=
  IndexedTree.contains_iff.2 ⟨hlo, hhi⟩

theorem entering_of_lt {j : Nat} (h : p < j) : entering t (some p) j = false := by
  rw [entering, Bool.eq_false_iff]
  exact fun hc => absurd (IndexedTree.contains_iff.1 hc).1 (Nat.not_le.2 h)

theorem entering_of_le {j : Nat} (h : t.after j ≤ p) : entering t (some p) j = false := by
  rw [entering, Bool.eq_false_iff]
  exact fun hc => absurd (IndexedTree.contains_iff.1 hc).2 (Nat.not_lt.2 h)

end Resumption.Stepper
