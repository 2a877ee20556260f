import Resumption.Proofs.Match.Names

/-!
# Walking without a position to get back to

A walk that has no position to get back to enters every node, and nobody halts it.  What is left of
a node is its body and the books about it.
-/

namespace Resumption.Stepper

open Script ActM

variable {α β γ : Type} {T : Terms} {S : Stance} {w : World} {env env' : Env} {t : IndexedTree}
  {i : Nat} {R : World → α → β → Prop}

/-! ## Steps that do nothing -/

/-- On the left a step does nothing if there is no position to get back to. -/
theorem skip_left {y : ActM γ} {c : γ} {f : γ → ActM α} {x' : ActM β}
    (hy : ∀ act m, act.pc = none → y (act, m) = .ok c (act, m))
    (h : ASim T S w (f c) x' R) : ASim T S w (y >>= f) x' R := by
  rintro ⟨act, m⟩ s' ⟨hact, hm⟩
  change Ends T _ w R (EStateM.bind y f (act, m)) _
  rw [EStateM.bind, hy act m hact.pc.1]
  exact h (act, m) s' ⟨hact, hm⟩

/-- On the right a step does nothing if there is no position to get back to and no hook. -/
theorem skip_right {y' : ActM γ} {c : γ} {x : ActM α} {f' : γ → ActM β}
    (hy : ∀ act m, act.pc = none → m.hook = none → y' (act, m) = .ok c (act, m))
    (h : ASim T S w x (f' c) R) : ASim T S w x (y' >>= f') R := by
  rintro s ⟨act', m'⟩ ⟨hact, hm⟩
  change Ends T _ w R _ (EStateM.bind y' f' (act', m'))
  rw [EStateM.bind, hy act' m' hact.pc.2 hm.unhooked]
  exact h s (act', m') ⟨hact, hm⟩

theorem resumeState_fresh (t : IndexedTree) (i : Nat) {act : Activation} (m : Machine)
    (hpc : act.pc = none) : resumeState t i (act, m) = .ok .fresh (act, m) := by
  cases act
  cases hpc
  rfl

/-- Nobody is asked. -/
theorem shouldHalt_unasked {moment : Moment} {m : Machine} (h : m.debugging = false ∨ m.hook = none) :
    Machine.shouldHalt moment m = .ok false m := by
  cases hdebugging : m.debugging with
  | false =>
      cases m
      cases hdebugging
      rfl
  | true =>
      have hhook : m.hook = none := h.resolve_left (by rw [hdebugging]; exact Bool.noConfusion)
      cases m
      cases hdebugging
      cases hhook
      rfl

/-- Nobody halts where there is no hook. -/
theorem haltCheck_unhooked (env : Env) (t : IndexedTree) (i : Nat) (s : Stmt) (act : Activation)
    {m : Machine} (h : m.hook = none) : haltCheck env t i s (act, m) = .ok () (act, m) := by
  have hidle : Machine.shouldHalt ⟨t.ns, i, s⟩ (m.suspend act) = .ok false (m.suspend act) :=
    shouldHalt_unasked (m := m.suspend act) (.inr h)
  have hask : lift (Machine.shouldHalt ⟨t.ns, i, s⟩) (act, m) = .ok false (act, m) := by
    rw [lift, hidle]
    rfl
  unfold haltCheck
  split
  · change EStateM.bind (lift (Machine.shouldHalt ⟨t.ns, i, s⟩)) _ (act, m) = _
    rw [EStateM.bind, hask]
    rfl
  · rfl

/-! ## Expressions -/

theorem keepBooks_books {K : Cache → Prop} (hi : Vacant K i) (env : Env) (e : Expr) (v : Value) :
    Bookkeeping K (keepBooks env i e v) := by
  unfold keepBooks
  split
  · exact record_books hi env v
  · exact record_books hi env v
  · exact (record_books hi env v).seq (mark_books env i)
  · exact .pure

/-- The right walks a node, and on the left its result goes into the books somehow. -/
theorem evaluating_kept {e : Expr} {x : ActM Value} {y : Value → ActM Unit}
    {body : Option Nat → ActM Value} (hy : ∀ v, Bookkeeping S.books (y v))
    (heven : T.pauses = .together → ∀ v, keepBooks env' i e v = y v)
    (h : ASim T S w x (body none) Valued) :
    ASim T S w (x >>= fun v => y v >>= fun _ => pure v) (evaluating env' t i e body) Valued :=
  skip_right (fun _ m hpc _ => resumeState_fresh t i m hpc)
    (kept_sim (fun _ _ _ hv => hv.1) hy (fun v => keepBooks_books (.any i) env' e v) heven h)

theorem evaluating_sim {e : Expr} {body body' : Option Nat → ActM Value}
    (henv : env.Match T w env') (hi : Vacant S.books i)
    (h : ASim T S w (body none) (body' none) Valued) :
    ASim T S w (evaluating env t i e body) (evaluating env' t i e body') Valued := by
  refine skip_left (fun _ m hpc => resumeState_fresh t i m hpc)
    (evaluating_kept (fun v => keepBooks_books hi env e v) (fun hT v => ?_) h)
  rw [keepBooks, keepBooks]
  simp only [record_even henv hT, mark_even henv hT]

/-- Nothing is recorded about the node. -/
theorem evaluating_unrecorded {e : Expr} {body body' : Option Nat → ActM Value}
    (he : (Node.expr e).recording = .none) (h : ASim T S w (body none) (body' none) Valued) :
    ASim T S w (evaluating env t i e body) (evaluating env' t i e body') Valued := by
  have hkept : ASim T S w (body none >>= fun v => keepBooks env i e v >>= fun _ => pure v)
      (evaluating env' t i e body') Valued := by
    refine evaluating_kept (fun v => ?_) (fun _ v => ?_) h
    · rw [keepBooks, he]
      exact .pure
    · rw [keepBooks, keepBooks, he]
  exact skip_left (fun _ m hpc => resumeState_fresh t i m hpc) hkept

/-- On the left nothing is recorded about the node. -/
theorem evaluating_right {e : Expr} {x : ActM Value} {body : Option Nat → ActM Value}
    (he : (Node.expr e).recording = .none) (h : ASim T S w x (body none) Valued) :
    ASim T S w x (evaluating env' t i e body) Valued := by
  have hkept : ASim T S w (x >>= fun v => pure () >>= fun _ => pure v) (evaluating env' t i e body)
      Valued :=
    evaluating_kept (fun _ => .pure) (fun _ v => by rw [keepBooks, he]) h
  simpa only [pure_bind, bind_pure] using hkept

/-- The left records the result of the node. -/
theorem evaluating_recorded {e : Expr} {x : ActM Value} {body : Option Nat → ActM Value}
    (henv : env.Match T w env') (hi : Vacant S.books i)
    (he : (Node.expr e).recording = .before ∨ (Node.expr e).recording = .store)
    (h : ASim T S w x (body none) Valued) :
    ASim T S w (recorded env i x) (evaluating env' t i e body) Valued := by
  refine evaluating_kept (fun v => record_books hi env v) (fun hT v => ?_) h
  rw [keepBooks, ← record_even henv hT]
  rcases he with he | he <;> rw [he]

/-- The left records the result of the node, and then the marker moves. -/
theorem evaluating_marked {e : Expr} {x : ActM Value} {body : Option Nat → ActM Value}
    (henv : env.Match T w env') (hi : Vacant S.books i) (he : (Node.expr e).recording = .after)
    (h : ASim T S w x (body none) Valued) :
    ASim T S w (do
      let v ← x
      record env i v
      mark env i
      return v) (evaluating env' t i e body) Valued := by
  have hkept : ASim T S w (x >>= fun v => (record env i v >>= fun _ => mark env i) >>= fun _ => pure v)
      (evaluating env' t i e body) Valued :=
    evaluating_kept (fun v => (record_books hi env v).seq (mark_books env i)) (fun hT v => by
      rw [keepBooks, he, record_even henv hT, mark_even henv hT]) h
  simpa only [bind_assoc] using hkept

/-! ## Statements -/

/-- Nothing is entered when there is no position to get back to. -/
@[simp] theorem entering_none (t : IndexedTree) (i : Nat) : entering t none i = false := rfl

@[simp] theorem reached_none (i : Nat) : reached none i = false := rfl

end Resumption.Stepper
