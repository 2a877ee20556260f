import Resumption.Proofs.Match.Instrumentation
import Resumption.Proofs.Match.Waiting

/-!
# Calls in their places

Where calls stand alone, a call is a whole expression, or its result is written to a variable or to an
element.  Its operands run alike.  If it is paused, its function is taken up behind the operands, and goes
on with the result.
-/

namespace Resumption

open Script

variable {T : Terms} {D : Unwind → World → Machine → Value → Machine → Prop} {s : Manner} {t : IndexedTree} {S : Stance} {w w' : World} {c : Chain}
  {env env' env₂ : Env} {i lo hi fuel : Nat} {m m' mid : Machine} {u : Unwind} {v : Value}

theorem Awaiting.reach (hw : w.Reaches w') (h : Awaiting T fuel S w c env env') :
    Awaiting T fuel S w' c env env' :=
  { h with building := hw.building.trans h.building }

/-- The calls of a function get replies, as long as it has not been paused and once it has been taken
up. -/
structure Answered (T : Terms) (fuel : Nat) (env env₂ env' : Env) : Prop where
  solo : T.solo = true
  spared : T.spared = none
  first : env.invoke.Replies T fuel env'.invoke
  again : env₂.invoke.Replies T fuel env'.invoke

/-- Where a call may stand nobody asks for the arguments. -/
theorem Chased.not_args (h : Chased T s t S w c env env₂ env') (hsolo : T.solo = true) (hs : s ≠ .free)
    (hown : s ≠ .own) : ¬ S.args := by
  refine h.bare ?_
  cases s with
  | free => exact absurd rfl hs
  | script => exact .inr (.inr ⟨rfl, hsolo⟩)
  | own => exact absurd rfl hown
  | apart => exact .inr (.inl rfl)
  | top => exact .inl rfl

theorem Chased.awaiting (h : Chased T s t S w c env env₂ env') (ha : Answered T fuel env env₂ env')
    (hargs : ¬ S.args) :
    Awaiting T fuel S w c env env' ∧ Awaiting T fuel S w c env₂ env' := by
  have hpausing : S.Pausing T := ⟨(h.dooms ha.solo).1, hargs⟩
  have hsorted := (h.walked hpausing).sorted ha.solo
  have hbuilding := h.scene.envs.building
  exact ⟨⟨ha.solo, ha.spared, hpausing, h.scene.chain, hsorted, h.records hargs, hbuilding, ha.first⟩,
    ha.solo, ha.spared, hpausing, h.scene.chain, hsorted, h.envs.records₂ hpausing, hbuilding, ha.again⟩

/-- The operands of a call. -/
theorem Placed.operands {callee : Expr} {args : List Expr}
    (h : Placed T s t S.books i (.expr (.call callee args))) (hs : T.solo = true → s ≠ .free) :
    t.Along (Calmly T s t S.books) (i + 1) (Node.expr callee :: Node.ofExprs args) :=
  h.calm_children hs rfl rfl rfl

namespace Stepper

open ActM

/-! ## Nodes -/

section

variable {e : Expr} {body : Option Nat → ActM Value} {act : Activation} {p : Nat}

/-- The result of a node goes into the books. -/
def kept (env : Env) (i : Nat) (e : Expr) (v : Value) : ActM Value := do
  keepBooks env i e v
  return v

theorem evaluating_apply {state : Resume} {act₁ : Activation} {m₁ : Machine}
    (h : resumeState t i (act, m) = .ok state (act₁, m₁)) :
    evaluating env t i e body (act, m) =
      match state.result? with
      | some v => .ok v (act₁, m₁)
      | none => (body state.entry >>= kept env i e) (act₁, m₁) := by
  unfold evaluating
  rw [bind_apply, h]
  dsimp only [andThen]
  cases state.result? <;> rfl

theorem evaluating_fresh (hpc : act.pc = none) :
    evaluating env t i e body (act, m) = (body none >>= kept env i e) (act, m) :=
  evaluating_apply (resumeState_fresh t i m hpc)

theorem evaluating_inside (hpc : act.pc = some p) (hlo : i < p) (hhi : p < t.after i) :
    evaluating env t i e body (act, m) = (body (some p) >>= kept env i e) (act, m) :=
  evaluating_apply (resumeState_inside hpc hlo hhi)

/-- What was waited for is there. -/
theorem evaluating_here (hpc : act.pc = some i) (hcached : act.cache.get? i = some v) :
    evaluating env t i e body (act, m) = .ok v ({ act with pc := none }, m) := by
  rw [evaluating_apply (resumeState_here hpc)]
  simp only [Resume.result?, hcached]

/-- Nothing goes into the books about the node. -/
theorem kept_of_unrecorded (env : Env) (i : Nat) (h : (Node.expr e).recording = .none) :
    kept env i e = pure := by
  funext v
  unfold kept keepBooks
  rw [h]
  rfl

theorem evaluating_fresh_unrecorded (hpc : act.pc = none) (h : (Node.expr e).recording = .none) :
    evaluating env t i e body (act, m) = body none (act, m) := by
  rw [evaluating_fresh hpc, kept_of_unrecorded env i h, bind_pure]

/-- The node was finished, and nothing is stored about it. -/
theorem evaluating_anew (hpc : act.pc = some p) (h : t.after i ≤ p) (hcached : act.cache.get? i = none) :
    evaluating env t i e body (act, m) = (body none >>= kept env i e) (act, m) := by
  rw [evaluating_apply (resumeState_finished hpc h)]
  simp only [Resume.result?, hcached, Resume.entry]

end

/-! ## Calls -/

/-- The function to call with its receiver, and what it is given. -/
def operands (env : Env) (t : IndexedTree) (i : Nat) (callee : Expr) (args : List Expr) :
    ActM ((Value × Value) × List Value) := do
  let f ← calleeOf env callee.isProperty (evalSpot env t (i + 1) callee) (eval env t (i + 1) callee)
  let vs ← evalList env t (t.after (i + 1)) args
  return (f, vs)

/-- Scripts may have them. -/
abbrev Handed : World → (Value × Value) × List Value → (Value × Value) × List Value → Prop :=
  Same fun w p => p.1.1.Shown w ∧ p.1.2.Shown w ∧ ∀ v ∈ p.2, v.Shown w

variable {callee : Expr} {args : List Expr}

theorem eval_call_fresh {act : Activation} (hpc : act.pc = none) :
    eval env t i (.call callee args) (act, m) =
      (operands env t i callee args >>= fun p =>
        recorded env i (callAt env i (describe callee) p.1.1 p.1.2 p.2)) (act, m) := by
  rw [eval, evaluating_fresh hpc]
  simp only [operands, recorded, bind_assoc, pure_bind]
  rfl

theorem operands_sim (h : Walked T s t S w c env env')
    (hparts : t.Along (Calmly T s t S.books) (i + 1) (Node.expr callee :: Node.ofExprs args)) :
    ASim T S w (operands env t i callee args) (operands env' t i callee args) Handed := by
  obtain ⟨hcallee, hargs⟩ := hparts
  refine .bind (calleeOf_sim h.toScene (evalSpot_sim h (i + 1) callee hcallee)
    (eval_sim h (i + 1) callee hcallee)) fun w₁ hw₁ p hp => ?_
  refine .bind (evalList_sim (h.mono hw₁) _ args hargs) fun w₂ hw₂ vs hvs => .pure ⟨rfl, ?_⟩
  exact ⟨hp.1.mono hw₂.roles, hp.2.mono hw₂.roles, hvs⟩

/-- A call whose operands run alike. -/
theorem call_follows (h : Awaiting T fuel S w c env env')
    (hvacant : Vacant S.books i) {x : ActM ((Value × Value) × List Value)} {X : ActM Value}
    (hx : ASim T S w x (operands env' t i callee args) Handed)
    (hX : ∀ s, s.1.pc = none → X s = (x >>= fun p =>
      recorded env i (callAt env i (describe callee) p.1.1 p.1.2 p.2)) s) :
    Follows T (Fulfils T fuel) S c i (t.after i) w X (eval env₂ t i (.call callee args))
      (eval env' t i (.call callee args)) Valued := by
  have htogether := h.pausing.not_together
  rintro ⟨act, m⟩ ⟨act', m'⟩ hs
  rw [hX _ hs.1.pc.1, eval_call_fresh hs.1.pc.2]
  refine hx.bind_follows (fun _ _ _ => id) (fun w₁ hw₁ p p' hp s s' hs => ?_) _ _ hs
  obtain ⟨rfl, hf, hthis, hargs⟩ := hp
  refine callAt_pursues (k := fun v => record env i v >>= fun _ => pure v) (g := pure)
    (l := fun v => record env' i v >>= fun _ => pure v) (h.reach hw₁.reaches) hvacant (Nat.le_refl i)
    (t.lt_after i) hf hthis hargs hs (fun v _ => (record_obeyed env' i v).bind fun _ => .pure _) ?_ ?_ ?_
  · intro w₂ _ v hv
    exact both_sim (record_books hvacant env v) (record_books (.any i) env' v)
      (fun heven => absurd heven htogether) (.pure ⟨rfl, hv⟩)
  · intro w₂ _ v hv
    exact right_sim htogether (record_books (.any i) env' v) (.pure ⟨rfl, hv⟩)
  · intro w₂ v act m mid _ _ _ _ hpc _ _ hcached
    exact evaluating_here hpc hcached

theorem call_chases (h : Chased T s t S w c env env₂ env') (ha : Answered T fuel env env₂ env')
    (hs : s ≠ .free) (hplaced : Placed T s t S.books i (.expr (.call callee args)))
    {x : ActM ((Value × Value) × List Value)} {X : ActM Value}
    (hx : ∀ w', w.Reaches w' → ASim T S w' x (operands env' t i callee args) Handed)
    (hX : ∀ s, s.1.pc = none → X s = (x >>= fun p =>
      recorded env i (callAt env i (describe callee) p.1.1 p.1.2 p.2)) s) :
    EvalChases T (Fulfils T fuel) t S w c env₂ env' i (.call callee args) X := by
  have hown : s ≠ .own := (hplaced.fair.admits.resolve_left hs).2 ha.solo
  obtain ⟨hfirst, hagain⟩ := h.awaiting ha (h.not_args ha.solo hs hown)
  refine fun w' hw' => ⟨call_follows (hfirst.reach hw') (hplaced.vacant rfl) (hx w' hw') hX,
    fun hpausing => call_follows (hagain.reach hw') (hplaced.vacant rfl) ?_ fun s hpc =>
      eval_call_fresh (m := s.2) hpc⟩
  exact operands_sim ((h.walked hpausing).reach hw') (hplaced.operands fun _ => hs)

/-! ## Results that are kept -/

/-- The result of an assignment, once it has been written. -/
def assigned (env : Env) (i : Nat) (write : Value → ActM Unit) (v : Value) : ActM Value := do
  write v
  record env i v
  mark env i
  return v

theorem assigned_sim {write write' : Value → ActM Unit} (henv : env.Match T w env')
    (hvacant : Vacant S.books i) (hv : v.Shown w) (hwrite : ASim T S w (write v) (write' v) Equal) :
    ASim T S w (assigned env i write v) (assigned env' i write' v) Valued :=
  .bind hwrite fun _ hw₁ _ _ =>
    both_sim (record_books hvacant env v) (record_books (.any i) env' v)
      (fun hT => record_even (henv.mono hw₁) hT i v)
      (both_sim (mark_books env i) (mark_books env' i) (fun hT => mark_even (henv.mono hw₁) hT i)
        (.pure ⟨rfl, hv.mono hw₁.roles⟩))

theorem keepBooks_assign (env : Env) (i : Nat) (op : Option BinaryOp) (target value : Expr) (v : Value) :
    keepBooks env i (.assign op target value) v = record env i v >>= fun _ => mark env i := rfl

variable {name : String} {target value : Expr}

theorem eval_assign_fresh {act : Activation} (hpc : act.pc = none) :
    eval env t i (.assign none target value) (act, m) =
      (evalSpot env t (i + 1) target >>= fun spot =>
        eval env t (t.after (i + 1)) value >>= assigned env i (writeSpot env spot)) (act, m) := by
  rw [eval, evaluating_fresh hpc]
  simp only [assigning, kept, keepBooks_assign, bind_assoc, pure_bind]
  rfl

theorem eval_assign_inside {act : Activation} {p : Nat} (hpc : act.pc = some p) (hlo : i < p)
    (hhi : p < t.after i) :
    eval env t i (.assign none target value) (act, m) =
      (evalSpot env t (i + 1) target >>= fun spot =>
        eval env t (t.after (i + 1)) value >>= assigned env i (writeSpot env spot)) (act, m) := by
  rw [eval, evaluating_inside hpc hlo hhi]
  simp only [assigning, kept, keepBooks_assign, bind_assoc, pure_bind]
  rfl

theorem eval_assignName_fresh {act : Activation} (hpc : act.pc = none) :
    eval env t i (.assign none (.ident name) value) (act, m) =
      (eval env t (t.after (i + 1)) value >>= assigned env i (assignName env name)) (act, m) := by
  rw [eval_assign_fresh hpc, evalSpot]
  rfl

theorem eval_assignName_inside {act : Activation} {p : Nat} (hpc : act.pc = some p) (hlo : i < p)
    (hhi : p < t.after i) :
    eval env t i (.assign none (.ident name) value) (act, m) =
      (eval env t (t.after (i + 1)) value >>= assigned env i (assignName env name)) (act, m) := by
  rw [eval_assign_inside hpc hlo hhi, evalSpot]
  rfl

/-- What a call comes to is written to a variable. -/
theorem assignName_chases (h : Chased T s t S w c env env₂ env')
    (hplaced : Placed T s t S.books i (.expr (.assign none (.ident name) value)))
    {x X : ActM Value} {write : Value → ActM Unit}
    (hx : EvalChases T D t S w c env₂ env' (t.after (i + 1)) value x)
    (hX : ∀ s, s.1.pc = none → X s = (x >>= assigned env i write) s)
    (hwrite : ∀ w', w.Reaches w' → ∀ v, v.Shown w' → (∀ n, value = .num n → v = .num n) →
      ASim T S w' (write v) (assignName env' name v) Equal) :
    EvalChases T D t S w c env₂ env' i (.assign none (.ident name) value) X := by
  have hafter : t.after i = t.after (t.after (i + 1)) := hplaced.stands.after_eq
  have hlt := t.lt_after (i + 1)
  suffices hassigned : Chases T D S c i (t.after i) w (x >>= assigned env i write)
      (eval env₂ t (t.after (i + 1)) value >>= assigned env₂ i (assignName env₂ name))
      (eval env₂ t i (.assign none (.ident name) value))
      (eval env' t (t.after (i + 1)) value >>= assigned env' i (assignName env' name)) Valued from
    hassigned.congr (fun _ s _ hs => hX s hs.1.pc.1) (fun _ _ s _ hs => eval_assignName_fresh (m := s.2) hs.1.pc.1)
      fun _ _ s' hs => eval_assignName_fresh (m := s'.2) hs.1.pc.2
  have hcounted := hx.and (Q := fun v => ∀ x, value = .num x → v = .num x) fun _ _ s' v _ hs hv x hx =>
    eval_num hs.1.pc.2 (hx ▸ hv)
  refine hcounted.bind (by omega) (Nat.le_of_eq hafter.symm)
    (.here fun _ _ _ _ _ p _ _ hp hp' hpc _ _ => ?_) (fun v hsolo => ?_) fun w₁ hw₁ v v' hv => ?_
  · rw [eval_assignName_inside hpc (by omega) (by omega)]
    exact bind_apply _ _ _
  · exact (assignName_obeyed (h.counts hsolo) name _).bind fun _ =>
      (record_obeyed env' i _).bind fun _ => (mark_obeyed env' i).bind fun _ => .pure _
  · obtain ⟨⟨rfl, hv⟩, hnum⟩ := hv
    refine .of_sim (fun w' hw' => ?_) fun hpausing w' hw' => ?_
    · exact assigned_sim (h.envs.first.reach (hw₁.trans hw')) (hplaced.vacant rfl) (hv.mono hw'.roles)
        (hwrite w' (hw₁.trans hw') _ (hv.mono hw'.roles) hnum)
    · have hwalked := (h.walked hpausing).reach (hw₁.trans hw')
      exact assigned_sim hwalked.envs (hplaced.vacant rfl) (hv.mono hw'.roles)
        (assignName_sim hwalked.toScene name (hv.mono hw'.roles)
          (hplaced.fair.keepsCount.suits hwalked.sound (fun _ => hnum) name rfl))

end Stepper

end Resumption
