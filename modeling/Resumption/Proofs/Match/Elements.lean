import Resumption.Proofs.Match.Seats

/-!
# Results that are written to elements

Where no scopes are made, the result of a call may be written to an element of an array.  The array and the
count by which the element is found are looked up again when the function is taken up.  They are the same
then, for nobody else gets hold of the record that they are in: neither the operands of the call nor the
function that was called have changed it.
-/

namespace Resumption

open Script

variable {T : Terms} {s : Manner} {t : IndexedTree} {S : Stance} {w w' : World} {c : Chain}
  {env env' env₂ : Env} {i lo hi fuel : Nat} {m m' mid : Machine} {u : Unwind} {v : Value}

theorem World.Keeps.refl (w : World) (m : Machine) : w.Keeps m m := fun _ _ _ => rfl

theorem World.Keeps.trans (hw : w.roles <+: w'.roles) (h : w.Keeps m m') (h' : w'.Keeps m' mid) :
    w.Keeps m mid := fun a names ha =>
  (h' a names (World.role?_mono hw ha)).trans (h a names ha)

/-! ## Reading leaves records as they are -/

/-- The computation on the right leaves records as they are that nobody else gets hold of. -/
def Leaves {α : Type} (T : Terms) (S : Stance) (w : World) (x' : ActM α) : Prop :=
  ∀ s s', (Activation.tie T S).holds w s s' → ∀ v s₁', x' s' = .ok v s₁' → w.Keeps s'.2 s₁'.2

namespace Leaves

variable {α α' β : Type} {x : ActM α} {x' : ActM α'} {R : World → α → α' → Prop}

theorem pure (a : α) : Leaves T S w (Pure.pure a) := by
  rintro s s' - v s₁' hrun
  cases hrun
  exact .refl w s'.2

/-- Where it starts, the computation is another one. -/
theorem congr {X' : ActM α'} (h : Leaves T S w x') (hX : ∀ s, s.1.pc = none → X' s = x' s) :
    Leaves T S w X' := fun s s' hs v s₁' hrun =>
  h s s' hs v s₁' ((hX s' hs.1.pc.2).symm.trans hrun)

theorem bind {f' : α' → ActM β} (hspared : T.spared = none) (hx : ASim T S w x x' R)
    (h : Leaves T S w x') (hf : ∀ w₁, w ≤ w₁ → ∀ a a', R w₁ a a' → Leaves T S w₁ (f' a')) :
    Leaves T S w (x' >>= f') := by
  intro s s' hs v s₂' hrun
  rw [bind_apply] at hrun
  have hends := hx s s' hs
  cases hfirst : x' s' with
  | error e s₁' =>
      rw [hfirst] at hrun
      cases hrun
  | ok a' s₁' =>
      rw [hfirst] at hrun hends
      have hkeeps := h s s' hs a' s₁' hfirst
      revert hends
      generalize x s = r
      rintro (⟨w₁, hw₁, hs₁, hR⟩ | _ | _ | _ | hstrays)
      · exact hkeeps.trans hw₁.roles (hf w₁ hw₁ _ _ hR _ _ hs₁ v s₂' hrun)
      · exact absurd hstrays (T.not_strays hspared _)

/-- What runs alike where a record has to stay as it is leaves it as it is. -/
theorem lift {x : MachineM α} {x' : MachineM α'} (hspared : T.spared = none)
    (h : ∀ a names, w.role? a = some (.scope names false) → ∀ o, MSim T (w.sealed a o) x x' R) :
    Leaves T S w (ActM.lift x') := by
  rintro ⟨act, m⟩ ⟨act', m'⟩ hs v s₁' hrun a names ha
  have hm : m.Match T w m' := hs.2
  rw [ActM.lift_apply] at hrun
  have hends := h a names ha (m.heap.object a) _ _ ((hm.suspend act act').sealed ha)
  cases hright : x' (m'.suspend act') with
  | error e m₁' =>
      rw [hright] at hrun
      cases hrun
  | ok v' m₁' =>
      rw [hright] at hrun hends
      cases hrun
      revert hends
      generalize x (m.suspend act) = r
      rintro (⟨w₁, hw₁, hm₁, -⟩ | _ | _ | _ | hstrays)
      · exact hm₁.preserves ha hm hw₁.roles
      · exact absurd hstrays (T.not_strays hspared _)

end Leaves

theorem Machine.getProperty_leaves (hsolo : T.solo = true) (hspared : T.spared = none)
    (hw : w.building = none) (hv : v.Shown w) (invoke : Invoke) (key : String) :
    Leaves T S w (ActM.lift (getProperty invoke v key)) :=
  .lift (x := getProperty invoke v key) hspared fun a _ ha o =>
    getProperty_sim (w := w.sealed a o) (fun h => by rw [hsolo] at h; cases h) hw (hv.sealed ha) key

namespace Stepper

open ActM

theorem lookup_leaves (hsolo : T.solo = true) (hspared : T.spared = none) (h : Scene T S w c env env')
    {name : String} (hname : name ≠ argumentsName) : Leaves T S w (lookup env' name) := by
  have hbuilding := h.envs.building
  have hfree : T.solo = false → env'.invoke.Alike T env'.invoke := fun h => by
    rw [hsolo] at h
    cases h
  rw [lookup_of_ne hname]
  rintro ⟨act, m⟩ ⟨act', m'⟩ hs
  have hm : m.Match T w m' := hs.2
  have hchain : act'.chain = c := (hs.1.chain c h.chain).2
  rw [recordOf?_bind, hchain, hm.heap.alike.recordOf?]
  cases hrecord : Chain.recordOf? m.heap name c with
  | none =>
      exact Leaves.lift (x := Machine.readGlobal env'.invoke name) hspared (fun a _ _ o =>
        Machine.readGlobal_sim (w := w.sealed a o) hfree hbuilding name) (act, m) (act', m') hs
  | some a =>
      rcases h.live.recordOf? hm.heap hrecord with ha | ⟨names, shared, ha, hmem, -⟩
      · exact Machine.getProperty_leaves hsolo hspared hbuilding (show (Value.object a).Shown w from ha)
          env'.invoke name (act, m) (act', m') hs
      · obtain ⟨v, hfind, -, harray⟩ := Machine.find?_of_mem hm.heap hbuilding ha hmem
        have hread : Machine.getProperty env'.invoke (.object a) name (m'.suspend act') =
            .ok v (m'.suspend act') :=
          Machine.getProperty_data (((hm.heap.alike.object a).isArray).trans harray)
            ((hm.heap.alike.find? name a).trans hfind)
        intro v' s₁' hrun
        have hlift : lift (Machine.getProperty env'.invoke (.object a) name) (act', m') =
            .ok v (act', m') := by
          rw [lift_apply, hread]
          rfl
        cases hlift.symm.trans hrun
        exact .refl w m'

/-- A function that makes no scopes reads. -/
structure Reading (T : Terms) (s : Manner) (t : IndexedTree) (S : Stance) (w : World) (c : Chain)
    (env env' : Env) : Prop extends Walked T s t S w c env env' where
  solo : T.solo = true
  spared : T.spared = none
  manner : s = .apart

theorem Reading.mono (hw : w ≤ w') (h : Reading T s t S w c env env') : Reading T s t S w' c env env' :=
  { h with toWalked := h.toWalked.mono hw }

theorem text_leaves (hspared : T.spared = none) (v : Value) :
    Leaves T S w (lift (Machine.text v)) :=
  .lift (x := Machine.text v) hspared fun a _ _ o => Machine.text_sim (w := w.sealed a o) v

theorem eval_ident_leaves (h : Reading T s t S w c env env') {name : String} {K : Cache → Prop}
    (hplaced : Calmly T s t K i (.expr (.ident name))) :
    Leaves T S w (eval env' t i (.ident name)) := by
  have hname : name ≠ argumentsName := fun hname => by
    have hown := (hplaced.fair.admits.resolve_left (hplaced.calm h.solo).1) hname
    rw [h.manner] at hown
    cases hown
  exact (lookup_leaves h.solo h.spared h.toScene hname).congr fun s hpc =>
    evaluating_fresh_unrecorded (m := s.2) hpc rfl

theorem getProperty_leaves (h : Reading T s t S w c env env') (hw : w ≤ w') (hv : v.Shown w')
    (key : String) : Leaves T S w' (lift (Machine.getProperty env'.invoke v key)) :=
  Machine.getProperty_leaves h.solo h.spared (hw.building.trans h.envs.building) hv env'.invoke key

theorem evalSpot_leaves (h : Reading T s t S w c env env') {e : Expr} (he : e.isRead = true)
    (hplaced : Calmly T s t S.books i (.expr e)) : Leaves T S w (evalSpot env' t i e) := by
  unfold Expr.isRead at he
  split at he
  · exact .pure _
  · have hobject := (hplaced.children rfl).1
    exact .bind h.spared (eval_sim h.toWalked _ _ hobject) (eval_ident_leaves h hobject) fun _ _ _ _ _ =>
      .pure _
  · obtain ⟨hobject, hkey, -⟩ := hplaced.children rfl
    refine .bind h.spared (eval_sim h.toWalked _ _ hobject) (eval_ident_leaves h hobject) fun w₁ hw₁ _ _ _ => ?_
    refine .bind h.spared (eval_sim (h.mono hw₁).toWalked _ _ hkey) (eval_ident_leaves (h.mono hw₁) hkey)
      fun w₂ hw₂ _ v _ => ?_
    exact .bind h.spared (lift_sim (Machine.text_sim v)) (text_leaves h.spared v) fun _ _ _ _ _ => .pure _
  · cases he

theorem eval_leaves (h : Reading T s t S w c env env') {e : Expr} (he : e.isRead = true)
    (hplaced : Calmly T s t S.books i (.expr e)) : Leaves T S w (eval env' t i e) := by
  unfold Expr.isRead at he
  split at he
  · exact eval_ident_leaves h hplaced
  · have hobject := (hplaced.children rfl).1
    refine .congr ?_ fun s hpc => evaluating_fresh_unrecorded (m := s.2) hpc rfl
    refine .bind h.spared (eval_sim h.toWalked _ _ hobject) (eval_ident_leaves h hobject) fun w₁ hw₁ _ _ ho => ?_
    obtain ⟨rfl, ho⟩ := ho
    exact getProperty_leaves h hw₁ ho _
  · obtain ⟨hobject, hkey, -⟩ := hplaced.children rfl
    refine .congr ?_ fun s hpc => evaluating_fresh_unrecorded (m := s.2) hpc rfl
    refine .bind h.spared (eval_sim h.toWalked _ _ hobject) (eval_ident_leaves h hobject) fun w₁ hw₁ _ _ ho => ?_
    obtain ⟨rfl, ho⟩ := ho
    refine .bind h.spared (eval_sim (h.mono hw₁).toWalked _ _ hkey) (eval_ident_leaves (h.mono hw₁) hkey)
      fun w₂ hw₂ _ v _ => ?_
    refine .bind h.spared (lift_sim (Machine.text_sim v)) (text_leaves h.spared v) fun w₃ hw₃ _ _ _ => ?_
    exact getProperty_leaves h (w.le_trans hw₁ (w₁.le_trans hw₂ hw₃)) (ho.mono (w₁.le_trans hw₂ hw₃).roles) _
  · cases he

theorem evalList_leaves (h : Reading T s t S w c env env') {l : List Expr} (hl : l.all Expr.isRead = true)
    (hplaced : t.Along (Calmly T s t S.books) i (Node.ofExprs l)) : Leaves T S w (evalList env' t i l) := by
  induction l generalizing i w with
  | nil => exact .pure _
  | cons e rest ih =>
      rw [List.all_cons, Bool.and_eq_true] at hl
      rw [evalList]
      refine .bind h.spared (eval_sim h.toWalked i e hplaced.1) (eval_leaves h hl.1 hplaced.1)
        fun w₁ hw₁ _ _ _ => ?_
      exact .bind h.spared (evalList_sim (h.mono hw₁).toWalked _ rest hplaced.2)
        (ih (h.mono hw₁) hl.2 hplaced.2) fun _ _ _ _ _ => .pure _

theorem operands_leaves {callee : Expr} {args : List Expr} (h : Reading T s t S w c env env')
    (hcall : (Expr.call callee args).callsRead = true)
    (hparts : t.Along (Calmly T s t S.books) (i + 1) (Node.expr callee :: Node.ofExprs args)) :
    Leaves T S w (operands env' t i callee args) := by
  rw [Expr.callsRead, Bool.and_eq_true] at hcall
  obtain ⟨hcallee, hargs⟩ := hparts
  refine .bind h.spared (calleeOf_sim h.toScene (evalSpot_sim h.toWalked (i + 1) callee hcallee)
    (eval_sim h.toWalked (i + 1) callee hcallee)) ?_ fun w₁ hw₁ _ _ _ => ?_
  · unfold calleeOf
    split
    · refine .bind h.spared (evalSpot_sim h.toWalked (i + 1) callee hcallee)
        (evalSpot_leaves h hcall.1 hcallee) fun w₁ hw₁ spot spot' hspot => ?_
      obtain ⟨rfl, hspot⟩ := hspot
      cases spot' with
      | name x =>
          exact .lift (x := Machine.typeError "invalid callee") h.spared fun a _ _ o =>
            Machine.typeError_sim (R := Same fun _ _ => True) (w := w₁.sealed a o) _
      | member object key =>
          refine .bind h.spared (lift_sim (Machine.getProperty_sim h.envs.invoke
            (hw₁.building.trans h.envs.building) hspot key)) (getProperty_leaves h hw₁ hspot key)
            fun _ _ _ _ _ => .pure _
    · exact .bind h.spared (eval_sim h.toWalked _ _ hcallee) (eval_leaves h hcall.1 hcallee)
        fun _ _ _ _ _ => .pure _
  · exact .bind h.spared (evalList_sim (h.mono hw₁).toWalked _ args hargs)
      (evalList_leaves (h.mono hw₁) hcall.2 hargs) fun _ _ _ _ _ => .pure _

/-! ## Finding an element again -/

section

variable {a : Address} {act : Activation} {name object key : String} {element count : Value}

/-- A variable in the record of the only scope is read. -/
theorem lookup_bound (env : Env) (hchain : act.chain = [⟨.function, a⟩])
    (harray : (m.heap.object a).isArray = false)
    (hslot : (m.heap.object a).own? name = some (.data v)) :
    lookup env name (act, m) = .ok v (act, m) := by
  have hbinds : Link.binds m.heap name ⟨.function, a⟩ = true := by
    rw [Link.binds, Object.hasOwn, hslot]
    rfl
  have hrecord : Chain.recordOf? m.heap name act.chain = some a := by
    rw [hchain, Chain.recordOf?, Chain.find?, hbinds]
    rfl
  have hfind : m.heap.find? name a = some (.data v) := by rw [Heap.find?, hslot]
  have hread : Machine.getProperty env.invoke (.object a) name (m.suspend act) = .ok v (m.suspend act) :=
    Machine.getProperty_data harray hfind
  unfold lookup
  rw [recordOf?_bind, hrecord]
  change lift (Machine.getProperty env.invoke (.object a) name) (act, m) = _
  rw [lift_apply, hread]
  rfl

/-- The name is looked up when the walk comes to it. -/
def Unread (t : IndexedTree) (act : Activation) (i : Nat) : Prop :=
  act.pc = none ∨ ∃ p, act.pc = some p ∧ t.after i ≤ p ∧ act.cache.get? i = none

theorem eval_ident_bound (env : Env) (hunread : Unread t act i) (hchain : act.chain = [⟨.function, a⟩])
    (harray : (m.heap.object a).isArray = false)
    (hslot : (m.heap.object a).own? name = some (.data v)) :
    eval env t i (.ident name) (act, m) = .ok v (act, m) := by
  rw [eval]
  rcases hunread with hpc | ⟨p, hpc, hp, hmissing⟩
  · rw [evaluating_fresh_unrecorded hpc rfl]
    exact lookup_bound env hchain harray hslot
  · rw [evaluating_anew hpc hp hmissing, kept_of_unrecorded env i rfl, bind_pure]
    exact lookup_bound env hchain harray hslot

/-- An element is found by what is in the record of the only scope. -/
theorem evalSpot_bound (env : Env) (hobject : Unread t act (i + 1)) (hkey : Unread t act (t.after (i + 1)))
    (hchain : act.chain = [⟨.function, a⟩]) (harray : (m.heap.object a).isArray = false)
    (helement : (m.heap.object a).own? object = some (.data element))
    (hcount : (m.heap.object a).own? key = some (.data count)) (hplain : count.Plain) :
    evalSpot env t i (.index (.ident object) (.ident key)) (act, m) =
      .ok (.member element (Heap.plainText count)) (act, m) := by
  have htext : lift (Machine.text count) (act, m) = .ok (Heap.plainText count) (act, m) := by
    cases count with
    | object b => exact hplain.elim
    | _ => rfl
  rw [evalSpot, bind_apply, eval_ident_bound env hobject hchain harray helement]
  change (eval env t (t.after (i + 1)) (.ident key) >>= fun v =>
    lift (Machine.text v) >>= fun k => pure (Spot.member element k)) (act, m) = _
  rw [bind_apply, eval_ident_bound env hkey hchain harray hcount]
  change (lift (Machine.text count) >>= fun k => pure (Spot.member element k)) (act, m) = _
  rw [bind_apply, htext]
  rfl

end

/-! ## Writing to an element -/

variable {target value callee : Expr} {args : List Expr}

/-- What the record of a function holds that makes no scopes. -/
structure Held (w : World) (a : Address) (name counter : String) (m : Machine) (element count : Value) :
    Prop where
  array : (m.heap.object a).isArray = false
  object : (m.heap.object a).own? name = some (.data element)
  key : (m.heap.object a).own? counter = some (.data count)
  shown : element.Shown w
  plain : count.Plain

section

variable {a : Address} {object key : String}

theorem Held.of_eq {element count : Value} (h : Held w a object key m element count)
    (heq : m'.heap.object a = m.heap.object a) : Held w a object key m' element count := by
  obtain ⟨harray, helement, hcount, hshown, hplain⟩ := h
  rw [← heq] at harray helement hcount
  exact ⟨harray, helement, hcount, hshown, hplain⟩

/-- An element that a call is written to is found by variables of the function. -/
theorem exists_held (h : Walked T s t S w c env env') (hsolo : T.solo = true) (hclosed : s.opens = false)
    (hat : t.At i (.expr (.assign none (.index (.ident object) (.ident counterName)) value)))
    (hvalue : value.isInvocation = true) (hm : m.Match T w m') :
    ∃ a names element count, c = [⟨.function, a⟩] ∧ w.role? a = some (.scope names false) ∧
      Held w a object counterName m' element count := by
  obtain ⟨a, names, hc, ha, hseeks⟩ := h.alone hclosed
  obtain ⟨hobject, hcounter⟩ := hseeks hsolo i object counterName value hat hvalue
  obtain ⟨hbinds, hcomplete⟩ := hm.heap.suits a _ ha
  have hsame := (hm.heap.alike.object a).eq_of_plain hbinds.kind
  have hbuilding := h.envs.building
  have hown : ∀ name ∈ names, ∃ v, (m'.heap.object a).own? name = some (.data v) ∧ v.Shown w ∧
      (name = counterName → v.Plain) := by
    intro name hname
    have hbound := hcomplete (by simp [hbuilding]) name hname
    rw [Object.hasOwn, hbinds.own?_eq] at hbound
    obtain ⟨slot, hslot⟩ := Option.isSome_iff_exists.1 hbound
    have hmem := Props.mem_of_get? hslot
    obtain ⟨v, hv, hshown⟩ := hbinds.data _ hmem
    cases hv
    refine ⟨v, by rw [hsame, hbinds.own?_eq, hslot], hshown, ?_⟩
    rintro rfl
    exact hbinds.count rfl v hmem
  obtain ⟨element, helement, hshown, -⟩ := hown object hobject
  obtain ⟨count, hcount, -, hplain⟩ := hown counterName hcounter
  refine ⟨a, names, element, count, hc, ha, ?_, helement, hcount, hshown, hplain rfl⟩
  rw [hsame, Object.isArray, Object.elements?, hbinds.kind]
  rfl

/-- What is on the left is the same. -/
theorem Held.left {names : List String} {element count : Value} (h : Held w a object key m' element count)
    (ha : w'.role? a = some (.scope names false)) (hm : m.Match T w' m') :
    Held w a object key m element count :=
  h.of_eq ((hm.heap.alike.object a).eq_of_plain (hm.heap.suits a _ ha).1.kind).symm

end

/-- A call whose result is written to an element. -/
theorem element_follows {ρ : Type} {object : String} (h : Awaiting T fuel S w c env env')
    (hreading : Reading T s t S w c env₂ env') (henv : env.Match T w env')
    (hplaced : Placed T s t S.books i
      (.expr (.assign none (.index (.ident object) (.ident counterName)) (.call callee args))))
    (hreads : (Expr.call callee args).callsRead = true)
    {xt : ActM ρ} {xo : ActM ((Value × Value) × List Value)} {write : ρ → Value → ActM Unit} {xv X : ActM Value}
    {Q : World → ρ → Spot → Prop}
    (hxt : ASim T S w xt (evalSpot env' t (i + 1) (.index (.ident object) (.ident counterName))) Q)
    (hxo : ∀ w', w ≤ w' → ASim T S w' xo (operands env' t (t.after (i + 1)) callee args) Handed)
    (hwrite : ∀ w₁ w', w₁ ≤ w' → w ≤ w₁ → ∀ spot spot', Q w₁ spot spot' → ∀ v, v.Shown w' →
      ASim T S w' (write spot v) (writeSpot env' spot' v) Equal)
    (hxv : ∀ s, s.1.pc = none → xv s = (xo >>= fun p =>
      recorded env (t.after (i + 1)) (callAt env (t.after (i + 1)) (describe callee) p.1.1 p.1.2 p.2)) s)
    (hX : ∀ s, s.1.pc = none → X s = (xt >>= fun spot => xv >>= assigned env i (write spot)) s) :
    Follows T (Fulfils T fuel) S c i (t.after i) w X
      (eval env₂ t i (.assign none (.index (.ident object) (.ident counterName)) (.call callee args)))
      (eval env' t i (.assign none (.index (.ident object) (.ident counterName)) (.call callee args)))
      Valued := by
  have htogether := h.pausing.not_together
  have hclosed : s.opens = false := by rw [hreading.manner]; rfl
  have hafter : t.after i = t.after (t.after (i + 1)) := hplaced.stands.after_eq
  have hlt := t.lt_after (i + 1)
  have hbehind := t.lt_after (t.after (i + 1))
  obtain ⟨htarget, hcall, -⟩ := hplaced.children rfl
  obtain ⟨hname, hcounter, -⟩ := htarget.children rfl
  have htargetAfter : t.after (i + 1) = t.after (t.after (i + 1 + 1)) := htarget.stands.after_eq
  have hcounterBehind := t.lt_after (t.after (i + 1 + 1))
  have hcalm := hcall.operands fun _ hfree => by cases hreading.manner.symm.trans hfree
  rintro ⟨act, m⟩ ⟨act', m'⟩ hs
  obtain ⟨a, names, element, count, rfl, ha, hheld⟩ :=
    exists_held hreading.toWalked h.solo hclosed hplaced.stands rfl hs.2
  have hchain' : act'.chain = [⟨.function, a⟩] := (hs.1.chain _ h.chain).2
  -- On the right the element is found at once, so that is where it is on the left.
  have hspot : evalSpot env' t (i + 1) (.index (.ident object) (.ident counterName)) (act', m') =
      .ok (.member element (Heap.plainText count)) (act', m') :=
    evalSpot_bound env' (.inl hs.1.pc.2) (.inl hs.1.pc.2) hchain' hheld.array hheld.object hheld.key hheld.plain
  have hfound := hxt _ _ hs
  rw [hX _ hs.1.pc.1, eval_assign_fresh hs.1.pc.2, bind_apply, bind_apply]
  rw [hspot] at hfound ⊢
  revert hfound
  generalize xt (act, m) = r
  rintro (⟨w₁, hw₁, hs₁, hQ⟩ | _ | _ | _ | hstrays)
  case strayed => exact absurd hstrays (T.not_strays h.spared _)
  rename_i spot s₁
  refine .of_le hw₁ ?_
  have hreading₁ := hreading.mono hw₁
  have hleft : (xv >>= assigned env i (write spot)) s₁ = (xo >>= fun p =>
      recorded env (t.after (i + 1)) (callAt env (t.after (i + 1)) (describe callee) p.1.1 p.1.2 p.2) >>=
        assigned env i (write spot)) s₁ := by
    rw [bind_apply, hxv _ hs₁.1.pc.1, ← bind_apply, bind_assoc]
  have hright : (eval env' t (t.after (i + 1)) (.call callee args) >>=
      assigned env' i (writeSpot env' (.member element (Heap.plainText count)))) (act', m') =
      (operands env' t (t.after (i + 1)) callee args >>= fun p =>
        recorded env' (t.after (i + 1)) (callAt env' (t.after (i + 1)) (describe callee) p.1.1 p.1.2 p.2) >>=
          assigned env' i (writeSpot env' (.member element (Heap.plainText count)))) (act', m') := by
    rw [bind_apply, eval_call_fresh hs₁.1.pc.2, ← bind_apply, bind_assoc]
  change Pursues T _ S _ i _ _ _ ((eval env' t (t.after (i + 1)) (.call callee args) >>= _) (act', m')) w₁
    ((xv >>= assigned env i (write spot)) s₁)
  rw [hleft, hright, bind_apply xo, bind_apply (operands env' t _ _ _)]
  have hends := hxo w₁ hw₁ _ _ hs₁
  have hleaves := operands_leaves hreading₁ hreads hcalm _ _ hs₁
  revert hends hleaves
  generalize xo s₁ = r
  generalize operands env' t (t.after (i + 1)) callee args (act', m') = r'
  rintro (⟨w₂, hw₂, hs₂, rfl, hf, hthis, hargs⟩ | ⟨hu, hthrown⟩ | _ | hloose | hstrays) hleaves
  · rename_i s₂ p s₂'
    have hle := w.le_trans hw₁ hw₂
    refine .of_le hw₂ ?_
    simp only [andThen, recorded, bind_assoc, pure_bind]
    refine callAt_pursues (k := fun v => record env (t.after (i + 1)) v >>= fun _ => assigned env i (write spot) v)
      (g := assigned env₂ i (writeSpot env₂ (.member element (Heap.plainText count))))
      (l := fun v => record env' (t.after (i + 1)) v >>= fun _ =>
        assigned env' i (writeSpot env' (.member element (Heap.plainText count))) v)
      (h.reach hle.reaches) (hcall.vacant rfl) (by omega) (by omega) hf hthis hargs hs₂ ?_ ?_ ?_ ?_
    · exact fun v hsolo => (record_obeyed env' _ v).bind fun _ =>
        (writeSpot_obeyed (henv.counts hsolo) _ v).bind fun _ => (record_obeyed env' i v).bind fun _ =>
          (mark_obeyed env' i).bind fun _ => .pure v
    · intro w₃ hw₃ v hv
      exact both_sim (record_books (hcall.vacant rfl) env v) (record_books (.any _) env' v)
        (fun heven => absurd heven htogether) (assigned_sim (henv.mono (w.le_trans hle hw₃))
          (hplaced.vacant rfl) hv (hwrite w₁ w₃ (w₁.le_trans hw₂ hw₃) hw₁ _ _ hQ v hv))
    · intro w₃ hw₃ v hv
      have hreading₃ := hreading.toWalked.reach (hle.reaches.trans hw₃)
      refine right_sim htogether (record_books (.any _) env' v) (assigned_sim hreading₃.envs
        (hplaced.vacant rfl) hv (writeSpot_sim (e := .index (.ident object) (.ident counterName))
          hreading₃.toScene ?_ hv (v.suits_index _ _ _)))
      exact hheld.shown.mono (hle.reaches.trans hw₃).roles
    · intro w₃ v act₃ m₃ mid₃ hw₃ hm₃ hkept hv hpc hchain hbooks hcached
      have hsame : mid₃.heap.object a = m'.heap.object a :=
        (hkept a names (World.role?_mono hle.roles ha)).trans
          (hleaves _ _ rfl a names (World.role?_mono hw₁.roles ha))
      have hreach := hle.reaches.trans hw₃
      have hheld₃ : Held w a object counterName m₃ element count :=
        (hheld.of_eq hsame).left (World.role?_mono hreach.roles ha) hm₃
      have hanew : ∀ {j name}, t.At j (.expr (.ident name)) → act₃.cache.get? j = none := fun hat =>
        hreading.anew h.solo hclosed _ hbooks _ (by rw [IndexedTree.isName, hat.node?]; rfl)
      rw [eval_assign_inside hpc (by omega) (by omega), bind_apply,
        evalSpot_bound env₂ (.inr ⟨_, hpc, ?_, hanew hname.stands⟩) (.inr ⟨_, hpc, ?_, hanew hcounter.stands⟩)
          hchain hheld₃.array hheld₃.object hheld₃.key hheld₃.plain]
      · change (eval env₂ t (t.after (i + 1)) (.call callee args) >>= assigned env₂ i _) (act₃, m₃) = _
        rw [bind_apply, eval, evaluating_here hpc hcached]
        rfl
      · omega
      · omega
  · exact .ends (.thrown hu hthrown)
  · exact .ends .exhausted
  · exact .ends (.loose hloose)
  · exact .ends (.strayed hstrays)

theorem element_chases {ρ : Type} {object : String} (h : Chased T .apart t S w c env env₂ env')
    (ha : Answered T fuel env env₂ env')
    (hplaced : Placed T .apart t S.books i
      (.expr (.assign none (.index (.ident object) (.ident counterName)) (.call callee args))))
    (hreads : (Expr.call callee args).callsRead = true)
    {xt : ActM ρ} {xo : ActM ((Value × Value) × List Value)} {write : ρ → Value → ActM Unit}
    {xv X : ActM Value} {Q : World → ρ → Spot → Prop}
    (hxt : ∀ w', w.Reaches w' → ASim T S w' xt
      (evalSpot env' t (i + 1) (.index (.ident object) (.ident counterName))) Q)
    (hxo : ∀ w', w.Reaches w' → ASim T S w' xo (operands env' t (t.after (i + 1)) callee args) Handed)
    (hwrite : ∀ w₁ w', w₁ ≤ w' → w.Reaches w₁ → ∀ spot spot', Q w₁ spot spot' → ∀ v, v.Shown w' →
      ASim T S w' (write spot v) (writeSpot env' spot' v) Equal)
    (hxv : ∀ s, s.1.pc = none → xv s = (xo >>= fun p =>
      recorded env (t.after (i + 1)) (callAt env (t.after (i + 1)) (describe callee) p.1.1 p.1.2 p.2)) s)
    (hX : ∀ s, s.1.pc = none → X s = (xt >>= fun spot => xv >>= assigned env i (write spot)) s) :
    EvalChases T (Fulfils T fuel) t S w c env₂ env' i
      (.assign none (.index (.ident object) (.ident counterName)) (.call callee args)) X := by
  have hargs := h.not_args ha.solo nofun nofun
  obtain ⟨hfirst, hagain⟩ := h.awaiting ha hargs
  have hwalked := h.walked hfirst.pausing
  have hreading : ∀ {w'}, w.Reaches w' → Reading T .apart t S w' c env₂ env' := fun hw' =>
    ⟨hwalked.reach hw', ha.solo, ha.spared, rfl⟩
  obtain ⟨htarget, hcall, -⟩ := hplaced.children rfl
  have hcalm : Calmly T .apart t S.books (i + 1)
      (.expr (.index (.ident object) (.ident counterName))) := ⟨htarget, fun _ => ⟨nofun, rfl⟩⟩
  refine fun w' hw' => ⟨?_, fun _ => ?_⟩
  · exact element_follows (hfirst.reach hw') (hreading hw') (h.envs.first.reach hw') hplaced hreads
      (hxt w' hw') (fun w₁ hw₁ => hxo w₁ (hw'.trans hw₁.reaches))
      (fun w₁ w₂ hw₂ hw₁ => hwrite w₁ w₂ hw₂ (hw'.trans hw₁.reaches)) hxv hX
  · exact element_follows (hagain.reach hw') (hreading hw') (hwalked.envs.reach hw') hplaced hreads
      (evalSpot_sim (hwalked.reach hw') _ _ hcalm)
      (fun w₁ hw₁ => operands_sim (hwalked.reach (hw'.trans hw₁.reaches))
        (hcall.operands fun _ => nofun))
      (fun w₁ w₂ hw₂ hw₁ spot spot' hspot v hv => by
        obtain ⟨rfl, hspot⟩ := hspot
        exact writeSpot_sim (e := .index (.ident object) (.ident counterName))
          (hwalked.reach (hw'.trans (hw₁.reaches.trans hw₂.reaches))).toScene (hspot.mono hw₂) hv nofun)
      (fun s hpc => eval_call_fresh (m := s.2) hpc) fun s hpc => eval_assign_fresh (m := s.2) hpc

end Stepper

/-! ## Every expression -/

/-- Where calls stand alone an expression has none, or it is one, or it keeps the result of one. -/
inductive Script.Expr.Sits (s : Manner) : Expr → Prop
  | calm {e : Expr} (h : (Node.expr e).calls = false) : Sits s e
  | call (callee : Expr) (args : List Expr) : Sits s (.call callee args)
  | name (x : String) (callee : Expr) (args : List Expr) :
    Sits s (.assign none (.ident x) (.call callee args))
  | element (hs : s = .apart) (object : String) (callee : Expr) (args : List Expr)
      (hreads : (Expr.call callee args).callsRead = true) :
    Sits s (.assign none (.index (.ident object) (.ident counterName)) (.call callee args))

/-- An invocation that is no construction is a call. -/
theorem Script.Expr.exists_call {e : Expr} (h : e.isInvocation = true) (hconstruct : e.isConstruct = false) :
    ∃ callee args, e = .call callee args := by
  cases e with
  | call callee args => exact ⟨callee, args, rfl⟩
  | construct => cases hconstruct
  | _ => cases h

theorem Placed.sits {e : Expr} (hsolo : T.solo = true) (hs : s ≠ .free)
    (h : Placed T s t S.books i (.expr e)) (hconstruct : e.isConstruct = false) : e.Sits s := by
  cases hcalls : (Node.expr e).calls with
  | false => exact .calm hcalls
  | true =>
      rw [Node.calls, Bool.or_eq_true] at hcalls
      rcases hcalls with hcall | hkeeps
      · obtain ⟨callee, args, rfl⟩ := Expr.exists_call hcall hconstruct
        exact .call callee args
      · have hseldom := fun {value : Expr} (hvalue : .expr value ∈ (Node.expr e).children) =>
          h.fair.seldom (fun _ => hs) rfl hvalue hsolo
        unfold Expr.keepsCall at hkeeps
        split at hkeeps
        · obtain ⟨callee, args, rfl⟩ := Expr.exists_call hkeeps
            (hseldom (List.mem_cons_of_mem _ List.mem_cons_self))
          exact .name _ callee args
        · rename_i object key value
          have hvalue : Node.expr value ∈
              (Node.expr (.assign none (.index (.ident object) (.ident key)) value)).children :=
            List.mem_cons_of_mem _ List.mem_cons_self
          have happart : s = .apart := by
            cases h.fair with
            | free => exact absurd rfl hs
            | intro allows below =>
                have hseats := allows.2 hsolo _ hvalue
                simp only [Node.seats, Node.seatsCall, hkeeps, Bool.not_true, Bool.false_or,
                  Bool.and_eq_true, beq_iff_eq] at hseats
                exact hseats.1.1
          obtain ⟨hkey, hreads⟩ :=
            (h.fair.admits.resolve_left hs).2.2 happart _ _ rfl hkeeps
          cases hkey
          obtain ⟨callee, args, rfl⟩ := Expr.exists_call hkeeps (hseldom hvalue)
          exact .element happart object callee args hreads
        · cases hkeeps

/-- Where calls stand alone and get replies, every expression chases that is walked. -/
theorem Stepper.Seated.of_answered (ha : Answered T fuel env env₂ env') :
    Stepper.Seated T (Fulfils T fuel) s t env env₂ env' := by
  intro S w c i e h hplaced hconstruct
  have hs := h.not_free ha.solo
  have hcall : ∀ {i callee args}, Placed T s t S.books i (.expr (.call callee args)) →
      EvalChases T (Fulfils T fuel) t S w c env₂ env' i (.call callee args)
        (eval env t i (.call callee args)) := fun hplaced =>
    call_chases h.toChased ha hs hplaced (fun _ hw' => operands_sim (h.left.reach hw')
      (hplaced.operands fun _ => hs)) fun s hpc => eval_call_fresh (m := s.2) hpc
  cases hplaced.sits ha.solo hs (hconstruct ha.solo) with
  | calm hcalm => exact calm_chases h ⟨hplaced, fun _ => ⟨hs, hcalm⟩⟩
  | call callee args => exact hcall hplaced
  | name x callee args =>
      refine assignName_chases h.toChased hplaced (hcall (hplaced.children rfl).2.1)
        (fun s hpc => eval_assignName_fresh (m := s.2) hpc) fun w' hw' v hv hnum => ?_
      exact assignName_sim (h.scene.reach hw') x hv
        (hplaced.fair.keepsCount.suits (h.left.reach hw').sound (fun _ => hnum) x rfl)
  | element happart object callee args hreads =>
      subst happart
      obtain ⟨htarget, hvalue, -⟩ := hplaced.children rfl
      have hcalm : Calmly T .apart t S.books (i + 1)
          (.expr (.index (.ident object) (.ident counterName))) := ⟨htarget, fun _ => ⟨nofun, rfl⟩⟩
      refine element_chases h.toChased ha hplaced hreads (fun _ hw' => evalSpot_sim (h.left.reach hw') _ _ hcalm)
        (fun _ hw' => operands_sim (h.left.reach hw') (hvalue.operands fun _ => hs)) ?_
        (fun s hpc => eval_call_fresh (m := s.2) hpc) fun s hpc => eval_assign_fresh (m := s.2) hpc
      intro w₁ w₂ hw₂ hw₁ spot spot' hspot v hv
      obtain ⟨rfl, hspot⟩ := hspot
      exact writeSpot_sim (e := .index (.ident object) (.ident counterName))
        (h.scene.reach (hw₁.trans hw₂.reaches)) (hspot.mono hw₂) hv nofun

end Resumption
