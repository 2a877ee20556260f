import Resumption.Proofs.Match.Reentry

/-!
# Halting before a statement

A hook that is asked before a statement lets it pass, and then nothing but the hook has changed, or it
halts.  A walk that was halted is taken up at the statement, without its result, so that the statement
runs as if nobody had halted it.  Inside of a function that the program makes the hook is not expected to
halt.
-/

namespace Resumption

open Script

variable {α' : Type} {T : Terms} {D : Unwind → World → Machine → Value → Machine → Prop} {s : Manner}
  {t : IndexedTree} {S : Stance} {w w' : World} {c : Chain} {env env' env₂ : Env} {i : Nat}

/-- Another hook, as it is after it was asked. -/
theorem Machine.Match.asked {m m' : Machine} (hm : m.Match T w m') {hook : Hook}
    (hhook : m.hook = some hook) (moment : Moment) :
    Machine.Match T w { m with hook := some (hook.ask moment).2 } m' :=
  { hm with
    hook := fun hdebugging later hlater => by
      cases hlater
      obtain ⟨sparing, hspared, hhooks⟩ := hm.hook hdebugging hook hhook
      exact ⟨sparing, hspared, sparing.asked hhooks moment⟩ }

theorem Heap.Match.paused {h h' : Heap} (hh : h.Match T w h') : h.Match T w.paused h' where
  alike := hh.alike
  size := hh.size
  suits a r ha := (hh.suits a r ha).mono w.reaches_paused.roles rfl
  ground := hh.ground.mono w.reaches_paused.roles
  lends hsolo := (hh.lends hsolo).mono w.reaches_paused.roles

/-- One more pause on the left. -/
theorem Machine.Match.paused {m m' : Machine} (hm : m.Match T w m')
    (hspared : T.mode = .recording → T.spared ≠ none) : Machine.Match T w.paused m m' :=
  { hm with
    heap := hm.heap.paused
    shown := fun methods hmethods p hp => (hm.shown methods hmethods p hp).mono w.reaches_paused.roles
    passed := fun hmode hnone => absurd hnone (hspared hmode) }

namespace Stepper

open ActM

theorem shouldHalt_asked {moment : Moment} {m : Machine} {hook : Hook} (hdebugging : m.debugging = true)
    (hhook : m.hook = some hook) :
    Machine.shouldHalt moment m =
      .ok (hook.ask moment).1 { m with hook := some (hook.ask moment).2 } := by
  cases m
  cases hdebugging
  cases hhook
  rfl

/-- What comes of asking the hook before a statement. -/
theorem haltCheck_cases (env : Env) (t : IndexedTree) (i : Nat) (stmt : Stmt) (act : Activation)
    (m : Machine) :
    haltCheck env t i stmt (act, m) = .ok () (act, m) ∨
      env.records = true ∧ m.debugging = true ∧ ∃ hook, m.hook = some hook ∧
        ((hook.ask ⟨t.ns, i, stmt⟩).1 = false ∧ haltCheck env t i stmt (act, m) =
            .ok () (act, { m with hook := some (hook.ask ⟨t.ns, i, stmt⟩).2 }) ∨
          (hook.ask ⟨t.ns, i, stmt⟩).1 = true ∧ ∃ raised, haltCheck env t i stmt (act, m) =
            .error (.unwind (.ofSignal (.pause i)))
              (act.kept fun cache _ => (cache.erase i, i),
                { m with
                  hook := some (hook.ask ⟨t.ns, i, stmt⟩).2
                  chronicle := { m.chronicle with raised } })) := by
  have hform : ∀ (halt : Bool) {m₁ : Machine},
      lift (Machine.shouldHalt ⟨t.ns, i, stmt⟩) (act, m) = .ok halt (act, m₁) →
      (env.records && !stmt.isSilent) = true → haltCheck env t i stmt (act, m) =
        (if halt then markPending env i >>= fun _ => lift (Machine.pauseAt i) else pure () :
          ActM Unit) (act, m₁) := by
    intro halt m₁ hask hasks
    unfold haltCheck
    rw [if_pos hasks]
    change EStateM.bind (lift (Machine.shouldHalt ⟨t.ns, i, stmt⟩)) _ (act, m) = _
    rw [EStateM.bind, hask]
  cases hasks : (env.records && !stmt.isSilent) with
  | false =>
      refine .inl ?_
      unfold haltCheck
      rw [hasks]
      rfl
  | true =>
      have hrecords : env.records = true := (Bool.and_eq_true _ _ ▸ hasks).1
      by_cases hidle : m.debugging = false ∨ m.hook = none
      · refine .inl (hform false ?_ hasks)
        rw [lift, shouldHalt_unasked (m := m.suspend act) hidle]
        rfl
      · obtain ⟨hdebugging, hhook⟩ := not_or.1 hidle
        obtain ⟨hook, hhook⟩ := Option.ne_none_iff_exists'.1 hhook
        rw [Bool.not_eq_false] at hdebugging
        refine .inr ⟨hrecords, hdebugging, hook, hhook, ?_⟩
        have hask : lift (Machine.shouldHalt ⟨t.ns, i, stmt⟩) (act, m) =
            .ok (hook.ask ⟨t.ns, i, stmt⟩).1
              (act, { m with hook := some (hook.ask ⟨t.ns, i, stmt⟩).2 }) := by
          rw [lift, shouldHalt_asked (m := m.suspend act) hdebugging hhook]
          rfl
        cases hhalt : (hook.ask ⟨t.ns, i, stmt⟩).1 with
        | false =>
            rw [hhalt] at hask
            exact .inl ⟨rfl, hform false hask hasks⟩
        | true =>
            rw [hhalt] at hask
            refine .inr ⟨rfl, some ⟨m.heap, m.output,
              (act.kept fun cache _ => (cache.erase i, i)) :: m.chronicle.waiting⟩,
              (hform true hask hasks).trans ?_⟩
            rw [if_pos rfl, markPending, if_pos hrecords]
            rfl

/-- The walk of a statement on the left, if its body follows. -/
theorem executing_follows (h : Walked T s t S w c env env') {stmt : Stmt} (hplaced : Placed T s t S.books i (.stmt stmt)) {body body₂ : Option Nat → ActM Flow}
    {x' : ActM α'} {R : World → Flow → α' → Prop}
    (hbody : Follows T D S c i (t.after i) w (body none) (executing env₂ t i stmt body₂) x' R)
    (hbody₂ : S.Pausing T → ∀ w', w.Reaches w' →
      Follows T D S c i (t.after i) w' (body₂ none) (executing env₂ t i stmt body₂) x' R) :
    Follows T D S c i (t.after i) w (executing env t i stmt body) (executing env₂ t i stmt body₂) x'
      R := by
  rintro ⟨act, m⟩ ⟨act', m'⟩ ⟨hact, hm⟩
  rw [executing_apply (resumeState_fresh t i m hact.pc.1), found, bind_apply]
  obtain hpass | ⟨hrecords, hdebugging, hook, hhook, ⟨hhalt, hpass⟩ | ⟨hhalt, raised, hpaused⟩⟩ :=
    haltCheck_cases env t i stmt act m
  · rw [hpass]
    exact hbody _ _ ⟨hact, hm⟩
  · rw [hpass]
    exact hbody _ _ ⟨hact, hm.asked hhook _⟩
  · rw [hpaused]
    obtain ⟨sparing, hsparing, hhooks⟩ := hm.hook hdebugging hook hhook
    have hspared : T.spared ≠ none := by
      rw [hsparing]
      exact Option.some_ne_none _
    obtain ⟨hown, hpauses, hsorted⟩ := h.halts hspared
    by_cases htop : s = .top
    case neg =>
      have hscript : s = .script := by
        cases s with
        | top => exact absurd rfl htop
        | own => exact absurd hown Bool.noConfusion
        | apart => exact absurd hown Bool.noConfusion
        | free =>
            rw [(h.free rfl).1] at hrecords
            cases hrecords
        | script => rfl
      have hquiet := hplaced.quiet hscript sparing hsparing i (Nat.le_refl i) (t.lt_after i)
      exact .ends (.strayed ⟨sparing, hsparing, i, [], rfl, hquiet, hook, _, hhooks, rfl, hhalt⟩)
    have hchain : act.chain = c := (hact.chain c h.chain).1
    have herased : S.books (act.cache.erase i) := ((hplaced.vacant rfl) _ hact.books).2
    refine .paused w.le_refl (show Paused T D S c i (t.after i) w _ _ _ i none m' from
      { pausing := ⟨hpauses, h.bare (.inl htop)⟩
        awaited := { (hm.asked hhook ⟨t.ns, i, stmt⟩).paused fun _ => hspared with }
        awaits := rfl
        inside := ⟨Nat.le_refl i, t.lt_after i⟩
        scopes := ⟨[], hchain, fun _ hl => absurd hl List.not_mem_nil⟩
        books := ⟨herased, fun v => ((hplaced.vacant rfl) _ herased).1 v⟩ })
      fun w₂ act₁ m₁ hw₂ hm₁ _ hresumed => ?_
    · have hfresh : (stmt.isDebugger && (act₁.cache.get? i).isSome) = false := by
        have hgone : act₁.cache.get? i = none := by
          rw [hresumed.cache]
          exact (hsorted htop _ hact.books).get?_erase_self i
        rw [hgone, Option.isSome_none, Bool.and_false]
      rw [executing_here hresumed.pc hfresh]
      refine hbody₂ ⟨hpauses, h.bare (.inl htop)⟩ w₂ hw₂ _ _ ⟨⟨?_, ⟨rfl, hact.pc.2⟩, ?_, ?_, ?_⟩, hm₁⟩
      · intro c' hc'
        rw [h.chain] at hc'
        cases hc'
        exact ⟨hresumed.chain, (hact.chain c h.chain).2⟩
      · dsimp only
        rw [hresumed.cache]
        exact herased
      · exact fun hargs => absurd hargs (h.bare (.inl htop))
      · intro htogether
        rw [hpauses] at htogether
        cases htogether

end Stepper

end Resumption
