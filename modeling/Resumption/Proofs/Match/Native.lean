import Resumption.Proofs.Match.Machine

/-!
# The functions every machine starts with run alike

Where one of them calls a function that it is given, this rests on the ways of calling running
alike; the others run alike by themselves.
-/

namespace Resumption

variable {α β : Type} {T : Terms} {w w' : World} {invoke invoke' : Invoke}

/-- The fuel on both sides. -/
structure Terms.Fuels (T : Terms) (n n' : Nat) : Prop where
  le : n' ≤ n
  eq : T.loose = false → n = n'

theorem Terms.Fuels.of_loose {n n' : Nat} (hloose : T.loose = true) (hle : n' ≤ n) : T.Fuels n n' :=
  ⟨hle, fun h => by rw [hloose] at h; cases h⟩

theorem Terms.Fuels.zero {n : Nat} (h : T.Fuels n 0) : T.loose = true ∨ n = 0 := by
  cases hloose : T.loose with
  | true => exact .inl rfl
  | false => exact .inr (h.eq hloose)

theorem Terms.Fuels.succ {n n' : Nat} (h : T.Fuels n (n' + 1)) : ∃ k, n = k + 1 ∧ T.Fuels k n' := by
  obtain ⟨hle, heq⟩ := h
  cases n with
  | zero => omega
  | succ k => exact ⟨k, rfl, by omega, fun hloose => by have := heq hloose; omega⟩

/-- The function calls another one that it is given. -/
def Native.calls (g : Native) : Bool := g.visits || g == .call || g == .apply

namespace Machine

theorem arg_shown {args : List Value} (hargs : ∀ v ∈ args, v.Shown w) (i : Nat) :
    (arg args i).Shown w := by
  rw [arg, List.getD_eq_getElem?_getD]
  cases h : args[i]? with
  | none => trivial
  | some v => exact hargs v (List.mem_of_getElem? h)

/-! ## Arrays -/

theorem mem_drop_shown {items : Array Value} (hitems : ∀ v ∈ items, v.Shown w) :
    ∀ v ∈ items.drop 1, v.Shown w := by
  intro v hv
  rw [Array.drop_eq_extract, Array.mem_extract_iff_getElem] at hv
  obtain ⟨k, hk, rfl⟩ := hv
  exact hitems _ (Array.getElem_mem _)

theorem elements?_sim {v : Value} (hv : v.Shown w) :
    MSim T w (ask (fun h => h.elements? v)) (ask (fun h => h.elements? v))
      (Same fun w items => ∀ is, items = some is → ∀ v ∈ is, v.Shown w) := by
  refine ask_sim fun h h' hh => ⟨hh.alike.elements? v, fun is his => ?_⟩
  cases v with
  | object a => exact (hh.matches_of_shown hv).shown.items is his
  | _ => cases his

theorem thisItems_sim {this : Value} (hthis : this.Shown w) (method : String) :
    MSim T w (thisItems this method) (thisItems this method)
      (Same fun w p => w.role? p.1 = some .shown ∧ ∀ v ∈ p.2, v.Shown w) := by
  cases this with
  | object a =>
      refine .bind (elements?_sim (v := .object a) hthis) fun w₁ hw₁ items hitems => ?_
      cases items with
      | none => exact typeError_sim _
      | some items =>
          exact .pure ⟨rfl, World.role?_mono hw₁.roles hthis, hitems items rfl⟩
  | _ => exact typeError_sim _

theorem changeItems_sim {a : Address} (ha : w.role? a = some .shown)
    {f : Array Value → α × Array Value} {default : α} {Q : World → α → Prop}
    (hf : ∀ w', w ≤ w' → ∀ items : Array Value, (∀ v ∈ items, v.Shown w') →
      (∀ w'', w' ≤ w'' → Q w'' (f items).1) ∧ ∀ v ∈ (f items).2, v.Shown w')
    (hdefault : ∀ w', Q w' default) :
    MSim T w (changeItems a f default) (changeItems a f default) (Same Q) := by
  have hask : MSim T w (ask (fun h => (h.object a).elements?)) (ask (fun h => (h.object a).elements?))
      (Same fun w items => ∀ is, items = some is →
        (∀ v ∈ is, v.Shown w) ∧ Intrinsic.isPrototype a = false) := by
    refine ask_sim fun h h' hh => ⟨(hh.alike.object a).elements?, fun is his => ⟨?_, ?_⟩⟩
    · exact (hh.matches_of_shown ha).shown.items is his
    · have hnot := (hh.suits a _ ha).2
      rw [Object.isArray, his] at hnot
      simpa using hnot
  refine .bind hask fun w₁ hw₁ items hitems => ?_
  cases items with
  | none => exact .pure ⟨rfl, hdefault w₁⟩
  | some items =>
      obtain ⟨hshown, hproto⟩ := hitems items rfl
      obtain ⟨hQ, hnew⟩ := hf w₁ hw₁ items hshown
      have ha₁ := World.role?_mono hw₁.roles ha
      refine .bind (modifyHeap_sim fun h h' hh => hh.modify_items ha₁ hproto (by simp))
        fun w₂ hw₂ _ _ => ?_
      refine .bind (modifyHeap_sim fun h h' hh => hh.modify_items
        (World.role?_mono hw₂.roles ha₁) hproto fun v hv => (hnew v hv).mono hw₂.roles)
        fun w₃ hw₃ _ _ => .pure ⟨rfl, hQ w₃ (w₁.le_trans hw₂ hw₃)⟩

theorem elementAt?_sim {a : Address} (ha : w.role? a = some .shown) (i : Nat) :
    MSim T w (elementAt? a i) (elementAt? a i)
      (Same fun w item => ∀ v, item = some v → v.Shown w) := by
  refine ask_sim fun h h' hh => ⟨?_, fun v hv => ?_⟩
  · rw [(hh.alike.object a).elements?]
  · obtain ⟨items, hitems, hv⟩ := Option.bind_eq_some_iff.1 hv
    exact (hh.matches_of_shown ha).shown.items items hitems v (Array.mem_of_getElem? hv)

theorem relative_sim (v : Value) (length default : Nat) :
    MSim T w (relative v length default) (relative v length default) Equal := by
  unfold relative
  split
  · exact .pure ⟨rfl, trivial⟩
  · refine .bind (number_sim v) fun _ _ x _ => ?_
    dsimp only
    split
    · exact .pure ⟨rfl, trivial⟩
    · split
      · exact .pure ⟨rfl, trivial⟩
      · exact .pure ⟨rfl, trivial⟩

theorem sliceOf_sim (items : List α) (args : List Value) :
    MSim T w (sliceOf items args) (sliceOf items args)
      (Same fun _ l => ∀ a ∈ l, a ∈ items) := by
  refine .bind (relative_sim _ _ _) fun _ _ start _ => .bind (relative_sim _ _ _) fun _ _ stop _ => ?_
  exact .pure ⟨rfl, fun a ha => List.mem_of_mem_take (List.mem_of_mem_drop ha)⟩

theorem callback_sim {args : List Value} (hargs : ∀ v ∈ args, v.Shown w) (method : String) :
    MSim T w (callback args method) (callback args method) (Same fun w v => v.Shown w) := by
  refine .bind (ask_alike fun _ _ hh => hh.isCallable _) fun w₁ hw₁ callable _ => ?_
  split
  · exact .pure ⟨rfl, (arg_shown hargs 0).mono hw₁.roles⟩
  · exact .bind (inspect_sim _) fun _ _ _ _ => typeError_sim _

theorem visit_sim {a : Address} {step step' : β → Nat → Value → MachineM β} {Q : World → β → Prop}
    (ha : w.role? a = some .shown)
    (hQ : ∀ {w w'}, w ≤ w' → ∀ {b}, Q w b → Q w' b)
    (hstep : ∀ w', w ≤ w' → ∀ acc i v, Q w' acc → v.Shown w' →
      MSim T w' (step acc i v) (step' acc i v) (Same Q)) {fuel fuel' : Nat}
    (hfuel : T.Fuels fuel fuel') (i : Nat) {acc : β} (hacc : Q w acc) :
    MSim T w (visit a step fuel i acc) (visit a step' fuel' i acc) (Same Q) := by
  induction fuel' generalizing fuel i acc w with
  | zero =>
      rcases hfuel.zero with hloose | rfl
      · exact .of_loose hloose
      · exact .exhausted
  | succ fuel' ih =>
      obtain ⟨rest, rfl, hrest⟩ := hfuel.succ
      refine .bind (elementAt?_sim ha i) fun w₁ hw₁ item hitem => ?_
      cases item with
      | none => exact .pure ⟨rfl, hQ hw₁ hacc⟩
      | some v =>
          refine .bind (hstep w₁ hw₁ acc i v (hQ hw₁ hacc) (hitem v rfl)) fun w₂ hw₂ acc' hacc' => ?_
          have hle := w.le_trans hw₁ hw₂
          exact ih (World.role?_mono hle.roles ha) (fun w' hw' => hstep w' (w.le_trans hle hw')) hrest
            (i + 1) hacc'

/-! ## Texts and numbers -/

theorem foldNumbers_sim (pick : Float → Float → Float) (acc : Float) (args : List Value) :
    MSim T w (foldNumbers pick acc args) (foldNumbers pick acc args) Equal := by
  induction args generalizing acc w with
  | nil => exact .pure ⟨rfl, trivial⟩
  | cons v rest ih =>
      refine .bind (number_sim v) fun _ _ x _ => ?_
      split
      · exact .pure ⟨rfl, trivial⟩
      · exact ih _

theorem itemText_sim (v : Value) : MSim T w (itemText v) (itemText v) Equal := by
  unfold itemText
  split
  · exact .pure ⟨rfl, trivial⟩
  · exact text_sim v

theorem messageText_sim (v : Value) : MSim T w (messageText v) (messageText v) Equal := by
  unfold messageText
  split
  · exact .pure ⟨rfl, trivial⟩
  · exact text_sim v

theorem logText_sim (v : Value) : MSim T w (logText v) (logText v) Equal := by
  unfold logText
  split
  · exact .pure ⟨rfl, trivial⟩
  · exact inspect_sim v

theorem log_sim (line : String) : MSim T w (log line) (log line) Equal :=
  fun _ _ hm => .ok ⟨w, w.le_refl,
    { hm with output := congrArg (· ++ [line]) hm.output }, rfl, trivial⟩

/-- The same computation for each of the values. -/
theorem mapM_equal {γ : Type} {f : Value → MachineM γ} (hf : ∀ w v, MSim T w (f v) (f v) Equal)
    (l : List Value) : MSim T w (l.mapM f) (l.mapM f) Equal :=
  .imp (.mapM (P := fun _ _ => True) (Q := fun _ _ => True) (fun _ _ _ => trivial)
    (fun _ _ _ => trivial) (fun w' _ v _ => hf w' v) l fun _ _ => trivial) fun _ _ _ _ h => ⟨h.1, trivial⟩

/-! ## All of them -/

theorem number_result (args : List Value) (g : Float → Float) :
    MSim T w (do return Value.num (g (← number (arg args 0))))
      (do return Value.num (g (← number (arg args 0)))) (Same fun w v => v.Shown w) :=
  .bind (number_sim _) fun _ _ _ _ => .pure ⟨rfl, trivial⟩

/-- The methods that visit the elements of an array. -/
theorem visits_sim (hinvoke : invoke.Alike T invoke') (hw : w.building = none) {fuel fuel' : Nat}
    (hfuel : T.Fuels fuel fuel') {g : Native} (hg : g.visits = true) {this : Value}
    {args : List Value} (hthis : this.Shown w) (hargs : ∀ v ∈ args, v.Shown w) :
    MSim T w (runNative invoke fuel g this args) (runNative invoke' fuel' g this args)
      (Same fun w v => v.Shown w) := by
  -- Each of them calls the function on the element, its position and the array.
  have hcall : ∀ {w₁ : World}, w ≤ w₁ → ∀ (front : List Value) (f v receiver : Value) (i : Nat),
      f.Shown w₁ → v.Shown w₁ → receiver.Shown w₁ → (∀ u ∈ front, u.Shown w₁) →
      MSim T w₁ (invoke f receiver (front ++ [v, .num (Number.ofNat i), this]))
        (invoke' f receiver (front ++ [v, .num (Number.ofNat i), this]))
        (Same fun w v => v.Shown w) := by
    intro w₁ hw₁ front f v receiver i hf hv hreceiver hfront
    refine hinvoke w₁ (hw₁.building.trans hw) f receiver _ hf hreceiver fun u hu => ?_
    rcases List.mem_append.1 hu with hu | hu
    · exact hfront u hu
    · simp only [List.mem_cons, List.not_mem_nil, or_false] at hu
      rcases hu with rfl | rfl | rfl
      · exact hv
      · trivial
      · exact hthis.mono hw₁.roles
  have hpush : ∀ {w₁ : World} {found : Array Value} {v : Value}, (∀ u ∈ found, u.Shown w₁) →
      v.Shown w₁ → ∀ u ∈ found.push v, u.Shown w₁ := by
    intro w₁ found v hfound hv u hu
    rcases Array.mem_push.1 hu with hu | rfl
    · exact hfound u hu
    · exact hv
  have hmono : ∀ {w w' : World}, w ≤ w' → ∀ {found : Array Value}, (∀ u ∈ found, u.Shown w) →
      ∀ u ∈ found, u.Shown w' := fun hw _ h u hu => (h u hu).mono hw.roles
  have hcollect : ∀ {w₁ : World} {found : Array Value}, (∀ u ∈ found, u.Shown w₁) →
      MSim T w₁ (newArray found.toList) (newArray found.toList) (Same fun w v => v.Shown w) :=
    fun hfound => newArray_sim fun v hv => hfound v (Array.mem_toList_iff.1 hv)
  have harg := arg_shown hargs
  have hnone : ∀ {w₁ : World}, ∀ u ∈ ([] : List Value), u.Shown w₁ := by simp
  cases g <;> cases hg <;> refine .bind (thisItems_sim hthis _) fun w₁ hw₁ p hp => ?_ <;>
    refine .bind (callback_sim (fun v hv => (hargs v hv).mono hw₁.roles) _) fun w₂ hw₂ f hf => ?_ <;>
    have hle := w.le_trans hw₁ hw₂ <;> have ha := World.role?_mono hw₂.roles hp.1
  case forEach =>
    refine .bind (visit_sim (Q := fun _ _ => True) ha (fun _ _ _ => trivial)
      (fun w₃ hw₃ _ i v _ hv => ?_) hfuel 0 trivial) fun _ _ _ _ => .pure ⟨rfl, trivial⟩
    have hle' := w.le_trans hle hw₃
    exact .bind (hcall hle' [] f v _ i (hf.mono hw₃.roles) hv ((harg 1).mono hle'.roles) hnone)
      fun _ _ _ _ => .pure ⟨rfl, trivial⟩
  case map =>
    refine .bind (visit_sim (Q := fun w found => ∀ u ∈ found, u.Shown w) ha hmono
      (fun w₃ hw₃ found i v hfound hv => ?_) hfuel 0 (by simp)) fun _ _ _ h => hcollect h
    have hle' := w.le_trans hle hw₃
    exact .bind (hcall hle' [] f v _ i (hf.mono hw₃.roles) hv ((harg 1).mono hle'.roles) hnone)
      fun _ hw₄ _ hu => .pure ⟨rfl, hpush (hmono hw₄ hfound) hu⟩
  case filter =>
    refine .bind (visit_sim (Q := fun w found => ∀ u ∈ found, u.Shown w) ha hmono
      (fun w₃ hw₃ found i v hfound hv => ?_) hfuel 0 (by simp)) fun _ _ _ h => hcollect h
    have hle' := w.le_trans hle hw₃
    refine .bind (hcall hle' [] f v _ i (hf.mono hw₃.roles) hv ((harg 1).mono hle'.roles) hnone)
      fun w₄ hw₄ keep _ => .pure ⟨rfl, ?_⟩
    split
    · exact hpush (hmono hw₄ hfound) (hv.mono hw₄.roles)
    · exact hmono hw₄ hfound
  case reduce =>
    have hstep : ∀ w₃, w₂ ≤ w₃ → ∀ (acc : Value) (i : Nat) (v : Value), acc.Shown w₃ → v.Shown w₃ →
        MSim T w₃ (invoke f .undefined [acc, v, .num (Number.ofNat i), this])
          (invoke' f .undefined [acc, v, .num (Number.ofNat i), this])
          (Same fun w v => v.Shown w) := by
      intro w₃ hw₃ acc i v hacc hv
      refine hcall (w.le_trans hle hw₃) [acc] f v .undefined i (hf.mono hw₃.roles) hv trivial ?_
      intro u hu
      rw [List.mem_singleton.1 hu]
      exact hacc
    dsimp only
    split
    · exact visit_sim ha (fun hw _ hv => hv.mono hw.roles) hstep hfuel 0 ((harg 1).mono hle.roles)
    · split
      · rename_i first hfirst
        exact visit_sim ha (fun hw _ hv => hv.mono hw.roles) hstep hfuel 1
          ((hp.2 first (Array.mem_of_getElem? hfirst)).mono hw₂.roles)
      · exact typeError_sim _

/-- Arrays stand for their elements. -/
theorem spread_sim {args : List Value} (hargs : ∀ v ∈ args, v.Shown w) :
    MSim T w
      (args.mapM (fun v => do
        match ← ask (fun h => h.elements? v) with
        | some items => return items.toList
        | none => return [v]))
      (args.mapM (fun v => do
        match ← ask (fun h => h.elements? v) with
        | some items => return items.toList
        | none => return [v]))
      (Same fun w ls => ∀ l ∈ ls, ∀ v ∈ l, v.Shown w) := by
  refine .mapM (P := fun w v => v.Shown w) (fun hw _ hv => hv.mono hw.roles)
    (fun hw _ hl v hv => (hl v hv).mono hw.roles) (fun w₂ _ v hv => ?_) args hargs
  refine .bind (elements?_sim hv) fun w₃ hw₃ items hitems => ?_
  cases items with
  | none =>
      refine .pure ⟨rfl, fun u hu => ?_⟩
      rw [List.mem_singleton.1 hu]
      exact hv.mono hw₃.roles
  | some items => exact .pure ⟨rfl, fun u hu => hitems items rfl u (Array.mem_toList_iff.1 hu)⟩

/-- The elements of an array that a function is to be called with. -/
theorem items_sim {a : Address} (ha : w.role? a = some .shown) :
    MSim T w (ask (fun h => ((h.object a).elements?.getD #[]).toList))
      (ask (fun h => ((h.object a).elements?.getD #[]).toList)) (Same fun w l => ∀ v ∈ l, v.Shown w) := by
  refine ask_sim fun h h' hh => ⟨by rw [(hh.alike.object a).elements?], fun v hv => ?_⟩
  cases his : (h.object a).elements? with
  | none => simp [his] at hv
  | some items =>
      simp only [his, Option.getD_some, Array.mem_toList_iff] at hv
      exact (hh.matches_of_shown ha).shown.items items his v hv

theorem runNative_sim (hinvoke : T.solo = false → invoke.Alike T invoke') (hw : w.building = none)
    {fuel fuel' : Nat} (hfuel : T.Fuels fuel fuel') {g : Native}
    (hg : T.solo = true → g.calls = false) {this : Value} {args : List Value}
    (hthis : this.Shown w) (hargs : ∀ v ∈ args, v.Shown w) :
    MSim T w (runNative invoke fuel g this args) (runNative invoke' fuel' g this args)
      (Same fun w v => v.Shown w) := by
  have hcalling : g.calls = true → invoke.Alike T invoke' := by
    intro hcalls
    cases hsolo : T.solo with
    | false => exact hinvoke hsolo
    | true =>
        rw [hg hsolo] at hcalls
        cases hcalls
  have harg := arg_shown hargs
  cases g with
  | hasOwnProperty =>
      refine .bind (text_sim _) fun w₁ _ key _ => ?_
      cases this with
      | object a =>
          exact .bind (ask_alike fun _ _ hh => (hh.object a).hasOwn key) fun _ _ _ _ =>
            .pure ⟨rfl, trivial⟩
      | _ => exact .pure ⟨rfl, trivial⟩
  | toText => exact .bind (text_sim _) fun _ _ _ _ => .pure ⟨rfl, trivial⟩
  | call =>
      exact hcalling rfl w hw this _ _ hthis (harg 0) fun v hv => hargs v (List.mem_of_mem_drop hv)
  | apply =>
      have hinv := hcalling rfl
      simp only [runNative]
      have harg1 := harg 1
      cases hlist : arg args 1 with
      | undefined => exact hinv w hw this _ _ hthis (harg 0) (by simp)
      | null => exact hinv w hw this _ _ hthis (harg 0) (by simp)
      | object a =>
          rw [hlist] at harg1
          exact .bind (items_sim harg1) fun w₁ hw₁ items hitems => hinv w₁ (hw₁.building.trans hw) this _ items
            (hthis.mono hw₁.roles) ((harg 0).mono hw₁.roles) hitems
      | _ => exact typeError_sim _
  | push =>
      refine .bind (thisItems_sim hthis _) fun w₁ hw₁ p hp => ?_
      refine .bind (Q := fun _ _ => True) (changeItems_sim hp.1 (fun w₂ hw₂ items hitems =>
        ⟨fun _ _ => trivial, fun v hv => ?_⟩) fun _ => trivial) fun _ _ _ _ => .pure ⟨rfl, trivial⟩
      rcases Array.mem_append.1 hv with hv | hv
      · exact hitems v hv
      · exact (hargs v (List.mem_toArray.1 hv)).mono (w.le_trans hw₁ hw₂).roles
  | pop =>
      refine .bind (thisItems_sim hthis _) fun w₁ hw₁ p hp => ?_
      refine changeItems_sim hp.1 (fun w₂ hw₂ items hitems => ⟨fun w₃ hw₃ => ?_, fun v hv => ?_⟩)
        fun _ => trivial
      · cases hback : items.back? with
        | none => trivial
        | some v => exact (hitems v (Array.mem_of_back? hback)).mono hw₃.roles
      · rw [← Array.mem_toList_iff, Array.toList_pop] at hv
        exact hitems v (Array.mem_toList_iff.1 (List.dropLast_subset _ hv))
  | shift =>
      refine .bind (thisItems_sim hthis _) fun w₁ hw₁ p hp => ?_
      refine changeItems_sim hp.1 (fun w₂ hw₂ items hitems => ⟨fun w₃ hw₃ => ?_, fun v hv => ?_⟩)
        fun _ => trivial
      · cases hfront : items[0]? with
        | none => trivial
        | some v => exact (hitems v (Array.mem_of_getElem? hfront)).mono hw₃.roles
      · exact mem_drop_shown hitems v hv
  | unshift =>
      refine .bind (thisItems_sim hthis _) fun w₁ hw₁ p hp => ?_
      refine .bind (Q := fun _ _ => True) (changeItems_sim hp.1 (fun w₂ hw₂ items hitems =>
        ⟨fun _ _ => trivial, fun v hv => ?_⟩) fun _ => trivial) fun _ _ _ _ => .pure ⟨rfl, trivial⟩
      rcases Array.mem_append.1 hv with hv | hv
      · exact (hargs v (List.mem_toArray.1 hv)).mono (w.le_trans hw₁ hw₂).roles
      · exact hitems v hv
  | slice =>
      refine .bind (thisItems_sim hthis _) fun w₁ hw₁ p hp => ?_
      refine .bind (sliceOf_sim _ _) fun w₂ hw₂ l hl => newArray_sim fun v hv => ?_
      exact (hp.2 v (Array.mem_toList_iff.1 (hl v hv))).mono hw₂.roles
  | concat =>
      refine .bind (thisItems_sim hthis _) fun w₁ hw₁ p hp => ?_
      refine .bind (spread_sim fun v hv => (hargs v hv).mono hw₁.roles) fun w₂ hw₂ more hmore =>
        newArray_sim fun v hv => ?_
      rcases List.mem_append.1 hv with hv | hv
      · exact (hp.2 v (Array.mem_toList_iff.1 hv)).mono hw₂.roles
      · obtain ⟨l, hl, hv⟩ := List.mem_flatten.1 hv
        exact hmore l hl v hv
  | join =>
      refine .bind (thisItems_sim hthis _) fun w₁ hw₁ p hp => ?_
      have hparts : ∀ (w : World) (separator : String), MSim T w
          (do return Value.str (separator.intercalate (← p.2.toList.mapM itemText)))
          (do return Value.str (separator.intercalate (← p.2.toList.mapM itemText)))
          (Same fun w v => v.Shown w) := fun _ _ =>
        .bind (mapM_equal (fun _ v => itemText_sim v) _) fun _ _ _ _ => .pure ⟨rfl, trivial⟩
      dsimp only
      split
      · exact hparts _ _
      · exact .bind (text_sim _) fun w₂ _ separator _ => hparts w₂ separator
  | indexOf =>
      refine .bind (thisItems_sim hthis _) fun w₁ hw₁ p hp => ?_
      dsimp only
      split
      · exact .pure ⟨rfl, trivial⟩
      · exact .pure ⟨rfl, trivial⟩
  | forEach | map | filter | reduce => exact visits_sim (hcalling rfl) hw hfuel rfl hthis hargs
  | charAt =>
      exact .bind (text_sim _) fun _ _ _ _ => .bind (number_sim _) fun _ _ _ _ => .pure ⟨rfl, trivial⟩
  | textIndexOf =>
      refine .bind (text_sim _) fun _ _ _ _ => .bind (text_sim _) fun _ _ _ _ => ?_
      split
      · exact .pure ⟨rfl, trivial⟩
      · exact .pure ⟨rfl, trivial⟩
  | textSlice =>
      exact .bind (text_sim _) fun _ _ _ _ => .bind (sliceOf_sim _ _) fun _ _ _ _ =>
        .pure ⟨rfl, trivial⟩
  | toUpperCase => exact .bind (text_sim _) fun _ _ _ _ => .pure ⟨rfl, trivial⟩
  | toLowerCase => exact .bind (text_sim _) fun _ _ _ _ => .pure ⟨rfl, trivial⟩
  | split =>
      refine .bind (text_sim _) fun w₁ hw₁ s _ => ?_
      split
      · refine newArray_sim ?_
        intro v hv
        rw [List.mem_singleton.1 hv]
        trivial
      · refine .bind (text_sim _) fun _ _ sep _ => newArray_sim fun v hv => ?_
        obtain ⟨piece, -, rfl⟩ := List.mem_map.1 hv
        trivial
  | object =>
      have harg0 := harg 0
      simp only [runNative]
      cases hv : arg args 0 with
      | object a =>
          rw [hv] at harg0
          exact .pure ⟨rfl, harg0⟩
      | _ => exact .bind newObject_sim fun _ _ a ha => .pure ⟨rfl, ha⟩
  | keys =>
      simp only [runNative]
      cases hv : arg args 0 with
      | object a =>
          refine .bind (ask_alike fun _ _ hh => (hh.object a).keys) fun w₁ hw₁ l _ =>
            newArray_sim fun v hv => ?_
          obtain ⟨key, -, rfl⟩ := List.mem_map.1 hv
          trivial
      | _ => exact .bind (inspect_sim _) fun _ _ _ _ => typeError_sim _
  | array =>
      simp only [runNative]
      split
      · split
        · refine newArray_sim fun v hv => ?_
          rw [(List.mem_replicate.1 hv).2]
          trivial
        · exact fail_sim _ _
      · exact newArray_sim hargs
  | isArray =>
      simp only [runNative]
      cases hv : arg args 0 with
      | object a =>
          exact .bind (ask_alike fun _ _ hh => (hh.object a).isArray) fun _ _ _ _ =>
            .pure ⟨rfl, trivial⟩
      | _ => exact .pure ⟨rfl, trivial⟩
  | string =>
      simp only [runNative]
      split
      · exact .pure ⟨rfl, trivial⟩
      · exact .bind (text_sim _) fun _ _ _ _ => .pure ⟨rfl, trivial⟩
  | number =>
      simp only [runNative]
      split
      · exact .pure ⟨rfl, trivial⟩
      · exact .bind (number_sim _) fun _ _ _ _ => .pure ⟨rfl, trivial⟩
  | error kind => exact .bind (messageText_sim _) fun _ _ _ _ => newError_sim _ _
  | floor => exact number_result args _
  | ceil => exact number_result args _
  | abs => exact number_result args _
  | round => exact number_result args _
  | sqrt => exact number_result args _
  | pow =>
      exact .bind (number_sim _) fun _ _ _ _ => .bind (number_sim _) fun _ _ _ _ =>
        .pure ⟨rfl, trivial⟩
  | max => exact .bind (foldNumbers_sim _ _ _) fun _ _ _ _ => .pure ⟨rfl, trivial⟩
  | min => exact .bind (foldNumbers_sim _ _ _) fun _ _ _ _ => .pure ⟨rfl, trivial⟩
  | log =>
      exact .bind (mapM_equal (fun _ v => logText_sim v) _) fun _ _ _ _ =>
        .bind (log_sim _) fun _ _ _ _ => .pure ⟨rfl, trivial⟩

end Machine

end Resumption
