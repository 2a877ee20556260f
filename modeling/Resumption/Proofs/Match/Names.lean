import Resumption.Engine.Instrumented
import Resumption.Engine.Stepper
import Resumption.Proofs.Match.Construct

/-!
# Variables are found alike

A picture of the scopes leads to the same record as a search along the chain: the records of
functions and `catch` clauses have exactly the names that the picture says, and the objects of `with`
regions are asked in the same order.
-/

namespace Resumption

variable {T : Terms} {S : Stance} {w w' : World} {env env' : Env} {name : String} {c : Chain}

/-! ## Records -/

/-- The record may be asked for the name.  If closures may hold on to all scopes, it is shared. -/
def World.Holds (w : World) (sound : Prop) (name : String) (a : Address) : Prop :=
  w.role? a = some .shown ∨ ∃ names shared, w.role? a = some (.scope names shared) ∧ name ∈ names ∧
    (sound → shared = true)

theorem Link.Live.binds {h h' : Heap} (hh : h.Match T w h') {link : Link} (hlink : link.Live w)
    (hbinds : link.binds h name = true) : w.Holds (link.Sound w) name link.record := by
  obtain ⟨kind, record⟩ := link
  cases kind with
  | withObject => exact .inl hlink
  | function | handler =>
      obtain ⟨names, shared, hrole⟩ := hlink
      refine .inr ⟨names, shared, hrole, (hh.suits record _ hrole).1.mem_names hbinds, ?_⟩
      rintro ⟨names', hshared⟩
      cases hrole.symm.trans hshared
      rfl

theorem World.Holds.imp {sound sound' : Prop} {a : Address} (hsound : sound' → sound)
    (h : w.Holds sound name a) : w.Holds sound' name a :=
  Or.imp_right (fun ⟨names, shared, hrole, hname, hshared⟩ =>
    ⟨names, shared, hrole, hname, fun h => hshared (hsound h)⟩) h

/-- A search finds a record that may be asked. -/
theorem Chain.Live.recordOf? {h h' : Heap} (hh : h.Match T w h') (hc : Chain.Live w c) {a : Address}
    (ha : Chain.recordOf? h name c = some a) : w.Holds (Chain.Sound w c) name a := by
  induction c with
  | nil => cases ha
  | cons link c ih =>
      rw [Chain.recordOf?, Chain.find?] at ha
      split at ha
      · rename_i hbinds
        cases ha
        exact ((hc link List.mem_cons_self).binds hh hbinds).imp fun hsound =>
          hsound link List.mem_cons_self
      · exact (ih (fun l hl => hc l (List.mem_cons_of_mem _ hl)) ha).imp fun hsound l hl =>
          hsound l (List.mem_cons_of_mem _ hl)

theorem Chain.Fits.live {scopes : Code.Scopes} (h : Chain.Fits w scopes c) : Chain.Live w c := by
  induction scopes generalizing c with
  | nil =>
      cases c with
      | nil => exact fun _ hl => absurd hl List.not_mem_nil
      | cons link c => exact h.elim
  | cons entry scopes ih =>
      cases c with
      | nil => exact h.elim
      | cons link c =>
          intro l hl
          rcases List.mem_cons.1 hl with rfl | hl
          · obtain ⟨kind, record⟩ := l
            obtain ⟨⟨hkind, hrecord⟩, -⟩ := h
            obtain ⟨entryKind, names⟩ := entry
            cases entryKind <;> cases hkind
            · exact ⟨names, hrecord⟩
            · exact ⟨names, hrecord⟩
            · exact hrecord
          · exact ih h.2 l hl

/-- The record of a scope binds the names in its picture and no others. -/
theorem Link.Fits.binds {h h' : Heap} (hh : h.Match T w h') (hw : w.building = none)
    {entry : Code.ScopeEntry} {link : Link} (hlink : link.Fits w entry)
    (hkind : entry.kind ≠ .withObject) : link.binds h name = entry.names.contains name := by
  obtain ⟨kind, record⟩ := link
  obtain ⟨entryKind, names⟩ := entry
  obtain ⟨heq, hrecord⟩ := hlink
  have hscope : ∃ shared, w.role? record = some (.scope names shared) := by
    cases entryKind with
    | function => exact hrecord
    | handler => exact hrecord
    | withObject => exact absurd rfl hkind
  obtain ⟨shared, hrole⟩ := hscope
  obtain ⟨hbinds, hcomplete⟩ := hh.suits record _ hrole
  have howns : (h.object record).hasOwn name = names.contains name := by
    rw [Bool.eq_iff_iff]
    constructor
    · intro hown
      simpa using hbinds.mem_names hown
    · intro hmem
      exact hcomplete (by simp [hw]) name (by simpa using hmem)
  cases entryKind with
  | function =>
      cases heq
      exact howns
  | handler =>
      cases heq
      exact howns
  | withObject => exact absurd rfl hkind

/-- What a picture says of a name is what a search along the chain finds. -/
theorem Chain.Fits.locate {h h' : Heap} (hh : h.Match T w h') (hw : w.building = none)
    {scopes : Code.Scopes} {rest : Chain} (hfits : Chain.Fits w scopes rest) (name : String)
    (front : Chain) :
    (Instrumented.overriding? h (front ++ rest) name (scopes.locate name front.length).1).or
        (Instrumented.placeRecord? (front ++ rest) (scopes.locate name front.length).2) =
      Chain.recordOf? h name rest := by
  induction scopes generalizing front rest with
  | nil =>
      cases rest with
      | nil => rfl
      | cons link rest => exact hfits.elim
  | cons entry scopes ih =>
      cases rest with
      | nil => exact hfits.elim
      | cons link rest =>
          have hnext := ih hfits.2 (front ++ [link])
          rw [List.append_assoc, List.singleton_append, List.length_append, List.length_singleton]
            at hnext
          have hlink : (front ++ link :: rest)[front.length]? = some link := by simp
          rw [Code.Scopes.locate, Chain.recordOf?, Chain.find?]
          split
          · rename_i hkind
            simp only [Instrumented.overriding?, hlink]
            split
            · rfl
            · exact hnext
          · rename_i hkind
            rw [hfits.1.binds hh hw (by simpa using hkind)]
            split
            · simp [Instrumented.overriding?, Instrumented.placeRecord?]
            · exact hnext

theorem Code.Scopes.name_resolve (scopes : Code.Scopes) (name : String) :
    (scopes.resolve name).name = name := by
  unfold Code.Scopes.resolve
  split
  · rfl
  · split <;> rfl

/-- The search along the chain, seen from its start. -/
theorem Chain.Fits.recordOf?_eq {h h' : Heap} (hh : h.Match T w h') (hw : w.building = none)
    {scopes : Code.Scopes} (hfits : Chain.Fits w scopes c) (name : String) :
    Chain.recordOf? h name c =
      (Instrumented.overriding? h c name (scopes.locate name 0).1).or
        (Instrumented.placeRecord? c (scopes.locate name 0).2) :=
  (hfits.locate hh hw name []).symm

/-- A resolved variable is where a search along the chain finds it. -/
theorem Chain.Fits.recordOf?_resolve {h h' : Heap} (hh : h.Match T w h') (hw : w.building = none)
    {scopes : Code.Scopes} (hfits : Chain.Fits w scopes c) :
    Instrumented.recordOf? h c (scopes.resolve name) = Chain.recordOf? h name c := by
  unfold Code.Scopes.resolve
  split
  · rfl
  · rw [hfits.recordOf?_eq hh hw]
    split
    · rename_i place heq
      rw [heq]
      rfl
    · rename_i withs place heq
      rw [heq]
      rfl

theorem Chain.Fits.length {scopes : Code.Scopes} (h : Chain.Fits w scopes c) :
    c.length = scopes.length := by
  induction scopes generalizing c with
  | nil =>
      cases c with
      | nil => rfl
      | cons link c => exact h.elim
  | cons entry scopes ih =>
      cases c with
      | nil => exact h.elim
      | cons link c => rw [List.length_cons, List.length_cons, ih h.2]

theorem Code.Scopes.locate_slot {scopes : Code.Scopes} {hops k : Nat}
    (h : (scopes.locate name hops).2 = .slot k) : k < hops + scopes.length := by
  induction scopes generalizing hops with
  | nil => cases h
  | cons entry scopes ih =>
      rw [Code.Scopes.locate] at h
      rw [List.length_cons]
      split at h
      · have := ih h
        omega
      · split at h
        · cases h
          omega
        · have := ih h
          omega

/-- A place that is there without asking is there. -/
theorem Chain.Fits.isSome_of_hasSlot {h : Heap} {scopes : Code.Scopes} (hfits : Chain.Fits w scopes c)
    (hslot : Instrumented.hasSlot (scopes.resolve name) = true) :
    (Instrumented.recordOf? h c (scopes.resolve name)).isSome = true := by
  have hplace : ∀ place : Code.Place, place = (scopes.locate name 0).2 →
      Instrumented.isSlot place = true → (Instrumented.placeRecord? c place).isSome = true := by
    intro place hplace hisSlot
    cases place with
    | global => cases hisSlot
    | slot k =>
        have hk := Code.Scopes.locate_slot hplace.symm
        rw [Nat.zero_add, ← hfits.length] at hk
        simp [Instrumented.placeRecord?, hk]
  unfold Code.Scopes.resolve at hslot ⊢
  split at hslot
  · cases hslot
  · rename_i hescaped
    rw [if_neg hescaped]
    split at hslot
    · rename_i place heq
      exact hplace place (by rw [heq]) hslot
    · rename_i withs place _ heq
      simp only [Instrumented.recordOf?]
      have := hplace place (by rw [heq]) hslot
      rw [Option.isSome_or, this, Bool.or_true]

/-! ## Reading and writing -/

theorem World.Holds.mono {sound : Prop} {a : Address} (hw : w.roles <+: w'.roles)
    (h : w.Holds sound name a) : w'.Holds sound name a :=
  Or.imp (World.role?_mono hw) (fun ⟨names, shared, hrole, hname⟩ =>
    ⟨names, shared, World.role?_mono hw hrole, hname⟩) h

/-- The value may be written to a variable of the name: in a scope of its own, a count is no object. -/
def Value.Counts (sound : Prop) (name : String) (v : Value) : Prop :=
  sound ∨ (name = Script.counterName → v.Plain)

/-- The value may be written to the target. -/
def Value.Suits (sound : Prop) (target : Script.Expr) (v : Value) : Prop :=
  ∀ name, target = .ident name → v.Counts sound name

theorem Value.Counts.imp {sound sound' : Prop} {v : Value} (hsound : sound → sound')
    (h : v.Counts sound name) : v.Counts sound' name :=
  Or.imp_left hsound h

theorem Value.Suits.imp {sound sound' : Prop} {target : Script.Expr} {v : Value}
    (hsound : sound → sound') (h : v.Suits sound target) : v.Suits sound' target :=
  fun name hname => (h name hname).imp hsound

/-- What is written to an element is nobody's variable. -/
theorem Value.suits_index (sound : Prop) (object key : Script.Expr) (v : Value) :
    v.Suits sound (.index object key) :=
  fun _ hname => by cases hname

theorem Value.Plain.suits {sound : Prop} {target : Script.Expr} {v : Value} (h : v.Plain) :
    v.Suits sound target :=
  fun _ _ => .inr fun _ => h

/-- Where a count is kept, what is written is a number. -/
theorem Terms.KeepsCount.suits {s : Manner} {target value : Script.Expr}
    {op : Option Script.BinaryOp} (h : Terms.KeepsCount s target op value) {sound : Prop}
    (hsound : s.opens = true → sound) {v : Value}
    (hv : op = none → ∀ x, value = .num x → v = .num x) : v.Suits sound target := by
  intro name hname
  cases hopens : s.opens with
  | true => exact .inl (hsound hopens)
  | false =>
      refine .inr fun hcounter => ?_
      obtain ⟨hop, x, hx⟩ := h hopens (hcounter ▸ hname)
      rw [hv hop x hx]
      trivial

namespace Machine

variable {invoke invoke' : Invoke} {a : Address} {sound : Prop}

/-- A variable is read. -/
theorem getHeld_sim (hinvoke : T.solo = false → invoke.Alike T invoke') (hw : w.building = none)
    (ha : w.Holds sound name a) :
    MSim T w (getProperty invoke (.object a) name) (getProperty invoke' (.object a) name) Valued := by
  rcases ha with ha | ⟨names, shared, ha, hname, -⟩
  · have hshown : (Value.object a).Shown w := ha
    exact getProperty_sim hinvoke hw hshown name
  · exact getProperty_scope_sim hw ha hname

/-- A variable is written. -/
theorem putHeld_sim (hinvoke : T.solo = false → invoke.Alike T invoke') (hw : w.building = none)
    (ha : w.Holds sound name a) {v : Value} (hv : v.Shown w) (hcount : v.Counts sound name) :
    MSim T w (putProperty invoke (.object a) name v) (putProperty invoke' (.object a) name v)
      Equal := by
  rcases ha with ha | ⟨names, shared, ha, hname, hshared⟩
  · have hshown : (Value.object a).Shown w := ha
    exact putProperty_sim hinvoke hw hshown name hv
  · refine putProperty_scope_sim hw ha hname hv fun hunshared => ?_
    refine hcount.resolve_left fun hsound => ?_
    rw [hshared hsound] at hunshared
    cases hunshared

end Machine

/-- Code runs on both sides in the same scopes, and scripts may look into their records. -/
structure Scene (T : Terms) (S : Stance) (w : World) (c : Chain) (env env' : Env) : Prop where
  envs : env.Match T w env'
  chain : S.chain = some c
  live : Chain.Live w c

theorem Scene.reach (hw : w.Reaches w') (h : Scene T S w c env env') : Scene T S w' c env env' :=
  ⟨h.envs.reach hw, h.chain, h.live.mono hw.roles⟩

theorem Scene.mono (hw : w ≤ w') (h : Scene T S w c env env') : Scene T S w' c env env' :=
  h.reach hw.reaches

namespace Stepper

open ActM

theorem recordOf?_sim (hscene : Scene T S w c env env') (name : String) :
    ASim T S w (recordOf? name) (recordOf? name)
      (Same fun w₁ r => ∀ a, r = some a → w₁.Holds (Chain.Sound w c) name a) := by
  refine .bind (chain_sim hscene.chain) fun w₁ hw₁ chain hchain => lift_sim ?_
  refine Machine.ask_sim fun h h' hh => ⟨hh.alike.recordOf? name chain, fun a ha => ?_⟩
  rw [hchain] at ha
  exact ((hscene.live.mono hw₁.roles).recordOf? hh ha).imp fun hsound => hsound.mono hw₁.roles

/-- What is done with a record that was found, or with the global object. -/
theorem held_sim {sound : Prop} (hscene : Scene T S w c env env') {name : String}
    {r : Option Address} (hr : ∀ a, r = some a → w.Holds sound name a) :
    ASim T S w
      (match r with
        | some a => lift (Machine.getProperty env.invoke (.object a) name)
        | none => lift (Machine.readGlobal env.invoke name))
      (match r with
        | some a => lift (Machine.getProperty env'.invoke (.object a) name)
        | none => lift (Machine.readGlobal env'.invoke name)) Valued := by
  obtain ⟨henv, -, -⟩ := hscene
  cases r with
  | some a => exact lift_sim (Machine.getHeld_sim henv.invoke henv.building (hr a rfl))
  | none => exact lift_sim (Machine.readGlobal_sim henv.invoke henv.building name)

theorem put_sim {sound : Prop} (hscene : Scene T S w c env env') {name : String}
    {r : Option Address} (hr : ∀ a, r = some a → w.Holds sound name a) {v : Value} (hv : v.Shown w)
    (hcount : v.Counts sound name) :
    ASim T S w
      (match r with
        | some a => lift (Machine.putProperty env.invoke (.object a) name v)
        | none => lift (Machine.writeGlobal env.invoke name v))
      (match r with
        | some a => lift (Machine.putProperty env'.invoke (.object a) name v)
        | none => lift (Machine.writeGlobal env'.invoke name v)) Equal := by
  obtain ⟨henv, -, -⟩ := hscene
  cases r with
  | some a => exact lift_sim (Machine.putHeld_sim henv.invoke henv.building (hr a rfl) hv hcount)
  | none => exact lift_sim (Machine.writeGlobal_sim henv.invoke henv.building name hv)

theorem recordOf?_bind {α : Type} (name : String) (g : Option Address → ActM α) (act : Activation)
    (m : Machine) :
    (recordOf? name >>= g) (act, m) = g (Chain.recordOf? m.heap name act.chain) (act, m) := rfl

theorem lookup_of_ne (hname : name ≠ argumentsName) (env : Env) :
    lookup env name = (do
      match ← recordOf? name with
      | some a => lift (Machine.getProperty env.invoke (.object a) name)
      | none => lift (Machine.readGlobal env.invoke name)) := by
  have hne : ¬(name == argumentsName) = true := by simpa using hname
  refine bind_congr fun r => ?_
  cases r with
  | some a => rfl
  | none => exact if_neg hne

theorem lookup_sim (hscene : Scene T S w c env env') (name : String)
    (hargs : name = argumentsName → S.args) :
    ASim T S w (lookup env name) (lookup env' name) Valued := by
  by_cases hname : name = argumentsName
  · refine .bind (recordOf?_sim hscene name) fun w₁ hw₁ r hr => ?_
    have henv := hscene.envs.mono hw₁
    cases r with
    | some a => exact lift_sim (Machine.getHeld_sim henv.invoke henv.building (hr a rfl))
    | none =>
        simp only [hname, BEq.rfl, if_true]
        exact argumentsObject_sim (hargs hname) henv.args.1 henv.args.2
  · rw [lookup_of_ne hname, lookup_of_ne hname]
    exact .bind (recordOf?_sim hscene name) fun w₁ hw₁ r hr => held_sim (hscene.mono hw₁) hr

theorem resolvable_sim (hscene : Scene T S w c env env') (name : String) :
    ASim T S w (resolvable name) (resolvable name) Equal := by
  refine .bind (recordOf?_sim hscene name) fun w₁ hw₁ r hr => ?_
  split
  · exact .pure ⟨rfl, trivial⟩
  · exact lift_sim (Machine.hasGlobal_sim name)

theorem assignName_sim (hscene : Scene T S w c env env') (name : String) {v : Value}
    (hv : v.Shown w) (hcount : v.Counts (Chain.Sound w c) name) :
    ASim T S w (assignName env name v) (assignName env' name v) Equal :=
  .bind (recordOf?_sim hscene name) fun _ hw₁ _ hr =>
    put_sim (hscene.mono hw₁) hr (hv.mono hw₁.roles) hcount

end Stepper

namespace Instrumented

open ActM

variable {scopes : Code.Scopes}

theorem record?_sim (hscene : Scene T S w c env env') (hfits : Chain.Fits w scopes c) (name : String) :
    ASim T S w (record? (scopes.resolve name)) (Stepper.recordOf? name)
      (Same fun w₁ r => (∀ a, r = some a → w₁.Holds (Chain.Sound w c) name a) ∧
        (hasSlot (scopes.resolve name) = true → r.isSome = true)) := by
  refine .bind (chain_sim hscene.chain) fun w₁ hw₁ chain hchain => lift_sim ?_
  subst hchain
  have hfits := hfits.mono hw₁.roles
  have hbuilding := hw₁.building.trans hscene.envs.building
  refine Machine.ask_sim fun h h' hh => ⟨?_, fun a ha => ?_, fun hslot => ?_⟩
  · rw [hh.alike.recordOf? name chain, hfits.recordOf?_resolve hh hbuilding]
  · rw [hfits.recordOf?_resolve hh hbuilding] at ha
    exact (hfits.live.recordOf? hh ha).imp fun hsound => hsound.mono hw₁.roles
  · exact hfits.isSome_of_hasSlot hslot

theorem readRef_sim (hscene : Scene T S w c env env') (hfits : Chain.Fits w scopes c)
    (hname : name ≠ argumentsName) :
    ASim T S w (readRef env (scopes.resolve name)) (Stepper.lookup env' name) Valued := by
  rw [Stepper.lookup_of_ne hname]
  refine .bind (record?_sim hscene hfits name) fun w₁ hw₁ r hr => ?_
  rw [scopes.name_resolve]
  exact Stepper.held_sim (hscene.mono hw₁) hr.1

theorem writeRef_sim (hscene : Scene T S w c env env') (hfits : Chain.Fits w scopes c) (name : String)
    {v : Value} (hv : v.Shown w) (hcount : v.Counts (Chain.Sound w c) name) :
    ASim T S w (writeRef env (scopes.resolve name) v) (Stepper.assignName env' name v) Equal := by
  refine .bind (record?_sim hscene hfits name) fun w₁ hw₁ r hr => ?_
  rw [scopes.name_resolve]
  exact Stepper.put_sim (hscene.mono hw₁) hr.1 (hv.mono hw₁.roles) hcount

theorem resolvable_sim (hscene : Scene T S w c env env') (hfits : Chain.Fits w scopes c)
    (hname : name ≠ argumentsName) :
    ASim T S w (resolvable (scopes.resolve name)) (Stepper.resolvable name) Equal := by
  have hne : (name == argumentsName) = false := by simpa using hname
  refine .bind (record?_sim hscene hfits name) fun w₁ hw₁ r hr => ?_
  have hfound : (hasSlot (scopes.resolve name) || r.isSome) = r.isSome := by
    cases hslot : hasSlot (scopes.resolve name) with
    | false => rfl
    | true => rw [hr.2 hslot, Bool.or_true]
  rw [hfound, hne, Bool.or_false, scopes.name_resolve]
  split
  · exact .pure ⟨rfl, trivial⟩
  · exact lift_sim (Machine.hasGlobal_sim name)

end Instrumented

end Resumption
