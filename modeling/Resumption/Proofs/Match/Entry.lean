import Resumption.Proofs.Match.Declared

/-!
# Entering a function

A function gets a record for its names on entry.  Parameters, variables and its own name are there from
the start; the functions that it declares are added one by one, and until then the record lacks names.
When the body begins they are all there, on both sides.
-/

namespace Resumption

open Script

variable {T : Terms} {D : Unwind → World → Machine → Value → Machine → Prop} {s : Manner}
  {t : IndexedTree} {S : Stance} {w w' : World} {c : Chain} {env env' : Env} {i : Nat} {n : Node}
  {f : Func} {a : Address} {names : List String}

/-! ## The record -/

/-- Adds a variable unless there is one of the name. -/
def Object.bind (o : Object) (name : String) (v : Value) : Object :=
  if o.hasOwn name then o else o.setOwn name v

namespace Object.Binds

variable {o : Object} {shared : Bool}

theorem new : (Object.new .plain none).Binds w names shared where
  kind := rfl
  proto := rfl
  data _ hp := absurd hp List.not_mem_nil
  names _ hp := absurd hp List.not_mem_nil
  count _ _ hp := absurd hp List.not_mem_nil

theorem bind (h : o.Binds w names shared) {key : String} (hkey : key ∈ names) {v : Value}
    (hv : v.Shown w) (hcount : shared = false → key = counterName → v.Plain) :
    (o.bind key v).Binds w names shared := by
  rw [Object.bind]
  split
  · exact h
  · exact h.setOwn hkey hv hcount

theorem hasOwn_bind (h : o.Binds w names shared) (key other : String) (v : Value) :
    (o.bind key v).hasOwn other = (key == other || o.hasOwn other) := by
  rw [Object.bind]
  split
  · rename_i hown
    cases heq : key == other with
    | false => rfl
    | true =>
        rw [← eq_of_beq heq, hown]
        rfl
  · exact h.hasOwn_setOwn key other v

/-- Variables are added one after the other. -/
theorem foldl {β : Type} {g : Object → β → Object} (key : β → String) {l : List β}
    (hg : ∀ o b, b ∈ l → o.Binds w names shared → (g o b).Binds w names shared ∧
      ∀ other, (g o b).hasOwn other = (key b == other || o.hasOwn other)) (h : o.Binds w names shared) :
    (l.foldl g o).Binds w names shared ∧
      ∀ other, (l.foldl g o).hasOwn other = true ↔ other ∈ l.map key ∨ o.hasOwn other = true := by
  induction l generalizing o with
  | nil => exact ⟨h, fun _ => by simp⟩
  | cons b l ih =>
      obtain ⟨hb, hown⟩ := hg o b List.mem_cons_self h
      obtain ⟨hl, hrest⟩ := ih (fun o c hc => hg o c (List.mem_cons_of_mem _ hc)) hb
      refine ⟨hl, fun other => ?_⟩
      rw [List.foldl_cons, hrest, hown, List.map_cons, List.mem_cons, Bool.or_eq_true, beq_iff_eq]
      grind

end Object.Binds

/-- The record of a function that does not know itself. -/
theorem entryRecord_none (params vars : List String) {args : List Value} {shared : Bool}
    (hargs : ∀ v ∈ args, v.Shown w) (hparams : ∀ name ∈ params, name ∈ names)
    (hvars : ∀ name ∈ vars, name ∈ names) (hcount : shared = false → counterName ∉ params) :
    (entryRecord params args vars none).Binds w names shared ∧
      ∀ name, (entryRecord params args vars none).hasOwn name = true ↔ name ∈ params ∨ name ∈ vars := by
  have hzip : params.zipIdx.map Prod.fst = params := by simp
  obtain ⟨hfirst, hown⟩ := Object.Binds.foldl (w := w) (l := params.zipIdx) Prod.fst
    (g := fun o (p : String × Nat) => o.setOwn p.1 (Machine.arg args p.2))
    (fun o p hp ho => ⟨ho.setOwn (hparams _ (hzip ▸ List.mem_map_of_mem hp))
      (Machine.arg_shown hargs _) fun hshared heq =>
        absurd (heq ▸ hzip ▸ List.mem_map_of_mem hp) (hcount hshared), fun other => ho.hasOwn_setOwn _ _ _⟩) .new
  obtain ⟨hsecond, hown'⟩ := Object.Binds.foldl (w := w) (l := vars) id
    (g := fun o name => o.bind name .undefined)
    (fun o name hname ho => ⟨ho.bind (hvars _ hname) trivial fun _ _ => trivial, fun other => ho.hasOwn_bind _ _ _⟩)
    hfirst
  refine ⟨hsecond, fun name => ?_⟩
  refine (hown' name).trans ?_
  rw [hown name, List.map_id, hzip]
  have hempty : (Object.new .plain none).hasOwn name = false := rfl
  rw [hempty]
  grind

/-- The function's own name comes last. -/
theorem entryRecord_some (params vars : List String) (args : List Value) (name : String) (v : Value) :
    entryRecord params args vars (some (name, v)) = (entryRecord params args vars none).bind name v :=
  rfl

theorem IndexedTree.mem_ownNames {name : String} :
    name ∈ t.ownNames i n f ↔ name ∈ f.params ∨ name ∈ (t.declarationsOf f i).vars ∨
      name ∈ (t.declarationsOf f i).functions.map Prod.fst ∨ n.selfName? = some name := by
  simp only [ownNames, List.mem_append, Declarations.mem_names, Option.mem_toList,
    Option.filter_eq_some_iff, Bool.not_eq_true', List.contains_eq_mem, decide_eq_false_iff_not]
  grind

/-- The record of a function on entry. -/
def IndexedTree.entered (t : IndexedTree) (i : Nat) (n : Node) (f : Func) (args : List Value)
    (callee : Value) : Object :=
  let decls := t.declarationsOf f i
  entryRecord f.params args decls.vars
    ((n.selfName?.filter (fun name => !(decls.names f.params).contains name)).map
      (fun name => (name, callee)))

/-- On entry a record has all names but those of declared functions. -/
theorem IndexedTree.entered_binds {args : List Value} (hargs : ∀ v ∈ args, v.Shown w)
    {callee : Value} (hcallee : callee.Shown w) {shared : Bool}
    (hcount : shared = false → counterName ∉ f.params ∧ n.selfName? ≠ some counterName) :
    (t.entered i n f args callee).Binds w (t.ownNames i n f) shared ∧
      ∀ name ∈ t.ownNames i n f, name ∈ (t.declarationsOf f i).functions.map Prod.fst ∨
        (t.entered i n f args callee).hasOwn name = true := by
  obtain ⟨hbinds, hown⟩ := entryRecord_none f.params (t.declarationsOf f i).vars hargs
    (fun name h => mem_ownNames.2 (.inl h))
    (fun name h => mem_ownNames.2 (.inr (.inl h))) fun hshared => (hcount hshared).1
  have hfirst : ∀ name ∈ (t.declarationsOf f i).names f.params,
      name ∈ (t.declarationsOf f i).functions.map Prod.fst ∨
        (entryRecord f.params args (t.declarationsOf f i).vars none).hasOwn name = true := by
    intro name hname
    rw [hown]
    rcases Declarations.mem_names.1 hname with h | h | h
    · exact .inr (.inl h)
    · exact .inr (.inr h)
    · exact .inl h
  have hnames : t.ownNames i n f = (t.declarationsOf f i).names f.params ++ (n.selfName?.filter
      (fun name => !((t.declarationsOf f i).names f.params).contains name)).toList := rfl
  rw [entered]
  revert hnames
  cases hself : n.selfName?.filter
      (fun name => !((t.declarationsOf f i).names f.params).contains name) with
  | none =>
      intro hnames
      refine ⟨hbinds, fun name hname => hfirst name ?_⟩
      simpa [hnames] using hname
  | some self =>
      intro hnames
      have hcounts : shared = false → self = counterName → callee.Plain := by
        rintro hshared rfl
        exact absurd (Option.filter_eq_some_iff.1 hself).1 (hcount hshared).2
      refine ⟨hbinds.bind (by simp [hnames]) hcallee hcounts, fun name hname => ?_⟩
      dsimp only [Option.map_some, entryRecord_some]
      rw [hbinds.hasOwn_bind, Bool.or_eq_true, beq_iff_eq]
      rw [hnames, List.mem_append, Option.mem_toList, Option.some_inj] at hname
      rcases hname with hname | rfl
      · exact (hfirst name hname).imp_right .inr
      · exact .inr (.inl rfl)

/-- The same record is found where only the names of declared functions come before the function's own
name: a parameter or a variable of this name is not overwritten. -/
theorem Stepper.entryRecord_eq (hat : t.At i n) (hf : n.func? = some f) {args : List Value}
    {callee : Value} (hargs : ∀ v ∈ args, v.Shown w) :
    entryRecord f.params args (t.declarationsOf f i).vars
        ((selfName? t i f (t.declarationsOf f i)).map (fun name => (name, callee))) =
      t.entered i n f args callee := by
  obtain ⟨hbinds, hown⟩ := entryRecord_none f.params (t.declarationsOf f i).vars hargs
    (fun name h => (IndexedTree.mem_ownNames (i := i) (n := n)).2 (.inl h))
    (fun name h => IndexedTree.mem_ownNames.2 (.inr (.inl h)))
    fun (hshared : true = false) => nomatch hshared
  have hself : selfName? t i f (t.declarationsOf f i) = n.selfName?.filter
      (fun name => !(t.declarationsOf f i).functions.any (fun d => d.1 == name)) := by
    rw [selfName?, hat.node?]
    cases n with
    | expr e =>
        cases e with
        | function g =>
            cases hf
            cases hname : f.name with
            | none => simp [Node.selfName?, hname]
            | some name =>
                simp only [Node.selfName?, hname, Option.filter_some]
                split <;> simp_all
        | _ => cases hf
    | _ => rfl
  rw [hself, IndexedTree.entered]
  cases hname : n.selfName? with
  | none => rfl
  | some name =>
      have hlast : ∀ p : String → Bool, entryRecord f.params args (t.declarationsOf f i).vars
          (((some name).filter p).map (fun name => (name, callee))) =
          if p name then
            (entryRecord f.params args (t.declarationsOf f i).vars none).bind name callee
          else entryRecord f.params args (t.declarationsOf f i).vars none := by
        intro p
        rw [Option.filter_some]
        split <;> rfl
      rw [hlast, hlast]
      by_cases hbase : name ∈ f.params ∨ name ∈ (t.declarationsOf f i).vars
      · rw [Object.bind, if_pos ((hown name).2 hbase), ite_self, ite_self]
      · have hiff : name ∈ (t.declarationsOf f i).names f.params ↔
            (t.declarationsOf f i).functions.any (fun d => d.1 == name) = true := by
          rw [Declarations.mem_names, List.any_eq_true]
          simp only [List.mem_map, beq_iff_eq]
          grind
        congr 1
        rw [List.contains_eq_mem]
        simp only [hiff, Bool.decide_eq_true]

/-- Functions are declared only where scopes are shared. -/
theorem Terms.Fair.shares {g : Func} (h : T.Fair s (.stmt (.function g))) (key : String)
    (v : Value) : s.opens = false → key = counterName → v.Plain := by
  intro hclosed
  rw [h.opens And.left] at hclosed
  cases hclosed

/-! ## Records that lack names -/

/-- The same world, but now this record may lack names. -/
def World.lacking (w : World) (b : Option Address) : World := { w with building := b }

/-- The record that lacked names has got them. -/
theorem Heap.Match.lacking {h h' : Heap} (hh : h.Match T w h') (b : Option Address)
    (hb : ∀ a names shared, w.role? a = some (.scope names shared) → w.building = some a →
      b = some a ∨ ∀ name ∈ names, (h.object a).hasOwn name = true) :
    h.Match T (w.lacking b) h' := by
  have hroles : w.roles <+: (w.lacking b).roles := List.prefix_refl _
  refine ⟨hh.alike, hh.size, fun a r ha => ?_, hh.ground.mono hroles,
    fun hsolo => (hh.lends hsolo).mono hroles⟩
  have hsuits := hh.suits a r ha
  cases r with
  | shown => exact ⟨hsuits.1.mono hroles, hsuits.2⟩
  | hidden => trivial
  | scope names shared =>
      refine ⟨hsuits.1.mono hroles, fun hne => ?_⟩
      by_cases hbuilding : w.building = some a
      · exact (hb a names shared ha hbuilding).resolve_left hne
      · exact hsuits.2 hbuilding
  | fixed p => exact hsuits

theorem Machine.Match.lacking {m m' : Machine} (hm : m.Match T w m') (b : Option Address)
    (hb : ∀ a names shared, w.role? a = some (.scope names shared) → w.building = some a →
      b = some a ∨ ∀ name ∈ names, (m.heap.object a).hasOwn name = true) :
    m.Match T (w.lacking b) m' :=
  { hm with
    heap := hm.heap.lacking b hb
    shown := fun methods hmethods p hp => (hm.shown methods hmethods p hp).mono (List.prefix_refl _) }

/-- A function's record is made, and may lack names. -/
theorem Machine.Match.alloc_record {m m' : Machine} (hm : m.Match T w m') (hw : w.building = none)
    {o : Object} {shared : Bool} (ho : o.Binds w names shared) :
    Machine.Match T ((w.grow (.scope names shared)).lacking (some m.heap.size))
      { m with heap := (m.heap.alloc o).2 } { m' with heap := (m'.heap.alloc o).2 } := by
  have hlacking : m.Match T (w.lacking (some m.heap.size)) m' :=
    hm.lacking _ fun a names shared ha hbuilding => by
      rw [hw] at hbuilding
      cases hbuilding
  have hgrow := (w.lacking (some m.heap.size)).le_grow (.scope names shared)
  exact hlacking.withHeap hgrow (hlacking.heap.alloc (.scope names shared) (.refl o)
    ⟨ho.mono (w.le_grow _).roles, fun hne => absurd rfl hne⟩)

/-! ## Declared functions get their names -/

/-- A record has got names, and has kept those it had. -/
structure Heap.Gains (a : Address) (names : List String) (h h' : Heap) : Prop where
  lt : a < h'.size
  kind : (h'.object a).kind = .plain
  keeps : ∀ name, (h.object a).hasOwn name = true → (h'.object a).hasOwn name = true
  gains : ∀ name ∈ names, (h'.object a).hasOwn name = true

namespace Stepper

open ActM

theorem recorded_sim (henv : env.Match T w env') (hi : Vacant S.books i) {x x' : ActM Value}
    (h : ASim T S w' x x' Valued) : ASim T S w' (recorded env i x) (recorded env' i x') Valued :=
  kept_sim (fun _ _ _ hv => hv.1) (fun v => record_books hi env v)
    (fun v => record_books (.any i) env' v) (fun hT v => record_even henv hT i v) h

theorem setOwn_plain {m : Machine} (key : String) (v : Value)
    (hkind : (m.heap.object a).kind = .plain) :
    Machine.setOwn a key v m =
      .ok () { m with heap := m.heap.modify a (fun o => o.setOwn key v) } := by
  have harray : (m.heap.object a).isArray = false := by
    rw [Object.isArray, Object.elements?, hkind]
    rfl
  change (if (key == lengthKey && (m.heap.object a).isArray) = true then _ else
    Machine.modifyHeap (fun h => h.modify a (fun o => o.setOwn key v)) : MachineM Unit) m = _
  rw [harray, Bool.and_false, if_neg Bool.false_ne_true]
  rfl

theorem hoist_gains (env : Env) (name : String) (hf : t.func? i = some f) (act : Activation)
    (m : Machine) (hlt : a < m.heap.size) (hkind : (m.heap.object a).kind = .plain) :
    ∃ act' m', hoist env t a name i (act, m) = .ok () (act', m') ∧
      Heap.Gains a [name] m.heap m'.heap := by
  obtain ⟨o, hmake⟩ : ∃ o, makeClosure env t i f (act, m) =
      .ok (.object m.heap.size) (act, { m with heap := (m.heap.alloc o).2 }) := ⟨_, rfl⟩
  obtain ⟨act', hrecord⟩ : ∃ act', record env i (.object m.heap.size)
      (act, { m with heap := (m.heap.alloc o).2 }) =
        .ok () (act', { m with heap := (m.heap.alloc o).2 }) := by
    rw [record]
    split <;> exact ⟨_, rfl⟩
  have hold : (m.heap.alloc o).2.object a = m.heap.object a := by
    rw [Heap.object_alloc, if_neg (Nat.ne_of_lt hlt)]
  have hlt' : a < (m.heap.alloc o).2.size := by
    rw [Heap.size_alloc]
    exact Nat.lt_succ_of_lt hlt
  refine ⟨act', { m with
    heap := (m.heap.alloc o).2.modify a (fun p => p.setOwn name (.object m.heap.size)) }, ?_, ?_⟩
  · rw [hoist, hf]
    change (recorded env i (makeClosure env t i f) >>= fun v => lift (Machine.setOwn a name v))
      (act, m) = _
    rw [recorded, bind_assoc, bind_apply, hmake]
    dsimp only [andThen]
    rw [bind_assoc, bind_apply, hrecord]
    dsimp only [andThen]
    rw [pure_bind, lift,
      setOwn_plain (m := Machine.suspend act' { m with heap := (m.heap.alloc o).2 })]
    · rfl
    · exact (congrArg Object.kind hold).trans hkind
  · have hnew : ((m.heap.alloc o).2.modify a fun p => p.setOwn name (.object m.heap.size)).object a =
        (m.heap.object a).setOwn name (.object m.heap.size) := by
      rw [Heap.object_modify _ _ _ _ hlt', if_pos rfl, hold]
    refine ⟨by rwa [Heap.size_modify], ?_, fun key hkey => ?_, fun key hkey => ?_⟩
    · rw [hnew]
      exact Object.kind_setOwn hkind _ _
    · rw [hnew, Object.hasOwn_setOwn hkind, hkey, Bool.or_true]
    · rw [hnew, Object.hasOwn_setOwn hkind, List.mem_singleton.1 hkey, beq_self_eq_true, Bool.true_or]

theorem instantiate_gains (env : Env) (functions : List (String × Nat))
    (hfunctions : ∀ d ∈ functions, (t.func? d.2).isSome = true) (act : Activation) (m : Machine)
    (hlt : a < m.heap.size) (hkind : (m.heap.object a).kind = .plain) :
    ∃ act' m', instantiate env t a functions (act, m) = .ok () (act', m') ∧
      Heap.Gains a (functions.map Prod.fst) m.heap m'.heap := by
  induction functions generalizing act m with
  | nil =>
      exact ⟨act, m, rfl, hlt, hkind, fun _ h => h, fun _ h => absurd h List.not_mem_nil⟩
  | cons d functions ih =>
      obtain ⟨name, i⟩ := d
      obtain ⟨f, hf⟩ := Option.isSome_iff_exists.1 (hfunctions _ List.mem_cons_self)
      obtain ⟨act₁, m₁, hhoist, hfirst⟩ := hoist_gains env name hf act m hlt hkind
      obtain ⟨act₂, m₂, hrest, hgains⟩ := ih (fun d hd => hfunctions d (List.mem_cons_of_mem _ hd))
        act₁ m₁ hfirst.lt hfirst.kind
      refine ⟨act₂, m₂, ?_, hgains.lt, hgains.kind, fun key h => hgains.keeps key (hfirst.keeps key h),
        fun key hkey => ?_⟩
      · change EStateM.bind (hoist env t a name i) _ (act, m) = _
        rw [EStateM.bind, hhoist]
        exact hrest
      · rcases List.mem_cons.1 hkey with rfl | hkey
        · exact hgains.keeps _ (hfirst.gains _ (List.mem_singleton_self _))
        · exact hgains.gains key hkey

/-- The same closures on both sides. -/
theorem instantiate_sim (h : Walked T s t S w c env env') {functions : List (String × Nat)}
    (hfunctions : ∀ d ∈ functions, d.1 ∈ names ∧
      ∃ f, Placed T s t S.books d.2 (.stmt (.function f)))
    (hw : w.roles <+: w'.roles) (ha : w'.role? a = some (.scope names s.opens)) :
    ASim T S w' (instantiate env t a functions) (instantiate env' t a functions) Equal := by
  induction functions generalizing w' with
  | nil => exact .pure ⟨rfl, trivial⟩
  | cons d functions ih =>
      obtain ⟨name, i⟩ := d
      obtain ⟨hname, f, hplaced⟩ := hfunctions _ List.mem_cons_self
      have hhoist : ASim T S w' (hoist env t a name i) (hoist env' t a name i) Equal := by
        rw [hoist, hoist, hplaced.stands.func?]
        refine .bind (recorded_sim h.envs (hplaced.vacant rfl)
          (makeClosure_sim h hw (.inr rfl) hplaced)) fun w₁ hw₁ v hv => ?_
        exact lift_sim (Machine.setOwn_scope (World.role?_mono hw₁.roles ha) hname hv
          (hplaced.fair.shares _ _))
      refine .bind hhoist fun w₁ hw₁ _ _ => ?_
      exact ih (fun d hd => hfunctions d (List.mem_cons_of_mem _ hd)) (hw.trans hw₁.roles)
        (World.role?_mono hw₁.roles ha)

end Stepper

theorem IndexedTree.Along.atAll {K : Cache → Prop} {l : List Node}
    (h : t.Along (Placed T s t K) i l) : t.AtAll i l := by
  induction l generalizing i with
  | nil => trivial
  | cons n l ih => exact ⟨h.1.stands, ih h.2⟩

/-- Twins on both sides. -/
theorem Instrumented.instantiate_sim {scopes : Code.Scopes} {l : List Node} {found : List Code.Found}
    {functions : List (String × Nat)} {hoisted : List Code.Hoisted}
    (h : Pictured T s t S w scopes c env env') (hfinds : Code.Finds t scopes i l found)
    (hplaced : t.Along (Placed T s t S.books) i l)
    (hfunctions : ∀ d ∈ functions, d.1 ∈ names ∧ .function d.1 d.2 ∈ t.declaredIn i l)
    (hhoisted : Code.hoist functions found = .ok hoisted)
    (hw : w.roles <+: w'.roles) (ha : w'.role? a = some (.scope names s.opens)) :
    ASim T S w' (instantiate env a hoisted) (Stepper.instantiate env' t a functions) Equal := by
  induction functions generalizing w' hoisted with
  | nil =>
      cases hhoisted
      exact .pure ⟨rfl, trivial⟩
  | cons d functions ih =>
      obtain ⟨name, j⟩ := d
      obtain ⟨hname, hdeclared⟩ := hfunctions _ List.mem_cons_self
      obtain ⟨f, value, rest, hat, hvalue, hrest, rfl⟩ :=
        Code.hoist_cons_eq_ok hfinds hplaced.atAll hdeclared hhoisted
      obtain ⟨g, -, hg⟩ := hplaced.declared hdeclared
      cases hat.unique hg.stands
      obtain ⟨x, heval, hx⟩ := closure_sim h hw (.inr rfl) hat hg.fair hvalue
      rw [instantiate, Stepper.instantiate, Stepper.hoist, hat.func?, heval]
      dsimp only [Node.func?]
      rw [bind_assoc]
      refine .bind (Stepper.recorded_sim h.envs (hg.vacant rfl) hx) fun w₁ hw₁ v hv => ?_
      have ha := World.role?_mono hw₁.roles ha
      refine .bind (ActM.lift_sim (Machine.setOwn_scope ha hname hv (hg.fair.shares _ _))) fun w₂ hw₂ _ _ => ?_
      exact ih (fun d hd => hfunctions d (List.mem_cons_of_mem _ hd)) hrest
        ((hw.trans hw₁.roles).trans hw₂.roles) (World.role?_mono hw₂.roles ha)

/-- When the body begins, all names are there on both sides, unless the left was halted before. -/
theorem Stepper.enters {m m' : Machine} (hm : m.Match T w m') (hw : w.building = none) {o : Object}
    {shared : Bool} (ho : o.Binds w names shared) {functions : List (String × Nat)}
    (hpresent : ∀ name ∈ names, name ∈ functions.map Prod.fst ∨ o.hasOwn name = true)
    (hfunctions : ∀ d ∈ functions, (t.func? d.2).isSome = true) {act act' : Activation}
    (hact : act.Match T S w act') {make : ActM Unit}
    (hmake : ASim T S ((w.grow (.scope names shared)).lacking (some m.heap.size)) make
      (instantiate env' t m.heap.size functions) Equal) :
    (∃ w₁ s s', w.grow (.scope names shared) ≤ w₁ ∧ (Activation.tie T S).holds w₁ s s' ∧
      make (act, { m with heap := (m.heap.alloc o).2 }) = .ok () s ∧
      instantiate env' t m.heap.size functions (act', { m' with heap := (m'.heap.alloc o).2 }) =
        .ok () s') ∨
    ∃ u s, T.Strays u ∧ make (act, { m with heap := (m.heap.alloc o).2 }) = .error (.unwind u) s := by
  have hroles : w.roles <+: (w.grow (.scope names shared)).roles := (w.le_grow _).roles
  have hsize : m'.heap.size = m.heap.size := hm.heap.alike.size
  have hself : (m'.heap.alloc o).2.object m.heap.size = o := by
    rw [Heap.object_alloc, hsize, if_pos rfl]
  obtain ⟨act₁, m₁, hright, hgains⟩ := instantiate_gains (a := m.heap.size) env' functions hfunctions
    act' { m' with heap := (m'.heap.alloc o).2 }
    (by rw [Heap.size_alloc, hsize]; exact Nat.lt_succ_self _)
    ((congrArg Object.kind hself).trans ho.kind)
  have hends := hmake (act, _) (act', _) ⟨hact.mono hroles, hm.alloc_record hw ho⟩
  rw [hright] at hends
  revert hends
  generalize make (act, { m with heap := (m.heap.alloc o).2 }) = r
  rintro (⟨w₁, hw₁, ⟨hact₁, hm₁⟩, -⟩ | _ | _ | _ | hstrays)
  case strayed => exact .inr ⟨_, _, hstrays, rfl⟩
  have hrole : w₁.role? m.heap.size = some (.scope names shared) := by
    refine World.role?_mono hw₁.roles ?_
    rw [← hm.heap.size]
    exact World.role?_grow_self w _
  have hnow : w₁.roles <+: (w₁.lacking none).roles := List.prefix_refl _
  refine .inl ⟨w₁.lacking none, (_, _), _, ⟨hw₁.roles, hw.symm, hw₁.lag⟩, ⟨hact₁.mono hnow, ?_⟩, rfl, hright⟩
  refine hm₁.lacking none fun a names' shared' ha hbuilding => .inr fun name hname => ?_
  rw [hw₁.building] at hbuilding
  cases hbuilding
  rw [hrole] at ha
  cases ha
  rw [← (hm₁.heap.alike.object _).hasOwn]
  rcases hpresent name hname with hfunction | hown
  · exact hgains.gains name hfunction
  · exact hgains.keeps name ((congrArg (fun o => o.hasOwn name) hself).trans hown)

end Resumption
