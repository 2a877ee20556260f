import Resumption.Engine.ArrayMethods
import Resumption.Proofs.Code.Labels
import Resumption.Proofs.Index.Numbering
import Resumption.Proofs.Match.Calls

/-!
# Which programs take part

Where calls may stand anywhere, a program takes part in a comparison if it never asks for the arguments
of a function, and, where pauses are taken on the left, if its `debugger` statements are its own.  The
instrumented array methods take part in a manner of their own.
-/

namespace Resumption

open Script

variable {T : Terms} {s : Manner} {n c : Node}

/-! ## Nodes that leave traces -/

/-- The node and everything below it, but nothing inside of functions without books. -/
def Script.Node.traced (n : Node) : List Node :=
  n :: if n.isEscaped then [] else n.children.attach.flatMap (fun ⟨c, _⟩ => c.traced)
termination_by n.weight
decreasing_by exact Node.weight_lt_of_mem_children ‹_›

namespace Script.Node

theorem mem_traced_self (n : Node) : n ∈ n.traced := by
  rw [traced]
  exact List.mem_cons_self

theorem mem_traced : c ∈ n.traced ↔
    c = n ∨ n.isEscaped = false ∧ ∃ b ∈ n.children, c ∈ b.traced := by
  rw [traced, List.mem_cons]
  cases n.isEscaped with
  | true => simp
  | false => simp

theorem mem_traced_of_child {b : Node} (hn : n.isEscaped = false) (hb : b ∈ n.children)
    (hc : c ∈ b.traced) : c ∈ n.traced :=
  mem_traced.2 (.inr ⟨hn, b, hb, hc⟩)

theorem mem_traced_trans {b : Node} (hn : n ∈ b.traced) (hc : c ∈ n.traced) : c ∈ b.traced := by
  rcases mem_traced.1 hn with rfl | ⟨hb, d, hd, hn⟩
  · exact hc
  · exact mem_traced_of_child hb hd (mem_traced_trans hn hc)
termination_by b.weight
decreasing_by exact Node.weight_lt_of_mem_children hd

theorem mem_preorder_self (n : Node) : n ∈ n.preorder := by
  rw [preorder]
  exact List.mem_cons_self

theorem mem_preorder_of_child {b : Node} (hb : b ∈ n.children) (hc : c ∈ b.preorder) :
    c ∈ n.preorder := by
  rw [preorder]
  exact List.mem_cons_of_mem _ (List.mem_flatMap.2 ⟨⟨b, hb⟩, List.mem_attach _ _, hc⟩)

theorem traced_subset_preorder (n : Node) : n.traced ⊆ n.preorder := by
  intro c hc
  rcases mem_traced.1 hc with rfl | ⟨-, b, hb, hc⟩
  · exact mem_preorder_self _
  · exact mem_preorder_of_child hb (traced_subset_preorder b hc)
termination_by n.weight
decreasing_by exact Node.weight_lt_of_mem_children hb

end Script.Node

/-! ## Fairness -/

namespace Terms

/-- Where calls may stand anywhere, it is enough that nothing below stands in the way. -/
theorem Fair.intro_free (hsolo : T.solo = false) (hadmits : T.Admits s n)
    (hbelow : n.isEscaped = false → ∀ c ∈ n.children, T.Fair (s.below n) c) : T.Fair s n :=
  .intro ⟨hadmits, fun h => by rw [hsolo] at h; cases h⟩ hbelow

theorem below_script (n : Node) : Manner.script.below n = .script := by
  unfold Manner.below
  split <;> rfl

theorem Fair.of_script {n : Node} (hsolo : T.solo = false) (h : ∀ c ∈ n.traced, T.Admits .script c) :
    T.Fair .script n := by
  refine .intro_free hsolo (h n n.mem_traced_self) fun hn b hb => ?_
  rw [below_script]
  exact Fair.of_script hsolo fun c hc => h c (Node.mem_traced_of_child hn hb hc)
termination_by n.weight
decreasing_by exact Node.weight_lt_of_mem_children hb

theorem below_top (n : Node) : Manner.top.below n = .script ∧ (∃ f, n.Introduces f) ∨
    Manner.top.below n = .top := by
  unfold Manner.below
  split
  · exact .inl ⟨rfl, _, .inr rfl⟩
  · exact .inl ⟨rfl, _, .inl rfl⟩
  · exact .inr rfl

theorem Fair.of_top {n : Node} (hsolo : T.solo = false) (h : ∀ c ∈ n.traced, T.Admits .top c)
    (hinner : ∀ m ∈ n.traced, ∀ f, m.Introduces f → ∀ c ∈ m.traced, T.Admits .script c) :
    T.Fair .top n := by
  refine .intro_free hsolo (h n n.mem_traced_self) fun hn b hb => ?_
  rcases below_top n with ⟨hbelow, f, hf⟩ | hbelow
  · rw [hbelow]
    exact .of_script hsolo fun c hc =>
      hinner n n.mem_traced_self f hf c (Node.mem_traced_of_child hn hb hc)
  · rw [hbelow]
    exact Fair.of_top hsolo (fun c hc => h c (Node.mem_traced_of_child hn hb hc))
      fun m hm => hinner m (Node.mem_traced_of_child hn hb hm)
termination_by n.weight
decreasing_by exact Node.weight_lt_of_mem_children hb

/-- Scripts may do anything but ask for arguments, and pause where only the outermost function may. -/
theorem admits_of_opens (hsolo : T.solo = false) (hs : s.opens = true)
    (hargs : n ≠ .expr (.ident argumentsName))
    (hdebugger : T.pauses = .left → s ≠ .top → n ≠ .stmt .debugger) : T.Admits s n := by
  have hfree : ∀ {p : Prop}, T.solo = true → p := fun h => by
    rw [hsolo] at h
    cases h
  have hspares : ∀ e, Spares s e := by
    rintro e rfl
    cases hs
  have hcounts : ∀ target op value, KeepsCount s target op value := fun _ _ _ h => by
    rw [hs] at h
    cases h
  unfold Admits
  split
  · rintro rfl
    exact absurd rfl hargs
  · refine ⟨hspares _, hcounts _ _ _, ?_⟩
    rintro rfl
    cases hs
  · exact hspares _
  · exact ⟨hspares _, hfree⟩
  · exact ⟨hs, hfree⟩
  · exact ⟨hs, hfree⟩
  · exact ⟨hfree, hspares _⟩
  · exact hfree
  · exact fun _ _ => hcounts _ _ _
  · intro hpauses
    by_cases htop : s = .top
    · exact .inr htop
    · exact absurd rfl (hdebugger hpauses htop)
  · exact hs
  · exact hs
  · exact hs
  · exact hs
  · trivial

end Terms

/-! ## The instrumented array methods -/

namespace Script

/-- A number that stands there as such is given to the count. -/
def Expr.keepsCount (target : Expr) (op : Option BinaryOp) (value : Expr) : Bool :=
  match target, op, value with
  | .ident _, none, .num _ => true
  | .ident name, _, _ => name != counterName
  | _, _, _ => true

/-- If a call is written to an element, the count is what finds it. -/
def Expr.finds (target value : Expr) : Bool :=
  match target with
  | .index _ (.ident key) => !value.isInvocation || key == counterName && value.callsRead
  | .index _ _ => !value.isInvocation
  | _ => true

/-- One of the statements of the body declares a variable of the name. -/
def Func.declaresVar (f : Func) (name : String) : Bool :=
  f.body.any (fun stmt => (stmt.declares 0).contains (.var name))

namespace Node

/-- The node makes no functions, no scopes and no pauses, and neither the arguments nor anything found
in them is written to or called; they are asked for only in the manner that may do so. -/
def isModest (s : Manner) : Node → Bool
  | .expr (.ident name) => s == .own || name != argumentsName
  | .expr (.assign op e v) => e.root? != some argumentsName && e.keepsCount op v && e.finds v
  | .expr (.update _ _ e) | .expr (.call e _) | .expr (.construct e _) =>
    e.root? != some argumentsName
  | .expr (.function _) | .stmt (.function _) | .stmt .debugger | .stmt (.withScope _ _)
  | .stmt (.attempt _ _ _) | .stmt (.forIn _ _ _) | .stmt (.switch _ _) => false
  | .property p => p.kind == .init
  | .declarator d => d.init.all ((Expr.ident d.name).keepsCount none)
  | .stmt s => (s.declares 0).all (· != .var argumentsName)
  | _ => true

/-- Moreover, calls stand alone there, if there are any. -/
def standsAlone (s : Manner) (n : Node) : Bool :=
  n.isModest s && n.children.all (n.seats s) &&
    match n with
    | .expr (.call _ _) => s != .own
    | _ => true

/-- If a call is written to an element, variables that the function declares find it. -/
def seeks (f : Func) : Node → Bool
  | .expr (.assign none (.index (.ident object) (.ident key)) value) =>
    !value.isInvocation || f.declaresVar object && f.declaresVar key
  | _ => true

/-- It holds of the node and of everything below it, which is no deeper than that. -/
def everywhere (p : Node → Bool) : Nat → Node → Bool
  | 0, _ => false
  | depth + 1, n => p n && n.children.all (everywhere p depth)

theorem everywhere_succ {p : Node → Bool} {depth : Nat} (h : n.everywhere p (depth + 1) = true) :
    p n = true ∧ ∀ c ∈ n.children, c.everywhere p depth = true := by
  rwa [everywhere, Bool.and_eq_true, List.all_eq_true] at h

theorem everywhere_of_mem {p : Node → Bool} {depth : Nat} (h : n.everywhere p depth = true)
    (hc : c ∈ n.preorder) : p c = true := by
  induction depth generalizing n with
  | zero => cases h
  | succ depth ih =>
      obtain ⟨hn, hchildren⟩ := everywhere_succ h
      rw [preorder_eq, List.mem_cons, List.mem_flatMap] at hc
      obtain rfl | ⟨b, hb, hc⟩ := hc
      · exact hn
      · exact ih (hchildren b hb) hc

end Node

end Script

namespace ArrayMethods

/-- What the array methods are made of. -/
theorem modest : ∀ f ∈ all, ∀ c ∈ Node.ofStmts f.body, c.everywhere (Node.isModest .own) 8 = true := by
  decide

/-- They ask for their arguments before they call anything. -/
theorem parted : ∀ f ∈ all, ∃ k ∈ [1, 3],
    (∀ c ∈ Node.ofStmts (f.body.take k), c.everywhere (Node.standsAlone .own) 8 = true) ∧
      ∀ c ∈ Node.ofStmts (f.body.drop k), c.everywhere (Node.standsAlone .apart) 8 = true := by
  decide

/-- Where a call is written to an element, variables of their own find it. -/
theorem seeks : ∀ f ∈ all, (Node.func f).everywhere (Node.seeks f) 9 = true := by
  decide

end ArrayMethods

namespace Terms

theorem keepsCount_iff {target value : Expr} {op : Option BinaryOp}
    (h : target.keepsCount op value = true) : KeepsCount s target op value := by
  rintro - rfl
  unfold Expr.keepsCount at h
  split at h
  · exact ⟨rfl, _, rfl⟩
  · rename_i heq _
    cases heq
    exact absurd h (by decide)
  · rename_i h₁ _
    exact absurd rfl (h₁ _)

theorem finds_iff {target value : Expr} (h : target.finds value = true) : Finds s target value := by
  rintro - object key rfl hvalue
  unfold Expr.finds at h
  split at h
  · rename_i heq
    cases heq
    rw [hvalue] at h
    simpa using h
  · rename_i heq
    cases heq
    rw [hvalue] at h
    cases h
  · rename_i h₁
    exact absurd rfl (h₁ _ _)

theorem admits_of_isModest (hs : s = .own ∨ s = .apart) (h : n.isModest s = true)
    (hcall : T.solo = true → s = .own → ∀ callee args, n ≠ .expr (.call callee args)) :
    T.Admits s n := by
  have hopens : s.opens = false := by rcases hs with rfl | rfl <;> rfl
  unfold Admits
  split <;> simp only [Node.isModest, Bool.and_eq_true, Bool.or_eq_true, beq_iff_eq, bne_iff_ne,
    ne_eq, Bool.false_eq_true] at h
  · exact fun hname => h.resolve_right (absurd hname)
  · exact ⟨fun _ => h.1.1, keepsCount_iff h.1.2, finds_iff h.2⟩
  · exact fun _ => h
  · exact ⟨fun _ => h, fun hsolo hown => hcall hsolo hown _ _ rfl⟩
  · exact ⟨fun _ => hopens, fun _ => h⟩
  · exact fun _ => h
  · intro init hinit
    rw [hinit] at h
    exact keepsCount_iff h
  · trivial

theorem below_of_isModest (h : n.isModest s = true) : s.below n = s := by
  unfold Manner.below
  split
  · cases h
  · cases h
  · rfl

theorem Fair.of_everywhere {p : Node → Bool} (hp : ∀ n, p n = true → n.isModest s = true ∧ T.Allows s n)
    {depth : Nat} (h : n.everywhere p depth = true) : T.Fair s n := by
  induction depth generalizing n with
  | zero => cases h
  | succ depth ih =>
      obtain ⟨hn, hchildren⟩ := Node.everywhere_succ h
      refine .intro (hp n hn).2 fun _ c hc => ?_
      rw [below_of_isModest (hp n hn).1]
      exact ih (hchildren c hc)

theorem allows_of_standsAlone (hs : s = .own ∨ s = .apart) (h : n.standsAlone s = true) :
    n.isModest s = true ∧ T.Allows s n := by
  simp only [Node.standsAlone, Bool.and_eq_true, List.all_eq_true] at h
  obtain ⟨⟨hmodest, hseats⟩, hcall⟩ := h
  refine ⟨hmodest, admits_of_isModest hs hmodest ?_, fun _ => hseats⟩
  rintro - rfl callee args rfl
  cases hcall

/-- Nothing in the array methods stands in the way. -/
theorem FairBody.of_arrayMethod {f : Func} (hf : f ∈ ArrayMethods.all) : T.FairBody .own f.body := by
  cases hsolo : T.solo with
  | false =>
      refine .whole (fun _ => hsolo) fun b hb => Fair.of_everywhere (fun n hn => ?_)
        (ArrayMethods.modest f hf b hb)
      have hfree : ∀ {p : Prop}, T.solo = true → p := fun h => by
        rw [hsolo] at h
        cases h
      exact ⟨hn, admits_of_isModest (.inl rfl) hn hfree, hfree⟩
  | true =>
      obtain ⟨k, -, hfront, hback⟩ := ArrayMethods.parted f hf
      rw [← List.take_append_drop k f.body]
      exact .parted hsolo
        (fun b hb => .of_everywhere (fun _ => allows_of_standsAlone (.inl rfl)) (hfront b hb))
        fun b hb => .of_everywhere (fun _ => allows_of_standsAlone (.inr rfl)) (hback b hb)

end Terms

/-! ## The names of the array methods -/

/-- A variable, and not one for the arguments. -/
def Declaration.IsModest (d : Declaration) : Prop := ∃ name, d = .var name ∧ name ≠ argumentsName

theorem Script.Stmt.declares_modest {stmt : Stmt} {i : Nat} {d : Declaration}
    (h : (Node.stmt stmt).isModest .own = true) (hd : d ∈ stmt.declares i) : d.IsModest := by
  cases d with
  | function name j =>
      obtain ⟨f, rfl, -⟩ := IndexedTree.mem_declares hd
      cases h
  | var name =>
      have hsame : .var name ∈ stmt.declares 0 := by
        unfold Stmt.declares at hd ⊢
        split at hd <;> first | exact hd | cases h
      refine ⟨name, rfl, fun heq => ?_⟩
      unfold Node.isModest at h
      split at h <;> grind

theorem IndexedTree.declared_modest {t : IndexedTree} {depth i : Nat} {n : Node} {d : Declaration}
    (h : n.everywhere (Node.isModest .own) depth = true) (hd : d ∈ t.declared n i) : d.IsModest := by
  induction depth generalizing n i with
  | zero => cases h
  | succ depth ih =>
      obtain ⟨hn, hchildren⟩ := Node.everywhere_succ h
      unfold declared at hd
      rcases List.mem_append.1 hd with hd | hd
      · split at hd
        · exact Stmt.declares_modest hn hd
        · cases hd
      · split at hd
        · obtain ⟨⟨⟨j, c⟩, hmem⟩, -, hd⟩ := List.mem_flatMap.1 hd
          exact ih (hchildren c (t.mem_of_mem_place hmem)) hd
        · cases hd

/-- They declare nothing but variables. -/
theorem ArrayMethods.declared_modest {f : Func} (hf : f ∈ all) (t : IndexedTree) (i : Nat) :
    ∀ d ∈ t.declaredIn (i + 1) (Node.ofStmts f.body), d.IsModest := by
  intro d hd
  obtain ⟨⟨j, c⟩, hmem, hd⟩ := List.mem_flatMap.1 hd
  exact IndexedTree.declared_modest (modest f hf c (t.mem_of_mem_place hmem)) hd

/-- What they count with is no parameter. -/
theorem ArrayMethods.counterName_not_mem : ∀ f ∈ all, counterName ∉ f.params := by decide

/-- None of the array methods has a variable of the name. -/
theorem ArrayMethods.argumentsName_not_mem {f : Func} (hf : f ∈ all) (t : IndexedTree) (i : Nat) :
    argumentsName ∉ t.ownNames i (.func f) f := by
  have hdeclared := declared_modest hf t i
  have hparams : ∀ f ∈ all, argumentsName ∉ f.params := by decide
  rw [IndexedTree.mem_ownNames]
  rintro (hparam | hvar | hfunction | hself)
  · exact hparams f hf hparam
  · obtain ⟨name, heq, hne⟩ := hdeclared _ (Declarations.mem_vars_ofList.1 hvar)
    cases heq
    exact hne rfl
  · obtain ⟨d, hd, -⟩ := List.mem_map.1 hfunction
    obtain ⟨name, heq, -⟩ := hdeclared _ (Declarations.mem_ofList hd)
    cases heq
  · cases hself

/-- Variables are declared wherever a statement stands. -/
theorem Script.Stmt.var_mem_declares {stmt : Stmt} {name : String} (h : .var name ∈ stmt.declares 0)
    (i : Nat) : .var name ∈ stmt.declares i := by
  unfold Stmt.declares at h ⊢
  split at h
  · exact h
  · split at h
    · cases List.mem_singleton.1 h
    · exact h
  · exact h
  · exact h
  · exact h

/-- A variable that a statement of the body declares is in the record. -/
theorem IndexedTree.mem_ownNames_of_declaresVar {t : IndexedTree} {f : Func} {name : String} {i : Nat}
    (h : f.declaresVar name = true) : name ∈ t.ownNames i n f := by
  obtain ⟨stmt, hstmt, hname⟩ := List.any_eq_true.1 h
  have hbody : Node.stmt stmt ∈ Node.ofStmts f.body := List.mem_map_of_mem hstmt
  obtain ⟨j, hplace⟩ : ∃ j, (j, Node.stmt stmt) ∈ t.place (i + 1) (Node.ofStmts f.body) := by
    rw [← t.map_snd_place (i + 1) (Node.ofStmts f.body)] at hbody
    obtain ⟨⟨j, -⟩, hplace, rfl⟩ := List.mem_map.1 hbody
    exact ⟨j, hplace⟩
  refine mem_ownNames.2 (.inr (.inl (Declarations.mem_vars_ofList.2 ?_)))
  refine List.mem_flatMap.2 ⟨_, hplace, ?_⟩
  unfold declared
  exact List.mem_append_left _ (Stmt.var_mem_declares (List.contains_iff_mem.1 hname) j)

/-- What finds an element that an array method writes to is in its record. -/
theorem ArrayMethods.tree_seeks {f : Func} (hf : f ∈ all) (ns : String) (base : Nat) :
    let t := IndexedTree.ofFunc ns base f false
    t.Seeks (t.ownNames base (.func f) f) := by
  intro t i object key value hat hvalue
  have hmem : Node.expr (.assign none (.index (.ident object) (.ident key)) value) ∈
      (Node.func f).preorder := by
    have hnode := hat.node?
    have hle : base ≤ i := (IndexedTree.owns_iff.1 hat.owns).1
    rw [IndexedTree.node?_eq_preorder hle] at hnode
    exact List.mem_of_getElem? hnode
  have hseeks := Node.everywhere_of_mem (seeks f hf) hmem
  rw [Node.seeks, hvalue, Bool.not_true, Bool.false_or, Bool.and_eq_true] at hseeks
  exact ⟨IndexedTree.mem_ownNames_of_declaresVar hseeks.1,
    IndexedTree.mem_ownNames_of_declaresVar hseeks.2⟩

/-! ## The array methods as code -/

namespace ArrayMethods

/-- Nothing in them has to do with a label. -/
theorem unlabeled : ∀ f ∈ all, (Node.func f).everywhere (fun n => (Code.unsupported? n).isNone) 9 = true := by
  decide

/-- There is nothing in their bodies that cannot be lowered. -/
theorem lowers (t : IndexedTree) (scopes : Code.Scopes) (i : Nat) :
    ∀ f ∈ all, (Code.lowerStmts t scopes scopes i f.body).code.isOk = true := by
  simp only [all, List.forall_mem_cons]
  exact ⟨rfl, rfl, rfl, rfl, nofun⟩

theorem exists_lowerFunc {f : Func} (hf : f ∈ all) (t : IndexedTree) (outer : Code.Scopes) (i : Nat)
    (self : Option String) : ∃ code, Code.lowerFunc t outer i self f = .ok code := by
  have hfunctions : (t.declarationsOf f i).functions = [] := by
    refine List.eq_nil_iff_forall_not_mem.2 fun d hd => ?_
    obtain ⟨name, heq, -⟩ := declared_modest hf t i _ (Declarations.mem_ofList hd)
    cases heq
  have hlowers := fun scopes => lowers t scopes (i + 1) f hf
  obtain ⟨name, params, body⟩ := f
  unfold Code.lowerFunc
  dsimp only
  rw [hfunctions]
  generalize _ :: outer = scopes
  cases hcode : (Code.lowerStmts t scopes scopes (i + 1) body).code with
  | ok code => exact ⟨_, rfl⟩
  | error e =>
      have hok := hlowers scopes
      rw [hcode] at hok
      cases hok

theorem isSome_name : ∀ f ∈ all, f.name.isSome = true := by decide

/-- Whatever has been registered before, they can be instrumented. -/
theorem exists_instrument {f : Func} (hf : f ∈ all) (r : Registry) (ns : String) :
    ∃ code, (Code.instrument f r ns [] false).1 = .ok code := by
  have hsupported : Code.firstUnsupported (r.next ns) (.func f) = none :=
    Code.firstUnsupported_eq_none.2 fun n hn => by
      simpa using Node.everywhere_of_mem (unlabeled f hf) hn
  rw [Code.instrument_of_supported hsupported]
  exact exists_lowerFunc hf _ _ _ _

end ArrayMethods

end Resumption
