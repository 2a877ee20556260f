import Resumption.Proofs.Reading.Regroup
import Resumption.Proofs.Reading.WellFormed

/-!
# Printed `new`

No callee in a regrouped tree begins with a call, so reading gives this tree back from its text, which is
the text of the tree before.  A printed program is therefore read as the regrouped one, and as itself just
if there was nothing to regroup.
-/

namespace Resumption.Script

open Lexeme Printer

namespace Node

/-! ## The parts of a regrouped node -/

theorem ofStmts_regroup (body : List Stmt) :
    ofStmts (regroupStmts body) = (ofStmts body).map regroup := by
  rw [regroupStmts_eq, ofStmts, ofStmts, List.map_map, List.map_map]
  rfl

theorem body_regroup (f : Func) : ofStmts f.regroup.body = (ofStmts f.body).map regroup := by
  obtain ⟨name, params, body⟩ := f
  exact ofStmts_regroup body

theorem ofExprs_regroup (es : List Expr) : ofExprs (regroupExprs es) = (ofExprs es).map regroup := by
  rw [regroupExprs_eq, ofExprs, ofExprs, List.map_map, List.map_map]
  rfl

theorem ofExpr?_regroup (e : Option Expr) : ofExpr? (regroupExpr? e) = (ofExpr? e).map regroup := by
  cases e <;> rfl

theorem declarators_regroup (ds : List Declarator) :
    (regroupDecls ds).map declarator = (ds.map declarator).map regroup := by
  rw [regroupDecls_eq, List.map_map, List.map_map]
  rfl

theorem properties_regroup (ps : List Property) :
    (regroupProps ps).map property = (ps.map property).map regroup := by
  rw [regroupProps_eq, List.map_map, List.map_map]
  rfl

theorem cases_regroup (cs : List Case) : (regroupCases cs).map case = (cs.map case).map regroup := by
  rw [regroupCases_eq, List.map_map, List.map_map]
  rfl

theorem childrenOfStmt_regroup (s : Stmt) :
    childrenOfStmt s.regroup = (childrenOfStmt s).map regroup := by
  cases s with
  | var decls => exact declarators_regroup decls
  | function f => exact body_regroup f
  | block body => exact ofStmts_regroup body
  | branch test cons alt => cases alt <;> rfl
  | forLoop init test update body =>
      cases init <;>
        simp only [Stmt.regroup, ForInit.regroup, childrenOfStmt, ofExpr?_regroup, declarators_regroup,
          List.map_append, List.map_cons, List.map_nil] <;> rfl
  | forIn left right body => cases left <;> rfl
  | ret value => exact ofExpr?_regroup value
  | attempt block handler finalizer =>
      cases handler <;> cases finalizer <;>
        simp only [Stmt.regroup, regroupHandler?, regroupStmts?, childrenOfStmt, ofStmts_regroup,
          List.map_append, Option.getD_some, Option.getD_none] <;> rfl
  | switch discriminant cases => exact congrArg (_ :: ·) (cases_regroup cases)
  | _ => rfl

/-- An expression is regrouped part by part, unless it is a `new` that makes way for a call. -/
theorem childrenOfExpr_regroup (e : Expr) :
    childrenOfExpr e.regroup = (childrenOfExpr e).map regroup ∨
      ∃ callee args c, e = .construct callee args ∧ callee.regroup.capture? = some c ∧
        childrenOfExpr e.regroup = .expr c :: (ofExprs args).map regroup := by
  cases e with
  | array elements => exact .inl (ofExprs_regroup elements)
  | object props => exact .inl (properties_regroup props)
  | function f => exact .inl (body_regroup f)
  | call callee args => exact .inl (congrArg (_ :: ·) (ofExprs_regroup args))
  | construct callee args =>
      rcases Expr.regroup_construct callee args with ⟨c, hcapture, -, heq⟩ | ⟨-, heq⟩
      · rw [heq]
        exact .inr ⟨callee, args, c, rfl, hcapture, congrArg (_ :: ·) (ofExprs_regroup args)⟩
      · rw [heq]
        exact .inl (congrArg (_ :: ·) (ofExprs_regroup args))
  | sequence exprs => exact .inl (ofExprs_regroup exprs)
  | _ => exact .inl rfl

theorem children_regroup (n : Node) : n.regroup.children = n.children.map regroup ∨
    ∃ callee args c, n = .expr (.construct callee args) ∧ callee.regroup.capture? = some c ∧
      n.regroup.children = .expr c :: (ofExprs args).map regroup := by
  cases n with
  | func f => exact .inl (body_regroup f)
  | stmt s => exact .inl (childrenOfStmt_regroup s)
  | expr e =>
      refine (childrenOfExpr_regroup e).imp_right ?_
      rintro ⟨callee, args, c, rfl, hcapture, hchildren⟩
      exact ⟨callee, args, c, rfl, hcapture, hchildren⟩
  | declarator d =>
      obtain ⟨name, init⟩ := d
      exact .inl (ofExpr?_regroup init)
  | property p =>
      obtain ⟨name, kind, value⟩ := p
      exact .inl rfl
  | case c =>
      obtain ⟨test, body⟩ := c
      exact .inl ((congrArg₂ (· ++ ·) (ofExpr?_regroup test) (ofStmts_regroup body)).trans
        List.map_append.symm)
  | handler g =>
      obtain ⟨param, body⟩ := g
      exact .inl (ofStmts_regroup body)

/-! ## Regrouped trees are printable -/

theorem formed_regroup {n : Node} (h : n.Formed) : n.regroup.Formed := by
  cases n with
  | func f => trivial
  | stmt s =>
      cases s with
      | var decls =>
          change regroupDecls decls ≠ []
          rw [regroupDecls_eq]
          exact fun hnil => h (List.map_eq_nil_iff.1 hnil)
      | function f => cases f; exact h
      | branch test cons alt =>
          intro halt
          rw [Stmt.endsInOpenIf_regroup]
          refine h ?_
          cases alt with
          | none => cases halt
          | some alt => rfl
      | forLoop init test update body =>
          cases init with
          | vars decls =>
              change regroupDecls decls ≠ []
              rw [regroupDecls_eq]
              exact fun hnil => h (List.map_eq_nil_iff.1 hnil)
          | _ => trivial
      | forIn left right body => cases left <;> exact h
      | attempt block handler finalizer => cases handler <;> cases finalizer <;> exact h
      | _ => exact h
  | expr e =>
      cases e with
      | function f => cases f; exact h
      | update op before arg => exact arg.regroup_level.2.2.2.trans h
      | assign op target value => exact ⟨target.regroup_level.2.2.2.trans h.1, h.2⟩
      | construct callee args =>
          rcases Expr.regroup_construct callee args with ⟨c, -, -, heq⟩ | ⟨-, heq⟩ <;>
            · rw [regroup, heq]
              trivial
      | sequence exprs =>
          change 2 ≤ (regroupExprs exprs).length
          rw [regroupExprs_eq, List.length_map]
          exact h
      | _ => exact h
  | declarator d => cases d; exact h
  | property p =>
      obtain ⟨name, kind, value⟩ := p
      cases kind with
      | init => trivial
      | getter =>
          obtain ⟨body, rfl⟩ : ∃ body, value = .function ⟨none, [], body⟩ := h
          exact ⟨regroupStmts body, rfl⟩
      | setter =>
          obtain ⟨param, body, rfl⟩ : ∃ param body, value = .function ⟨none, [param], body⟩ := h
          exact ⟨param, regroupStmts body, rfl⟩
  | case c => trivial
  | handler g => cases g; exact h

theorem printable_of_chain {e : Expr} (hchain : e.isCall = true ∨ e.isProperty = true) (h : e.Formed) :
    (Node.expr e).Printable := by
  refine ⟨h, ?_, ?_⟩
  · rintro v ⟨⟩
    cases hchain with
    | inl hcall => cases hcall
    | inr hproperty => cases hproperty
  · rintro callee args ⟨⟩
    cases hchain with
    | inl hcall => cases hcall
    | inr hproperty => cases hproperty

/-- What a chain captures is printable if the chain is. -/
theorem AllPrintable.capture? {e c : Expr} (h : e.capture? = some c)
    (he : (Node.expr e).AllPrintable) : (Node.expr c).AllPrintable := by
  fun_induction Expr.capture? e generalizing c with
  | case1 callee args c' hcallee ih =>
      cases h
      refine every_iff.2 ⟨printable_of_chain (.inl rfl) trivial, fun n hn => ?_⟩
      rcases List.mem_cons.1 hn with rfl | hn
      · exact ih hcallee (he.child List.mem_cons_self)
      · exact he.child (List.mem_cons_of_mem _ hn)
  | case2 callee args hcallee ih =>
      cases h
      refine every_iff.2 ⟨⟨trivial, ?_, ?_⟩, fun n hn => he.child hn⟩
      · rintro v ⟨⟩
      · rintro _ _ ⟨⟩
        exact Expr.isChainOverCall_of_capture?_eq_none hcallee
  | case3 base property ih =>
      obtain ⟨c', hbase, rfl⟩ := Option.map_eq_some_iff.1 h
      refine every_iff.2 ⟨printable_of_chain (.inr rfl) he.formed, fun n hn => ?_⟩
      obtain rfl := List.mem_singleton.1 hn
      exact ih hbase (he.child List.mem_cons_self)
  | case4 base key ih =>
      obtain ⟨c', hbase, rfl⟩ := Option.map_eq_some_iff.1 h
      refine every_iff.2 ⟨printable_of_chain (.inr rfl) trivial, fun n hn => ?_⟩
      rcases List.mem_cons.1 hn with rfl | hn
      · exact ih hbase (he.child List.mem_cons_self)
      · exact he.child (List.mem_cons_of_mem _ hn)
  | case5 e hcall hmember hindex => cases h

theorem regroup_eq_num {e : Expr} {v : Float} (h : e.regroup = .num v) : e = .num v := by
  cases e with
  | num v => exact h
  | construct callee args =>
      rcases Expr.regroup_construct callee args with ⟨c, -, -, heq⟩ | ⟨-, heq⟩ <;>
        · rw [heq] at h
          cases h
  | _ => cases h

/-- The callee of a `new` that stays does not begin with a call. -/
theorem isChainOverCall_of_regroup_eq {e callee : Expr} {args : List Expr}
    (h : e.regroup = .construct callee args) : callee.isChainOverCall = false := by
  cases e with
  | construct base args =>
      rcases Expr.regroup_construct base args with ⟨c, -, -, heq⟩ | ⟨hnone, heq⟩
      · rw [heq] at h
        cases h
      · rw [heq] at h
        cases h
        cases hcall : base.isCall with
        | true =>
            cases base with
            | call => rfl
            | _ => cases hcall
        | false => exact Expr.isChainOverCall_of_capture?_eq_none (hnone hcall)
  | _ => cases h

theorem Regroupable.printable {n : Node} (h : n.Regroupable) : n.regroup.Printable := by
  refine ⟨formed_regroup h.formed, fun v hv => ?_, fun callee args hnew => ?_⟩
  · cases n with
    | expr e => exact h.literal v (congrArg Node.expr (regroup_eq_num (Node.expr.inj hv)))
    | _ => cases hv
  · cases n with
    | expr e => exact isChainOverCall_of_regroup_eq (Node.expr.inj hnew)
    | _ => cases hnew

/-- Nothing is left in a regrouped tree that printing would not do justice to. -/
theorem allPrintable_regroup (n : Node) (h : n.Every Regroupable) : n.regroup.AllPrintable := by
  obtain ⟨hn, hbelow⟩ := every_iff.1 h
  have hchildren : ∀ c ∈ n.children, c.regroup.AllPrintable :=
    fun c hc => c.allPrintable_regroup (hbelow c hc)
  refine every_iff.2 ⟨hn.printable, ?_⟩
  rcases n.children_regroup with heq | ⟨callee, args, c, rfl, hcapture, heq⟩
  · rw [heq]
    exact List.forall_mem_map.2 hchildren
  · rw [heq]
    refine List.forall_mem_cons.2 ⟨?_, List.forall_mem_map.2 fun x hx =>
      hchildren x (List.mem_cons_of_mem _ hx)⟩
    exact (hchildren (.expr callee) List.mem_cons_self).capture? hcapture
termination_by n.weight
decreasing_by exact weight_lt_of_mem_children hc

theorem mem_preorder_iff {n c : Node} : c ∈ n.preorder ↔ c = n ∨ ∃ b ∈ n.children, c ∈ b.preorder := by
  rw [preorder]
  simp only [List.mem_cons, List.mem_flatMap, List.mem_attach, true_and, Subtype.exists, exists_prop]

theorem Every.of_mem {P : Node → Prop} {n c : Node} (h : n.Every P) (hc : c ∈ n.preorder) :
    c.Every P := by
  obtain rfl | ⟨b, hb, hc⟩ := mem_preorder_iff.1 hc
  · exact h
  · exact ((every_iff.1 h).2 b hb).of_mem hc
termination_by n.weight
decreasing_by exact weight_lt_of_mem_children hb

end Node

/-! ## Printing and reading again -/

namespace Program

variable {p : Program}

theorem every_regroupable (hformed : (Node.func p.toFunc).AllFormed)
    (hliterals : ∀ v ∈ p.literals, v.isFinite = true ∧ Number.ReadsBack v)
    (hcallees : ∀ callee ∈ p.constructors,
      callee.isChainOverCall = true → callee.callsFunction = false) :
    (Node.func p.toFunc).Every Node.Regroupable := by
  refine fun n hn => ⟨hformed n hn, ?_, ?_⟩
  · rintro v rfl
    exact hliterals v (List.mem_filterMap.2 ⟨_, hn, rfl⟩)
  · rintro callee args rfl
    exact hcallees callee (List.mem_filterMap.2 ⟨_, hn, rfl⟩)

/-- A printed program is read as the regrouped one. -/
theorem parse_print_eq_regroup (hp : (Node.func p.toFunc).Every Node.Regroupable) :
    parse p.print = .ok p.regroup := by
  have hprint : p.regroup.print = p.print :=
    printStmts_regroup (fun s hs =>
      (Node.stmt s).printsAlike ((Node.every_iff.1 hp).2 _ (List.mem_map.2 ⟨s, hs, rfl⟩))) 0
  rw [← hprint]
  exact parse_print ((Node.func p.toFunc).allPrintable_regroup hp)

/-- Printing is undone by reading just if no callee of a `new` begins with a call. -/
theorem parse_print_eq_self_iff (hp : (Node.func p.toFunc).Every Node.Regroupable) :
    parse p.print = .ok p ↔ ∀ callee ∈ p.constructors, callee.isChainOverCall = false := by
  constructor
  · intro hself callee hcallee
    have hregroup : p.regroup = p := by
      rw [parse_print_eq_regroup hp] at hself
      exact Except.ok.inj hself
    have hprintable : (Node.func p.regroup.toFunc).AllPrintable :=
      (Node.func p.toFunc).allPrintable_regroup hp
    rw [hregroup] at hprintable
    obtain ⟨n, hn, hnew⟩ := List.mem_filterMap.1 hcallee
    split at hnew
    · cases hnew
      exact Node.AllPrintable.constructor (hprintable.of_mem hn)
    · cases hnew
  · intro hcallees
    refine parse_print fun n hn => ⟨(hp n hn).formed, (hp n hn).literal, ?_⟩
    rintro callee args rfl
    exact hcallees callee (List.mem_filterMap.2 ⟨_, hn, rfl⟩)

/-- The program `new callee(args);`. -/
def construction (callee : Expr) (args : List Expr) : Program := ⟨[.expr (.construct callee args)]⟩

end Program

/-- The expression is part of a program that was read. -/
def Expr.Read (e : Expr) : Prop :=
  ∃ source p, Program.parse source = .ok p ∧ .expr e ∈ p.nodes

theorem Expr.Read.of_parse {source : String} {e : Expr} (h : Program.parse source = .ok ⟨[.expr e]⟩) :
    e.Read := by
  refine ⟨source, ⟨[.expr e]⟩, h, Node.mem_preorder_iff.2 (.inr ⟨.stmt (.expr e), List.mem_cons_self, ?_⟩)⟩
  exact Node.mem_preorder_iff.2 (.inr ⟨.expr e, List.mem_cons_self, Node.mem_preorder_iff.2 (.inl rfl)⟩)

theorem Expr.Read.allFormed {e : Expr} (h : e.Read) : (Node.expr e).AllFormed := by
  obtain ⟨source, p, hparse, hmem⟩ := h
  exact (allFormed_of_parse hparse).of_mem hmem

theorem Program.allFormed_construction {callee : Expr} {args : List Expr} (hcallee : callee.Read)
    (hargs : ∀ a ∈ args, a.Read) : (Node.func (construction callee args).toFunc).AllFormed := by
  have hnew : (Node.expr (.construct callee args)).AllFormed := by
    refine Node.allFormed_iff.2 ⟨trivial, List.forall_mem_cons.2 ⟨hcallee.allFormed, ?_⟩⟩
    exact List.forall_mem_map.2 fun a ha => (hargs a ha).allFormed
  refine Node.allFormed_iff.2 ⟨trivial, List.forall_mem_singleton.2 ?_⟩
  exact Node.allFormed_iff.2 ⟨trivial, List.forall_mem_singleton.2 hnew⟩

/-- How `new callee(args);` is read after it was printed, for whatever callee and arguments can be read: as
the regrouped program, which is the same one just if no `new` in it has a callee that begins with a call.
(Where this call is that of a function written on the spot, the text has no parentheses that the regrouped
program would be printed with.) -/
theorem parse_print_construction {callee : Expr} {args : List Expr} (hcallee : callee.Read)
    (hargs : ∀ a ∈ args, a.Read)
    (hliterals : ∀ v ∈ (Program.construction callee args).literals,
      v.isFinite = true ∧ Number.ReadsBack v)
    (hfunctions : ∀ c ∈ (Program.construction callee args).constructors,
      c.isChainOverCall = true → c.callsFunction = false) :
    Program.parse (Program.construction callee args).print =
        .ok (Program.construction callee args).regroup ∧
      (Program.parse (Program.construction callee args).print =
          .ok (Program.construction callee args) ↔
        ∀ c ∈ (Program.construction callee args).constructors, c.isChainOverCall = false) := by
  have hp := Program.every_regroupable (Program.allFormed_construction hcallee hargs) hliterals hfunctions
  exact ⟨Program.parse_print_eq_regroup hp, Program.parse_print_eq_self_iff hp⟩

/-- The tree of `f().b`. -/
def memberOfCall : Expr := .member (.call (.ident "f") []) "b"

theorem parse_print_construction_memberOfCall :
    memberOfCall.Read ∧ (∀ a ∈ [Expr.ident "x"], a.Read) ∧
      (∀ v ∈ (Program.construction memberOfCall [.ident "x"]).literals,
        v.isFinite = true ∧ Number.ReadsBack v) ∧
      (∀ c ∈ (Program.construction memberOfCall [.ident "x"]).constructors,
        c.isChainOverCall = true → c.callsFunction = false) ∧
      Program.parse (Program.construction memberOfCall [.ident "x"]).print =
        .ok (Program.construction memberOfCall [.ident "x"]).regroup ∧
      (Program.parse (Program.construction memberOfCall [.ident "x"]).print =
          .ok (Program.construction memberOfCall [.ident "x"]) ↔
        ∀ c ∈ (Program.construction memberOfCall [.ident "x"]).constructors,
          c.isChainOverCall = false) := by
  have hcallee : memberOfCall.Read := .of_parse (show Program.parse "f().b;" = _ by with_unfolding_all rfl)
  have hargs : ∀ a ∈ [Expr.ident "x"], a.Read :=
    List.forall_mem_singleton.2 (.of_parse (show Program.parse "x;" = _ by with_unfolding_all rfl))
  have hliterals : ∀ v ∈ (Program.construction memberOfCall [.ident "x"]).literals,
      v.isFinite = true ∧ Number.decimal? (Number.text v).toList = some v := by with_unfolding_all decide
  have hfunctions : ∀ c ∈ (Program.construction memberOfCall [.ident "x"]).constructors,
      c.isChainOverCall = true → c.callsFunction = false := by with_unfolding_all decide
  exact ⟨hcallee, hargs, hliterals, hfunctions,
    parse_print_construction hcallee hargs hliterals hfunctions⟩

/-- `new (f().b)(x);` is printed as `new f().b(x);`, which is a call of what `new f()` has at `b`. -/
theorem parse_print_construction_ne :
    Program.parse "new (f().b)(x);" = .ok (Program.construction memberOfCall [.ident "x"]) ∧
      (Program.construction memberOfCall [.ident "x"]).print = "new f().b(x);\n" ∧
      Program.parse (Program.construction memberOfCall [.ident "x"]).print ≠
        .ok (Program.construction memberOfCall [.ident "x"]) := by
  have hprint : (Program.construction memberOfCall [.ident "x"]).print = "new f().b(x);\n" := by
    with_unfolding_all rfl
  have hread : Program.parse "new f().b(x);\n" =
      .ok ⟨[.expr (.call (.member (.construct (.ident "f") []) "b") [.ident "x"])]⟩ := by
    with_unfolding_all rfl
  refine ⟨by with_unfolding_all rfl, hprint, ?_⟩
  rw [hprint, hread]
  intro h
  cases h

end Resumption.Script
