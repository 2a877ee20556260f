import Resumption.Proofs.Reading.Formation

/-!
# What printed source is read as

The printer puts the callee of a `new` in parentheses if it is a call, but not if it only begins with
one.  In the text of such a callee the `new` takes the first argument list that it meets, and what
was its own argument list becomes that of a call.  `regroup` does the same to the tree: it changes
nothing of the text, and leaves no callee that printing would not do justice to.
-/

namespace Resumption.Script

open Lexeme Printer

/-- A chain that has a call in it, with the first call made a `new`. -/
def Expr.capture? : Expr → Option Expr
  | .call callee args =>
    match callee.capture? with
    | some c => some (.call c args)
    | none => some (.construct callee args)
  | .member base property => base.capture?.map (.member · property)
  | .index base key => base.capture?.map (.index · key)
  | _ => none
termination_by structural e => e

/-- How `new` is read in front of the text of a callee, which may stand in parentheses. -/
def Expr.constructed (closed : Bool) (callee : Expr) (args : List Expr) : Expr :=
  match if closed then none else callee.capture? with
  | some c => .call c args
  | none => .construct callee args

def Expr.isFunction : Expr → Bool
  | .function _ => true
  | _ => false

/-- The first call of a chain calls a function where it is written. -/
def Expr.callsFunction : Expr → Bool
  | .call callee _ => callee.isFunction || callee.callsFunction
  | .member base _ | .index base _ => base.callsFunction
  | _ => false

/-! ## Regrouped trees -/

mutual

/-- Every `new` takes the first argument list behind it. -/
def Expr.regroup : Expr → Expr
  | .array elements => .array (regroupExprs elements)
  | .object props => .object (regroupProps props)
  | .function f => .function f.regroup
  | .unary op arg => .unary op arg.regroup
  | .update op before arg => .update op before arg.regroup
  | .binary op left right => .binary op left.regroup right.regroup
  | .logical op left right => .logical op left.regroup right.regroup
  | .assign op target value => .assign op target.regroup value.regroup
  | .conditional test cons alt => .conditional test.regroup cons.regroup alt.regroup
  | .call callee args => .call callee.regroup (regroupExprs args)
  | .construct callee args => .constructed callee.isCall callee.regroup (regroupExprs args)
  | .member object property => .member object.regroup property
  | .index object key => .index object.regroup key.regroup
  | .sequence exprs => .sequence (regroupExprs exprs)
  | e => e
termination_by structural e => e

def regroupExprs : List Expr → List Expr
  | [] => []
  | e :: rest => e.regroup :: regroupExprs rest
termination_by structural l => l

def regroupExpr? : Option Expr → Option Expr
  | none => none
  | some e => some e.regroup
termination_by structural e => e

def Property.regroup : Property → Property
  | ⟨key, kind, value⟩ => ⟨key, kind, value.regroup⟩
termination_by structural p => p

def regroupProps : List Property → List Property
  | [] => []
  | p :: rest => p.regroup :: regroupProps rest
termination_by structural l => l

def Declarator.regroup : Declarator → Declarator
  | ⟨name, init⟩ => ⟨name, regroupExpr? init⟩
termination_by structural d => d

def regroupDecls : List Declarator → List Declarator
  | [] => []
  | d :: rest => d.regroup :: regroupDecls rest
termination_by structural l => l

def ForInit.regroup : ForInit → ForInit
  | .absent => .absent
  | .vars decls => .vars (regroupDecls decls)
  | .expr e => .expr e.regroup
termination_by structural i => i

def ForTarget.regroup : ForTarget → ForTarget
  | .var name => .var name
  | .expr e => .expr e.regroup
termination_by structural t => t

def Handler.regroup : Handler → Handler
  | ⟨param, body⟩ => ⟨param, regroupStmts body⟩
termination_by structural h => h

def regroupHandler? : Option Handler → Option Handler
  | none => none
  | some h => some h.regroup
termination_by structural h => h

def Case.regroup : Case → Case
  | ⟨test, body⟩ => ⟨regroupExpr? test, regroupStmts body⟩
termination_by structural c => c

def regroupCases : List Case → List Case
  | [] => []
  | c :: rest => c.regroup :: regroupCases rest
termination_by structural l => l

def Stmt.regroup : Stmt → Stmt
  | .var decls => .var (regroupDecls decls)
  | .function f => .function f.regroup
  | .expr e => .expr e.regroup
  | .block body => .block (regroupStmts body)
  | .branch test cons alt => .branch test.regroup cons.regroup (regroupStmt? alt)
  | .forLoop init test update body =>
    .forLoop init.regroup (regroupExpr? test) (regroupExpr? update) body.regroup
  | .forIn left right body => .forIn left.regroup right.regroup body.regroup
  | .whileLoop test body => .whileLoop test.regroup body.regroup
  | .doLoop body test => .doLoop body.regroup test.regroup
  | .ret value => .ret (regroupExpr? value)
  | .throwing value => .throwing value.regroup
  | .attempt block handler finalizer =>
    .attempt (regroupStmts block) (regroupHandler? handler) (regroupStmts? finalizer)
  | .switch discriminant cases => .switch discriminant.regroup (regroupCases cases)
  | .withScope object body => .withScope object.regroup body.regroup
  | .labeled label body => .labeled label body.regroup
  | s => s
termination_by structural s => s

def regroupStmt? : Option Stmt → Option Stmt
  | none => none
  | some s => some s.regroup
termination_by structural s => s

def regroupStmts : List Stmt → List Stmt
  | [] => []
  | s :: rest => s.regroup :: regroupStmts rest
termination_by structural l => l

def regroupStmts? : Option (List Stmt) → Option (List Stmt)
  | none => none
  | some body => some (regroupStmts body)
termination_by structural b => b

def Func.regroup : Func → Func
  | ⟨name, params, body⟩ => ⟨name, params, regroupStmts body⟩
termination_by structural f => f

end

def Program.regroup (p : Program) : Program := ⟨regroupStmts p.body⟩

def Node.regroup : Node → Node
  | .func f => .func f.regroup
  | .stmt s => .stmt s.regroup
  | .expr e => .expr e.regroup
  | .declarator d => .declarator d.regroup
  | .property p => .property p.regroup
  | .case c => .case c.regroup
  | .handler h => .handler h.regroup

namespace Expr

theorem constructed_eq (closed : Bool) (callee : Expr) (args : List Expr) :
    (∃ c, callee.capture? = some c ∧ closed = false ∧ constructed closed callee args = .call c args) ∨
      ((closed = false → callee.capture? = none) ∧
        constructed closed callee args = .construct callee args) := by
  cases closed with
  | true => exact .inr ⟨nofun, rfl⟩
  | false =>
      cases h : callee.capture? with
      | none => exact .inr ⟨fun _ => rfl, by simp [constructed, h]⟩
      | some c => exact .inl ⟨c, rfl, rfl, by simp [constructed, h]⟩

/-- What there is to capture is a call behind the property accesses. -/
theorem capture?_eq_none_iff (e : Expr) : e.capture? = none ↔ e.chainRoot.isCall = false := by
  fun_induction capture? e with
  | case1 callee args c h ih => simp [chainRoot, isCall]
  | case2 callee args h ih => simp [chainRoot, isCall]
  | case3 base property ih => rw [Option.map_eq_none_iff, ih, chainRoot]
  | case4 base key ih => rw [Option.map_eq_none_iff, ih, chainRoot]
  | case5 e hcall hmember hindex => cases e <;> simp_all [chainRoot, isCall]

theorem isCall_of_capture?_eq_none {e : Expr} (h : e.capture? = none) : e.isCall = false := by
  cases e <;> first | rfl | exact (capture?_eq_none_iff _).1 h

theorem isChainOverCall_of_capture?_eq_none {e : Expr} (h : e.capture? = none) :
    e.isChainOverCall = false := by
  rw [isChainOverCall, (capture?_eq_none_iff e).1 h, Bool.and_false]

theorem callsFunction_of_capture?_eq_none {e : Expr} (h : e.capture? = none) :
    e.callsFunction = false := by
  fun_induction callsFunction e with
  | case1 callee args ih =>
      rw [capture?] at h
      split at h <;> cases h
  | case2 base property ih => exact ih (Option.map_eq_none_iff.1 h)
  | case3 base key ih => exact ih (Option.map_eq_none_iff.1 h)
  | case4 e hcall hmember hindex => rfl

/-- Both the chain and what comes of it stand without parentheses wherever they are printed. -/
theorem level_of_capture? {e c : Expr} (h : e.capture? = some c) :
    (e.level = 18 ∧ e.needsShield = false) ∧ c.level = 18 ∧ c.needsShield = false := by
  cases e with
  | call callee args =>
      rw [capture?] at h
      cases hcallee : callee.capture? <;>
        · rw [hcallee] at h
          cases h
          exact ⟨⟨rfl, rfl⟩, rfl, rfl⟩
  | member base property =>
      obtain ⟨c', -, rfl⟩ := Option.map_eq_some_iff.1 h
      exact ⟨⟨rfl, rfl⟩, rfl, rfl⟩
  | index base key =>
      obtain ⟨c', -, rfl⟩ := Option.map_eq_some_iff.1 h
      exact ⟨⟨rfl, rfl⟩, rfl, rfl⟩
  | _ => cases h

theorem isFunction_eq_false {e : Expr} (h : e.needsShield = false) : e.isFunction = false := by
  cases e with
  | function f => cases h
  | _ => rfl

theorem isFunction_of_level {e : Expr} (h : e.level = 17) : e.isFunction = true := by
  cases e with
  | function f => rfl
  | update op before arg => cases before <;> cases h
  | binary op left right => cases op <;> cases h
  | logical op left right => cases op <;> cases h
  | _ => cases h

/-- Captured or not, the text is the same but for the word in front. -/
theorem print_capture? {e c : Expr} (h : e.capture? = some c) (hfunction : e.callsFunction = false)
    (l k : Nat) : c.print l = "new " ++ e.print k := by
  fun_induction capture? e generalizing c l k with
  | case1 callee args c' hcallee ih =>
      cases h
      rw [callsFunction, Bool.or_eq_false_iff] at hfunction
      rw [print, print, ih hcallee hfunction.2 17 17]
      simp only [String.append_assoc]
  | case2 callee args hcallee ih =>
      cases h
      rw [callsFunction, Bool.or_eq_false_iff] at hfunction
      have hlevel : callee.level ≠ 17 := by
        intro hlevel
        rw [isFunction_of_level hlevel] at hfunction
        cases hfunction.1
      rw [print, print, isCall_of_capture?_eq_none hcallee, Grammar.print_succ hlevel (by decide)]
      simp only [Bool.false_eq_true, if_false, String.append_assoc]
  | case3 base property ih =>
      obtain ⟨c', hbase, rfl⟩ := Option.map_eq_some_iff.1 h
      obtain ⟨⟨-, hshield⟩, -, hshield'⟩ := level_of_capture? hbase
      rw [print, print, hshield, hshield', ih hbase hfunction 17 17]
      simp only [Bool.false_eq_true, if_false, String.append_assoc]
  | case4 base key ih =>
      obtain ⟨c', hbase, rfl⟩ := Option.map_eq_some_iff.1 h
      obtain ⟨⟨-, hshield⟩, -, hshield'⟩ := level_of_capture? hbase
      rw [print, print, hshield, hshield', ih hbase hfunction 17 17]
      simp only [Bool.false_eq_true, if_false, String.append_assoc]
  | case5 e hcall hmember hindex => cases h

theorem callsFunction_capture? {e c : Expr} (h : e.capture? = some c) : c.callsFunction = false := by
  fun_induction capture? e generalizing c with
  | case1 callee args c' hcallee ih =>
      cases h
      rw [callsFunction, isFunction_eq_false (level_of_capture? hcallee).2.2, ih hcallee]
      rfl
  | case2 callee args hcallee ih =>
      cases h
      rfl
  | case3 base property ih =>
      obtain ⟨c', hbase, rfl⟩ := Option.map_eq_some_iff.1 h
      exact (ih hbase : c'.callsFunction = false)
  | case4 base key ih =>
      obtain ⟨c', hbase, rfl⟩ := Option.map_eq_some_iff.1 h
      exact (ih hbase : c'.callsFunction = false)
  | case5 e hcall hmember hindex => cases h

theorem regroup_construct (callee : Expr) (args : List Expr) :
    (∃ c, callee.regroup.capture? = some c ∧ callee.isCall = false ∧
        (construct callee args).regroup = .call c (regroupExprs args)) ∨
      ((callee.isCall = false → callee.regroup.capture? = none) ∧
        (construct callee args).regroup = .construct callee.regroup (regroupExprs args)) :=
  constructed_eq callee.isCall callee.regroup (regroupExprs args)

/-- What decides about parentheses stays. -/
theorem regroup_level (e : Expr) : e.regroup.level = e.level ∧
    e.regroup.needsShield = e.needsShield ∧ e.regroup.startsWithOperator = e.startsWithOperator ∧
      e.regroup.isReference = e.isReference := by
  cases e with
  | construct callee args =>
      rcases regroup_construct callee args with ⟨c, -, -, h⟩ | ⟨-, h⟩ <;>
        rw [h] <;> exact ⟨rfl, rfl, rfl, rfl⟩
  | update op before arg => cases before <;> exact ⟨rfl, rfl, rfl, rfl⟩
  | _ => exact ⟨rfl, rfl, rfl, rfl⟩

theorem isFunction_regroup (e : Expr) : e.regroup.isFunction = e.isFunction := by
  cases e with
  | construct callee args =>
      rcases regroup_construct callee args with ⟨c, -, -, h⟩ | ⟨-, h⟩ <;> rw [h] <;> rfl
  | _ => rfl

theorem callsFunction_regroup (e : Expr) : e.regroup.callsFunction = e.callsFunction := by
  fun_induction callsFunction e with
  | case1 callee args ih => rw [regroup, callsFunction, isFunction_regroup, ih]
  | case2 base property ih => exact ih
  | case3 base key ih => exact ih
  | case4 e hcall hmember hindex =>
      cases e with
      | call callee args => exact absurd rfl (hcall callee args)
      | member base property => exact absurd rfl (hmember base property)
      | index base key => exact absurd rfl (hindex base key)
      | construct callee args =>
          rcases regroup_construct callee args with ⟨c, hcapture, -, h⟩ | ⟨-, h⟩
          · rw [h, callsFunction, isFunction_eq_false (level_of_capture? hcapture).2.2,
              callsFunction_capture? hcapture]
            rfl
          · rw [h]
            rfl
      | _ => rfl

end Expr

theorem Stmt.isBlock_regroup (s : Stmt) : s.regroup.isBlock = s.isBlock := by
  cases s <;> rfl

theorem Stmt.endsInOpenIf_regroup : ∀ s : Stmt, s.regroup.endsInOpenIf = s.endsInOpenIf
  | .branch _ _ none => rfl
  | .branch _ _ (some alt) => alt.endsInOpenIf_regroup
  | .forLoop _ _ _ body => body.endsInOpenIf_regroup
  | .forIn _ _ body => body.endsInOpenIf_regroup
  | .whileLoop _ body => body.endsInOpenIf_regroup
  | .withScope _ body => body.endsInOpenIf_regroup
  | .labeled _ body => body.endsInOpenIf_regroup
  | .var _ | .function _ | .expr _ | .block _ | .doLoop _ _ | .ret _ | .brk _ | .cont _
  | .throwing _ | .attempt _ _ _ | .switch _ _ | .debugger | .empty => rfl

theorem regroupExprs_eq (es : List Expr) : regroupExprs es = es.map Expr.regroup := by
  induction es with
  | nil => rfl
  | cons e es ih => rw [regroupExprs, ih, List.map_cons]

theorem regroupProps_eq (ps : List Property) : regroupProps ps = ps.map Property.regroup := by
  induction ps with
  | nil => rfl
  | cons p ps ih => rw [regroupProps, ih, List.map_cons]

theorem regroupDecls_eq (ds : List Declarator) : regroupDecls ds = ds.map Declarator.regroup := by
  induction ds with
  | nil => rfl
  | cons d ds ih => rw [regroupDecls, ih, List.map_cons]

theorem regroupCases_eq (cs : List Case) : regroupCases cs = cs.map Case.regroup := by
  induction cs with
  | nil => rfl
  | cons c cs ih => rw [regroupCases, ih, List.map_cons]

theorem regroupStmts_eq (body : List Stmt) : regroupStmts body = body.map Stmt.regroup := by
  induction body with
  | nil => rfl
  | cons s body ih => rw [regroupStmts, ih, List.map_cons]

/-! ## The text stays -/

/-- The node is printed as the regrouped one is. -/
def Node.PrintsAlike : Node → Prop
  | .func f => ∀ i, f.regroup.print i = f.print i
  | .stmt s => ∀ i head, s.regroup.print i head = s.print i head
  | .expr e => ∀ l, e.regroup.print l = e.print l
  | .declarator d => d.regroup.print = d.print
  | .property p => p.regroup.print = p.print
  | .case c => ∀ i, c.regroup.print i = c.print i
  | .handler h => ∀ i, h.regroup.print i = h.print i

theorem printExprs_regroup {es : List Expr} (h : ∀ e ∈ es, (Node.expr e).PrintsAlike) :
    printExprs (regroupExprs es) = printExprs es := by
  rw [printExprs_eq, printExprs_eq, regroupExprs_eq, List.map_map]
  exact List.map_congr_left fun e he => h e he 2

theorem printProps_regroup {ps : List Property} (h : ∀ p ∈ ps, (Node.property p).PrintsAlike) :
    printProps (regroupProps ps) = printProps ps := by
  rw [printProps_eq, printProps_eq, regroupProps_eq, List.map_map]
  exact List.map_congr_left h

theorem printDecls_regroup {ds : List Declarator} (h : ∀ d ∈ ds, (Node.declarator d).PrintsAlike) :
    printDecls (regroupDecls ds) = printDecls ds := by
  rw [printDecls_eq, printDecls_eq, regroupDecls_eq, List.map_map]
  exact List.map_congr_left h

theorem printStmts_regroup {body : List Stmt} (h : ∀ s ∈ body, (Node.stmt s).PrintsAlike) (i : Nat) :
    printStmts i (regroupStmts body) = printStmts i body := by
  induction body with
  | nil => rfl
  | cons s body ih =>
      rw [regroupStmts, printStmts, printStmts, h s List.mem_cons_self,
        ih fun x hx => h x (List.mem_cons_of_mem _ hx)]

theorem printCases_regroup {cs : List Case} (h : ∀ c ∈ cs, (Node.case c).PrintsAlike) (i : Nat) :
    printCases i (regroupCases cs) = printCases i cs := by
  induction cs with
  | nil => rfl
  | cons c cs ih =>
      rw [regroupCases, printCases, printCases, h c List.mem_cons_self,
        ih fun x hx => h x (List.mem_cons_of_mem _ hx)]

theorem printExpr?_regroup {e : Option Expr} (h : ∀ x ∈ e, (Node.expr x).PrintsAlike) :
    printExpr? (regroupExpr? e) = printExpr? e := by
  cases e with
  | none => rfl
  | some e => exact h e rfl 0

theorem Func.print_regroup {f : Func} (h : ∀ s ∈ f.body, (Node.stmt s).PrintsAlike) (i : Nat) :
    f.regroup.print i = f.print i := by
  obtain ⟨name, params, body⟩ := f
  rw [Func.regroup, Func.print, Func.print, printStmts_regroup h]

theorem Stmt.print_doLoop {body : Stmt} (h : body.isBlock = false) (test : Expr) (i : Nat)
    (head : String) : (Stmt.doLoop body test).print i head =
      line i "do" ++ body.print (i + 1) "" ++ line i ("while (" ++ test.print 0 ++ ");") := by
  cases body with
  | block inner => cases h
  | _ => rfl

/-- What printing and reading a node asks for, a callee of `new` aside that begins with a call. -/
structure Node.Regroupable (n : Node) : Prop where
  formed : n.Formed
  literal (v : Float) (hn : n = .expr (.num v)) : v.isFinite = true ∧ Number.ReadsBack v
  callee (callee : Expr) (args : List Expr) (hn : n = .expr (.construct callee args))
    (hchain : callee.isChainOverCall = true) : callee.callsFunction = false

namespace Node

variable {n : Node}

theorem Regroupable.callsFunction {callee : Expr} {args : List Expr}
    (h : (Node.expr (.construct callee args)).Regroupable) (hcall : callee.isCall = false) :
    callee.callsFunction = false := by
  cases hchain : callee.isChainOverCall with
  | true => exact h.callee callee args rfl hchain
  | false =>
      refine Expr.callsFunction_of_capture?_eq_none ((Expr.capture?_eq_none_iff callee).2 ?_)
      cases callee <;> first | exact hchain | exact hcall

/-- The text of an expression stays if those of its parts do. -/
theorem Regroupable.expr {e : Expr} (h : (Node.expr e).Regroupable)
    (hchildren : ∀ c ∈ (Node.expr e).children, c.PrintsAlike) : (Node.expr e).PrintsAlike := by
  intro l
  have harg : ∀ x : Expr, .expr x ∈ (Node.expr e).children → ∀ k, x.regroup.print k = x.print k :=
    fun x hx => hchildren _ hx
  have hargs : ∀ es : List Expr, (∀ x ∈ es, .expr x ∈ (Node.expr e).children) →
      printExprs (regroupExprs es) = printExprs es :=
    fun es hes => printExprs_regroup fun x hx => hchildren _ (hes x hx)
  cases e with
  | num | str | bool | null | ident | this => rfl
  | array elements =>
      simp only [Expr.regroup, Expr.print, hargs elements fun x hx => List.mem_map.2 ⟨x, hx, rfl⟩]
  | object props =>
      have hprops : printProps (regroupProps props) = printProps props :=
        printProps_regroup fun p hp => hchildren _ (List.mem_map.2 ⟨p, hp, rfl⟩)
      cases props with
      | nil => rfl
      | cons p props =>
          rw [Expr.regroup, regroupProps, Expr.print, ← regroupProps, hprops, Expr.print]
          all_goals
            intro hnil
            cases hnil
  | function f =>
      have hfunc := f.print_regroup fun s hs => hchildren _ (List.mem_map.2 ⟨s, hs, rfl⟩)
      simp only [Expr.regroup, Expr.print, hfunc]
  | unary op arg =>
      simp only [Expr.regroup, Expr.print, harg arg List.mem_cons_self, arg.regroup_level.2.2.1]
  | update op before arg =>
      cases before <;> simp only [Expr.regroup, Expr.print, harg arg List.mem_cons_self]
  | binary op left right | logical op left right =>
      have hright := harg right (List.mem_cons_of_mem _ List.mem_cons_self)
      simp only [Expr.regroup, Expr.print, harg left List.mem_cons_self, hright]
  | assign op target value =>
      have hvalue := harg value (List.mem_cons_of_mem _ List.mem_cons_self)
      simp only [Expr.regroup, Expr.print, harg target List.mem_cons_self, hvalue]
  | conditional test cons alt =>
      have hcons := harg cons (List.mem_cons_of_mem _ List.mem_cons_self)
      have halt := harg alt (List.mem_cons_of_mem _ (List.mem_cons_of_mem _ List.mem_cons_self))
      simp only [Expr.regroup, Expr.print, harg test List.mem_cons_self, hcons, halt]
  | call callee args =>
      simp only [Expr.regroup, Expr.print, harg callee List.mem_cons_self,
        hargs args fun x hx => List.mem_cons_of_mem _ (List.mem_map.2 ⟨x, hx, rfl⟩)]
  | construct callee args =>
      have hcallee := harg callee List.mem_cons_self
      have hargs := hargs args fun x hx => List.mem_cons_of_mem _ (List.mem_map.2 ⟨x, hx, rfl⟩)
      rcases Expr.regroup_construct callee args with ⟨c, hcapture, hcall, heq⟩ | ⟨hnone, heq⟩
      · have hlevel : callee.level = 18 :=
          callee.regroup_level.1.symm.trans (Expr.level_of_capture? hcapture).1.1
        have htext : c.print 17 = "new " ++ callee.print 18 := by
          rw [Expr.print_capture? hcapture (callee.callsFunction_regroup.trans (h.callsFunction hcall))
            17 18, hcallee]
        rw [heq, Expr.print, Expr.print, htext, hargs, hcall]
        simp only [Bool.false_eq_true, if_false, String.append_assoc]
      · have hcall : callee.regroup.isCall = callee.isCall := by
          cases hcall : callee.isCall with
          | true =>
              cases callee with
              | call => rfl
              | _ => cases hcall
          | false => exact Expr.isCall_of_capture?_eq_none (hnone hcall)
        rw [heq, Expr.print, Expr.print, hcall, hcallee, hcallee, hargs]
  | member base property =>
      simp only [Expr.regroup, Expr.print, harg base List.mem_cons_self, base.regroup_level.2.1]
  | index base key =>
      have hkey := harg key (List.mem_cons_of_mem _ List.mem_cons_self)
      simp only [Expr.regroup, Expr.print, harg base List.mem_cons_self, base.regroup_level.2.1, hkey]
  | sequence exprs =>
      simp only [Expr.regroup, Expr.print, hargs exprs fun x hx => List.mem_map.2 ⟨x, hx, rfl⟩]

theorem mem_ofExpr? {e : Expr} {x : Option Expr} (h : e ∈ x) : .expr e ∈ ofExpr? x :=
  List.mem_map.2 ⟨e, Option.mem_toList.2 h, rfl⟩

theorem printsAlike_stmt {s : Stmt} (hchildren : ∀ c ∈ (Node.stmt s).children, c.PrintsAlike) :
    (Node.stmt s).PrintsAlike := by
  intro i head
  have hexpr : ∀ x : Expr, .expr x ∈ (Node.stmt s).children → ∀ k, x.regroup.print k = x.print k :=
    fun x hx => hchildren _ hx
  have hstmt : ∀ x : Stmt, .stmt x ∈ (Node.stmt s).children →
      ∀ k head, x.regroup.print k head = x.print k head := fun x hx => hchildren _ hx
  have hbody : ∀ body : List Stmt, (∀ x ∈ body, .stmt x ∈ (Node.stmt s).children) →
      ∀ k, printStmts k (regroupStmts body) = printStmts k body :=
    fun body hmem => printStmts_regroup fun x hx => hchildren _ (hmem x hx)
  have hexpr? : ∀ x : Option Expr, (∀ e ∈ x, .expr e ∈ (Node.stmt s).children) →
      printExpr? (regroupExpr? x) = printExpr? x :=
    fun x hmem => printExpr?_regroup fun e he => hchildren _ (hmem e he)
  cases s with
  | brk | cont | debugger | empty => rfl
  | var decls =>
      simp only [Stmt.regroup, Stmt.print, printDecls_regroup fun d hd =>
        hchildren _ (List.mem_map.2 ⟨d, hd, rfl⟩)]
  | function f =>
      simp only [Stmt.regroup, Stmt.print, f.print_regroup fun x hx =>
        hchildren _ (List.mem_map.2 ⟨x, hx, rfl⟩)]
  | expr e => simp only [Stmt.regroup, Stmt.print, hexpr e List.mem_cons_self]
  | block body =>
      simp only [Stmt.regroup, Stmt.print, hbody body fun x hx => List.mem_map.2 ⟨x, hx, rfl⟩]
  | branch test cons alt =>
      have hcons := hstmt cons (List.mem_cons_of_mem _ List.mem_cons_self)
      cases alt with
      | none =>
          simp only [Stmt.regroup, regroupStmt?, Stmt.print, printElse, hexpr test List.mem_cons_self,
            hcons, cons.isBlock_regroup, cons.endsInOpenIf_regroup]
      | some alt =>
          have halt := hstmt alt (by simp [children, childrenOfStmt])
          simp only [Stmt.regroup, regroupStmt?, Stmt.print, printElse, hexpr test List.mem_cons_self,
            hcons, halt, cons.isBlock_regroup, cons.endsInOpenIf_regroup, alt.isBlock_regroup,
            Option.isSome_some]
  | forLoop init test update body =>
      have hinit : init.regroup.print = init.print := by
        cases init with
        | absent => rfl
        | vars decls =>
            have hdecls : printDecls (regroupDecls decls) = printDecls decls :=
              printDecls_regroup fun d hd => hchildren _ (by simp [children, childrenOfStmt, hd])
            simp only [ForInit.regroup, ForInit.print, hdecls]
        | expr e =>
            simp only [ForInit.regroup, ForInit.print, hexpr e (by simp [children, childrenOfStmt])]
      have htest := hexpr? test fun e he =>
        List.mem_append_left _ (List.mem_append_left _ (List.mem_append_right _ (mem_ofExpr? he)))
      have hupdate := hexpr? update fun e he =>
        List.mem_append_left _ (List.mem_append_right _ (mem_ofExpr? he))
      simp only [Stmt.regroup, Stmt.print, hinit, htest, hupdate,
        hstmt body (by simp [children, childrenOfStmt]), body.isBlock_regroup]
  | forIn left right body =>
      have hleft : left.regroup.print = left.print := by
        cases left with
        | var name => rfl
        | expr e =>
            have he := hexpr e (by simp [children, childrenOfStmt])
            simp only [ForTarget.regroup, ForTarget.print, he]
      simp only [Stmt.regroup, Stmt.print, hleft,
        hexpr right (by cases left <;> simp [children, childrenOfStmt]),
        hstmt body (by cases left <;> simp [children, childrenOfStmt]), body.isBlock_regroup]
  | whileLoop test body =>
      simp only [Stmt.regroup, Stmt.print, hexpr test List.mem_cons_self,
        hstmt body (by simp [children, childrenOfStmt]), body.isBlock_regroup]
  | doLoop body test =>
      have htest := hexpr test (by simp [children, childrenOfStmt])
      have hloop := hstmt body List.mem_cons_self
      cases hblock : body.isBlock with
      | true =>
          obtain ⟨inner, rfl⟩ : ∃ inner, body = .block inner := by
            cases body <;> first | exact ⟨_, rfl⟩ | cases hblock
          have hinner : printStmts (i + 1) (regroupStmts inner) = printStmts (i + 1) inner := by
            have hsame := hloop i ""
            rw [Stmt.regroup, Stmt.print, Stmt.print, String.append_left_inj,
              String.append_right_inj] at hsame
            exact hsame
          simp only [Stmt.regroup, Stmt.print, hinner, htest]
      | false =>
          rw [Stmt.regroup, Stmt.print_doLoop (body.isBlock_regroup.trans hblock),
            Stmt.print_doLoop hblock, hloop, htest]
  | ret value =>
      cases value with
      | none => rfl
      | some value =>
          have hvalue := hexpr value List.mem_cons_self
          simp only [Stmt.regroup, regroupExpr?, Stmt.print, hvalue]
  | throwing value => simp only [Stmt.regroup, Stmt.print, hexpr value List.mem_cons_self]
  | attempt block handler finalizer =>
      have hblock := hbody block fun x hx => List.mem_append_left _ (List.mem_append_left _
        (List.mem_map.2 ⟨x, hx, rfl⟩))
      have hhandler : printHandler i (regroupHandler? handler) = printHandler i handler := by
        cases handler with
        | none => rfl
        | some handler => exact hchildren (.handler handler) (by simp [children, childrenOfStmt]) i
      have hfinalizer : printFinally i (regroupStmts? finalizer) = printFinally i finalizer := by
        cases finalizer with
        | none => rfl
        | some body =>
            have hinner := hbody body fun x hx => List.mem_append_right _ (List.mem_map.2 ⟨x, hx, rfl⟩)
            simp only [regroupStmts?, printFinally, hinner]
      simp only [Stmt.regroup, Stmt.print, hblock, hhandler, hfinalizer]
  | switch discriminant cases =>
      simp only [Stmt.regroup, Stmt.print, hexpr discriminant List.mem_cons_self,
        printCases_regroup fun c hc => hchildren _ (List.mem_cons_of_mem _ (List.mem_map.2 ⟨c, hc, rfl⟩))]
  | withScope object body =>
      simp only [Stmt.regroup, Stmt.print, hexpr object List.mem_cons_self,
        hstmt body (by simp [children, childrenOfStmt]), body.isBlock_regroup]
  | labeled label body =>
      simp only [Stmt.regroup, Stmt.print, hstmt body List.mem_cons_self]

theorem printsAlike_declarator {d : Declarator}
    (hchildren : ∀ c ∈ (Node.declarator d).children, c.PrintsAlike) :
    (Node.declarator d).PrintsAlike := by
  obtain ⟨name, init⟩ := d
  cases init with
  | none => rfl
  | some init =>
      have hinit : init.regroup.print 2 = init.print 2 := hchildren (.expr init) List.mem_cons_self 2
      exact congrArg (name ++ " = " ++ ·) hinit

theorem Regroupable.property {p : Property} (h : (Node.property p).Regroupable)
    (hvalue : (Node.expr p.value).PrintsAlike) : (Node.property p).PrintsAlike := by
  obtain ⟨name, kind, value⟩ := p
  have hformed := h.formed
  cases kind with
  | init => exact congrArg (key name ++ ": " ++ ·) (hvalue 2)
  | getter =>
      obtain ⟨body, rfl⟩ : ∃ body, value = .function ⟨none, [], body⟩ := hformed
      exact congrArg (fun text => "get " ++ key name ++ dropFunction text) (hvalue 0)
  | setter =>
      obtain ⟨param, body, rfl⟩ : ∃ param body, value = .function ⟨none, [param], body⟩ := hformed
      exact congrArg (fun text => "set " ++ key name ++ dropFunction text) (hvalue 0)

theorem printsAlike_case {c : Case} (hchildren : ∀ n ∈ (Node.case c).children, n.PrintsAlike) :
    (Node.case c).PrintsAlike := by
  intro i
  obtain ⟨test, body⟩ := c
  have hbody : printStmts (i + 1) (regroupStmts body) = printStmts (i + 1) body :=
    printStmts_regroup (fun s hs =>
      hchildren _ (List.mem_append_right _ (List.mem_map.2 ⟨s, hs, rfl⟩))) (i + 1)
  cases test with
  | none => rw [Case.regroup, regroupExpr?, Case.print, hbody, Case.print]
  | some test =>
      have htest : test.regroup.print 0 = test.print 0 :=
        hchildren (.expr test) (List.mem_append_left _ List.mem_cons_self) 0
      rw [Case.regroup, regroupExpr?, Case.print, htest, hbody, Case.print]

/-- Regrouping leaves the text as it is. -/
theorem printsAlike (n : Node) (h : n.Every Regroupable) : n.PrintsAlike := by
  obtain ⟨hn, hbelow⟩ := every_iff.1 h
  have hchildren : ∀ c ∈ n.children, c.PrintsAlike := fun c hc => c.printsAlike (hbelow c hc)
  have hbody : ∀ body : List Stmt, ofStmts body ⊆ n.children → ∀ s ∈ body, (Node.stmt s).PrintsAlike :=
    fun body hmem s hs => hchildren _ (hmem (List.mem_map.2 ⟨s, hs, rfl⟩))
  cases n with
  | func f => exact f.print_regroup (hbody f.body (List.Subset.refl _))
  | stmt s => exact printsAlike_stmt hchildren
  | expr e => exact hn.expr hchildren
  | declarator d => exact printsAlike_declarator hchildren
  | property p => exact hn.property (hchildren _ List.mem_cons_self)
  | case c => exact printsAlike_case hchildren
  | handler g =>
      intro i
      obtain ⟨param, body⟩ := g
      rw [Handler.regroup, Handler.print, Handler.print,
        printStmts_regroup (hbody body (List.Subset.refl _))]
termination_by n.weight
decreasing_by exact weight_lt_of_mem_children hc

end Node

end Resumption.Script
