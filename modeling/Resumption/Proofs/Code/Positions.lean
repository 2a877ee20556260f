import Resumption.Proofs.Code.Image
import Resumption.Proofs.Code.Lowering
import Resumption.Proofs.Index.Partition

/-!
# Lowering keeps positions

What instrumentation makes of a tree is an image of the tree, and every position in it leads to the node
that it was made for.  Functions are taken from the last one in the tree to the first: everything inside
of a function stands behind it.
-/

namespace Resumption

open Script

/-- The registry leads from the positions of a tree to the tree. -/
def Registry.Leads (r : Registry) (t : IndexedTree) : Prop :=
  ∀ i, t.owns i = true → r.resolve t.ns i = .ok ⟨t, i⟩

variable {r : Registry} {t : IndexedTree} {lo i j : Nat} {n : Node} {scopes home : Code.Scopes}

theorem Registry.Leads.keeps (h : r.Leads t) (hat : t.At i n) : r.Keeps t.ns i n :=
  ⟨⟨t, i⟩, h i hat.owns, hat.node?⟩

theorem IndexedTree.le_after (t : IndexedTree) (h : lo ≤ i) : lo ≤ t.after i :=
  Nat.le_trans h (Nat.le_of_lt (t.lt_after i))

/-- A part that may be missing. -/
theorem IndexedTree.afterMany_toList {α : Type} (t : IndexedTree) (a : Option α) (i : Nat) :
    t.afterMany a.toList.length i = if a.isSome then t.after i else i := by
  cases a <;> rfl

theorem IndexedTree.le_after? {α : Type} (t : IndexedTree) (h : lo ≤ i) (a : Option α) :
    lo ≤ if a.isSome then t.after i else i := by
  split
  · exact t.le_after h
  · exact h

theorem Code.Scopes.resolve_name (scopes : Code.Scopes) (name : String) :
    (scopes.resolve name).name = name := by
  unfold Code.Scopes.resolve
  split
  · rfl
  · split <;> rfl

theorem Code.Scopes.read_image (scopes : Code.Scopes) (name : String) :
    Code.NameImage name (scopes.read name) := by
  unfold Code.Scopes.read
  split
  · rename_i h
    exact .arguments (by simpa using (Bool.and_eq_true_iff.1 h).1)
  · exact .ref (scopes.resolve_name name)

namespace Code

/-- Functions that stand at a position or behind it are lowered to their images. -/
def FuncsImaged (r : Registry) (t : IndexedTree) (lo : Nat) : Prop :=
  ∀ {i : Nat} {n : Node} {f : Script.Func} {outer : Scopes} {self : Option String} {code : Func},
    lo ≤ i → t.At i n → n.func? = some f → (∀ x, self = some x → f.name = some x) →
      lowerFunc t outer i self f = .ok code → FuncImage r t.ns i n f code

/-- The closure of a function, or the function as it is. -/
theorem closure_image (hr : r.Leads t) (hfuncs : FuncsImaged r t lo) (hlo : lo ≤ i) {f : Script.Func}
    {outer : Scopes} {self : Option String} {code : Expr} (hat : t.At i n) (hf : n.func? = some f)
    (hself : ∀ x, self = some x → f.name = some x)
    (h : (if f.isEscaped then return .plain t.ns i
      else do return .closure (← lowerFunc t outer i self f) : Lowered Expr) = .ok code) :
    ClosureImage r t.ns i n f code := by
  split at h
  · rename_i hescaped
    cases h
    exact .plain hescaped (hr.keeps hat)
  · obtain ⟨func, hfunc, h⟩ := Except.bind_eq_ok.1 h
    cases h
    exact .closure (hfuncs hlo hat hf hself hfunc)

section

variable {α β : Type} {node : α → Node} {Image : Nat → α → β → Prop} {a : α} {b : β} {as : List α}
  {bs : List β}

theorem Row.cons_at (hat : t.At i (node a)) (head : Image i a b)
    (tail : Row node Image (t.after i) as bs (t.afterMany as.length (t.after i))) :
    Row node Image i (a :: as) (b :: bs) (t.afterMany (a :: as).length i) := by
  rw [List.length_cons, IndexedTree.afterMany_succ]
  rw [hat.after] at tail ⊢
  exact .cons head tail

theorem Row.one (hat : t.At i (node a)) (head : Image i a b) :
    Row node Image i [a] [b] (t.after i) :=
  Row.cons_at hat head .nil

end

/-! ## Expressions -/

section

set_option linter.unusedSectionVars false

variable (hr : r.Leads t) (hfuncs : FuncsImaged r t lo)

include hr hfuncs

mutual

theorem lowerExpr_image (scopes : Scopes) (i : Nat) (hlo : lo ≤ i) :
    ∀ (e : Script.Expr) {code : Expr}, t.At i (.expr e) → lowerExpr t scopes i e = .ok code →
      ExprImage r t.ns i e code
  | .num v, _, _, h => by
      cases h
      exact .num v
  | .str v, _, _, h => by
      cases h
      exact .str v
  | .bool v, _, _, h => by
      cases h
      exact .bool v
  | .null, _, _, h => by
      cases h
      exact .null
  | .ident name, _, _, h => by
      cases h
      exact .ident (scopes.read_image name)
  | .this, _, _, h => by
      cases h
      exact .this
  | .array elements, _, hat, h => by
      obtain ⟨codes, hcodes, h⟩ := Except.bind_eq_ok.1 h
      cases h
      exact .array (lowerExprs_image scopes (i + 1) (by omega) elements hat.children hcodes)
  | .object props, _, hat, h => by
      obtain ⟨codes, hcodes, h⟩ := Except.bind_eq_ok.1 h
      cases h
      exact .object (lowerProps_image scopes (i + 1) (by omega) props hat.children hcodes)
  | .function f, _, hat, h =>
      .function (closure_image hr hfuncs hlo hat rfl (fun _ => id) h)
  | .unary op arg, _, hat, h => by
      obtain ⟨harg, -⟩ := hat.children
      rw [lowerExpr] at h
      split at h
      · rename_i hdelete
        obtain ⟨target, htarget, h⟩ := Except.bind_eq_ok.1 h
        cases h
        obtain rfl : op = .delete := by simpa using (Bool.and_eq_true_iff.1 hdelete).1
        exact .delete (lowerTarget_image scopes (i + 1) (by omega) arg harg htarget)
      · obtain ⟨x, hx, h⟩ := Except.bind_eq_ok.1 h
        cases h
        exact .unary (lowerExpr_image scopes (i + 1) (by omega) arg harg hx)
  | .update op before arg, _, hat, h => by
      obtain ⟨target, htarget, h⟩ := Except.bind_eq_ok.1 h
      cases h
      exact .update (hr.keeps hat)
        (lowerTarget_image scopes (i + 1) (by omega) arg hat.children.1 htarget)
  | .binary op left right, _, hat, h => by
      obtain ⟨x, hx, h⟩ := Except.bind_eq_ok.1 h
      obtain ⟨y, hy, h⟩ := Except.bind_eq_ok.1 h
      cases h
      obtain ⟨hleft, hright, -⟩ := hat.children
      rw [hleft.after] at hright hy
      exact .binary (lowerExpr_image scopes _ (by omega) left hleft hx)
        (lowerExpr_image scopes _ (by omega) right hright hy)
  | .logical op left right, _, hat, h => by
      obtain ⟨x, hx, h⟩ := Except.bind_eq_ok.1 h
      obtain ⟨y, hy, h⟩ := Except.bind_eq_ok.1 h
      cases h
      obtain ⟨hleft, hright, -⟩ := hat.children
      rw [hleft.after] at hright hy
      exact .logical (lowerExpr_image scopes _ (by omega) left hleft hx)
        (lowerExpr_image scopes _ (by omega) right hright hy)
  | .assign op target value, _, hat, h => by
      obtain ⟨x, hx, h⟩ := Except.bind_eq_ok.1 h
      obtain ⟨y, hy, h⟩ := Except.bind_eq_ok.1 h
      cases h
      obtain ⟨hleft, hright, -⟩ := hat.children
      rw [hleft.after] at hright hy
      exact .assign (hr.keeps hat) (lowerTarget_image scopes _ (by omega) target hleft hx)
        (lowerExpr_image scopes _ (by omega) value hright hy)
  | .conditional test cons alt, _, hat, h => by
      obtain ⟨x, hx, h⟩ := Except.bind_eq_ok.1 h
      obtain ⟨y, hy, h⟩ := Except.bind_eq_ok.1 h
      obtain ⟨z, hz, h⟩ := Except.bind_eq_ok.1 h
      cases h
      obtain ⟨htest, hcons, halt, -⟩ := hat.children
      rw [hcons.after] at halt hz
      rw [htest.after] at hcons halt hy hz
      exact .conditional (lowerExpr_image scopes _ (by omega) test htest hx)
        (lowerExpr_image scopes _ (by omega) cons hcons hy)
        (lowerExpr_image scopes _ (by omega) alt halt hz)
  | .call callee args, _, hat, h => by
      obtain ⟨x, hx, h⟩ := Except.bind_eq_ok.1 h
      obtain ⟨xs, hxs, h⟩ := Except.bind_eq_ok.1 h
      cases h
      obtain ⟨hcallee, hargs⟩ := hat.children
      rw [hcallee.after] at hargs hxs
      exact .call (hr.keeps hat) (lowerExpr_image scopes _ (by omega) callee hcallee hx)
        (lowerExprs_image scopes _ (by omega) args hargs hxs)
  | .construct callee args, _, hat, h => by
      obtain ⟨x, hx, h⟩ := Except.bind_eq_ok.1 h
      obtain ⟨xs, hxs, h⟩ := Except.bind_eq_ok.1 h
      cases h
      obtain ⟨hcallee, hargs⟩ := hat.children
      rw [hcallee.after] at hargs hxs
      exact .construct (hr.keeps hat) (lowerExpr_image scopes _ (by omega) callee hcallee hx)
        (lowerExprs_image scopes _ (by omega) args hargs hxs)
  | .member object property, _, hat, h => by
      obtain ⟨x, hx, h⟩ := Except.bind_eq_ok.1 h
      cases h
      exact .member (lowerExpr_image scopes _ (by omega) object hat.children.1 hx)
  | .index object key, _, hat, h => by
      obtain ⟨x, hx, h⟩ := Except.bind_eq_ok.1 h
      obtain ⟨y, hy, h⟩ := Except.bind_eq_ok.1 h
      cases h
      obtain ⟨hobject, hkey, -⟩ := hat.children
      rw [hobject.after] at hkey hy
      exact .index (lowerExpr_image scopes _ (by omega) object hobject hx)
        (lowerExpr_image scopes _ (by omega) key hkey hy)
  | .sequence exprs, _, hat, h => by
      obtain ⟨codes, hcodes, h⟩ := Except.bind_eq_ok.1 h
      cases h
      exact .sequence (lowerExprs_image scopes (i + 1) (by omega) exprs hat.children hcodes)
termination_by structural e => e

theorem lowerTarget_image (scopes : Scopes) (i : Nat) (hlo : lo ≤ i) :
    ∀ (e : Script.Expr) {code : Target}, t.At i (.expr e) → lowerTarget t scopes i e = .ok code →
      TargetImage r t.ns i e code
  | .ident name, _, _, h => by
      cases h
      exact .ident (scopes.resolve_name name)
  | .member object property, _, hat, h => by
      obtain ⟨x, hx, h⟩ := Except.bind_eq_ok.1 h
      cases h
      exact .member (lowerExpr_image scopes _ (by omega) object hat.children.1 hx)
  | .index object key, _, hat, h => by
      obtain ⟨x, hx, h⟩ := Except.bind_eq_ok.1 h
      obtain ⟨y, hy, h⟩ := Except.bind_eq_ok.1 h
      cases h
      obtain ⟨hobject, hkey, -⟩ := hat.children
      rw [hobject.after] at hkey hy
      exact .index (lowerExpr_image scopes _ (by omega) object hobject hx)
        (lowerExpr_image scopes _ (by omega) key hkey hy)
  | .num _, _, _, h | .str _, _, _, h | .bool _, _, _, h | .null, _, _, h | .this, _, _, h
  | .array _, _, _, h | .object _, _, _, h | .function _, _, _, h | .unary _ _, _, _, h
  | .update _ _ _, _, _, h | .binary _ _ _, _, _, h | .logical _ _ _, _, _, h
  | .assign _ _ _, _, _, h | .conditional _ _ _, _, _, h | .call _ _, _, _, h
  | .construct _ _, _, _, h | .sequence _, _, _, h => by cases h
termination_by structural e => e

theorem lowerExprs_image (scopes : Scopes) (i : Nat) (hlo : lo ≤ i) :
    ∀ (l : List Script.Expr) {codes : List Expr}, t.AtAll i (Node.ofExprs l) →
      lowerExprs t scopes i l = .ok codes →
      Row Node.expr (ExprImage r t.ns) i l codes (t.afterMany l.length i)
  | [], _, _, h => by
      cases h
      exact .nil
  | e :: rest, _, hat, h => by
      obtain ⟨x, hx, h⟩ := Except.bind_eq_ok.1 h
      obtain ⟨xs, hxs, h⟩ := Except.bind_eq_ok.1 h
      cases h
      exact .cons_at hat.1 (lowerExpr_image scopes i hlo e hat.1 hx)
        (lowerExprs_image scopes _ (t.le_after hlo) rest hat.2 hxs)
termination_by structural l => l

theorem lowerProp_image (scopes : Scopes) (i : Nat) (hlo : lo ≤ i) :
    ∀ (p : Script.Property) {code : Property}, t.At i (.property p) →
      lowerProp t scopes i p = .ok code → PropertyImage r t.ns i p code
  | ⟨key, kind, value⟩, _, hat, h => by
      obtain ⟨x, hx, h⟩ := Except.bind_eq_ok.1 h
      cases h
      exact .mk (lowerExpr_image scopes _ (by omega) value hat.children.1 hx)
termination_by structural p => p

theorem lowerProps_image (scopes : Scopes) (i : Nat) (hlo : lo ≤ i) :
    ∀ (l : List Script.Property) {codes : List Property}, t.AtAll i (l.map .property) →
      lowerProps t scopes i l = .ok codes →
      Row Node.property (PropertyImage r t.ns) i l codes (t.afterMany l.length i)
  | [], _, _, h => by
      cases h
      exact .nil
  | p :: rest, _, hat, h => by
      obtain ⟨x, hx, h⟩ := Except.bind_eq_ok.1 h
      obtain ⟨xs, hxs, h⟩ := Except.bind_eq_ok.1 h
      cases h
      exact .cons_at hat.1 (lowerProp_image scopes i hlo p hat.1 hx)
        (lowerProps_image scopes _ (t.le_after hlo) rest hat.2 hxs)
termination_by structural l => l

end

theorem lowerExpr?_image (hlo : lo ≤ i) {e : Option Script.Expr} {code : Option Expr}
    (hat : t.AtAll i (Node.ofExpr? e)) (h : lowerExpr? t scopes i e = .ok code) :
    Row Node.expr (ExprImage r t.ns) i e.toList code.toList (if e.isSome then t.after i else i) := by
  cases e with
  | none =>
      cases h
      exact .nil
  | some e =>
      obtain ⟨x, hx, h⟩ := Except.bind_eq_ok.1 h
      cases h
      exact .one hat.1 (lowerExpr_image hr hfuncs scopes i hlo e hat.1 hx)

/-! ## Declarators and heads of loops -/

theorem lowerDecl_image (hlo : lo ≤ i) {d : Script.Declarator} {code : Declarator}
    (hat : t.At i (.declarator d)) (h : lowerDecl t scopes i d = .ok code) :
    DeclaratorImage r t.ns i d code := by
  obtain ⟨name, init⟩ := d
  obtain ⟨x, hx, h⟩ := Except.bind_eq_ok.1 h
  cases h
  exact .mk (hr.keeps hat) (scopes.resolve_name name)
    (lowerExpr?_image hr hfuncs (by omega) hat.children hx)

theorem lowerDecls_image (hlo : lo ≤ i) {l : List Script.Declarator} {codes : List Declarator}
    (hat : t.AtAll i (l.map .declarator)) (h : lowerDecls t scopes i l = .ok codes) :
    Row Node.declarator (DeclaratorImage r t.ns) i l codes (t.afterMany l.length i) := by
  induction l generalizing i codes with
  | nil =>
      cases h
      exact .nil
  | cons d rest ih =>
      obtain ⟨x, hx, h⟩ := Except.bind_eq_ok.1 h
      obtain ⟨xs, hxs, h⟩ := Except.bind_eq_ok.1 h
      cases h
      exact .cons_at hat.1 (lowerDecl_image hr hfuncs hlo hat.1 hx)
        (ih (t.le_after hlo) hat.2 hxs)

theorem lowerInit_image (hlo : lo ≤ i) {init : Script.ForInit} {code : ForInit}
    (hat : t.AtAll i init.nodes) (h : lowerInit t scopes i init = .ok code) :
    InitImage r t.ns i init code (t.afterMany init.count i) := by
  cases init with
  | absent =>
      cases h
      exact .absent
  | vars decls =>
      obtain ⟨codes, hcodes, h⟩ := Except.bind_eq_ok.1 h
      cases h
      exact .vars (lowerDecls_image hr hfuncs hlo hat hcodes)
  | expr e =>
      obtain ⟨x, hx, h⟩ := Except.bind_eq_ok.1 h
      cases h
      rw [ForInit.count, IndexedTree.afterMany_succ, IndexedTree.afterMany_zero, hat.1.after]
      exact .expr (lowerExpr_image hr hfuncs scopes i hlo e hat.1 hx)

/-! ## Statements -/

mutual

theorem lowerStmt_image (scopes : Scopes) (i : Nat) (hlo : lo ≤ i) :
    ∀ (stmt : Script.Stmt) {code : Stmt}, t.At i (.stmt stmt) →
      (lowerStmt t home scopes i stmt).code = .ok code → StmtImage r t.ns i stmt code
  | .var decls, _, hat, h => by
      obtain ⟨codes, hcodes, h⟩ := Except.bind_eq_ok.1 h
      cases h
      exact .var (lowerDecls_image hr hfuncs (by omega) hat.children hcodes)
  | .function f, _, _, h => by
      cases h
      exact .function f
  | .empty, _, _, h => by
      cases h
      exact .empty
  | .expr e, _, hat, h => by
      obtain ⟨x, hx, h⟩ := Except.bind_eq_ok.1 h
      cases h
      exact .expr (lowerExpr_image hr hfuncs scopes _ (by omega) e hat.children.1 hx)
  | .block body, _, hat, h => by
      obtain ⟨codes, hcodes, rfl⟩ := LoweredBody.map_eq_ok h
      exact .block (lowerStmts_image scopes (i + 1) (by omega) body hat.children hcodes)
  | .branch test cons alt, _, hat, h => by
      obtain ⟨x, _, hx, hrest, rfl⟩ := LoweredBody.both_eq_ok h
      obtain ⟨y, z, hy, hz, rfl⟩ := LoweredBody.both_eq_ok hrest
      obtain ⟨htest, hcons, halt⟩ := hat.children
      rw [hcons.after] at halt hz
      rw [htest.after] at hcons hy halt hz
      exact .branch (lowerExpr_image hr hfuncs scopes _ (by omega) test htest hx)
        (lowerStmt_image scopes _ (by omega) cons hcons hy)
        (lowerStmt?_image scopes _ (by omega) alt halt hz)
  | .forLoop init test update body, _, hat, h => by
      obtain ⟨_, code, hhead, hcode, rfl⟩ := LoweredBody.both_eq_ok h
      obtain ⟨x, hx, hhead⟩ := Except.bind_eq_ok.1 hhead
      obtain ⟨y, hy, hhead⟩ := Except.bind_eq_ok.1 hhead
      obtain ⟨z, hz, hhead⟩ := Except.bind_eq_ok.1 hhead
      cases hhead
      have hparts := hat.children
      rw [Node.children_forLoop, IndexedTree.atAll_append, init.length_nodes,
        IndexedTree.atAll_append, IndexedTree.atAll_append, Node.ofExpr?, Node.ofExpr?,
        List.length_map, List.length_map, t.afterMany_toList, t.afterMany_toList] at hparts
      obtain ⟨hinit, htest, hupdate, hbody, -⟩ := hparts
      have hj : lo ≤ t.afterMany init.count (i + 1) :=
        Nat.le_trans (by omega) (t.le_afterMany init.count (i + 1))
      have hk := t.le_after? hj test
      exact .forLoop (lowerInit_image hr hfuncs (by omega) hinit hx)
        (lowerExpr?_image hr hfuncs hj htest hy) (lowerExpr?_image hr hfuncs hk hupdate hz)
        (lowerStmt_image scopes _ (t.le_after? hk update) body hbody hcode)
  | .forIn left right body, _, hat, h => by
      obtain ⟨_, code, hhead, hcode, rfl⟩ := LoweredBody.both_eq_ok h
      obtain ⟨x, hx, hhead⟩ := Except.bind_eq_ok.1 hhead
      obtain ⟨y, hy, hhead⟩ := Except.bind_eq_ok.1 hhead
      cases hhead
      cases left with
      | var name =>
          cases hx
          obtain ⟨hright, hbody, -⟩ := hat.children
          replace hcode : (lowerStmt t home scopes (t.after (i + 1)) body).code = .ok code := hcode
          rw [hright.after] at hbody hcode
          rw [ForTarget.isExpr, if_neg Bool.false_ne_true]
          exact .forIn (.var (scopes.resolve_name name)) (hr.keeps hright)
            (lowerExpr_image hr hfuncs scopes _ (by omega) right hright hy)
            (lowerStmt_image scopes _ (by omega) body hbody hcode)
      | expr e =>
          obtain ⟨he, hright, hbody, -⟩ := hat.children
          replace hy : lowerExpr t scopes (t.after (i + 1)) right = .ok y := hy
          replace hcode : (lowerStmt t home scopes (t.after (t.after (i + 1))) body).code = .ok code :=
            hcode
          rw [hright.after] at hbody hcode
          rw [ForTarget.isExpr, if_pos rfl]
          rw [he.after] at hright hbody hy hcode ⊢
          exact .forIn (.expr (lowerTarget_image hr hfuncs scopes _ (by omega) e he hx))
            (hr.keeps hright) (lowerExpr_image hr hfuncs scopes _ (by omega) right hright hy)
            (lowerStmt_image scopes _ (by omega) body hbody hcode)
  | .whileLoop test body, _, hat, h => by
      obtain ⟨x, y, hx, hy, rfl⟩ := LoweredBody.both_eq_ok h
      obtain ⟨htest, hbody, -⟩ := hat.children
      rw [htest.after] at hbody hy
      exact .whileLoop (lowerExpr_image hr hfuncs scopes _ (by omega) test htest hx)
        (lowerStmt_image scopes _ (by omega) body hbody hy)
  | .doLoop body test, _, hat, h => by
      obtain ⟨x, y, hx, hy, rfl⟩ := LoweredBody.both_eq_ok h
      obtain ⟨hbody, htest, -⟩ := hat.children
      replace hy : lowerExpr t scopes (t.after (i + 1)) test = .ok y := hy
      rw [hbody.after] at htest hy
      exact .doLoop (lowerStmt_image scopes _ (by omega) body hbody hx)
        (lowerExpr_image hr hfuncs scopes _ (by omega) test htest hy)
  | .ret value, _, hat, h => by
      obtain ⟨x, hx, h⟩ := Except.bind_eq_ok.1 h
      cases h
      exact .ret (lowerExpr?_image hr hfuncs (by omega) hat.children hx)
  | .brk none, _, _, h => by
      cases h
      exact .brk
  | .cont none, _, _, h => by
      cases h
      exact .cont
  | .brk (some _), _, _, h | .cont (some _), _, _, h | .labeled _ _, _, _, h => by cases h
  | .throwing value, _, hat, h => by
      obtain ⟨x, hx, h⟩ := Except.bind_eq_ok.1 h
      cases h
      exact .throwing (lowerExpr_image hr hfuncs scopes _ (by omega) value hat.children.1 hx)
  | .attempt block handler finalizer, _, hat, h => by
      obtain ⟨_, z, hrest, hz, rfl⟩ := LoweredBody.both_eq_ok h
      obtain ⟨x, y, hx, hy, rfl⟩ := LoweredBody.both_eq_ok hrest
      have hparts := hat.children
      rw [Node.children, Node.childrenOfStmt, IndexedTree.atAll_append, IndexedTree.atAll_append,
        List.length_append, IndexedTree.afterMany_add, Node.ofStmts, List.length_map,
        List.length_map, t.afterMany_toList] at hparts
      obtain ⟨⟨hblock, hhandler⟩, hfinally⟩ := hparts
      have hj : lo ≤ t.afterMany block.length (i + 1) :=
        Nat.le_trans (by omega) (t.le_afterMany block.length (i + 1))
      exact .attempt (hr.keeps hat) (lowerStmts_image scopes _ (by omega) block hblock hx)
        (lowerHandler?_image scopes _ hj handler hhandler hy)
        (lowerFinally_image scopes _ (t.le_after? hj handler) finalizer hfinally hz)
  | .switch discriminant cases, _, hat, h => by
      obtain ⟨x, codes, hx, hcodes, rfl⟩ := LoweredBody.both_eq_ok h
      obtain ⟨hdiscriminant, hcases⟩ := hat.children
      rw [hdiscriminant.after] at hcases hcodes
      exact .switch (hr.keeps hdiscriminant)
        (lowerExpr_image hr hfuncs scopes _ (by omega) discriminant hdiscriminant hx)
        (lowerCases_image scopes _ (by omega) cases hcases hcodes)
  | .withScope object body, _, hat, h => by
      obtain ⟨x, y, hx, hy, rfl⟩ := LoweredBody.both_eq_ok h
      obtain ⟨hobject, hbody, -⟩ := hat.children
      rw [hobject.after] at hbody hy
      exact .withScope (lowerExpr_image hr hfuncs scopes _ (by omega) object hobject hx)
        (lowerStmt_image _ _ (by omega) body hbody hy)
  | .debugger, _, hat, h => by
      cases h
      exact .debugger (hr.keeps hat)
termination_by structural stmt => stmt

theorem lowerStmt?_image (scopes : Scopes) (i : Nat) (hlo : lo ≤ i) :
    ∀ (alt : Option Script.Stmt) {code : Option Stmt}, t.AtAll i (alt.toList.map .stmt) →
      (lowerStmt? t home scopes i alt).code = .ok code →
      Row Node.stmt (StmtImage r t.ns) i alt.toList code.toList (if alt.isSome then t.after i else i)
  | none, _, _, h => by
      cases h
      exact .nil
  | some stmt, _, hat, h => by
      obtain ⟨x, hx, rfl⟩ := LoweredBody.map_eq_ok h
      exact .one hat.1 (lowerStmt_image scopes i hlo stmt hat.1 hx)
termination_by structural alt => alt

theorem lowerStmts_image (scopes : Scopes) (i : Nat) (hlo : lo ≤ i) :
    ∀ (l : List Script.Stmt) {codes : List Stmt}, t.AtAll i (Node.ofStmts l) →
      (lowerStmts t home scopes i l).code = .ok codes →
      Row Node.stmt (StmtImage r t.ns) i l codes (t.afterMany l.length i)
  | [], _, _, h => by
      cases h
      exact .nil
  | stmt :: rest, _, hat, h => by
      obtain ⟨x, xs, hx, hxs, rfl⟩ := LoweredBody.both_eq_ok h
      exact .cons_at hat.1 (lowerStmt_image scopes i hlo stmt hat.1 hx)
        (lowerStmts_image scopes _ (t.le_after hlo) rest hat.2 hxs)
termination_by structural l => l

theorem lowerHandler?_image (scopes : Scopes) (i : Nat) (hlo : lo ≤ i) :
    ∀ (handler : Option Script.Handler) {code : Option Handler},
      t.AtAll i (handler.toList.map .handler) →
      (lowerHandler? t home scopes i handler).code = .ok code →
      Row Node.handler (HandlerImage r t.ns) i handler.toList code.toList
        (if handler.isSome then t.after i else i)
  | none, _, _, h => by
      cases h
      exact .nil
  | some handler, _, hat, h => by
      obtain ⟨x, hx, rfl⟩ := LoweredBody.map_eq_ok h
      exact .one hat.1 (lowerHandler_image scopes i hlo handler hat.1 hx)
termination_by structural handler => handler

theorem lowerHandler_image (scopes : Scopes) (i : Nat) (hlo : lo ≤ i) :
    ∀ (handler : Script.Handler) {code : Handler}, t.At i (.handler handler) →
      (lowerHandler t home scopes i handler).code = .ok code → HandlerImage r t.ns i handler code
  | ⟨param, body⟩, _, hat, h => by
      obtain ⟨codes, hcodes, rfl⟩ := LoweredBody.map_eq_ok h
      exact .mk (hr.keeps hat) (lowerStmts_image _ (i + 1) (by omega) body hat.children hcodes)
termination_by structural handler => handler

theorem lowerFinally_image (scopes : Scopes) (i : Nat) (hlo : lo ≤ i) :
    ∀ (f : Option (List Script.Stmt)) {code : Option (List Stmt)},
      t.AtAll i (Node.ofStmts (f.getD [])) → (lowerFinally t home scopes i f).code = .ok code →
      FinallyImage r t.ns i f code (t.afterMany (f.getD []).length i)
  | none, _, _, h => by
      cases h
      exact .none
  | some body, _, hat, h => by
      obtain ⟨codes, hcodes, rfl⟩ := LoweredBody.map_eq_ok h
      exact .some (lowerStmts_image scopes i hlo body hat hcodes)
termination_by structural f => f

theorem lowerCases_image (scopes : Scopes) (i : Nat) (hlo : lo ≤ i) :
    ∀ (l : List Script.Case) {codes : List Case}, t.AtAll i (l.map .case) →
      (lowerCases t home scopes i l).code = .ok codes →
      Row Node.case (CaseImage r t.ns) i l codes (t.afterMany l.length i)
  | [], _, _, h => by
      cases h
      exact .nil
  | arm :: rest, _, hat, h => by
      obtain ⟨x, xs, hx, hxs, rfl⟩ := LoweredBody.both_eq_ok h
      exact .cons_at hat.1 (lowerCase_image scopes i hlo arm hat.1 hx)
        (lowerCases_image scopes _ (t.le_after hlo) rest hat.2 hxs)
termination_by structural l => l

theorem lowerCase_image (scopes : Scopes) (i : Nat) (hlo : lo ≤ i) :
    ∀ (arm : Script.Case) {code : Case}, t.At i (.case arm) →
      (lowerCase t home scopes i arm).code = .ok code → CaseImage r t.ns i arm code
  | ⟨test, body⟩, _, hat, h => by
      obtain ⟨x, codes, hx, hcodes, rfl⟩ := LoweredBody.both_eq_ok h
      have hparts := hat.children
      rw [Node.children, IndexedTree.atAll_append, Node.ofExpr?, List.length_map,
        t.afterMany_toList] at hparts
      exact .mk (lowerExpr?_image hr hfuncs (by omega) hparts.1 hx)
        (lowerStmts_image scopes _ (t.le_after? (by omega) test) body hparts.2 hcodes)
termination_by structural arm => arm

end

/-! ## Functions -/

/-- The declarations that count become the closures of their functions. -/
theorem hoist_image {l : List Node} {found : List Found} (hfinds : Finds t home i l found)
    (hat : t.AtAll i l) (hlo : lo ≤ i) {functions : List (String × Nat)} {hoisted : List Hoisted}
    (hdeclared : ∀ name j, (name, j) ∈ functions → .function name j ∈ t.declaredIn i l)
    (h : hoist functions found = .ok hoisted) :
    List.Forall₂ (HoistedImage r t.ns) functions hoisted := by
  induction functions generalizing hoisted with
  | nil =>
      cases h
      exact .nil
  | cons x functions ih =>
      obtain ⟨name, j⟩ := x
      have hmem := hdeclared name j List.mem_cons_self
      obtain ⟨f, hname, hle, hf⟩ := hat.exists_declared hmem
      obtain ⟨g, value, rest, hg, hvalue, hrest, rfl⟩ := hoist_cons_eq_ok hfinds hat hmem h
      cases hf.unique hg
      refine .cons (.mk hname ?_) (ih (fun x k hx => hdeclared x k (List.mem_cons_of_mem _ hx)) hrest)
      exact closure_image hr hfuncs (Nat.le_trans hlo hle) hf rfl (fun _ hx => by cases hx) hvalue

end

/-- A function is lowered to its image if the functions behind it are. -/
theorem func_image (hr : r.Leads t) (hfuncs : FuncsImaged r t (i + 1)) {f : Script.Func}
    {outer : Scopes} {self : Option String} {code : Func} (hat : t.At i n) (hf : n.func? = some f)
    (hself : ∀ x, self = some x → f.name = some x) (h : lowerFunc t outer i self f = .ok code) :
    FuncImage r t.ns i n f code := by
  have hbody : t.AtAll (i + 1) (Node.ofStmts f.body) := by
    rw [← Node.children_of_func? hf]
    exact hat.children
  obtain ⟨name, params, body⟩ := f
  rw [lowerFunc] at h
  obtain ⟨hoisted, hhoist, h⟩ := Except.bind_eq_ok.1 h
  obtain ⟨codes, hcodes, h⟩ := Except.bind_eq_ok.1 h
  cases h
  refine .mk hf (hr i hat.owns) hat.node? rfl rfl rfl rfl (fun x hx => ?_) rfl ?_
    (lowerStmts_image hr hfuncs _ (i + 1) (Nat.le_refl _) body hbody hcodes)
  · exact hself x (Option.filter_eq_some_iff.1 hx).1
  · exact hoist_image hr hfuncs (lowerStmts_finds _ (i + 1) body hcodes) hbody (Nat.le_refl _)
      (fun name j hmem => Declarations.mem_ofList hmem) hhoist

/-- From the last function of the tree to the first, functions are lowered to their images. -/
theorem funcsImaged (hr : r.Leads t) (lo : Nat) : FuncsImaged r t lo := by
  intro i n f outer self code hlo hat hf hself h
  have hlt : i < t.base + t.length := (IndexedTree.owns_iff.1 hat.owns).2
  exact func_image hr (funcsImaged hr (i + 1)) hat hf hself h
termination_by t.base + t.length - lo
decreasing_by omega

/-- What a rewrite pass returns is an image of the tree that it was given, numbered in pre-order from the
first free position of the name space on; under every position in it the registry keeps the node of the
tree that it was made for. -/
theorem instrument_image (calls : List Registration) {f : Script.Func} {ns : String}
    {inherited : List String} {isProgram : Bool} {code : Func} {r : Registry}
    (h : instrument f (Registry.empty.register calls) ns inherited isProgram = (.ok code, r)) :
    FuncImage r ns ((Registry.empty.register calls).next ns) (.func f) f code := by
  have hbuilt := Registry.built_register calls
  obtain ⟨hcode, hr⟩ := instrument_eq_ok (congrArg Prod.fst h)
  rw [h] at hr
  dsimp only at hr
  subst hr
  refine funcsImaged (t := ((Registry.empty.register calls).assign f ns isProgram).1) (fun i hi => ?_) 0
    (Nat.zero_le _) (IndexedTree.at_root _ _ _ _) rfl (fun _ hx => by cases hx) hcode
  rw [(hbuilt.assign f ns isProgram).resolve_eq_ok_iff]
  exact ⟨hbuilt.tree_assign f ns isProgram hi, rfl⟩

theorem instrument_image_selfCalling :
    FuncImage ⟨[selfCallingTree]⟩ "default" 0 (.func selfCallingProgram.toFunc) selfCallingProgram.toFunc
      selfCallingCode :=
  instrument_image [] instrument_selfCalling

end Code

end Resumption
