import Resumption.Script.Basic

/-!
# Equality of trees

Two trees are the same when they have the same shape and the same names, operators and literals.
Numbers are compared as numbers, so the two zeros are the same literal.
-/

namespace Resumption.Script

mutual

def Expr.same : Expr → Expr → Bool
  | .num a, .num b => a == b
  | .str a, .str b => a == b
  | .bool a, .bool b => a == b
  | .null, .null => true
  | .ident a, .ident b => a == b
  | .this, .this => true
  | .array a, .array b => sameExprs a b
  | .object a, .object b => sameProps a b
  | .function a, .function b => a.same b
  | .unary o a, .unary p b => o == p && a.same b
  | .update o x a, .update p y b => o == p && x == y && a.same b
  | .binary o a c, .binary p b d => o == p && a.same b && c.same d
  | .logical o a c, .logical p b d => o == p && a.same b && c.same d
  | .assign o a c, .assign p b d => o == p && a.same b && c.same d
  | .conditional a c e, .conditional b d f => a.same b && c.same d && e.same f
  | .call a xs, .call b ys => a.same b && sameExprs xs ys
  | .construct a xs, .construct b ys => a.same b && sameExprs xs ys
  | .member a p, .member b q => a.same b && p == q
  | .index a c, .index b d => a.same b && c.same d
  | .sequence a, .sequence b => sameExprs a b
  | _, _ => false
termination_by structural a => a

def sameExprs : List Expr → List Expr → Bool
  | [], [] => true
  | a :: as, b :: bs => a.same b && sameExprs as bs
  | _, _ => false
termination_by structural a => a

def sameExpr? : Option Expr → Option Expr → Bool
  | none, none => true
  | some a, some b => a.same b
  | _, _ => false
termination_by structural a => a

def Property.same : Property → Property → Bool
  | ⟨k, x, a⟩, ⟨l, y, b⟩ => k == l && x == y && a.same b
termination_by structural a => a

def sameProps : List Property → List Property → Bool
  | [], [] => true
  | a :: as, b :: bs => a.same b && sameProps as bs
  | _, _ => false
termination_by structural a => a

def Declarator.same : Declarator → Declarator → Bool
  | ⟨n, a⟩, ⟨m, b⟩ => n == m && sameExpr? a b
termination_by structural a => a

def sameDecls : List Declarator → List Declarator → Bool
  | [], [] => true
  | a :: as, b :: bs => a.same b && sameDecls as bs
  | _, _ => false
termination_by structural a => a

def ForInit.same : ForInit → ForInit → Bool
  | .absent, .absent => true
  | .vars a, .vars b => sameDecls a b
  | .expr a, .expr b => a.same b
  | _, _ => false
termination_by structural a => a

def ForTarget.same : ForTarget → ForTarget → Bool
  | .var a, .var b => a == b
  | .expr a, .expr b => a.same b
  | _, _ => false
termination_by structural a => a

def sameHandler? : Option Handler → Option Handler → Bool
  | none, none => true
  | some ⟨p, a⟩, some ⟨q, b⟩ => p == q && sameStmts a b
  | _, _ => false
termination_by structural a => a

def sameCases : List Case → List Case → Bool
  | [], [] => true
  | ⟨t, a⟩ :: as, ⟨u, b⟩ :: bs => sameExpr? t u && sameStmts a b && sameCases as bs
  | _, _ => false
termination_by structural a => a

def Stmt.same : Stmt → Stmt → Bool
  | .var a, .var b => sameDecls a b
  | .function a, .function b => a.same b
  | .expr a, .expr b => a.same b
  | .block a, .block b => sameStmts a b
  | .branch t c a, .branch u d b => t.same u && c.same d && sameStmt? a b
  | .forLoop i t u a, .forLoop j v w b =>
    i.same j && sameExpr? t v && sameExpr? u w && a.same b
  | .forIn l r a, .forIn m s b => l.same m && r.same s && a.same b
  | .whileLoop t a, .whileLoop u b => t.same u && a.same b
  | .doLoop a t, .doLoop b u => a.same b && t.same u
  | .ret a, .ret b => sameExpr? a b
  | .brk a, .brk b => a == b
  | .cont a, .cont b => a == b
  | .throwing a, .throwing b => a.same b
  | .attempt a h f, .attempt b i g => sameStmts a b && sameHandler? h i && sameStmts? f g
  | .switch a xs, .switch b ys => a.same b && sameCases xs ys
  | .withScope o a, .withScope p b => o.same p && a.same b
  | .labeled l a, .labeled m b => l == m && a.same b
  | .debugger, .debugger => true
  | .empty, .empty => true
  | _, _ => false
termination_by structural a => a

def sameStmt? : Option Stmt → Option Stmt → Bool
  | none, none => true
  | some a, some b => a.same b
  | _, _ => false
termination_by structural a => a

def sameStmts : List Stmt → List Stmt → Bool
  | [], [] => true
  | a :: as, b :: bs => a.same b && sameStmts as bs
  | _, _ => false
termination_by structural a => a

def sameStmts? : Option (List Stmt) → Option (List Stmt) → Bool
  | none, none => true
  | some a, some b => sameStmts a b
  | _, _ => false
termination_by structural a => a

def Func.same : Func → Func → Bool
  | ⟨n, p, a⟩, ⟨m, q, b⟩ => n == m && p == q && sameStmts a b
termination_by structural a => a

end

def Program.same (p q : Program) : Bool := sameStmts p.body q.body

end Resumption.Script
