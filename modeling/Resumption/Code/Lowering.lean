import Resumption.Code.Scopes
import Resumption.Index.Registry

/-!
# Lowering

From source trees to instrumented code.  The position of a node is carried along: the first child
stands right behind its parent, the next one right behind the subtree of its elder sibling.

A function declared somewhere in a body belongs to the function around it, whatever `with` or
`catch` it stands in.  So a statement is lowered to a statement and the declarations found in it,
the latter in the scopes of the function around (`home`).
-/

namespace Resumption.Code

open Script (Node UnaryOp)

inductive LoweringError where
  /-- A construct that cannot be instrumented. -/
  | unsupported (construct : String) (index : Nat)
  | invalidTarget (index : Nat)
deriving Repr, DecidableEq

def LoweringError.message : LoweringError → String
  | .unsupported construct i => "unsupported syntax: " ++ construct ++ " at index " ++ toString i
  | .invalidTarget i => "invalid assignment target at index " ++ toString i

abbrev Lowered (α : Type) := Except LoweringError α

/-- A function declaration found in a statement, by its position. -/
structure Found where
  index : Nat
  value : Lowered Expr

/-- The lowered form of statements, with the declarations found in them. -/
structure LoweredBody (α : Type) where
  found : List Found
  code : Lowered α

namespace LoweredBody

variable {α β γ : Type}

def plain (code : Lowered α) : LoweredBody α := ⟨[], code⟩

def map (f : α → β) (x : LoweredBody α) : LoweredBody β := ⟨x.found, f <$> x.code⟩

/-- Two parts in order; the first error counts. -/
def both (f : α → β → γ) (x : LoweredBody α) (y : LoweredBody β) : LoweredBody γ :=
  ⟨x.found ++ y.found, do
    let a ← x.code
    return f a (← y.code)⟩

/-- An expression in front of a body. -/
def behind (f : α → β → γ) (x : Lowered α) (y : LoweredBody β) : LoweredBody γ :=
  both f (plain x) y

end LoweredBody

open LoweredBody

/-- The closures of the declarations that count, in their order. -/
def hoist (functions : List (String × Nat)) (found : List Found) : Lowered (List Hoisted) :=
  functions.filterMapM (fun (name, i) =>
    match found.find? (fun d => d.index == i) with
    | some d => do return some ⟨name, ← d.value⟩
    | none => return none)

mutual

def lowerExpr (t : IndexedTree) (scopes : Scopes) (i : Nat) : Script.Expr → Lowered Expr
  | .num v => return .num v
  | .str v => return .str v
  | .bool v => return .bool v
  | .null => return .null
  | .ident name => return scopes.read name
  | .this => return .this
  | .array elements => do return .array (← lowerExprs t scopes (i + 1) elements)
  | .object props => do return .object (← lowerProps t scopes (i + 1) props)
  | .function f =>
    if f.isEscaped then return .plain t.ns i
    else do return .closure (← lowerFunc t scopes i f.name f)
  | .unary op arg => do
    if op == .delete && arg.isProperty then return .delete (← lowerTarget t scopes (i + 1) arg)
    else return .unary op (← lowerExpr t scopes (i + 1) arg)
  | .update op before arg => do
    return .update i op before (← lowerTarget t scopes (i + 1) arg)
  | .binary op left right => do
    let l ← lowerExpr t scopes (i + 1) left
    return .binary op l (← lowerExpr t scopes (t.after (i + 1)) right)
  | .logical op left right => do
    let l ← lowerExpr t scopes (i + 1) left
    return .logical op l (← lowerExpr t scopes (t.after (i + 1)) right)
  | .assign op target value => do
    let l ← lowerTarget t scopes (i + 1) target
    return .assign i op l (← lowerExpr t scopes (t.after (i + 1)) value)
  | .conditional test cons alt => do
    let j := t.after (i + 1)
    let c ← lowerExpr t scopes (i + 1) test
    let a ← lowerExpr t scopes j cons
    return .conditional c a (← lowerExpr t scopes (t.after j) alt)
  | .call callee args => do
    let c ← lowerExpr t scopes (i + 1) callee
    return .call i c (← lowerExprs t scopes (t.after (i + 1)) args)
  | .construct callee args => do
    let c ← lowerExpr t scopes (i + 1) callee
    return .construct i c (← lowerExprs t scopes (t.after (i + 1)) args)
  | .member object property => do
    return .member (← lowerExpr t scopes (i + 1) object) (.name property)
  | .index object key => do
    let o ← lowerExpr t scopes (i + 1) object
    return .member o (.computed (← lowerExpr t scopes (t.after (i + 1)) key))
  | .sequence exprs => do return .sequence (← lowerExprs t scopes (i + 1) exprs)
termination_by structural e => e

def lowerTarget (t : IndexedTree) (scopes : Scopes) (i : Nat) : Script.Expr → Lowered Target
  | .ident name => return .ref (scopes.resolve name)
  | .member object property => do
    return .member (← lowerExpr t scopes (i + 1) object) (.name property)
  | .index object key => do
    let o ← lowerExpr t scopes (i + 1) object
    return .member o (.computed (← lowerExpr t scopes (t.after (i + 1)) key))
  | _ => .error (.invalidTarget i)
termination_by structural e => e

def lowerExprs (t : IndexedTree) (scopes : Scopes) (i : Nat) :
    List Script.Expr → Lowered (List Expr)
  | [] => return []
  | e :: rest => do
    let e ← lowerExpr t scopes i e
    return e :: (← lowerExprs t scopes (t.after i) rest)
termination_by structural l => l

def lowerExpr? (t : IndexedTree) (scopes : Scopes) (i : Nat) :
    Option Script.Expr → Lowered (Option Expr)
  | none => return none
  | some e => do return some (← lowerExpr t scopes i e)
termination_by structural e => e

def lowerProp (t : IndexedTree) (scopes : Scopes) (i : Nat) : Script.Property → Lowered Property
  | ⟨key, kind, value⟩ => do return ⟨key, kind, ← lowerExpr t scopes (i + 1) value⟩
termination_by structural p => p

def lowerProps (t : IndexedTree) (scopes : Scopes) (i : Nat) :
    List Script.Property → Lowered (List Property)
  | [] => return []
  | p :: rest => do
    let p ← lowerProp t scopes i p
    return p :: (← lowerProps t scopes (t.after i) rest)
termination_by structural l => l

def lowerDecl (t : IndexedTree) (scopes : Scopes) (i : Nat) :
    Script.Declarator → Lowered Declarator
  | ⟨name, init⟩ => do return ⟨i, scopes.resolve name, ← lowerExpr? t scopes (i + 1) init⟩
termination_by structural d => d

def lowerDecls (t : IndexedTree) (scopes : Scopes) (i : Nat) :
    List Script.Declarator → Lowered (List Declarator)
  | [] => return []
  | d :: rest => do
    let d ← lowerDecl t scopes i d
    return d :: (← lowerDecls t scopes (t.after i) rest)
termination_by structural l => l

def lowerInit (t : IndexedTree) (scopes : Scopes) (i : Nat) : Script.ForInit → Lowered ForInit
  | .absent => return .absent
  | .vars decls => do return .vars (← lowerDecls t scopes i decls)
  | .expr e => do return .expr (← lowerExpr t scopes i e)
termination_by structural x => x

def lowerForTarget (t : IndexedTree) (scopes : Scopes) (i : Nat) :
    Script.ForTarget → Lowered Target
  | .var name => return .ref (scopes.resolve name)
  | .expr e => lowerTarget t scopes i e
termination_by structural x => x

def lowerStmt (t : IndexedTree) (home scopes : Scopes) (i : Nat) :
    Script.Stmt → LoweredBody Stmt
  | .var decls => plain (do return .var (← lowerDecls t scopes (i + 1) decls))
  | .function f =>
    let closure : Lowered Expr :=
      if f.isEscaped then return .plain t.ns i
      else do return .closure (← lowerFunc t home i none f)
    ⟨[⟨i, closure⟩], return .empty⟩
  | .empty => plain (return .empty)
  | .expr e => plain (do return .expr (← lowerExpr t scopes (i + 1) e))
  | .block body => (lowerStmts t home scopes (i + 1) body).map .block
  | .branch test cons alt =>
    let j := t.after (i + 1)
    behind (fun x (y, z) => .branch x y z) (lowerExpr t scopes (i + 1) test)
      (both Prod.mk (lowerStmt t home scopes j cons) (lowerStmt? t home scopes (t.after j) alt))
  | .forLoop init test update body =>
    let j := i + 1
    let k := t.afterMany init.count j
    let l := if test.isSome then t.after k else k
    let m := if update.isSome then t.after l else l
    let head : Lowered (Stmt → Stmt) := do
      let x ← lowerInit t scopes j init
      let y ← lowerExpr? t scopes k test
      return .forLoop x y (← lowerExpr? t scopes l update)
    behind id head (lowerStmt t home scopes m body)
  | .forIn left right body =>
    let j := if left.isExpr then t.after (i + 1) else i + 1
    let head : Lowered (Stmt → Stmt) := do
      let x ← lowerForTarget t scopes (i + 1) left
      return .forIn j x (← lowerExpr t scopes j right)
    behind id head (lowerStmt t home scopes (t.after j) body)
  | .whileLoop test body =>
    behind .whileLoop (lowerExpr t scopes (i + 1) test)
      (lowerStmt t home scopes (t.after (i + 1)) body)
  | .doLoop body test =>
    both .doLoop (lowerStmt t home scopes (i + 1) body)
      (plain (lowerExpr t scopes (t.after (i + 1)) test))
  | .ret value => plain (do return .ret (← lowerExpr? t scopes (i + 1) value))
  | .brk none => plain (return .brk)
  | .cont none => plain (return .cont)
  | .brk (some _) => plain (.error (.unsupported "labeled jump" i))
  | .cont (some _) => plain (.error (.unsupported "labeled jump" i))
  | .throwing value => plain (do return .throwing (← lowerExpr t scopes (i + 1) value))
  | .attempt block handler finalizer =>
    let j := t.afterMany block.length (i + 1)
    let k := if handler.isSome then t.after j else j
    both (fun (x, y) z => .attempt i x y z)
      (both Prod.mk (lowerStmts t home scopes (i + 1) block) (lowerHandler? t home scopes j handler))
      (lowerFinally t home scopes k finalizer)
  | .switch discriminant cases =>
    behind (.switch (i + 1)) (lowerExpr t scopes (i + 1) discriminant)
      (lowerCases t home scopes (t.after (i + 1)) cases)
  | .withScope object body =>
    behind .withScope (lowerExpr t scopes (i + 1) object)
      (lowerStmt t home (⟨.withObject, []⟩ :: scopes) (t.after (i + 1)) body)
  | .debugger => plain (return .debugger i)
  | .labeled _ _ => plain (.error (.unsupported "labeled statement" i))
termination_by structural s => s

def lowerStmt? (t : IndexedTree) (home scopes : Scopes) (i : Nat) :
    Option Script.Stmt → LoweredBody (Option Stmt)
  | none => plain (return none)
  | some s => (lowerStmt t home scopes i s).map some
termination_by structural s => s

def lowerStmts (t : IndexedTree) (home scopes : Scopes) (i : Nat) :
    List Script.Stmt → LoweredBody (List Stmt)
  | [] => plain (return [])
  | s :: rest =>
    both List.cons (lowerStmt t home scopes i s) (lowerStmts t home scopes (t.after i) rest)
termination_by structural l => l

def lowerHandler? (t : IndexedTree) (home scopes : Scopes) (i : Nat) :
    Option Script.Handler → LoweredBody (Option Handler)
  | none => plain (return none)
  | some h => (lowerHandler t home scopes i h).map some
termination_by structural h => h

def lowerHandler (t : IndexedTree) (home scopes : Scopes) (i : Nat) :
    Script.Handler → LoweredBody Handler
  | ⟨param, body⟩ =>
    (lowerStmts t home (⟨.handler, [param]⟩ :: scopes) (i + 1) body).map (⟨i, param, ·⟩)
termination_by structural h => h

def lowerFinally (t : IndexedTree) (home scopes : Scopes) (i : Nat) :
    Option (List Script.Stmt) → LoweredBody (Option (List Stmt))
  | none => plain (return none)
  | some body => (lowerStmts t home scopes i body).map some
termination_by structural f => f

def lowerCases (t : IndexedTree) (home scopes : Scopes) (i : Nat) :
    List Script.Case → LoweredBody (List Case)
  | [] => plain (return [])
  | c :: rest =>
    both List.cons (lowerCase t home scopes i c) (lowerCases t home scopes (t.after i) rest)
termination_by structural l => l

def lowerCase (t : IndexedTree) (home scopes : Scopes) (i : Nat) :
    Script.Case → LoweredBody Case
  | ⟨test, body⟩ =>
    let j := if test.isSome then t.after (i + 1) else i + 1
    behind Case.mk (lowerExpr? t scopes (i + 1) test) (lowerStmts t home scopes j body)
termination_by structural c => c

/-- A function at a position.  A name of its own that it may use for itself counts only if nothing
inside has it. -/
def lowerFunc (t : IndexedTree) (outer : Scopes) (i : Nat) (selfName : Option String) :
    Script.Func → Lowered Func
  | ⟨name, params, body⟩ => do
    let decls := t.declarationsOf ⟨name, params, body⟩ i
    let names := decls.names params
    let selfName := selfName.filter (fun n => !names.contains n)
    let scopes := ⟨.function, names ++ selfName.toList⟩ :: outer
    let lowered := lowerStmts t scopes scopes (i + 1) body
    let hoisted ← hoist decls.functions lowered.found
    let code ← lowered.code
    return ⟨name, t.ns, i, params, decls.vars, selfName, hoisted, code, t.isProgram && i == t.base⟩
termination_by structural f => f

end

/-! ## Passes -/

/-- A construct that cannot be instrumented. -/
def unsupported? : Node → Option String
  | .stmt (.labeled _ _) => some "labeled statement"
  | .stmt (.brk (some _)) => some "labeled break"
  | .stmt (.cont (some _)) => some "labeled continue"
  | _ => none

/-- The first construct that cannot be instrumented, with the position it would get. -/
def firstUnsupported (base : Nat) (n : Node) : Option LoweringError :=
  (n.preorder.zipIdx base).findSome? (fun (n, i) =>
    (unsupported? n).map (fun construct => .unsupported construct i))

/-- Instruments a tree.  What cannot be instrumented at all is refused before the tree is
registered. -/
def instrument (f : Script.Func) (r : Registry) (ns : String) (inherited : List String)
    (isProgram : Bool) : Lowered Func × Registry :=
  match firstUnsupported (r.next ns) (.func f) with
  | some e => (.error e, r)
  | none =>
    let (t, r) := r.assign f ns isProgram
    (lowerFunc t (.ofInherited inherited) t.base none t.root, r)

end Resumption.Code
