import Resumption.Script.Basic

/-!
# Instrumented code

The form of a script that is executed with bookkeeping.  Every variable has been resolved to a
place in the scope chain, and every operation whose result is recorded carries the position of the
source node it records for.
-/

namespace Resumption.Code

open Script (UnaryOp UpdateOp LogicalOp BinaryOp PropKind)

/-- Where a variable lives when no `with` object takes it over. -/
inductive Place where
  /-- In the record that many links out from the innermost one. -/
  | slot (hops : Nat)
  | global
deriving Repr, DecidableEq

/-- A resolved variable. -/
inductive Ref where
  | fixed (place : Place) (name : String)
  /-- Inside of `with` regions: the `with` records, innermost first, are asked before the place. -/
  | dynamic (withs : List Nat) (place : Place) (name : String)
  /-- Looked up along the chain whenever it is used. -/
  | free (name : String)
deriving Repr, DecidableEq

def Ref.name : Ref → String
  | .fixed _ name => name
  | .dynamic _ _ name => name
  | .free name => name

mutual

inductive Expr where
  | num (value : Float)
  | str (value : String)
  | bool (value : Bool)
  | null
  | ref (r : Ref)
  | this
  /-- The arguments of the enclosing function. -/
  | arguments
  | array (elements : List Expr)
  | object (props : List Property)
  /-- A new closure, stored under the function's position. -/
  | closure (func : Func)
  /-- A function that runs without bookkeeping. -/
  | plain (ns : String) (index : Nat)
  | unary (op : UnaryOp) (arg : Expr)
  | delete (target : Target)
  | update (index : Nat) (op : UpdateOp) (before : Bool) (target : Target)
  | binary (op : BinaryOp) (left right : Expr)
  | logical (op : LogicalOp) (left right : Expr)
  | assign (index : Nat) (op : Option BinaryOp) (target : Target) (value : Expr)
  | conditional (test cons alt : Expr)
  | call (index : Nat) (callee : Expr) (args : List Expr)
  | construct (index : Nat) (callee : Expr) (args : List Expr)
  | member (object : Expr) (key : Key)
  | sequence (exprs : List Expr)

/-- The key of a property access. -/
inductive Key where
  | name (name : String)
  | computed (e : Expr)

/-- What can be written to. -/
inductive Target where
  | ref (r : Ref)
  | member (object : Expr) (key : Key)

structure Property where
  key : String
  kind : PropKind
  value : Expr

structure Declarator where
  index : Nat
  target : Ref
  init : Option Expr

inductive ForInit where
  | absent
  | vars (decls : List Declarator)
  | expr (e : Expr)

structure Handler where
  index : Nat
  param : String
  body : List Stmt

structure Case where
  test : Option Expr
  body : List Stmt

inductive Stmt where
  | var (decls : List Declarator)
  | expr (e : Expr)
  | block (body : List Stmt)
  | branch (test : Expr) (cons : Stmt) (alt : Option Stmt)
  | forLoop (init : ForInit) (test update : Option Expr) (body : Stmt)
  /-- The index is that of the enumerated expression: the keys to come are stored there. -/
  | forIn (index : Nat) (target : Target) (right : Expr) (body : Stmt)
  | whileLoop (test : Expr) (body : Stmt)
  | doLoop (body : Stmt) (test : Expr)
  | ret (value : Option Expr)
  | brk
  | cont
  | throwing (value : Expr)
  /-- The index is the statement's own: what waits for `finally` to end is stored there. -/
  | attempt (index : Nat) (block : List Stmt) (handler : Option Handler)
      (finalizer : Option (List Stmt))
  /-- The index is that of the discriminant. -/
  | switch (index : Nat) (discriminant : Expr) (cases : List Case)
  | withScope (object : Expr) (body : Stmt)
  | debugger (index : Nat)
  | empty

/-- A function declaration, instantiated when the function around it is entered. -/
structure Hoisted where
  name : String
  value : Expr

structure Func where
  name : Option String
  ns : String
  index : Nat
  params : List String
  /-- Variables that are undefined on entry. -/
  declared : List String
  /-- The name by which a function expression knows itself. -/
  selfName : Option String
  hoisted : List Hoisted
  body : List Stmt
  isProgram : Bool

end

instance : Inhabited Func := ⟨⟨none, "", 0, [], [], none, [], [], false⟩⟩

end Resumption.Code
