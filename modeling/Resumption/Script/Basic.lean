/-!
# Source trees

The trees of scripts: functions, statements and expressions of a small language with closures,
prototypes, exceptions, `with` regions and a `debugger` statement that asks to be paused at.  A
whole program is the body of an anonymous function without parameters, so its variables are
variables of a frame like any other.
-/

namespace Resumption.Script

inductive UnaryOp where
  | neg | plus | not | bitNot | typeOf | void | delete
deriving Repr, DecidableEq

inductive UpdateOp where
  | increment | decrement
deriving Repr, DecidableEq

inductive LogicalOp where
  | and | or
deriving Repr, DecidableEq

inductive BinaryOp where
  | add | sub | mul | div | mod
  | eq | notEq | strictEq | strictNotEq
  | lt | ltE | gt | gtE | isIn | instanceOf
  | bitAnd | bitOr | bitXor | shl | shr | uShr
deriving Repr, DecidableEq

/-- What a property of an object literal defines: a value, or one half of an accessor. -/
inductive PropKind where
  | init | getter | setter
deriving Repr, DecidableEq

mutual

inductive Expr where
  | num (value : Float)
  | str (value : String)
  | bool (value : Bool)
  | null
  | ident (name : String)
  | this
  | array (elements : List Expr)
  | object (props : List Property)
  | function (func : Func)
  | unary (op : UnaryOp) (arg : Expr)
  | update (op : UpdateOp) (before : Bool) (arg : Expr)
  | binary (op : BinaryOp) (left right : Expr)
  | logical (op : LogicalOp) (left right : Expr)
  | assign (op : Option BinaryOp) (target value : Expr)
  | conditional (test cons alt : Expr)
  | call (callee : Expr) (args : List Expr)
  | construct (callee : Expr) (args : List Expr)
  | member (object : Expr) (property : String)
  | index (object key : Expr)
  | sequence (exprs : List Expr)

structure Property where
  key : String
  kind : PropKind
  value : Expr

structure Declarator where
  name : String
  init : Option Expr

/-- The part of a `for` head before the first semicolon. -/
inductive ForInit where
  | absent
  | vars (decls : List Declarator)
  | expr (e : Expr)

/-- What a `for-in` loop assigns its keys to. -/
inductive ForTarget where
  | var (name : String)
  | expr (e : Expr)

/-- A `catch` clause. -/
structure Handler where
  param : String
  body : List Stmt

/-- One arm of a `switch`; the default arm has no test. -/
structure Case where
  test : Option Expr
  body : List Stmt

inductive Stmt where
  | var (decls : List Declarator)
  | function (func : Func)
  | expr (e : Expr)
  | block (body : List Stmt)
  | branch (test : Expr) (cons : Stmt) (alt : Option Stmt)
  | forLoop (init : ForInit) (test update : Option Expr) (body : Stmt)
  | forIn (left : ForTarget) (right : Expr) (body : Stmt)
  | whileLoop (test : Expr) (body : Stmt)
  | doLoop (body : Stmt) (test : Expr)
  | ret (value : Option Expr)
  | brk (label : Option String)
  | cont (label : Option String)
  | throwing (value : Expr)
  | attempt (block : List Stmt) (handler : Option Handler) (finalizer : Option (List Stmt))
  | switch (discriminant : Expr) (cases : List Case)
  | withScope (object : Expr) (body : Stmt)
  | labeled (label : String) (body : Stmt)
  | debugger
  | empty

structure Func where
  name : Option String
  params : List String
  body : List Stmt

end

/-- A source file. -/
structure Program where
  body : List Stmt

/-- A program runs as an anonymous function without parameters. -/
def Program.toFunc (p : Program) : Func := ⟨none, [], p.body⟩

def UnaryOp.symbol : UnaryOp → String
  | .neg => "-"
  | .plus => "+"
  | .not => "!"
  | .bitNot => "~"
  | .typeOf => "typeof"
  | .void => "void"
  | .delete => "delete"

/-- The operator is written as a word, so a blank has to follow it. -/
def UnaryOp.isWord : UnaryOp → Bool
  | .typeOf | .void | .delete => true
  | _ => false

def UpdateOp.symbol : UpdateOp → String
  | .increment => "++"
  | .decrement => "--"

def LogicalOp.symbol : LogicalOp → String
  | .and => "&&"
  | .or => "||"

def BinaryOp.symbol : BinaryOp → String
  | .add => "+"
  | .sub => "-"
  | .mul => "*"
  | .div => "/"
  | .mod => "%"
  | .eq => "=="
  | .notEq => "!="
  | .strictEq => "==="
  | .strictNotEq => "!=="
  | .lt => "<"
  | .ltE => "<="
  | .gt => ">"
  | .gtE => ">="
  | .isIn => "in"
  | .instanceOf => "instanceof"
  | .bitAnd => "&"
  | .bitOr => "|"
  | .bitXor => "^"
  | .shl => "<<"
  | .shr => ">>"
  | .uShr => ">>>"

/-- Every binary operator. -/
def BinaryOp.all : List BinaryOp :=
  [.add, .sub, .mul, .div, .mod, .eq, .notEq, .strictEq, .strictNotEq, .lt, .ltE, .gt, .gtE, .isIn,
   .instanceOf, .bitAnd, .bitOr, .bitXor, .shl, .shr, .uShr]

/-- The operator written by a symbol. -/
def BinaryOp.ofSymbol? (symbol : String) : Option BinaryOp :=
  BinaryOp.all.find? (fun op => op.symbol == symbol)

theorem BinaryOp.ofSymbol?_symbol (op : BinaryOp) : BinaryOp.ofSymbol? op.symbol = some op := by
  cases op <;> decide

/-- The expression can be assigned to. -/
def Expr.isReference : Expr → Bool
  | .ident _ | .member _ _ | .index _ _ => true
  | _ => false

/-- The expression reads a property of an object. -/
def Expr.isProperty : Expr → Bool
  | .member _ _ | .index _ _ => true
  | _ => false

def Stmt.isDebugger : Stmt → Bool
  | .debugger => true
  | _ => false

/-- The statement holds other statements or nothing at all, so it is no place to halt at. -/
def Stmt.isSilent : Stmt → Bool
  | .block _ | .empty | .function _ => true
  | _ => false

/-- The number of nodes at the top of a loop's first part. -/
def ForInit.count : ForInit → Nat
  | .absent => 0
  | .vars decls => decls.length
  | .expr _ => 1

def ForTarget.isExpr : ForTarget → Bool
  | .var _ => false
  | .expr _ => true

/-- Names with this beginning are left alone by instrumentation. -/
def escapeMark : String := "_NO_REWRITE_"

def isEscaped (name : String) : Bool := escapeMark.toList.isPrefixOf name.toList

/-- The function asks to be run without bookkeeping. -/
def Func.isEscaped (f : Func) : Bool :=
  match f.name with
  | some name => Script.isEscaped name
  | none => false

end Resumption.Script
