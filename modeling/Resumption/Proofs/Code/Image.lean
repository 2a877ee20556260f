import Resumption.Code.Lowering
import Mathlib.Data.List.Forall2

/-!
# Images of source trees

`FuncImage r ns i n f code` says that `code` repeats the function `f` of the node `n` constructor by
constructor, when its nodes are numbered in pre-order from `i` on, and that under every position that
`code` carries the registry `r` keeps the source node of that place.  The numbering is carried along:
the first part of a node stands right behind it, each other part right behind the last node of its elder
sibling.

A function declaration leaves nothing where it stands; its closure is hoisted to the function around.
-/

namespace Resumption

open Script

/-- Under a position of a name space the registry keeps a node. -/
def Registry.Keeps (r : Registry) (ns : String) (i : Nat) (n : Node) : Prop :=
  ∃ handle, r.resolve ns i = .ok handle ∧ handle.node? = some n

namespace Code

section

variable {α β : Type}

/-- Consecutive nodes and their images, the first of them at the position `i` and the last of them in
front of the position `j`. -/
inductive Row (node : α → Node) (Image : Nat → α → β → Prop) : Nat → List α → List β → Nat → Prop
  | nil {i : Nat} : Row node Image i [] [] i
  | cons {i j : Nat} {a : α} {b : β} {as : List α} {bs : List β} (head : Image i a b)
      (tail : Row node Image (i + (node a).size) as bs j) : Row node Image i (a :: as) (b :: bs) j

end

/-- A name that is read. -/
inductive NameImage (name : String) : Expr → Prop
  | ref {r : Ref} (h : r.name = name) : NameImage name (.ref r)
  | arguments (h : name = argumentsName) : NameImage name .arguments

section

variable (r : Registry) (ns : String)

mutual

inductive ExprImage : Nat → Script.Expr → Expr → Prop
  | num {i : Nat} (v : Float) : ExprImage i (.num v) (.num v)
  | str {i : Nat} (v : String) : ExprImage i (.str v) (.str v)
  | bool {i : Nat} (v : Bool) : ExprImage i (.bool v) (.bool v)
  | null {i : Nat} : ExprImage i .null .null
  | ident {i : Nat} {name : String} {code : Expr} (read : NameImage name code) :
      ExprImage i (.ident name) code
  | this {i : Nat} : ExprImage i .this .this
  | array {i j : Nat} {elements : List Script.Expr} {codes : List Expr}
      (parts : Row Node.expr ExprImage (i + 1) elements codes j) :
      ExprImage i (.array elements) (.array codes)
  | object {i j : Nat} {props : List Script.Property} {codes : List Property}
      (parts : Row Node.property PropertyImage (i + 1) props codes j) :
      ExprImage i (.object props) (.object codes)
  | function {i : Nat} {f : Script.Func} {code : Expr}
      (closure : ClosureImage i (.expr (.function f)) f code) : ExprImage i (.function f) code
  | unary {i : Nat} {op : UnaryOp} {arg : Script.Expr} {code : Expr}
      (value : ExprImage (i + 1) arg code) : ExprImage i (.unary op arg) (.unary op code)
  | delete {i : Nat} {arg : Script.Expr} {target : Target} (place : TargetImage (i + 1) arg target) :
      ExprImage i (.unary .delete arg) (.delete target)
  | update {i : Nat} {op : UpdateOp} {before : Bool} {arg : Script.Expr} {target : Target}
      (here : r.Keeps ns i (.expr (.update op before arg))) (place : TargetImage (i + 1) arg target) :
      ExprImage i (.update op before arg) (.update i op before target)
  | binary {i : Nat} {op : BinaryOp} {left right : Script.Expr} {x y : Expr}
      (first : ExprImage (i + 1) left x)
      (second : ExprImage (i + 1 + (Node.expr left).size) right y) :
      ExprImage i (.binary op left right) (.binary op x y)
  | logical {i : Nat} {op : LogicalOp} {left right : Script.Expr} {x y : Expr}
      (first : ExprImage (i + 1) left x)
      (second : ExprImage (i + 1 + (Node.expr left).size) right y) :
      ExprImage i (.logical op left right) (.logical op x y)
  | assign {i : Nat} {op : Option BinaryOp} {left right : Script.Expr} {target : Target} {value : Expr}
      (here : r.Keeps ns i (.expr (.assign op left right)))
      (place : TargetImage (i + 1) left target)
      (second : ExprImage (i + 1 + (Node.expr left).size) right value) :
      ExprImage i (.assign op left right) (.assign i op target value)
  | conditional {i : Nat} {test cons alt : Script.Expr} {x y z : Expr}
      (first : ExprImage (i + 1) test x)
      (second : ExprImage (i + 1 + (Node.expr test).size) cons y)
      (third : ExprImage (i + 1 + (Node.expr test).size + (Node.expr cons).size) alt z) :
      ExprImage i (.conditional test cons alt) (.conditional x y z)
  | call {i j : Nat} {callee : Script.Expr} {args : List Script.Expr} {x : Expr} {xs : List Expr}
      (here : r.Keeps ns i (.expr (.call callee args)))
      (first : ExprImage (i + 1) callee x)
      (parts : Row Node.expr ExprImage (i + 1 + (Node.expr callee).size) args xs j) :
      ExprImage i (.call callee args) (.call i x xs)
  | construct {i j : Nat} {callee : Script.Expr} {args : List Script.Expr} {x : Expr} {xs : List Expr}
      (here : r.Keeps ns i (.expr (.construct callee args)))
      (first : ExprImage (i + 1) callee x)
      (parts : Row Node.expr ExprImage (i + 1 + (Node.expr callee).size) args xs j) :
      ExprImage i (.construct callee args) (.construct i x xs)
  | member {i : Nat} {object : Script.Expr} {property : String} {x : Expr}
      (first : ExprImage (i + 1) object x) :
      ExprImage i (.member object property) (.member x (.name property))
  | index {i : Nat} {object key : Script.Expr} {x y : Expr}
      (first : ExprImage (i + 1) object x)
      (second : ExprImage (i + 1 + (Node.expr object).size) key y) :
      ExprImage i (.index object key) (.member x (.computed y))
  | sequence {i j : Nat} {exprs : List Script.Expr} {codes : List Expr}
      (parts : Row Node.expr ExprImage (i + 1) exprs codes j) :
      ExprImage i (.sequence exprs) (.sequence codes)

/-- An expression that is written to. -/
inductive TargetImage : Nat → Script.Expr → Target → Prop
  | ident {i : Nat} {name : String} {x : Ref} (h : x.name = name) :
      TargetImage i (.ident name) (.ref x)
  | member {i : Nat} {object : Script.Expr} {property : String} {x : Expr}
      (first : ExprImage (i + 1) object x) :
      TargetImage i (.member object property) (.member x (.name property))
  | index {i : Nat} {object key : Script.Expr} {x y : Expr}
      (first : ExprImage (i + 1) object x)
      (second : ExprImage (i + 1 + (Node.expr object).size) key y) :
      TargetImage i (.index object key) (.member x (.computed y))

inductive PropertyImage : Nat → Script.Property → Property → Prop
  | mk {i : Nat} {key : String} {kind : PropKind} {value : Script.Expr} {x : Expr}
      (first : ExprImage (i + 1) value x) : PropertyImage i ⟨key, kind, value⟩ ⟨key, kind, x⟩

inductive DeclaratorImage : Nat → Script.Declarator → Declarator → Prop
  | mk {i j : Nat} {name : String} {init : Option Script.Expr} {x : Ref} {code : Option Expr}
      (here : r.Keeps ns i (.declarator ⟨name, init⟩)) (h : x.name = name)
      (value : Row Node.expr ExprImage (i + 1) init.toList code.toList j) :
      DeclaratorImage i ⟨name, init⟩ ⟨i, x, code⟩

/-- The head of a `for` from its first position to the one behind it. -/
inductive InitImage : Nat → Script.ForInit → ForInit → Nat → Prop
  | absent {i : Nat} : InitImage i .absent .absent i
  | vars {i j : Nat} {decls : List Script.Declarator} {codes : List Declarator}
      (parts : Row Node.declarator DeclaratorImage i decls codes j) :
      InitImage i (.vars decls) (.vars codes) j
  | expr {i : Nat} {e : Script.Expr} {x : Expr} (value : ExprImage i e x) :
      InitImage i (.expr e) (.expr x) (i + (Node.expr e).size)

/-- What a `for`-`in` loop writes to. -/
inductive ForTargetImage : Nat → Script.ForTarget → Target → Nat → Prop
  | var {i : Nat} {name : String} {x : Ref} (h : x.name = name) :
      ForTargetImage i (.var name) (.ref x) i
  | expr {i : Nat} {e : Script.Expr} {target : Target} (place : TargetImage i e target) :
      ForTargetImage i (.expr e) target (i + (Node.expr e).size)

inductive StmtImage : Nat → Script.Stmt → Stmt → Prop
  | var {i j : Nat} {decls : List Script.Declarator} {codes : List Declarator}
      (parts : Row Node.declarator DeclaratorImage (i + 1) decls codes j) :
      StmtImage i (.var decls) (.var codes)
  | function {i : Nat} (f : Script.Func) : StmtImage i (.function f) .empty
  | empty {i : Nat} : StmtImage i .empty .empty
  | expr {i : Nat} {e : Script.Expr} {x : Expr} (value : ExprImage (i + 1) e x) :
      StmtImage i (.expr e) (.expr x)
  | block {i j : Nat} {body : List Script.Stmt} {codes : List Stmt}
      (parts : Row Node.stmt StmtImage (i + 1) body codes j) : StmtImage i (.block body) (.block codes)
  | branch {i j : Nat} {test : Script.Expr} {cons : Script.Stmt} {alt : Option Script.Stmt} {x : Expr}
      {y : Stmt} {z : Option Stmt} (first : ExprImage (i + 1) test x)
      (second : StmtImage (i + 1 + (Node.expr test).size) cons y)
      (third : Row Node.stmt StmtImage (i + 1 + (Node.expr test).size + (Node.stmt cons).size)
        alt.toList z.toList j) :
      StmtImage i (.branch test cons alt) (.branch x y z)
  | forLoop {i j k l : Nat} {init : Script.ForInit} {test update : Option Script.Expr}
      {body : Script.Stmt} {x : ForInit} {y z : Option Expr} {code : Stmt}
      (first : InitImage (i + 1) init x j) (second : Row Node.expr ExprImage j test.toList y.toList k)
      (third : Row Node.expr ExprImage k update.toList z.toList l) (last : StmtImage l body code) :
      StmtImage i (.forLoop init test update body) (.forLoop x y z code)
  | forIn {i j : Nat} {left : Script.ForTarget} {right : Script.Expr} {body : Script.Stmt}
      {target : Target} {x : Expr} {code : Stmt} (first : ForTargetImage (i + 1) left target j)
      (here : r.Keeps ns j (.expr right)) (second : ExprImage j right x)
      (last : StmtImage (j + (Node.expr right).size) body code) :
      StmtImage i (.forIn left right body) (.forIn j target x code)
  | whileLoop {i : Nat} {test : Script.Expr} {body : Script.Stmt} {x : Expr} {code : Stmt}
      (first : ExprImage (i + 1) test x)
      (second : StmtImage (i + 1 + (Node.expr test).size) body code) :
      StmtImage i (.whileLoop test body) (.whileLoop x code)
  | doLoop {i : Nat} {body : Script.Stmt} {test : Script.Expr} {code : Stmt} {x : Expr}
      (first : StmtImage (i + 1) body code)
      (second : ExprImage (i + 1 + (Node.stmt body).size) test x) :
      StmtImage i (.doLoop body test) (.doLoop code x)
  | ret {i j : Nat} {value : Option Script.Expr} {code : Option Expr}
      (part : Row Node.expr ExprImage (i + 1) value.toList code.toList j) :
      StmtImage i (.ret value) (.ret code)
  | brk {i : Nat} : StmtImage i (.brk none) .brk
  | cont {i : Nat} : StmtImage i (.cont none) .cont
  | throwing {i : Nat} {value : Script.Expr} {x : Expr} (part : ExprImage (i + 1) value x) :
      StmtImage i (.throwing value) (.throwing x)
  | attempt {i j k l : Nat} {block : List Script.Stmt} {handler : Option Script.Handler}
      {finalizer : Option (List Script.Stmt)} {codes : List Stmt} {y : Option Handler}
      {z : Option (List Stmt)} (here : r.Keeps ns i (.stmt (.attempt block handler finalizer)))
      (first : Row Node.stmt StmtImage (i + 1) block codes j)
      (second : Row Node.handler HandlerImage j handler.toList y.toList k)
      (third : FinallyImage k finalizer z l) :
      StmtImage i (.attempt block handler finalizer) (.attempt i codes y z)
  | switch {i j : Nat} {discriminant : Script.Expr} {cases : List Script.Case} {x : Expr}
      {codes : List Case} (here : r.Keeps ns (i + 1) (.expr discriminant))
      (first : ExprImage (i + 1) discriminant x)
      (parts : Row Node.case CaseImage (i + 1 + (Node.expr discriminant).size) cases codes j) :
      StmtImage i (.switch discriminant cases) (.switch (i + 1) x codes)
  | withScope {i : Nat} {object : Script.Expr} {body : Script.Stmt} {x : Expr} {code : Stmt}
      (first : ExprImage (i + 1) object x)
      (second : StmtImage (i + 1 + (Node.expr object).size) body code) :
      StmtImage i (.withScope object body) (.withScope x code)
  | debugger {i : Nat} (here : r.Keeps ns i (.stmt .debugger)) :
      StmtImage i .debugger (.debugger i)

inductive HandlerImage : Nat → Script.Handler → Handler → Prop
  | mk {i j : Nat} {param : String} {body : List Script.Stmt} {codes : List Stmt}
      (here : r.Keeps ns i (.handler ⟨param, body⟩))
      (parts : Row Node.stmt StmtImage (i + 1) body codes j) :
      HandlerImage i ⟨param, body⟩ ⟨i, param, codes⟩

inductive FinallyImage : Nat → Option (List Script.Stmt) → Option (List Stmt) → Nat → Prop
  | none {i : Nat} : FinallyImage i none none i
  | some {i j : Nat} {body : List Script.Stmt} {codes : List Stmt}
      (parts : Row Node.stmt StmtImage i body codes j) : FinallyImage i (some body) (some codes) j

inductive CaseImage : Nat → Script.Case → Case → Prop
  | mk {i j k : Nat} {test : Option Script.Expr} {body : List Script.Stmt} {x : Option Expr}
      {codes : List Stmt} (first : Row Node.expr ExprImage (i + 1) test.toList x.toList j)
      (parts : Row Node.stmt StmtImage j body codes k) : CaseImage i ⟨test, body⟩ ⟨x, codes⟩

/-- The value of a function that a node introduces. -/
inductive ClosureImage : Nat → Node → Script.Func → Expr → Prop
  | closure {i : Nat} {n : Node} {f : Script.Func} {code : Func} (func : FuncImage i n f code) :
      ClosureImage i n f (.closure code)
  | plain {i : Nat} {n : Node} {f : Script.Func} (escaped : f.isEscaped = true)
      (here : r.Keeps ns i n) : ClosureImage i n f (.plain ns i)

/-- A declaration that counts, by its name and its position. -/
inductive HoistedImage : String × Nat → Hoisted → Prop
  | mk {i : Nat} {f : Script.Func} {name : String} {code : Expr} (h : f.name = some name)
      (closure : ClosureImage i (.stmt (.function f)) f code) : HoistedImage (name, i) ⟨name, code⟩

inductive FuncImage : Nat → Node → Script.Func → Func → Prop
  | mk {i j : Nat} {n : Node} {f : Script.Func} {code : Func} {handle : NodeHandle}
      (introduced : n.func? = some f)
      (here : r.resolve ns code.index = .ok handle) (node : handle.node? = some n)
      (index : code.index = i) (nameSpace : code.ns = ns) (name : code.name = f.name)
      (params : code.params = f.params) (self : ∀ x, code.selfName = some x → f.name = some x)
      (vars : code.declared = (handle.tree.declarationsOf f i).vars)
      (hoisted : List.Forall₂ HoistedImage (handle.tree.declarationsOf f i).functions code.hoisted)
      (body : Row Node.stmt StmtImage (i + 1) f.body code.body j) :
      FuncImage i n f code

end

end

end Code

end Resumption
