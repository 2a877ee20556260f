import Resumption.Json.Basic
import Resumption.Script.Basic

/-!
# Trees as documents

The form in which trees are exchanged with other programs: every statement and every expression is
an object whose member `t` names its kind.  How a number literal is written is left to the caller.
-/

namespace Resumption.Script

/-! ## Names of operators -/

def UnaryOp.names : List (String × UnaryOp) :=
  [("Neg", .neg), ("Plus", .plus), ("Not", .not), ("BitNot", .bitNot), ("Typeof", .typeOf),
   ("Void", .void), ("Delete", .delete)]

def UpdateOp.names : List (String × UpdateOp) := [("Inc", .increment), ("Dec", .decrement)]

def LogicalOp.names : List (String × LogicalOp) := [("And", .and), ("Or", .or)]

def BinaryOp.names : List (String × BinaryOp) :=
  [("Add", .add), ("Sub", .sub), ("Mul", .mul), ("Div", .div), ("Mod", .mod), ("Eq", .eq),
   ("NotEq", .notEq), ("StrictEq", .strictEq), ("StrictNotEq", .strictNotEq), ("Lt", .lt),
   ("LtE", .ltE), ("Gt", .gt), ("GtE", .gtE), ("In", .isIn), ("InstanceOf", .instanceOf),
   ("BitAnd", .bitAnd), ("BitOr", .bitOr), ("BitXor", .bitXor), ("Shl", .shl), ("Shr", .shr),
   ("UShr", .uShr)]

def PropKind.names : List (String × PropKind) := [("Init", .init), ("Get", .getter), ("Set", .setter)]

namespace Document

/-- The name of an element of a table. -/
def nameIn {α : Type} [BEq α] (table : List (String × α)) (a : α) : String :=
  ((table.find? (fun p => p.2 == a)).map Prod.fst).getD ""

def named {α : Type} [BEq α] (table : List (String × α)) (a : α) : Json := .str (nameIn table a)

def node (kind : String) (members : List (String × Json)) : Json :=
  .object (("t", .str kind) :: members)

def text? : Option String → Json
  | none => .null
  | some s => .str s

end Document

open Document

/-! ## Writing -/

mutual

def Expr.toJson (number : Float → Json) : Expr → Json
  | .num v => node "LitNum" [("v", number v)]
  | .str v => node "LitStr" [("v", .str v)]
  | .bool v => node "LitBool" [("v", .bool v)]
  | .null => node "LitNull" []
  | .ident name => node "Ident" [("name", .str name)]
  | .this => node "This" []
  | .array elements => node "Array" [("elements", .arr (exprsToJson number elements))]
  | .object props => node "Object" [("props", .arr (propsToJson number props))]
  | .function f => node "Function" [("func", f.toJson number)]
  | .unary op arg => node "Unary" [("op", named UnaryOp.names op), ("arg", arg.toJson number)]
  | .update op before arg =>
    node "Update" [("op", named UpdateOp.names op), ("prefix", .bool before),
      ("arg", arg.toJson number)]
  | .binary op left right =>
    node "Binary" [("op", named BinaryOp.names op), ("left", left.toJson number),
      ("right", right.toJson number)]
  | .logical op left right =>
    node "Logical" [("op", named LogicalOp.names op), ("left", left.toJson number),
      ("right", right.toJson number)]
  | .assign op target value =>
    node "Assign" [("op", text? (op.map (nameIn BinaryOp.names))), ("target", target.toJson number),
      ("value", value.toJson number)]
  | .conditional test cons alt =>
    node "Conditional" [("test", test.toJson number), ("cons", cons.toJson number),
      ("alt", alt.toJson number)]
  | .call callee args =>
    node "Call" [("callee", callee.toJson number), ("args", .arr (exprsToJson number args))]
  | .construct callee args =>
    node "New" [("callee", callee.toJson number), ("args", .arr (exprsToJson number args))]
  | .member object property =>
    node "Member" [("object", object.toJson number), ("property", .str property)]
  | .index object key =>
    node "Index" [("object", object.toJson number), ("index", key.toJson number)]
  | .sequence exprs => node "Sequence" [("exprs", .arr (exprsToJson number exprs))]
termination_by structural e => e

def exprsToJson (number : Float → Json) : List Expr → List Json
  | [] => []
  | e :: rest => e.toJson number :: exprsToJson number rest
termination_by structural l => l

def exprToJson? (number : Float → Json) : Option Expr → Json
  | none => .null
  | some e => e.toJson number
termination_by structural e => e

def Property.toJson (number : Float → Json) : Property → Json
  | ⟨key, kind, value⟩ =>
    .object [("key", .str key), ("kind", named PropKind.names kind), ("value", value.toJson number)]
termination_by structural p => p

def propsToJson (number : Float → Json) : List Property → List Json
  | [] => []
  | p :: rest => p.toJson number :: propsToJson number rest
termination_by structural l => l

def Declarator.toJson (number : Float → Json) : Declarator → Json
  | ⟨name, init⟩ => .object [("name", .str name), ("init", exprToJson? number init)]
termination_by structural d => d

def declsToJson (number : Float → Json) : List Declarator → List Json
  | [] => []
  | d :: rest => d.toJson number :: declsToJson number rest
termination_by structural l => l

def ForInit.toJson (number : Float → Json) : ForInit → Json
  | .absent => .null
  | .vars decls => node "Var" [("decls", .arr (declsToJson number decls))]
  | .expr e => node "Expr" [("expr", e.toJson number)]
termination_by structural i => i

def ForTarget.toJson (number : Float → Json) : ForTarget → Json
  | .var name => node "Var" [("name", .str name)]
  | .expr e => node "Expr" [("expr", e.toJson number)]
termination_by structural t => t

def Stmt.toJson (number : Float → Json) : Stmt → Json
  | .var decls => node "Var" [("decls", .arr (declsToJson number decls))]
  | .function f => node "FunctionDecl" [("func", f.toJson number)]
  | .expr e => node "Expr" [("expr", e.toJson number)]
  | .block body => node "Block" [("body", .arr (stmtsToJson number body))]
  | .branch test cons alt =>
    node "If" [("test", test.toJson number), ("cons", cons.toJson number),
      ("alt", stmtToJson? number alt)]
  | .forLoop init test update body =>
    node "For" [("init", init.toJson number), ("test", exprToJson? number test),
      ("update", exprToJson? number update), ("body", body.toJson number)]
  | .forIn left right body =>
    node "ForIn" [("left", left.toJson number), ("right", right.toJson number),
      ("body", body.toJson number)]
  | .whileLoop test body =>
    node "While" [("test", test.toJson number), ("body", body.toJson number)]
  | .doLoop body test =>
    node "DoWhile" [("body", body.toJson number), ("test", test.toJson number)]
  | .ret value => node "Return" [("value", exprToJson? number value)]
  | .brk label => node "Break" [("label", text? label)]
  | .cont label => node "Continue" [("label", text? label)]
  | .throwing value => node "Throw" [("value", value.toJson number)]
  | .attempt block handler finalizer =>
    node "Try" [("block", .arr (stmtsToJson number block)),
      ("handler", handlerToJson? number handler), ("finalizer", finallyToJson? number finalizer)]
  | .switch discriminant cases =>
    node "Switch" [("discriminant", discriminant.toJson number),
      ("cases", .arr (casesToJson number cases))]
  | .withScope object body =>
    node "With" [("object", object.toJson number), ("body", body.toJson number)]
  | .labeled label body => node "Labeled" [("label", .str label), ("body", body.toJson number)]
  | .debugger => node "Debugger" []
  | .empty => node "Empty" []
termination_by structural s => s

def stmtToJson? (number : Float → Json) : Option Stmt → Json
  | none => .null
  | some s => s.toJson number
termination_by structural s => s

def stmtsToJson (number : Float → Json) : List Stmt → List Json
  | [] => []
  | s :: rest => s.toJson number :: stmtsToJson number rest
termination_by structural l => l

def Handler.toJson (number : Float → Json) : Handler → Json
  | ⟨param, body⟩ => .object [("param", .str param), ("body", .arr (stmtsToJson number body))]
termination_by structural h => h

def handlerToJson? (number : Float → Json) : Option Handler → Json
  | none => .null
  | some h => h.toJson number
termination_by structural h => h

def finallyToJson? (number : Float → Json) : Option (List Stmt) → Json
  | none => .null
  | some body => .arr (stmtsToJson number body)
termination_by structural f => f

def Case.toJson (number : Float → Json) : Case → Json
  | ⟨test, body⟩ =>
    .object [("test", exprToJson? number test), ("body", .arr (stmtsToJson number body))]
termination_by structural c => c

def casesToJson (number : Float → Json) : List Case → List Json
  | [] => []
  | c :: rest => c.toJson number :: casesToJson number rest
termination_by structural l => l

def Func.toJson (number : Float → Json) : Func → Json
  | ⟨name, params, body⟩ =>
    .object [("name", text? name), ("params", .arr (params.map .str)),
      ("body", .arr (stmtsToJson number body))]
termination_by structural f => f

end

def Program.toJson (number : Float → Json) (p : Program) : Json :=
  .object [("body", .arr (stmtsToJson number p.body))]

/-! ## Reading -/

namespace Document

/-- A member that has to be a text. -/
def text (name : String) (j : Json) : Option String := (j.get? name).bind Json.text?

def bool (name : String) (j : Json) : Option Bool :=
  match j.get? name with
  | some (.bool b) => some b
  | _ => none

/-- A member that is a text or nothing. -/
def label? (name : String) (j : Json) : Option String := (j.present? name).bind Json.text?

/-- A member that names an element of a table. -/
def ofName {α : Type} (table : List (String × α)) (name : String) (j : Json) : Option α := do
  table.lookup (← text name j)

/-- A part read by a function, and absent if the member is. -/
def part? {α : Type} (read : Json → Option α) (name : String) (j : Json) : Option (Option α) :=
  match j.present? name with
  | none => some none
  | some inner => (read inner).map some

def parts {α : Type} (read : Json → Option α) (name : String) (j : Json) : Option (List α) :=
  (j.list name).mapM read

/-- Readers for what occurs inside of each other. -/
structure Reader where
  expr : Json → Option Expr
  stmt : Json → Option Stmt

namespace Reader

variable (r : Reader)

def exprAt (name : String) (j : Json) : Option Expr := (j.get? name).bind r.expr

def stmtAt (name : String) (j : Json) : Option Stmt := (j.get? name).bind r.stmt

def body (name : String) (j : Json) : Option (List Stmt) := parts r.stmt name j

def func (j : Json) : Option Func := do
  let params ← (j.list "params").mapM Json.text?
  return ⟨label? "name" j, params, ← r.body "body" j⟩

def property (j : Json) : Option Property := do
  return ⟨← text "key" j, ← ofName PropKind.names "kind" j, ← r.exprAt "value" j⟩

def decl (j : Json) : Option Declarator := do
  return ⟨← text "name" j, ← part? r.expr "init" j⟩

def readExpr (j : Json) : Option Expr := do
  match ← text "t" j with
  | "LitNum" =>
    match j.get? "v" with
    | some (.num x) => some (.num x)
    | _ => none
  | "LitStr" => return .str (← text "v" j)
  | "LitBool" => return .bool (← bool "v" j)
  | "LitNull" => return .null
  | "Ident" => return .ident (← text "name" j)
  | "This" => return .this
  | "Array" => return .array (← parts r.expr "elements" j)
  | "Object" => return .object (← parts r.property "props" j)
  | "Function" => return .function (← (j.get? "func").bind r.func)
  | "Unary" => return .unary (← ofName UnaryOp.names "op" j) (← r.exprAt "arg" j)
  | "Update" =>
    return .update (← ofName UpdateOp.names "op" j) (← bool "prefix" j) (← r.exprAt "arg" j)
  | "Binary" =>
    return .binary (← ofName BinaryOp.names "op" j) (← r.exprAt "left" j) (← r.exprAt "right" j)
  | "Logical" =>
    return .logical (← ofName LogicalOp.names "op" j) (← r.exprAt "left" j) (← r.exprAt "right" j)
  | "Assign" =>
    let op ← match label? "op" j with
      | none => some none
      | some name => (BinaryOp.names.lookup name).map some
    return .assign op (← r.exprAt "target" j) (← r.exprAt "value" j)
  | "Conditional" =>
    return .conditional (← r.exprAt "test" j) (← r.exprAt "cons" j) (← r.exprAt "alt" j)
  | "Call" => return .call (← r.exprAt "callee" j) (← parts r.expr "args" j)
  | "New" => return .construct (← r.exprAt "callee" j) (← parts r.expr "args" j)
  | "Member" => return .member (← r.exprAt "object" j) (← text "property" j)
  | "Index" => return .index (← r.exprAt "object" j) (← r.exprAt "index" j)
  | "Sequence" => return .sequence (← parts r.expr "exprs" j)
  | _ => none

def forInit (j : Json) : Option ForInit :=
  match j.present? "init" with
  | none => some .absent
  | some inner => do
    if (← text "t" inner) == "Var" then return .vars (← parts r.decl "decls" inner)
    else return .expr (← r.exprAt "expr" inner)

def forTarget (j : Json) : Option ForTarget := do
  if (← text "t" j) == "Var" then return .var (← text "name" j)
  else return .expr (← r.exprAt "expr" j)

def handler (j : Json) : Option Handler := do
  return ⟨← text "param" j, ← r.body "body" j⟩

def case (j : Json) : Option Case := do
  return ⟨← part? r.expr "test" j, ← r.body "body" j⟩

def readStmt (j : Json) : Option Stmt := do
  match ← text "t" j with
  | "Var" => return .var (← parts r.decl "decls" j)
  | "FunctionDecl" => return .function (← (j.get? "func").bind r.func)
  | "Expr" => return .expr (← r.exprAt "expr" j)
  | "Block" => return .block (← r.body "body" j)
  | "If" => return .branch (← r.exprAt "test" j) (← r.stmtAt "cons" j) (← part? r.stmt "alt" j)
  | "For" =>
    return .forLoop (← r.forInit j) (← part? r.expr "test" j) (← part? r.expr "update" j)
      (← r.stmtAt "body" j)
  | "ForIn" =>
    return .forIn (← (j.get? "left").bind r.forTarget) (← r.exprAt "right" j) (← r.stmtAt "body" j)
  | "While" => return .whileLoop (← r.exprAt "test" j) (← r.stmtAt "body" j)
  | "DoWhile" => return .doLoop (← r.stmtAt "body" j) (← r.exprAt "test" j)
  | "Return" => return .ret (← part? r.expr "value" j)
  | "Break" => return .brk (label? "label" j)
  | "Continue" => return .cont (label? "label" j)
  | "Throw" => return .throwing (← r.exprAt "value" j)
  | "Try" =>
    let finalizer ← part? (fun l => l.items.mapM r.stmt) "finalizer" j
    return .attempt (← r.body "block" j) (← part? r.handler "handler" j) finalizer
  | "Switch" => return .switch (← r.exprAt "discriminant" j) (← parts r.case "cases" j)
  | "With" => return .withScope (← r.exprAt "object" j) (← r.stmtAt "body" j)
  | "Labeled" => return .labeled (← text "label" j) (← r.stmtAt "body" j)
  | "Debugger" => return .debugger
  | "Empty" => return .empty
  | _ => none

/-- The reader for documents nested no deeper than this. -/
def upTo : Nat → Reader
  | 0 => ⟨fun _ => none, fun _ => none⟩
  | n + 1 => ⟨(upTo n).readExpr, (upTo n).readStmt⟩

end Reader

end Document

open Document in
def Expr.ofJson? (j : Json) : Option Expr := (Reader.upTo j.depth).expr j

open Document in
def Func.ofJson? (j : Json) : Option Func := (Reader.upTo j.depth).func j

open Document in
def Program.ofJson? (j : Json) : Option Program := do
  return ⟨← (Reader.upTo j.depth).body "body" j⟩

end Resumption.Script
