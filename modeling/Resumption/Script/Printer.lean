import Resumption.Script.Grammar
import Resumption.Text.Blank

/-!
# Printed source

Trees as text that reads back as the same tree.  Statements stand on lines of their own, two blanks
further in for every level; a function inside an expression is folded into one line.  An expression
is put into parentheses when it binds less tightly than the place it stands in asks for.
-/

namespace Resumption.Script

/-- How tightly an expression holds together; the levels between 4 and 13 belong to operators. -/
def Expr.level : Expr → Nat
  | .sequence _ => 1
  | .assign _ _ _ => 2
  | .conditional _ _ _ => 3
  | .logical op _ _ => op.level
  | .binary op _ _ => op.level
  | .unary _ _ => 15
  | .update _ true _ => 15
  | .update _ false _ => 16
  | .function _ => 17
  | _ => 18

/-- An expression that would be misread in front of a dot or an opening bracket. -/
def Expr.needsShield : Expr → Bool
  | .num _ | .function _ | .object _ => true
  | _ => false

/-- An operator in front would run into the operator in front of it. -/
def Expr.startsWithOperator : Expr → Bool
  | .unary _ _ | .update _ true _ => true
  | _ => false

def Expr.isCall : Expr → Bool
  | .call _ _ => true
  | _ => false

def Stmt.isBlock : Stmt → Bool
  | .block _ => true
  | _ => false

/-- The statement ends in an `if` without `else`, reached through bodies without braces. -/
def Stmt.endsInOpenIf : Stmt → Bool
  | .branch _ _ none => true
  | .branch _ _ (some alt) => alt.endsInOpenIf
  | .forLoop _ _ _ body => body.endsInOpenIf
  | .forIn _ _ body => body.endsInOpenIf
  | .whileLoop _ body => body.endsInOpenIf
  | .withScope _ body => body.endsInOpenIf
  | .labeled _ body => body.endsInOpenIf
  | _ => false

namespace Printer

def commas (items : List String) : String := ", ".intercalate items

def line (indent : Nat) (text : String) : String :=
  "".pushn ' ' (2 * indent) ++ text ++ "\n"

/-- Parentheses around a text that holds together too loosely. -/
def fit (level least : Nat) (text : String) : String :=
  if level < least then "(" ++ text ++ ")" else text

/-- A property key: bare where it looks like a name, quoted elsewhere. -/
def key (name : String) : String :=
  match name.toList with
  | [] => Text.quote name
  | c :: rest =>
    if Lexeme.isNameStart c && rest.all Lexeme.isNameChar then name else Text.quote name

def functionHead (name : Option String) (params : List String) : String :=
  let name := name.getD ""
  (if name.isEmpty then "function" else "function " ++ name) ++ "(" ++ commas params ++ ")"

/-- Lines folded into one. -/
def fold (text : String) : String :=
  String.ofList ((Text.trimEnd text.toList).map (fun c => if c == '\n' then ' ' else c))

def startsWith (beginning text : String) : Bool := beginning.toList.isPrefixOf text.toList

/-- A text without the word `function` in front. -/
def dropFunction (text : String) : String :=
  if startsWith "function" text then String.ofList (text.toList.drop "function".length) else text

/-- A text as a statement.  Two beginnings would be read as something else, so they get
parentheses. -/
def exprLine (indent : Nat) (text : String) : String :=
  if startsWith "\x7b" text || startsWith "function" text then line indent ("(" ++ text ++ ");")
  else line indent (text ++ ";")

/-- A statement as the body of another: a block opens its brace behind the head, anything else
stands on lines of its own, further in. -/
def nest (indent : Nat) (head : String) (isBlock : Bool) (print : Nat → String → String) : String :=
  if isBlock then print indent (head ++ " ") else line indent head ++ print (indent + 1) ""

end Printer

open Printer

mutual

def Expr.print (least : Nat) : Expr → String
  | .num v => Number.text v
  | .str v => Text.quote v
  | .bool v => if v then "true" else "false"
  | .null => "null"
  | .ident name => name
  | .this => "this"
  | .array elements => "[" ++ commas (printExprs elements) ++ "]"
  | .object [] => "\x7b\x7d"
  | .object props => "\x7b " ++ commas (printProps props) ++ " \x7d"
  | .function f => fit 17 least (fold (f.print 0))
  | .unary op arg =>
    let gap := if op.isWord || arg.startsWithOperator then " " else ""
    fit 15 least (op.symbol ++ gap ++ arg.print 15)
  | .update op true arg => fit 15 least (op.symbol ++ arg.print 16)
  | .update op false arg => fit 16 least (arg.print 17 ++ op.symbol)
  | .binary op left right =>
    fit op.level least (left.print op.level ++ " " ++ op.symbol ++ " " ++ right.print (op.level + 1))
  | .logical op left right =>
    fit op.level least (left.print op.level ++ " " ++ op.symbol ++ " " ++ right.print (op.level + 1))
  | .assign op target value =>
    fit 2 least (target.print 17 ++ " " ++ Grammar.assignText op ++ " " ++ value.print 2)
  | .conditional test cons alt =>
    fit 3 least (test.print 4 ++ " ? " ++ cons.print 2 ++ " : " ++ alt.print 2)
  | .call callee args => callee.print 17 ++ "(" ++ commas (printExprs args) ++ ")"
  | .construct callee args =>
    let head := if callee.isCall then "(" ++ callee.print 0 ++ ")" else callee.print 18
    "new " ++ head ++ "(" ++ commas (printExprs args) ++ ")"
  | .member object property =>
    let head := if object.needsShield then "(" ++ object.print 0 ++ ")" else object.print 17
    head ++ "." ++ property
  | .index object key =>
    let head := if object.needsShield then "(" ++ object.print 0 ++ ")" else object.print 17
    head ++ "[" ++ key.print 0 ++ "]"
  | .sequence exprs => fit 1 least (commas (printExprs exprs))
termination_by structural e => e

/-- Items of a list hold together at least as tightly as an assignment. -/
def printExprs : List Expr → List String
  | [] => []
  | e :: rest => e.print 2 :: printExprs rest
termination_by structural l => l

def printProps : List Property → List String
  | [] => []
  | p :: rest => p.print :: printProps rest
termination_by structural l => l

def Property.print : Property → String
  | ⟨name, .getter, .function f⟩ => "get " ++ key name ++ dropFunction (fold (f.print 0))
  | ⟨name, .setter, .function f⟩ => "set " ++ key name ++ dropFunction (fold (f.print 0))
  | ⟨name, _, value⟩ => key name ++ ": " ++ value.print 2
termination_by structural p => p

def Declarator.print : Declarator → String
  | ⟨name, none⟩ => name
  | ⟨name, some init⟩ => name ++ " = " ++ init.print 2
termination_by structural d => d

def printDecls : List Declarator → List String
  | [] => []
  | d :: rest => d.print :: printDecls rest
termination_by structural l => l

def ForInit.print : ForInit → String
  | .absent => ""
  | .vars decls => "var " ++ commas (printDecls decls)
  | .expr e => e.print 0
termination_by structural i => i

def ForTarget.print : ForTarget → String
  | .var name => "var " ++ name
  | .expr e => e.print 17
termination_by structural t => t

/-- An expression that may be missing. -/
def printExpr? : Option Expr → String
  | none => ""
  | some e => e.print 0
termination_by structural e => e

/-- A statement.  A block opens its brace behind what `head` holds. -/
def Stmt.print (indent : Nat) (head : String) : Stmt → String
  | .var decls => line indent ("var " ++ commas (printDecls decls) ++ ";")
  | .function f => f.print indent
  | .expr e => exprLine indent (e.print 0)
  | .block body =>
    line indent (head ++ "\x7b") ++ printStmts (indent + 1) body ++ line indent "\x7d"
  | .branch test cons alt =>
    let head := "if (" ++ test.print 0 ++ ")"
    let first :=
      if alt.isSome && cons.endsInOpenIf then
        line indent (head ++ " \x7b") ++ cons.print (indent + 1) "" ++ line indent "\x7d"
      else nest indent head cons.isBlock (fun i h => cons.print i h)
    first ++ printElse indent alt
  | .forLoop init test update body =>
    let head :=
      "for (" ++ init.print ++ "; " ++ printExpr? test ++ "; " ++ printExpr? update ++ ")"
    nest indent head body.isBlock (fun i h => body.print i h)
  | .forIn left right body =>
    let head := "for (" ++ left.print ++ " in " ++ right.print 0 ++ ")"
    nest indent head body.isBlock (fun i h => body.print i h)
  | .whileLoop test body =>
    nest indent ("while (" ++ test.print 0 ++ ")") body.isBlock (fun i h => body.print i h)
  | .doLoop (.block body) test =>
    line indent "do \x7b" ++ printStmts (indent + 1) body ++
      line indent ("\x7d while (" ++ test.print 0 ++ ");")
  | .doLoop body test =>
    line indent "do" ++ body.print (indent + 1) "" ++
      line indent ("while (" ++ test.print 0 ++ ");")
  | .ret none => line indent "return;"
  | .ret (some value) => line indent ("return " ++ value.print 0 ++ ";")
  | .brk none => line indent "break;"
  | .brk (some label) => line indent ("break " ++ label ++ ";")
  | .cont none => line indent "continue;"
  | .cont (some label) => line indent ("continue " ++ label ++ ";")
  | .throwing value => line indent ("throw " ++ value.print 0 ++ ";")
  | .attempt block handler finalizer =>
    line indent "try \x7b" ++ printStmts (indent + 1) block ++ line indent "\x7d" ++
      printHandler indent handler ++ printFinally indent finalizer
  | .switch discriminant cases =>
    line indent ("switch (" ++ discriminant.print 0 ++ ") \x7b") ++ printCases (indent + 1) cases ++
      line indent "\x7d"
  | .withScope object body =>
    nest indent ("with (" ++ object.print 0 ++ ")") body.isBlock (fun i h => body.print i h)
  | .labeled label body => line indent (label ++ ":") ++ body.print indent ""
  | .debugger => line indent "debugger;"
  | .empty => line indent ";"
termination_by structural s => s

def printElse (indent : Nat) : Option Stmt → String
  | none => ""
  | some alt => nest indent "else" alt.isBlock (fun i h => alt.print i h)
termination_by structural s => s

def printStmts (indent : Nat) : List Stmt → String
  | [] => ""
  | s :: rest => s.print indent "" ++ printStmts indent rest
termination_by structural l => l

def printHandler (indent : Nat) : Option Handler → String
  | none => ""
  | some h => h.print indent
termination_by structural h => h

def Handler.print (indent : Nat) : Handler → String
  | ⟨param, body⟩ =>
    line indent ("catch (" ++ param ++ ") \x7b") ++ printStmts (indent + 1) body ++
      line indent "\x7d"
termination_by structural h => h

def printFinally (indent : Nat) : Option (List Stmt) → String
  | none => ""
  | some body =>
    line indent "finally \x7b" ++ printStmts (indent + 1) body ++ line indent "\x7d"
termination_by structural f => f

def printCases (indent : Nat) : List Case → String
  | [] => ""
  | c :: rest => c.print indent ++ printCases indent rest
termination_by structural l => l

def Case.print (indent : Nat) : Case → String
  | ⟨none, body⟩ => line indent "default:" ++ printStmts (indent + 1) body
  | ⟨some test, body⟩ =>
    line indent ("case " ++ test.print 0 ++ ":") ++ printStmts (indent + 1) body
termination_by structural c => c

def Func.print (indent : Nat) : Func → String
  | ⟨name, params, body⟩ =>
    line indent (functionHead name params ++ " \x7b") ++ printStmts (indent + 1) body ++
      line indent "\x7d"
termination_by structural f => f

end

theorem Stmt.print_block (indent : Nat) (head : String) (body : List Stmt) :
    (Stmt.block body).print indent head =
      line indent (head ++ "\x7b") ++ printStmts (indent + 1) body ++ line indent "\x7d" := by
  rw [Stmt.print]

/-- A program, its statements one after another. -/
def Program.print (p : Program) : String := printStmts 0 p.body

/-- A single expression. -/
def Expr.source (e : Expr) : String := e.print 0

end Resumption.Script
