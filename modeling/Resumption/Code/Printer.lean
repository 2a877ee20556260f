import Resumption.Code.Basic
import Resumption.Script.Printer

/-!
# Instrumented code as text

A rendering for people that shows the bookkeeping: `_` is the cache of results, `lastNode` the
marker, and `_N` the scope record `N` links out from the innermost one.
-/

namespace Resumption.Code

open Script.Printer (commas line)

/-- How a variable is written. -/
def Ref.print : Ref → String
  | .fixed (.slot hops) name => "_" ++ toString hops ++ "." ++ name
  | .fixed .global name => name
  | .free name => name
  | .dynamic withs place name =>
    let home := match place with
      | .slot hops => "_" ++ toString hops
      | .global => "__global"
    let select := withs.foldr (fun hops rest =>
      Text.quote name ++ " in _" ++ toString hops ++ " ? _" ++ toString hops ++ " : " ++ rest) home
    "(" ++ select ++ ")." ++ name

/-- An expression that needs no parentheses as an operand. -/
def Expr.isAtomic : Expr → Bool
  | .num _ | .str _ | .bool _ | .null | .this | .arguments | .array _ | .member _ _ => true
  | .call _ _ _ => true
  | .ref (.dynamic _ _ _) => false
  | .ref _ => true
  | _ => false

/-- A text in parentheses, unless the expression is atomic. -/
def wrapOperand (e : Expr) (text : String) : String :=
  if e.isAtomic then text else "(" ++ text ++ ")"

def propertyWord : Script.PropKind → String
  | .init => ""
  | .getter => "get "
  | .setter => "set "

/-- The first line inside of a function: its bookkeeping. -/
def Func.recordLine (index : Nat) (bound : List String) : String :=
  "var _ = \x7b\x7d, lastNode = " ++ toString index ++ ", _0 = __record(arguments, " ++
    commas (bound.map Text.quote) ++ ");"

def Func.head (isProgram : Bool) (name : Option String) (params : List String) : String :=
  if isProgram then "(function __program" ++ name.getD "" ++ "() \x7b"
  else "function " ++ name.getD "" ++ "(" ++ commas params ++ ") \x7b"

mutual

def Expr.print (indent : Nat) : Expr → String
  | .num v => Number.text v
  | .str v => Text.quote v
  | .bool v => if v then "true" else "false"
  | .null => "null"
  | .ref r => r.print
  | .this => "this"
  | .arguments => "arguments"
  | .array elements => "[" ++ commas (printExprs indent elements) ++ "]"
  | .object props => "\x7b" ++ commas (printProps indent props) ++ "\x7d"
  | .closure f =>
    "(_[" ++ toString f.index ++ "] = __createClosure(" ++ Text.quote f.ns ++ ", " ++
      toString f.index ++ ", __chain, " ++
      String.ofList (Text.trim (f.print (indent + 1)).toList) ++ "))"
  | .plain ns i =>
    "(_[" ++ toString i ++ "] = __plain(" ++ Text.quote ns ++ ", " ++ toString i ++ "))"
  | .unary op arg =>
    op.symbol ++ (if op.isWord then " " else "") ++ wrapOperand arg (arg.print indent)
  | .delete target => "delete " ++ target.print indent
  | .update i op before target =>
    let inner :=
      if before then op.symbol ++ target.print indent else target.print indent ++ op.symbol
    "(_[lastNode = " ++ toString i ++ "] = " ++ inner ++ ")"
  | .binary op left right =>
    wrapOperand left (left.print indent) ++ " " ++ op.symbol ++ " " ++
      wrapOperand right (right.print indent)
  | .logical op left right =>
    wrapOperand left (left.print indent) ++ " " ++ op.symbol ++ " " ++
      wrapOperand right (right.print indent)
  | .assign i op target value =>
    let i := toString i
    "(_[" ++ i ++ "] = " ++ target.print indent ++ " " ++ Script.Grammar.assignText op ++ " " ++
      value.print indent ++ ", lastNode = " ++ i ++ ", _[" ++ i ++ "])"
  | .conditional test cons alt =>
    wrapOperand test (test.print indent) ++ " ? " ++ wrapOperand cons (cons.print indent) ++
      " : " ++ wrapOperand alt (alt.print indent)
  | .call i callee args =>
    "(_[lastNode = " ++ toString i ++ "] = " ++ wrapOperand callee (callee.print indent) ++ "(" ++
      commas (printExprs indent args) ++ "))"
  | .construct i callee args =>
    "(_[lastNode = " ++ toString i ++ "] = new " ++ wrapOperand callee (callee.print indent) ++
      "(" ++ commas (printExprs indent args) ++ "))"
  | .member object key => wrapOperand object (object.print indent) ++ key.print indent
  | .sequence exprs => commas (printExprs indent exprs)
termination_by structural e => e

def Key.print (indent : Nat) : Key → String
  | .name name => "." ++ name
  | .computed e => "[" ++ e.print indent ++ "]"
termination_by structural k => k

def Target.print (indent : Nat) : Target → String
  | .ref r => r.print
  | .member object key => wrapOperand object (object.print indent) ++ key.print indent
termination_by structural t => t

def printExprs (indent : Nat) : List Expr → List String
  | [] => []
  | e :: rest => e.print indent :: printExprs indent rest
termination_by structural l => l

def printExpr? (indent : Nat) : Option Expr → String
  | none => ""
  | some e => e.print indent
termination_by structural e => e

def Property.print (indent : Nat) : Property → String
  | ⟨key, kind, value⟩ => propertyWord kind ++ Text.quote key ++ ": " ++ value.print indent
termination_by structural p => p

def printProps (indent : Nat) : List Property → List String
  | [] => []
  | p :: rest => p.print indent :: printProps indent rest
termination_by structural l => l

/-- Declarators without a value leave no trace. -/
def printDecls (indent : Nat) : List Declarator → List String
  | [] => []
  | d :: rest => d.print indent ++ printDecls indent rest
termination_by structural l => l

def Declarator.print (indent : Nat) : Declarator → List String
  | ⟨_, _, none⟩ => []
  | ⟨i, target, some init⟩ =>
    ["(_[" ++ toString i ++ "] = " ++ target.print ++ " = " ++ init.print indent ++
      ", lastNode = " ++ toString i ++ ")"]
termination_by structural d => d

def ForInit.print (indent : Nat) : ForInit → String
  | .absent => ""
  | .vars decls => commas (printDecls indent decls)
  | .expr e => e.print indent
termination_by structural i => i

/-- A statement; as the body of another (`bare`) a block loses its own braces. -/
def Stmt.print (indent : Nat) (bare : Bool) : Stmt → String
  | .var decls =>
    match printDecls indent decls with
    | [] => ""
    | texts => line indent (commas texts ++ ";")
  | .expr e => line indent (e.print indent ++ ";")
  | .block body =>
    if bare then printStmts indent body
    else line indent "\x7b" ++ printStmts (indent + 1) body ++ line indent "\x7d"
  | .branch test cons alt =>
    line indent ("if (" ++ test.print indent ++ ") \x7b") ++ cons.print (indent + 1) true ++
      line indent "\x7d" ++ printElse indent alt
  | .forLoop init test update body =>
    line indent ("for (" ++ init.print indent ++ "; " ++ printExpr? indent test ++ "; " ++
      printExpr? indent update ++ ") \x7b") ++ body.print (indent + 1) true ++ line indent "\x7d"
  | .forIn i target right body =>
    let keys := "_[" ++ toString i ++ "]"
    line indent ("for (_[lastNode = " ++ toString i ++ "] = __keys(" ++ right.print indent ++
      "); " ++ keys ++ ".length > 0; " ++ keys ++ ".shift()) \x7b") ++
      line (indent + 1) (target.print indent ++ " = " ++ keys ++ "[0];") ++
      body.print (indent + 1) true ++ line indent "\x7d" ++ line indent ("delete " ++ keys ++ ";")
  | .whileLoop test body =>
    line indent ("while (" ++ test.print indent ++ ") \x7b") ++ body.print (indent + 1) true ++
      line indent "\x7d"
  | .doLoop body test =>
    line indent "do \x7b" ++ body.print (indent + 1) true ++
      line indent ("\x7d while (" ++ test.print (indent + 1) ++ ");")
  | .ret none => line indent "return;"
  | .ret (some value) => line indent ("return " ++ value.print indent ++ ";")
  | .brk => line indent "break;"
  | .cont => line indent "continue;"
  | .throwing value => line indent ("throw " ++ value.print indent ++ ";")
  | .attempt i block handler finalizer =>
    line indent "var __saved = __chain;" ++ line indent "try \x7b" ++
      printStmts (indent + 1) block ++ line indent "\x7d" ++ printHandler indent handler ++
      printFinally indent i finalizer
  | .switch i discriminant cases =>
    line indent ("switch (_[lastNode = " ++ toString i ++ "] = " ++ discriminant.print indent ++
      ") \x7b") ++ printCases (indent + 1) cases ++ line indent "\x7d"
  | .withScope object body =>
    line indent ("__chain = __pushWith(__chain, " ++ object.print indent ++ ");") ++
      line indent "\x7b" ++ body.print (indent + 1) true ++ line indent "\x7d" ++
      line indent "__chain = __chain.parent;"
  | .debugger i =>
    line indent ("if ((_[lastNode = " ++ toString i ++
      "] = undefined, __debugging)) throw __pause(" ++ toString i ++ ");")
  | .empty => ""
termination_by structural s => s

def printElse (indent : Nat) : Option Stmt → String
  | none => ""
  | some alt =>
    line indent "else \x7b" ++ alt.print (indent + 1) true ++ line indent "\x7d"
termination_by structural s => s

def printStmts (indent : Nat) : List Stmt → String
  | [] => ""
  | s :: rest => s.print indent false ++ printStmts indent rest
termination_by structural l => l

def printHandler (indent : Nat) : Option Handler → String
  | none => ""
  | some h => h.print indent
termination_by structural h => h

def Handler.print (indent : Nat) : Handler → String
  | ⟨i, param, body⟩ =>
    line indent "catch (__e) \x7b" ++
      line (indent + 1) "if (__isPause(__e)) throw __e;" ++
      line (indent + 1) ("lastNode = " ++ toString i ++ ";") ++
      line (indent + 1)
        ("__chain = __pushCatch(__saved, " ++ Text.quote param ++ ", __unwrap(__e));") ++
      printStmts (indent + 1) body ++ line (indent + 1) "__chain = __saved;" ++ line indent "\x7d"
termination_by structural h => h

def printFinally (indent i : Nat) : Option (List Stmt) → String
  | none => ""
  | some body =>
    line indent "finally \x7b" ++ line (indent + 1) "if (!__pausing()) \x7b" ++
      line (indent + 2) ("_[" ++ toString i ++ "] = __completion();") ++
      printStmts (indent + 2) body ++
      line (indent + 2) ("delete _[" ++ toString i ++ "];") ++ line (indent + 1) "\x7d" ++
      line indent "\x7d"
termination_by structural f => f

def printCases (indent : Nat) : List Case → String
  | [] => ""
  | c :: rest => c.print indent ++ printCases indent rest
termination_by structural l => l

def Case.print (indent : Nat) : Case → String
  | ⟨none, body⟩ => line indent "default:" ++ printStmts (indent + 1) body
  | ⟨some test, body⟩ =>
    line indent ("case " ++ test.print indent ++ ":") ++ printStmts (indent + 1) body
termination_by structural c => c

def printHoisted (indent : Nat) : List Hoisted → String
  | [] => ""
  | h :: rest => h.print indent ++ printHoisted indent rest
termination_by structural l => l

def Hoisted.print (indent : Nat) : Hoisted → String
  | ⟨name, value⟩ => line indent ("_0." ++ name ++ " = " ++ value.print indent ++ ";")
termination_by structural h => h

def Func.print (indent : Nat) : Func → String
  | ⟨name, ns, i, params, declared, selfName, hoisted, body, isProgram⟩ =>
    line indent (Func.head isProgram name params) ++
      line (indent + 1) (Func.recordLine i (params ++ declared ++ selfName.toList)) ++
      printHoisted (indent + 1) hoisted ++
      line (indent + 1) "try \x7b" ++ printStmts (indent + 2) body ++ line (indent + 1) "\x7d" ++
      line (indent + 1) "catch (__e) \x7b" ++
      line (indent + 2) ("throw __storeFrameInfo(__e, this, arguments, __chain, lastNode, " ++
        Text.quote ns ++ ", " ++ toString i ++ ");") ++
      line (indent + 1) "\x7d" ++ line indent (if isProgram then "\x7d)" else "\x7d")
termination_by structural f => f

end

end Resumption.Code
