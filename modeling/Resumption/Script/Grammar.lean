import Resumption.Script.Basic
import Resumption.Script.Fault
import Resumption.Script.Lexeme

/-!
# The grammar

Rules try their alternatives in order and commit to the first that fits.  Where a rule needs a
statement, an assignment or a `new` nested inside itself, it asks the grammar one level down; the
levels are counted off by `Grammar.upTo`.  Every step down leaves at least one character behind, so
as many levels as there are characters are enough, and the same bound serves every repetition.

A rule decides at once whether the text fits, but the tree is carried along as a `Built` value: a
fault inside it does not stop the rule, so it can never hide that the text does not fit at all.
-/

namespace Resumption.Script

open Lexeme

/-- What a rule does with the text in front of it: it refuses, or hands over what it found and the
text that is left. -/
abbrev Rule (α : Type) := List Char → Option (α × List Char)

/-- The rules that occur inside each other, one level further down. -/
structure Grammar where
  /-- No text handed to this level is longer. -/
  bound : Nat
  statement : Rule (Built Stmt)
  assignment : Rule (Built Expr)
  construction : Rule (Built Expr)

namespace Rule

variable {α β : Type}

/-- The first alternative that fits. -/
def oneOf (rules : List (Rule α)) : Rule α := fun s => rules.findSome? (fun rule => rule s)

def optional (rule : Rule α) (s : List Char) : Option α × List Char :=
  match rule s with
  | some (a, rest) => (some a, rest)
  | none => (none, s)

/-- The rule over and over until it refuses. -/
def many (rule : Rule α) : Nat → List Char → List α × List Char
  | 0, s => ([], s)
  | n + 1, s =>
    match rule s with
    | none => ([], s)
    | some (a, rest) =>
      let (found, rest) := many rule n rest
      (a :: found, rest)

/-- A mark and what follows it. -/
@[inline]
def behind (lead : List Char → Option (List Char)) (rule : Rule α) : Rule α := fun s => do
  let s ← lead s
  rule s

/-- At least one, separated by commas. -/
def separated (bound : Nat) (rule : Rule α) : Rule (List α) := fun s => do
  let (a, s) ← rule s
  let (rest, s) := many (behind (mark ",") rule) bound s
  return (a :: rest, s)

/-- Any number, separated by commas. -/
def list (bound : Nat) (rule : Rule α) (s : List Char) : List α × List Char :=
  let (found, s) := optional (separated bound rule) s
  (found.getD [], s)

/-- Something between a mark and another. -/
@[inline]
def between (opening closing : String) (rule : Rule α) : Rule α := fun s => do
  let s ← mark opening s
  let (a, s) ← rule s
  let s ← mark closing s
  return (a, s)

def parenthesized (rule : Rule α) : Rule α := between "(" ")" rule

/-- A semicolon that may be missing. -/
def optionalEnd (s : List Char) : List Char := (mark ";" s).getD s

end Rule

open Rule

/-! ## Literals -/

def numberValue (text : List Char) : Built Float :=
  let value := match text with
    | '0' :: x :: digits =>
      if x == 'x' || x == 'X' then (Number.bounded? 16 (2 ^ 64) digits).map Number.ofNat
      else Number.decimal? text
    | _ => Number.decimal? text
  match value with
  | some x => .ok x
  | none => .error (.number (String.ofList text))

def stringValue (body : List Char) : Built String :=
  match Text.unquote body with
  | .ok s => .ok (String.ofList s)
  | .error digits => .error (.escape (String.ofList digits))

/-! ## Operators between operands -/

/-- An operator between two operands. -/
inductive Infix where
  | logical (op : LogicalOp)
  | binary (op : BinaryOp)
deriving Repr, DecidableEq

/-- How tightly a binary operator binds. -/
def BinaryOp.level : BinaryOp → Nat
  | .bitOr => 6
  | .bitXor => 7
  | .bitAnd => 8
  | .eq | .notEq | .strictEq | .strictNotEq => 9
  | .lt | .ltE | .gt | .gtE | .isIn | .instanceOf => 10
  | .shl | .shr | .uShr => 11
  | .add | .sub => 12
  | .mul | .div | .mod => 13

def LogicalOp.level : LogicalOp → Nat
  | .or => 4
  | .and => 5

def Infix.level : Infix → Nat
  | .logical op => op.level
  | .binary op => op.level

def Infix.apply (op : Infix) (left right : Built Expr) : Built Expr := do
  let l ← left
  let r ← right
  match op with
  | .logical op => return .logical op l r
  | .binary op => return .binary op l r

def oneOfChars (chars : List Char) (c : Char) : Bool := chars.contains c

/-- The operators as they are looked for, in this order, each with the characters that may not
follow it. -/
def infixOp : Rule Infix :=
  oneOf [
    fun s => (mark "||" s).map (.logical .or, ·),
    fun s => (mark "&&" s).map (.logical .and, ·),
    fun s => (mark "===" s).map (.binary .strictEq, ·),
    fun s => (mark "!==" s).map (.binary .strictNotEq, ·),
    fun s => (markBefore "==" (· == '=') s).map (.binary .eq, ·),
    fun s => (markBefore "!=" (· == '=') s).map (.binary .notEq, ·),
    fun s => (mark "<=" s).map (.binary .ltE, ·),
    fun s => (mark ">=" s).map (.binary .gtE, ·),
    fun s => (markBefore ">>>" (· == '=') s).map (.binary .uShr, ·),
    fun s => (markBefore "<<" (· == '=') s).map (.binary .shl, ·),
    fun s => (markBefore ">>" (oneOfChars ['>', '=']) s).map (.binary .shr, ·),
    fun s => (markBefore "<" (oneOfChars ['<', '=']) s).map (.binary .lt, ·),
    fun s => (markBefore ">" (oneOfChars ['>', '=']) s).map (.binary .gt, ·),
    fun s => (keyword "instanceof" s).map (.binary .instanceOf, ·),
    fun s => (keyword "in" s).map (.binary .isIn, ·),
    fun s => (markBefore "+" (oneOfChars ['+', '=']) s).map (.binary .add, ·),
    fun s => (markBefore "-" (oneOfChars ['-', '=']) s).map (.binary .sub, ·),
    fun s => (markBefore "*" (· == '=') s).map (.binary .mul, ·),
    fun s => (markBefore "/" (· == '=') s).map (.binary .div, ·),
    fun s => (markBefore "%" (· == '=') s).map (.binary .mod, ·),
    fun s => (markBefore "&" (oneOfChars ['&', '=']) s).map (.binary .bitAnd, ·),
    fun s => (markBefore "|" (oneOfChars ['|', '=']) s).map (.binary .bitOr, ·),
    fun s => (markBefore "^" (· == '=') s).map (.binary .bitXor, ·)]

/-- Applies the waiting operators that bind at least as tightly as the level, innermost first. -/
def reduce (level : Nat) :
    List (Built Expr × Infix) → Built Expr → List (Built Expr × Infix) × Built Expr
  | [], e => ([], e)
  | (left, op) :: waiting, e =>
    if level ≤ op.level then reduce level waiting (op.apply left e) else ((left, op) :: waiting, e)

/-- The tree of a chain of operands.  An operand on the stack waits for the right side of its
operator. -/
def climb (waiting : List (Built Expr × Infix)) (operand : Built Expr) :
    List (Infix × Built Expr) → Built Expr
  | [] => (reduce 0 waiting operand).2
  | (op, next) :: rest =>
    let (waiting, left) := reduce op.level waiting operand
    climb ((left, op) :: waiting) next rest

/-! ## Expressions -/

/-- An operator in front of its operand. -/
inductive Lead where
  | update (op : UpdateOp)
  | unary (op : UnaryOp)
deriving Repr, DecidableEq

def leadOp : Rule Lead :=
  oneOf [
    fun s => (mark "++" s).map (.update .increment, ·),
    fun s => (mark "--" s).map (.update .decrement, ·),
    fun s => (mark "!" s).map (.unary .not, ·),
    fun s => (mark "-" s).map (.unary .neg, ·),
    fun s => (mark "+" s).map (.unary .plus, ·),
    fun s => (mark "~" s).map (.unary .bitNot, ·),
    fun s => (keyword "typeof" s).map (.unary .typeOf, ·),
    fun s => (keyword "void" s).map (.unary .void, ·),
    fun s => (keyword "delete" s).map (.unary .delete, ·)]

/-- An increment or decrement of something that can be written. -/
def updateOf (op : UpdateOp) (before : Bool) (e : Expr) : Built Expr :=
  if e.isReference then .ok (.update op before e) else .error .updateOperand

def Lead.apply (lead : Lead) (operand : Built Expr) : Built Expr := do
  let e ← operand
  match lead with
  | .update op => updateOf op true e
  | .unary op => return .unary op e

/-- What may stand behind an expression to use its value. -/
inductive Suffix where
  | call (args : List (Built Expr))
  | member (name : String)
  | index (key : Built Expr)

def Suffix.apply (object : Built Expr) : Suffix → Built Expr
  | .call args => do
    let o ← object
    return .call o (← Built.all args)
  | .member name => do return .member (← object) name
  | .index key => do
    let o ← object
    return .index o (← key)

namespace Grammar

variable (g : Grammar)

def refuse : Grammar := ⟨0, fun _ => none, fun _ => none, fun _ => none⟩

/-- Statements between braces. -/
def braced : Rule (Built (List Stmt)) := fun s => do
  let s ← mark "\x7b" s
  let (body, s) := many g.statement g.bound s
  let s ← mark "\x7d" s
  return (Built.all body, s)

def parameters : Rule (List String) := fun s => do
  let s ← mark "(" s
  let (names, s) := list g.bound identifier s
  let s ← mark ")" s
  return (names, s)

/-- The part of a function behind its name. -/
def functionTail (name : Option String) : Rule (Built Func) := fun s => do
  let (params, s) ← g.parameters s
  let (body, s) ← g.braced s
  return (do return ⟨name, params, ← body⟩, s)

def expression : Rule (Built Expr) := fun s => do
  let (exprs, s) ← separated g.bound g.assignment s
  let built : Built Expr := do
    match ← Built.all exprs with
    | [e] => return e
    | es => return .sequence es
  return (built, s)

def functionExpr : Rule (Built Expr) := fun s => do
  let s ← keyword "function" s
  let (name, s) := optional identifier s
  let (func, s) ← g.functionTail name s
  return (do return .function (← func), s)

def arrayLiteral : Rule (Built Expr) := fun s => do
  let s ← mark "[" s
  let (elements, s) := list g.bound g.assignment s
  let s := (mark "," s).getD s
  let s ← mark "]" s
  return (do return .array (← Built.all elements), s)

def propertyKey : Rule (Built String) :=
  oneOf [
    fun s => (propertyName s).map (fun (name, s) => (.ok name, s)),
    fun s => (string s).map (fun (body, s) => (stringValue body, s)),
    fun s => (number s).map (fun (text, s) => ((numberValue text).map Number.text, s))]

/-- One half of an accessor: a word, a key, parameters and a body. -/
def accessor (word : String) (kind : PropKind) (params : Rule (List String)) :
    Rule (Built Property) := fun s => do
  let s ← mark word s
  let (key, s) ← propertyKey s
  let (params, s) ← parenthesized params s
  let (body, s) ← g.braced s
  let built : Built Property := do
    let k ← key
    return ⟨k, kind, .function ⟨none, params, ← body⟩⟩
  return (built, s)

def plainProperty : Rule (Built Property) := fun s => do
  let (key, s) ← propertyKey s
  let s ← mark ":" s
  let (value, s) ← g.assignment s
  let built : Built Property := do
    let k ← key
    return ⟨k, .init, ← value⟩
  return (built, s)

def property : Rule (Built Property) :=
  oneOf [
    g.accessor "get" .getter (fun s => some ([], s)),
    g.accessor "set" .setter (fun s => (identifier s).map (fun (name, s) => ([name], s))),
    g.plainProperty]

def objectLiteral : Rule (Built Expr) := fun s => do
  let s ← mark "\x7b" s
  let (props, s) := list g.bound g.property s
  let s := (mark "," s).getD s
  let s ← mark "\x7d" s
  return (do return .object (← Built.all props), s)

def primary : Rule (Built Expr) :=
  oneOf [
    g.functionExpr,
    fun s => (keyword "this" s).map (.ok .this, ·),
    fun s => (keyword "null" s).map (.ok .null, ·),
    fun s => (keyword "true" s).map (.ok (.bool true), ·),
    fun s => (keyword "false" s).map (.ok (.bool false), ·),
    fun s => (number s).map (fun (text, s) => ((numberValue text).map .num, s)),
    fun s => (string s).map (fun (body, s) => ((stringValue body).map .str, s)),
    g.arrayLiteral,
    g.objectLiteral,
    fun s => (identifier s).map (fun (name, s) => (.ok (.ident name), s)),
    parenthesized g.expression]

def arguments : Rule (List (Built Expr)) := fun s => do
  let s ← mark "(" s
  let (args, s) := list g.bound g.assignment s
  let s ← mark ")" s
  return (args, s)

def memberSuffix : Rule Suffix := fun s => do
  let s ← mark "." s
  let (name, s) ← propertyName s
  return (.member name, s)

def indexSuffix : Rule Suffix := fun s => do
  let (key, s) ← between "[" "]" g.expression s
  return (.index key, s)

def callSuffix : Rule Suffix := fun s => do
  let (args, s) ← g.arguments s
  return (.call args, s)

/-- What a suffix can be attached to. -/
def base : Rule (Built Expr) := oneOf [g.construction, g.primary]

/-- A base with its suffixes. -/
def suffixed (suffix : Rule Suffix) : Rule (Built Expr) := fun s => do
  let (object, s) ← g.base s
  let (suffixes, s) := many suffix g.bound s
  return (suffixes.foldl Suffix.apply object, s)

def callExpr : Rule (Built Expr) :=
  g.suffixed (oneOf [g.callSuffix, memberSuffix, g.indexSuffix])

/-- A `new`: the first argument list behind it is its own. -/
def newExpr : Rule (Built Expr) := fun s => do
  let s ← keyword "new" s
  let (callee, s) ← g.suffixed (oneOf [memberSuffix, g.indexSuffix]) s
  let (args, s) := optional g.arguments s
  let built : Built Expr := do
    let c ← callee
    return .construct c (← Built.all (args.getD []))
  return (built, s)

def updateMark : Rule UpdateOp :=
  oneOf [
    fun s => (mark "++" s).map (.increment, ·),
    fun s => (mark "--" s).map (.decrement, ·)]

def updated : Rule (Built Expr) := fun s => do
  let (e, s) ← g.callExpr s
  let (op, s) := optional updateMark s
  match op with
  | none => return (e, s)
  | some op => return (e >>= updateOf op false, s)

def unary : Rule (Built Expr) := fun s => do
  let (leads, s) := many leadOp g.bound s
  let (operand, s) ← g.updated s
  return (leads.foldr Lead.apply operand, s)

def binary : Rule (Built Expr) := fun s => do
  let (first, s) ← g.unary s
  let (rest, s) := many (fun s => do
    let (op, s) ← infixOp s
    let (operand, s) ← g.unary s
    return ((op, operand), s)) g.bound s
  return (climb [] first rest, s)

def conditional : Rule (Built Expr) := fun s => do
  let (test, s) ← g.binary s
  let (branches, s) := optional (fun s => do
    let s ← mark "?" s
    let (cons, s) ← g.assignment s
    let s ← mark ":" s
    let (alt, s) ← g.assignment s
    return ((cons, alt), s)) s
  match branches with
  | none => return (test, s)
  | some (cons, alt) =>
    let built : Built Expr := do
      let t ← test
      let c ← cons
      return .conditional t c (← alt)
    return (built, s)

/-- A plain assignment mark, or the operator of a compound one. -/
def assignMark : Rule (Option BinaryOp) :=
  oneOf [
    fun s => (markBefore "=" (· == '=') s).map (none, ·),
    fun s => (mark ">>>=" s).map (some .uShr, ·),
    fun s => (mark ">>=" s).map (some .shr, ·),
    fun s => (mark "<<=" s).map (some .shl, ·),
    fun s => (mark "+=" s).map (some .add, ·),
    fun s => (mark "-=" s).map (some .sub, ·),
    fun s => (mark "*=" s).map (some .mul, ·),
    fun s => (mark "/=" s).map (some .div, ·),
    fun s => (mark "%=" s).map (some .mod, ·),
    fun s => (mark "&=" s).map (some .bitAnd, ·),
    fun s => (mark "|=" s).map (some .bitOr, ·),
    fun s => (mark "^=" s).map (some .bitXor, ·)]

/-- How an assignment mark is written. -/
def assignText (op : Option BinaryOp) : String :=
  match op with
  | none => "="
  | some op => op.symbol ++ "="

def assignOf (op : Option BinaryOp) (target value : Built Expr) : Built Expr := do
  let t ← target
  if t.isReference then return .assign op t (← value)
  else .error (.assignmentTarget (assignText op))

def assign : Rule (Built Expr) := fun s => do
  let (target, s) ← g.conditional s
  let (tail, s) := optional (fun s => do
    let (op, s) ← assignMark s
    let (value, s) ← g.assignment s
    return ((op, value), s)) s
  match tail with
  | none => return (target, s)
  | some (op, value) => return (assignOf op target value, s)

/-! ## Statements -/

def declarator : Rule (Built Declarator) := fun s => do
  let (name, s) ← identifier s
  let (init, s) := optional (behind (markBefore "=" (· == '=')) g.assignment) s
  return (do return ⟨name, ← Built.option init⟩, s)

def declarators : Rule (Built (List Declarator)) := fun s => do
  let s ← keyword "var" s
  let (decls, s) ← separated g.bound g.declarator s
  return (Built.all decls, s)

def blockStmt : Rule (Built Stmt) := fun s => do
  let (body, s) ← g.braced s
  return (do return .block (← body), s)

def varStmt : Rule (Built Stmt) := fun s => do
  let (decls, s) ← g.declarators s
  return (do return .var (← decls), optionalEnd s)

def functionStmt : Rule (Built Stmt) := fun s => do
  let s ← keyword "function" s
  let (name, s) ← identifier s
  let (func, s) ← g.functionTail (some name) s
  return (do return .function (← func), s)

def branchStmt : Rule (Built Stmt) := fun s => do
  let s ← keyword "if" s
  let (test, s) ← parenthesized g.expression s
  let (cons, s) ← g.statement s
  let (alt, s) := optional (behind (keyword "else") g.statement) s
  let built : Built Stmt := do
    let t ← test
    let c ← cons
    return .branch t c (← Built.option alt)
  return (built, s)

def forTarget : Rule (Built ForTarget) :=
  oneOf [
    fun s => do
      let s ← keyword "var" s
      let (name, s) ← identifier s
      return (.ok (.var name), s),
    fun s => do
      let (e, s) ← g.callExpr s
      return (do return .expr (← e), s)]

def forInStmt : Rule (Built Stmt) := fun s => do
  let s ← keyword "for" s
  let s ← mark "(" s
  let (left, s) ← g.forTarget s
  let s ← keyword "in" s
  let (right, s) ← g.expression s
  let s ← mark ")" s
  let (body, s) ← g.statement s
  let built : Built Stmt := do
    let l ← left
    let r ← right
    return .forIn l r (← body)
  return (built, s)

def forInit : Rule (Built ForInit) :=
  oneOf [
    fun s => do
      let (decls, s) ← g.declarators s
      return (do return .vars (← decls), s),
    fun s => do
      let (e, s) ← g.expression s
      return (do return .expr (← e), s)]

def forStmt : Rule (Built Stmt) := fun s => do
  let s ← keyword "for" s
  let s ← mark "(" s
  let (init, s) := optional g.forInit s
  let s ← mark ";" s
  let (test, s) := optional g.expression s
  let s ← mark ";" s
  let (update, s) := optional g.expression s
  let s ← mark ")" s
  let (body, s) ← g.statement s
  let built : Built Stmt := do
    let i ← init.getD (.ok .absent)
    let t ← Built.option test
    let u ← Built.option update
    return .forLoop i t u (← body)
  return (built, s)

def whileStmt : Rule (Built Stmt) := fun s => do
  let s ← keyword "while" s
  let (test, s) ← parenthesized g.expression s
  let (body, s) ← g.statement s
  let built : Built Stmt := do
    let t ← test
    return .whileLoop t (← body)
  return (built, s)

def doStmt : Rule (Built Stmt) := fun s => do
  let s ← keyword "do" s
  let (body, s) ← g.statement s
  let s ← keyword "while" s
  let (test, s) ← parenthesized g.expression s
  let built : Built Stmt := do
    let b ← body
    return .doLoop b (← test)
  return (built, optionalEnd s)

def returnStmt : Rule (Built Stmt) := fun s => do
  let s ← keyword "return" s
  let (value, s) := optional g.expression s
  return (do return .ret (← Built.option value), optionalEnd s)

def breakStmt : Rule (Built Stmt) := fun s => do
  let s ← keyword "break" s
  let (label, s) := optional identifier s
  return (.ok (.brk label), optionalEnd s)

def continueStmt : Rule (Built Stmt) := fun s => do
  let s ← keyword "continue" s
  let (label, s) := optional identifier s
  return (.ok (.cont label), optionalEnd s)

def throwStmt : Rule (Built Stmt) := fun s => do
  let s ← keyword "throw" s
  let (value, s) ← g.expression s
  return (do return .throwing (← value), optionalEnd s)

def handler : Rule (Built Handler) := fun s => do
  let s ← keyword "catch" s
  let (param, s) ← parenthesized identifier s
  let (body, s) ← g.braced s
  return (do return ⟨param, ← body⟩, s)

def tryStmt : Rule (Built Stmt) := fun s => do
  let s ← keyword "try" s
  let (block, s) ← g.braced s
  let (guarded, s) := optional g.handler s
  let (finalizer, s) := optional (behind (keyword "finally") g.braced) s
  let built : Built Stmt := do
    let b ← block
    let h ← Built.option guarded
    let f ← Built.option finalizer
    if h.isNone && f.isNone then .error .bareTry
    else return .attempt b h f
  return (built, s)

def caseLabel : Rule (Option (Built Expr)) :=
  oneOf [
    fun s => do
      let s ← keyword "case" s
      let (test, s) ← g.expression s
      let s ← mark ":" s
      return (some test, s),
    fun s => do
      let s ← keyword "default" s
      let s ← mark ":" s
      return (none, s)]

def switchCase : Rule (Built Case) := fun s => do
  let (test, s) ← g.caseLabel s
  let (body, s) := many g.statement g.bound s
  let built : Built Case := do
    let t ← Built.option test
    return ⟨t, ← Built.all body⟩
  return (built, s)

def switchStmt : Rule (Built Stmt) := fun s => do
  let s ← keyword "switch" s
  let (discriminant, s) ← parenthesized g.expression s
  let s ← mark "\x7b" s
  let (cases, s) := many g.switchCase g.bound s
  let s ← mark "\x7d" s
  let built : Built Stmt := do
    let d ← discriminant
    return .switch d (← Built.all cases)
  return (built, s)

def withStmt : Rule (Built Stmt) := fun s => do
  let s ← keyword "with" s
  let (object, s) ← parenthesized g.expression s
  let (body, s) ← g.statement s
  let built : Built Stmt := do
    let o ← object
    return .withScope o (← body)
  return (built, s)

def debuggerStmt : Rule (Built Stmt) := fun s => do
  let s ← keyword "debugger" s
  return (.ok .debugger, optionalEnd s)

def emptyStmt : Rule (Built Stmt) := fun s => do
  let s ← mark ";" s
  return (.ok .empty, s)

def labeledStmt : Rule (Built Stmt) := fun s => do
  let (label, s) ← identifier s
  let s ← mark ":" s
  let (body, s) ← g.statement s
  return (do return .labeled label (← body), s)

def exprStmt : Rule (Built Stmt) := fun s => do
  let (e, s) ← g.expression s
  return (do return .expr (← e), optionalEnd s)

def anyStmt : Rule (Built Stmt) :=
  oneOf [
    g.blockStmt, g.varStmt, g.functionStmt, g.branchStmt, g.forInStmt, g.forStmt, g.whileStmt,
    g.doStmt, g.returnStmt, breakStmt, continueStmt, g.throwStmt, g.tryStmt, g.switchStmt,
    g.withStmt, debuggerStmt, emptyStmt, g.labeledStmt, g.exprStmt]

/-- One more level.  A statement's own expressions cost nothing, so they stay on the new level. -/
def step : Grammar :=
  let outer : Grammar := ⟨g.bound + 1, g.statement, g.assign, g.construction⟩
  ⟨g.bound + 1, outer.anyStmt, g.assign, g.newExpr⟩

/-- The grammar that is good for texts of at most this length. -/
def upTo : Nat → Grammar
  | 0 => refuse
  | n + 1 => (upTo n).step

end Grammar

/-- Statements up to the end of the text. -/
def Program.read (s : List Char) : Option (Built Program) := do
  let n := s.length + 1
  let (body, rest) := many (Grammar.upTo n).statement n s
  guard (skip rest).isEmpty
  return (do return ⟨← Built.all body⟩)

/-- The program written by a source text. -/
def Program.parse (source : String) : Except ParseError Program :=
  match Program.read source.toList with
  | none => .error .malformed
  | some (.error fault) => .error (.invalid fault)
  | some (.ok program) => .ok program

/-- A source text that holds one function, declared or in parentheses. -/
def Func.parse (source : String) : Except ParseError Func := do
  match (← Program.parse source).body with
  | [.function f] => return f
  | [.expr (.function f)] => return f
  | _ => .error (.invalid .notOneFunction)

/-- A source text that holds one expression. -/
def Expr.parse (source : String) : Except ParseError Expr := do
  match (← Program.parse source).body with
  | [.expr e] => return e
  | _ => .error (.invalid .notOneExpression)

end Resumption.Script
