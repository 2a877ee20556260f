import Resumption.Code.Basic

/-!
# Records and closures of a function

The positions a function may record under, in the order the records are written, and the functions
it makes closures of.  Neither looks into the bodies of those functions.
-/

namespace Resumption.Code

/-! ## Recorded positions -/

mutual

def Expr.recorded : Expr → List Nat
  | .closure f => [f.index]
  | .plain _ i => [i]
  | .array elements => recordedExprs elements
  | .object props => recordedProps props
  | .unary _ arg => arg.recorded
  | .delete target => target.recorded
  | .update i _ _ target => target.recorded ++ [i]
  | .binary _ left right => left.recorded ++ right.recorded
  | .logical _ left right => left.recorded ++ right.recorded
  | .assign i _ target value => target.recorded ++ value.recorded ++ [i]
  | .conditional test cons alt => test.recorded ++ cons.recorded ++ alt.recorded
  | .call i callee args => callee.recorded ++ recordedExprs args ++ [i]
  | .construct i callee args => callee.recorded ++ recordedExprs args ++ [i]
  | .member object key => object.recorded ++ key.recorded
  | .sequence exprs => recordedExprs exprs
  | .num _ | .str _ | .bool _ | .null | .ref _ | .this | .arguments => []
termination_by structural e => e

def Key.recorded : Key → List Nat
  | .name _ => []
  | .computed e => e.recorded
termination_by structural k => k

def Target.recorded : Target → List Nat
  | .ref _ => []
  | .member object key => object.recorded ++ key.recorded
termination_by structural t => t

def recordedExprs : List Expr → List Nat
  | [] => []
  | e :: rest => e.recorded ++ recordedExprs rest
termination_by structural l => l

def recordedExpr? : Option Expr → List Nat
  | none => []
  | some e => e.recorded

def Property.recorded : Property → List Nat
  | ⟨_, _, value⟩ => value.recorded
termination_by structural p => p

def recordedProps : List Property → List Nat
  | [] => []
  | p :: rest => p.recorded ++ recordedProps rest
termination_by structural l => l

def Declarator.recorded : Declarator → List Nat
  | ⟨_, _, none⟩ => []
  | ⟨i, _, some init⟩ => init.recorded ++ [i]

def recordedDecls : List Declarator → List Nat
  | [] => []
  | d :: rest => d.recorded ++ recordedDecls rest
termination_by structural l => l

def ForInit.recorded : ForInit → List Nat
  | .absent => []
  | .vars decls => recordedDecls decls
  | .expr e => e.recorded

def Stmt.recorded : Stmt → List Nat
  | .var decls => recordedDecls decls
  | .expr e => e.recorded
  | .block body => recordedStmts body
  | .branch test cons alt => test.recorded ++ cons.recorded ++ recordedStmt? alt
  | .forLoop init test update body =>
    init.recorded ++ recordedExpr? test ++ recordedExpr? update ++ body.recorded
  | .forIn i target right body => target.recorded ++ right.recorded ++ [i] ++ body.recorded
  | .whileLoop test body => test.recorded ++ body.recorded
  | .doLoop body test => body.recorded ++ test.recorded
  | .ret value => recordedExpr? value
  | .throwing value => value.recorded
  | .attempt _ block handler finalizer =>
    recordedStmts block ++ recordedHandler? handler ++ recordedFinally finalizer
  | .switch i discriminant cases => discriminant.recorded ++ [i] ++ recordedCases cases
  | .withScope object body => object.recorded ++ body.recorded
  | .debugger i => [i]
  | .brk | .cont | .empty => []
termination_by structural s => s

def recordedStmt? : Option Stmt → List Nat
  | none => []
  | some s => s.recorded
termination_by structural s => s

def recordedStmts : List Stmt → List Nat
  | [] => []
  | s :: rest => s.recorded ++ recordedStmts rest
termination_by structural l => l

def Handler.recorded : Handler → List Nat
  | ⟨i, _, body⟩ => i :: recordedStmts body
termination_by structural h => h

def recordedHandler? : Option Handler → List Nat
  | none => []
  | some h => h.recorded
termination_by structural h => h

def recordedFinally : Option (List Stmt) → List Nat
  | none => []
  | some body => recordedStmts body
termination_by structural f => f

def Case.recorded : Case → List Nat
  | ⟨test, body⟩ => recordedExpr? test ++ recordedStmts body
termination_by structural c => c

def recordedCases : List Case → List Nat
  | [] => []
  | c :: rest => c.recorded ++ recordedCases rest
termination_by structural l => l

end

/-- Every position the function may record under, in the order of evaluation. -/
def Func.recorded (f : Func) : List Nat :=
  f.hoisted.flatMap (fun h => h.value.recorded) ++ recordedStmts f.body

/-! ## Closures -/

mutual

def Expr.closures : Expr → List Func
  | .closure f => [f]
  | .array elements => closuresOfExprs elements
  | .object props => closuresOfProps props
  | .unary _ arg => arg.closures
  | .delete target => target.closures
  | .update _ _ _ target => target.closures
  | .binary _ left right => left.closures ++ right.closures
  | .logical _ left right => left.closures ++ right.closures
  | .assign _ _ target value => target.closures ++ value.closures
  | .conditional test cons alt => test.closures ++ cons.closures ++ alt.closures
  | .call _ callee args => callee.closures ++ closuresOfExprs args
  | .construct _ callee args => callee.closures ++ closuresOfExprs args
  | .member object key => object.closures ++ key.closures
  | .sequence exprs => closuresOfExprs exprs
  | .plain _ _ | .num _ | .str _ | .bool _ | .null | .ref _ | .this | .arguments => []
termination_by structural e => e

def Key.closures : Key → List Func
  | .name _ => []
  | .computed e => e.closures
termination_by structural k => k

def Target.closures : Target → List Func
  | .ref _ => []
  | .member object key => object.closures ++ key.closures
termination_by structural t => t

/-- Of the target of a `for-in` only the object is looked at. -/
def Target.objectClosures : Target → List Func
  | .ref _ => []
  | .member object _ => object.closures

def closuresOfExprs : List Expr → List Func
  | [] => []
  | e :: rest => e.closures ++ closuresOfExprs rest
termination_by structural l => l

def closuresOfExpr? : Option Expr → List Func
  | none => []
  | some e => e.closures

def Property.closures : Property → List Func
  | ⟨_, _, value⟩ => value.closures
termination_by structural p => p

def closuresOfProps : List Property → List Func
  | [] => []
  | p :: rest => p.closures ++ closuresOfProps rest
termination_by structural l => l

def Declarator.closures : Declarator → List Func
  | ⟨_, _, init⟩ => closuresOfExpr? init

def closuresOfDecls : List Declarator → List Func
  | [] => []
  | d :: rest => d.closures ++ closuresOfDecls rest
termination_by structural l => l

def ForInit.closures : ForInit → List Func
  | .absent => []
  | .vars decls => closuresOfDecls decls
  | .expr e => e.closures

/-- The closures of a statement: those of its own expressions first. -/
def Stmt.closures : Stmt → List Func
  | .var decls => closuresOfDecls decls
  | .expr e => e.closures
  | .block body => closuresOfStmts body
  | .branch test cons alt => test.closures ++ cons.closures ++ closuresOfStmt? alt
  | .forLoop init test update body =>
    init.closures ++ closuresOfExpr? test ++ closuresOfExpr? update ++ body.closures
  | .forIn _ target right body => target.objectClosures ++ right.closures ++ body.closures
  | .whileLoop test body => test.closures ++ body.closures
  | .doLoop body test => test.closures ++ body.closures
  | .ret value => closuresOfExpr? value
  | .throwing value => value.closures
  | .attempt _ block handler finalizer =>
    closuresOfStmts block ++ closuresOfHandler? handler ++ closuresOfFinally finalizer
  | .switch _ discriminant cases =>
    discriminant.closures ++ closuresOfTests cases ++ closuresOfArms cases
  | .withScope object body => object.closures ++ body.closures
  | .debugger _ | .brk | .cont | .empty => []
termination_by structural s => s

def closuresOfStmt? : Option Stmt → List Func
  | none => []
  | some s => s.closures
termination_by structural s => s

def closuresOfStmts : List Stmt → List Func
  | [] => []
  | s :: rest => s.closures ++ closuresOfStmts rest
termination_by structural l => l

def Handler.closures : Handler → List Func
  | ⟨_, _, body⟩ => closuresOfStmts body
termination_by structural h => h

def closuresOfHandler? : Option Handler → List Func
  | none => []
  | some h => h.closures
termination_by structural h => h

def closuresOfFinally : Option (List Stmt) → List Func
  | none => []
  | some body => closuresOfStmts body
termination_by structural f => f

def Case.testClosures : Case → List Func
  | ⟨test, _⟩ => closuresOfExpr? test

def closuresOfTests : List Case → List Func
  | [] => []
  | c :: rest => c.testClosures ++ closuresOfTests rest
termination_by structural l => l

def Case.armClosures : Case → List Func
  | ⟨_, body⟩ => closuresOfStmts body
termination_by structural c => c

def closuresOfArms : List Case → List Func
  | [] => []
  | c :: rest => c.armClosures ++ closuresOfArms rest
termination_by structural l => l

end

/-- The functions that this function makes closures of, its declarations first. -/
def Func.closures (f : Func) : List Func :=
  f.hoisted.flatMap (fun h => h.value.closures) ++ closuresOfStmts f.body

end Resumption.Code
