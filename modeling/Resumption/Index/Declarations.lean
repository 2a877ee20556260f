import Resumption.Index.Tree

/-!
# Declarations

The names a function binds before its first statement runs: its parameters, the variables declared
anywhere in its body, and the functions declared there.  Nested functions keep theirs to
themselves.
-/

namespace Resumption

open Script

/-- The name by which a function sees its arguments. -/
def argumentsName : String := "arguments"

inductive Declaration where
  | var (name : String)
  | function (name : String) (index : Nat)
deriving Repr, DecidableEq

/-- What a function declares: variables in order of their first declaration, functions in order of
their last, each with the position of that last one. -/
structure Declarations where
  vars : List String
  functions : List (String × Nat)
deriving Repr, DecidableEq

namespace Declarations

def empty : Declarations := ⟨[], []⟩

def add (d : Declarations) : Declaration → Declarations
  | .var name => if d.vars.contains name then d else ⟨d.vars ++ [name], d.functions⟩
  | .function name i => ⟨d.vars, d.functions.filter (fun f => f.1 != name) ++ [(name, i)]⟩

def ofList (l : List Declaration) : Declarations := l.foldl add empty

/-- Appends a name that is not there yet. -/
def addName (names : List String) (name : String) : List String :=
  if names.contains name then names else names ++ [name]

/-- Every name in the function's own record. -/
def names (d : Declarations) (params : List String) : List String :=
  (d.vars ++ d.functions.map Prod.fst).foldl addName params

end Declarations

/-- The declarations that a statement makes by itself.  A `var` statement leaves the name of the
argument list alone. -/
def Script.Stmt.declares (i : Nat) : Stmt → List Declaration
  | .var decls =>
    (decls.filter (fun d => d.name != argumentsName)).map (fun d => .var d.name)
  | .function f =>
    match f.name with
    | some name => [.function name i]
    | none => []
  | .forLoop (.vars decls) _ _ _ => decls.map (fun d => .var d.name)
  | .forIn (.var name) _ _ => [.var name]
  | _ => []

/-- Declarations may stand below the node. -/
def Script.Node.mayDeclare : Node → Bool
  | .stmt (.var _) | .stmt (.function _) => false
  | .stmt _ | .case _ | .handler _ => true
  | _ => false

namespace IndexedTree

variable (t : IndexedTree)

/-- The declarations at and below a node, in the order of the text. -/
def declared (n : Node) (i : Nat) : List Declaration :=
  let own := match n with
    | .stmt s => s.declares i
    | _ => []
  let below :=
    if n.mayDeclare then
      (t.children n i).attach.flatMap (fun ⟨(j, c), _⟩ => declared c j)
    else []
  own ++ below
termination_by n.weight
decreasing_by exact Node.weight_lt_of_mem_children (t.mem_of_mem_place ‹_›)

/-- The declarations of a function at a position. -/
def declarationsOf (f : Func) (i : Nat) : Declarations :=
  .ofList ((t.place (i + 1) (Node.ofStmts f.body)).flatMap (fun (j, c) => t.declared c j))

/-- The declarations of the function at a position. -/
def declarations? (i : Nat) : Option Declarations :=
  (t.func? i).map (fun f => t.declarationsOf f i)

end IndexedTree

end Resumption
