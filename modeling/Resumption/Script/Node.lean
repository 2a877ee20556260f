import Resumption.Script.Basic

/-!
# Nodes

Functions, statements, expressions and the small parts between them seen as one kind of thing.
`Node.children` fixes the one order in which everybody walks a tree.  Positions are handed out in
pre-order over it, so the position of a child follows from its parent's: the first child comes
right after the parent, every other child right after the last node of its elder sibling.
-/

namespace Resumption.Script

inductive Node where
  | func (f : Func)
  | stmt (s : Stmt)
  | expr (e : Expr)
  | declarator (d : Declarator)
  | property (p : Property)
  | case (c : Case)
  | handler (h : Handler)

namespace Node

def ofStmts (body : List Stmt) : List Node := body.map .stmt

def ofExprs (exprs : List Expr) : List Node := exprs.map .expr

def ofExpr? (e : Option Expr) : List Node := e.toList.map .expr

def childrenOfStmt : Stmt → List Node
  | .var decls => decls.map .declarator
  | .function f => ofStmts f.body
  | .expr e => [.expr e]
  | .block body => ofStmts body
  | .branch test cons alt => .expr test :: .stmt cons :: alt.toList.map .stmt
  | .forLoop init test update body =>
    let head := match init with
      | .absent => []
      | .vars decls => decls.map .declarator
      | .expr e => [.expr e]
    head ++ ofExpr? test ++ ofExpr? update ++ [.stmt body]
  | .forIn left right body =>
    match left with
    | .var _ => [.expr right, .stmt body]
    | .expr e => [.expr e, .expr right, .stmt body]
  | .whileLoop test body => [.expr test, .stmt body]
  | .doLoop body test => [.stmt body, .expr test]
  | .ret value => ofExpr? value
  | .brk _ | .cont _ | .debugger | .empty => []
  | .throwing value => [.expr value]
  | .attempt block guard finalizer =>
    ofStmts block ++ guard.toList.map .handler ++ ofStmts (finalizer.getD [])
  | .switch discriminant cases => .expr discriminant :: cases.map .case
  | .withScope object body => [.expr object, .stmt body]
  | .labeled _ body => [.stmt body]

def childrenOfExpr : Expr → List Node
  | .num _ | .str _ | .bool _ | .null | .ident _ | .this => []
  | .array elements => ofExprs elements
  | .object props => props.map .property
  | .function f => ofStmts f.body
  | .unary _ arg => [.expr arg]
  | .update _ _ arg => [.expr arg]
  | .binary _ left right => [.expr left, .expr right]
  | .logical _ left right => [.expr left, .expr right]
  | .assign _ target value => [.expr target, .expr value]
  | .conditional test cons alt => [.expr test, .expr cons, .expr alt]
  | .call callee args => .expr callee :: ofExprs args
  | .construct callee args => .expr callee :: ofExprs args
  | .member object _ => [.expr object]
  | .index object key => [.expr object, .expr key]
  | .sequence exprs => ofExprs exprs

/-- The parts of a node, in the order of evaluation. -/
def children : Node → List Node
  | .func f => ofStmts f.body
  | .stmt s => childrenOfStmt s
  | .expr e => childrenOfExpr e
  | .declarator d => ofExpr? d.init
  | .property p => [.expr p.value]
  | .case c => ofExpr? c.test ++ ofStmts c.body
  | .handler h => ofStmts h.body

/-- The function that the node introduces. -/
def func? : Node → Option Func
  | .func f => some f
  | .stmt (.function f) => some f
  | .expr (.function f) => some f
  | _ => none

def kindOfStmt : Stmt → String
  | .var _ => "VariableDeclaration"
  | .function _ => "FunctionDeclaration"
  | .expr _ => "ExpressionStatement"
  | .block _ => "BlockStatement"
  | .branch _ _ _ => "IfStatement"
  | .forLoop _ _ _ _ => "ForStatement"
  | .forIn _ _ _ => "ForInStatement"
  | .whileLoop _ _ => "WhileStatement"
  | .doLoop _ _ => "DoWhileStatement"
  | .ret _ => "ReturnStatement"
  | .brk _ => "BreakStatement"
  | .cont _ => "ContinueStatement"
  | .throwing _ => "ThrowStatement"
  | .attempt _ _ _ => "TryStatement"
  | .switch _ _ => "SwitchStatement"
  | .withScope _ _ => "WithStatement"
  | .labeled _ _ => "LabeledStatement"
  | .debugger => "DebuggerStatement"
  | .empty => "EmptyStatement"

def kindOfExpr : Expr → String
  | .num _ | .str _ | .bool _ | .null => "Literal"
  | .ident _ => "Identifier"
  | .this => "ThisExpression"
  | .array _ => "ArrayExpression"
  | .object _ => "ObjectExpression"
  | .function _ => "FunctionExpression"
  | .unary _ _ => "UnaryExpression"
  | .update _ _ _ => "UpdateExpression"
  | .binary _ _ _ => "BinaryExpression"
  | .logical _ _ _ => "LogicalExpression"
  | .assign _ _ _ => "AssignmentExpression"
  | .conditional _ _ _ => "ConditionalExpression"
  | .call _ _ => "CallExpression"
  | .construct _ _ => "NewExpression"
  | .member _ _ | .index _ _ => "MemberExpression"
  | .sequence _ => "SequenceExpression"

/-- The name of the node's kind, for people. -/
def kind : Node → String
  | .func _ => "Function"
  | .stmt s => kindOfStmt s
  | .expr e => kindOfExpr e
  | .declarator _ => "Declarator"
  | .property _ => "Property"
  | .case _ => "SwitchCase"
  | .handler _ => "CatchClause"

/-- Falls from a node to each of its children. -/
noncomputable def weight : Node → Nat
  | .func f => sizeOf f
  | .stmt s => sizeOf s
  | .expr e => sizeOf e
  | .declarator d => sizeOf d
  | .property p => sizeOf p
  | .case c => sizeOf c
  | .handler h => sizeOf h

theorem weight_lt_of_mem_ofStmts {body : List Stmt} {c : Node} (h : c ∈ ofStmts body) :
    c.weight < sizeOf body := by
  obtain ⟨s, hs, rfl⟩ := List.mem_map.1 h
  exact List.sizeOf_lt_of_mem hs

theorem weight_lt_of_mem_ofExprs {exprs : List Expr} {c : Node} (h : c ∈ ofExprs exprs) :
    c.weight < sizeOf exprs := by
  obtain ⟨e, he, rfl⟩ := List.mem_map.1 h
  exact List.sizeOf_lt_of_mem he

theorem weight_lt_of_mem_ofExpr? {e : Option Expr} {c : Node} (h : c ∈ ofExpr? e) :
    c.weight < sizeOf e := by
  cases e with
  | none => simp [ofExpr?] at h
  | some e =>
      obtain rfl : c = .expr e := by simpa [ofExpr?] using h
      simp [weight]

theorem weight_lt_of_mem_declarators {decls : List Declarator} {c : Node}
    (h : c ∈ decls.map Node.declarator) : c.weight < sizeOf decls := by
  obtain ⟨d, hd, rfl⟩ := List.mem_map.1 h
  exact List.sizeOf_lt_of_mem hd

theorem weight_lt_of_mem_childrenOfStmt {s : Stmt} {c : Node} (h : c ∈ childrenOfStmt s) :
    c.weight < sizeOf s := by
  cases s with
  | var decls =>
      have := weight_lt_of_mem_declarators h
      simp <;> omega
  | function f =>
      have := weight_lt_of_mem_ofStmts h
      cases f; simp at this ⊢ <;> omega
  | expr e =>
      obtain rfl : c = .expr e := by simpa [childrenOfStmt] using h
      simp [weight]
  | block body =>
      have := weight_lt_of_mem_ofStmts h
      simp <;> omega
  | branch test cons alt =>
      cases alt with
      | none =>
          simp only [childrenOfStmt, Option.toList, List.map_nil, List.mem_cons, List.not_mem_nil,
            or_false] at h
          rcases h with rfl | rfl <;> simp [weight] <;> omega
      | some alt =>
          simp only [childrenOfStmt, Option.toList, List.map_cons, List.map_nil, List.mem_cons,
            List.not_mem_nil, or_false] at h
          rcases h with rfl | rfl | rfl <;> simp [weight] <;> omega
  | forLoop init test update body =>
      simp only [childrenOfStmt, List.mem_append, List.mem_singleton] at h
      rcases h with ((h | h) | h) | rfl
      · cases init with
        | absent => simp at h
        | vars decls =>
            have := weight_lt_of_mem_declarators h
            simp <;> omega
        | expr e =>
            obtain rfl : c = .expr e := by simpa using h
            simp [weight] <;> omega
      · have := weight_lt_of_mem_ofExpr? h
        simp <;> omega
      · have := weight_lt_of_mem_ofExpr? h
        simp <;> omega
      · simp [weight] <;> omega
  | forIn left right body =>
      cases left with
      | var name =>
          simp only [childrenOfStmt, List.mem_cons, List.not_mem_nil, or_false] at h
          rcases h with rfl | rfl <;> simp [weight] <;> omega
      | expr e =>
          simp only [childrenOfStmt, List.mem_cons, List.not_mem_nil, or_false] at h
          rcases h with rfl | rfl | rfl <;> simp [weight] <;> omega
  | whileLoop test body =>
      simp only [childrenOfStmt, List.mem_cons, List.not_mem_nil, or_false] at h
      rcases h with rfl | rfl <;> simp [weight] <;> omega
  | doLoop body test =>
      simp only [childrenOfStmt, List.mem_cons, List.not_mem_nil, or_false] at h
      rcases h with rfl | rfl <;> simp [weight] <;> omega
  | ret value =>
      have := weight_lt_of_mem_ofExpr? h
      simp <;> omega
  | brk label => simp [childrenOfStmt] at h
  | cont label => simp [childrenOfStmt] at h
  | throwing value =>
      obtain rfl : c = .expr value := by simpa [childrenOfStmt] using h
      simp [weight]
  | attempt block guard finalizer =>
      simp only [childrenOfStmt, List.mem_append] at h
      rcases h with (h | h) | h
      · have := weight_lt_of_mem_ofStmts h
        simp <;> omega
      · cases guard with
        | none => simp at h
        | some x =>
            obtain rfl : c = .handler x := by simpa using h
            simp [weight] <;> omega
      · cases finalizer with
        | none => simp [ofStmts] at h
        | some body =>
            have := weight_lt_of_mem_ofStmts h
            simp at this ⊢ <;> omega
  | switch discriminant cases =>
      simp only [childrenOfStmt, List.mem_cons, List.mem_map] at h
      rcases h with rfl | ⟨x, hx, rfl⟩
      · simp [weight] <;> omega
      · have := List.sizeOf_lt_of_mem hx
        simp [weight] <;> omega
  | withScope object body =>
      simp only [childrenOfStmt, List.mem_cons, List.not_mem_nil, or_false] at h
      rcases h with rfl | rfl <;> simp [weight] <;> omega
  | labeled label body =>
      obtain rfl : c = .stmt body := by simpa [childrenOfStmt] using h
      simp [weight] <;> omega
  | debugger => simp [childrenOfStmt] at h
  | empty => simp [childrenOfStmt] at h

theorem weight_lt_of_mem_childrenOfExpr {e : Expr} {c : Node} (h : c ∈ childrenOfExpr e) :
    c.weight < sizeOf e := by
  cases e with
  | num v => simp [childrenOfExpr] at h
  | str v => simp [childrenOfExpr] at h
  | bool v => simp [childrenOfExpr] at h
  | null => simp [childrenOfExpr] at h
  | ident name => simp [childrenOfExpr] at h
  | this => simp [childrenOfExpr] at h
  | array elements =>
      have := weight_lt_of_mem_ofExprs h
      simp <;> omega
  | object props =>
      simp only [childrenOfExpr, List.mem_map] at h
      obtain ⟨x, hx, rfl⟩ := h
      have := List.sizeOf_lt_of_mem hx
      simp [weight] <;> omega
  | function f =>
      have := weight_lt_of_mem_ofStmts h
      cases f; simp at this ⊢ <;> omega
  | unary op arg =>
      obtain rfl : c = .expr arg := by simpa [childrenOfExpr] using h
      simp [weight] <;> omega
  | update op before arg =>
      obtain rfl : c = .expr arg := by simpa [childrenOfExpr] using h
      simp [weight]
  | binary op left right =>
      simp only [childrenOfExpr, List.mem_cons, List.not_mem_nil, or_false] at h
      rcases h with rfl | rfl <;> simp [weight] <;> omega
  | logical op left right =>
      simp only [childrenOfExpr, List.mem_cons, List.not_mem_nil, or_false] at h
      rcases h with rfl | rfl <;> simp [weight] <;> omega
  | assign op target value =>
      simp only [childrenOfExpr, List.mem_cons, List.not_mem_nil, or_false] at h
      rcases h with rfl | rfl <;> simp [weight] <;> omega
  | conditional test cons alt =>
      simp only [childrenOfExpr, List.mem_cons, List.not_mem_nil, or_false] at h
      rcases h with rfl | rfl | rfl <;> simp [weight] <;> omega
  | call callee args =>
      rcases List.mem_cons.1 h with rfl | h
      · simp [weight] <;> omega
      · have := weight_lt_of_mem_ofExprs h
        simp <;> omega
  | construct callee args =>
      rcases List.mem_cons.1 h with rfl | h
      · simp [weight] <;> omega
      · have := weight_lt_of_mem_ofExprs h
        simp <;> omega
  | member object property =>
      obtain rfl : c = .expr object := by simpa [childrenOfExpr] using h
      simp [weight] <;> omega
  | index object key =>
      simp only [childrenOfExpr, List.mem_cons, List.not_mem_nil, or_false] at h
      rcases h with rfl | rfl <;> simp [weight] <;> omega
  | sequence exprs =>
      have := weight_lt_of_mem_ofExprs h
      simp <;> omega

/-- A child weighs less than its parent, so walks over the children end. -/
theorem weight_lt_of_mem_children {n c : Node} (h : c ∈ n.children) : c.weight < n.weight := by
  cases n with
  | func f =>
      have := weight_lt_of_mem_ofStmts h
      cases f; simp [weight] at this ⊢ <;> omega
  | stmt s => exact weight_lt_of_mem_childrenOfStmt h
  | expr e => exact weight_lt_of_mem_childrenOfExpr h
  | declarator d =>
      have := weight_lt_of_mem_ofExpr? h
      cases d; simp [weight] at this ⊢ <;> omega
  | property p =>
      obtain rfl : c = .expr p.value := by simpa [children] using h
      cases p; simp [weight] <;> omega
  | case x =>
      cases x with
      | mk test body =>
          rcases List.mem_append.1 h with h | h
          · have := weight_lt_of_mem_ofExpr? h
            simp [weight] at this ⊢ <;> omega
          · have := weight_lt_of_mem_ofStmts h
            simp [weight] at this ⊢ <;> omega
  | handler x =>
      have := weight_lt_of_mem_ofStmts h
      cases x; simp [weight] at this ⊢ <;> omega

/-- The node and everything below it, in pre-order. -/
def preorder (n : Node) : List Node :=
  n :: n.children.attach.flatMap (fun ⟨c, _⟩ => c.preorder)
termination_by n.weight
decreasing_by exact weight_lt_of_mem_children ‹_›

/-- The subtree sizes of the node and of everything below it, in pre-order. -/
def sizes (n : Node) : List Nat :=
  let below := n.children.attach.flatMap (fun ⟨c, _⟩ => c.sizes)
  (below.length + 1) :: below
termination_by n.weight
decreasing_by exact weight_lt_of_mem_children ‹_›

/-- The number of nodes of the subtree, the node included. -/
def size (n : Node) : Nat := n.sizes.length

theorem sizes_eq (n : Node) :
    n.sizes = ((n.children.flatMap sizes).length + 1) :: n.children.flatMap sizes := by
  rw [sizes]
  have : n.children.attach.flatMap (fun c => c.1.sizes) = n.children.flatMap sizes := by
    rw [List.flatMap_subtype (g := sizes) (fun _ _ => rfl), List.unattach_attach]
  simp only [this]

theorem size_pos (n : Node) : 0 < n.size := by
  rw [size, sizes_eq]
  simp

end Node

end Resumption.Script
