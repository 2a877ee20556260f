import Resumption.Proofs.Reading.Formation

/-!
# Well-formed programs

What can be relied on in every program that was read from a text, said of the program as a whole.
The clauses are those of `Node.Formed`, node by node; only the dangling `else` is spelled out once
more, without the test that the printer uses.
-/

namespace Resumption.Script

open Lexeme

/-- All nodes of the program. -/
def Program.nodes (p : Program) : List Node := (Node.func p.toFunc).preorder

/-- The names that the node itself declares or refers to.  A program is a function without any. -/
def Node.names : Node → List String
  | .stmt (.function f) | .expr (.function f) => f.name.toList ++ f.params
  | .expr (.ident name) => [name]
  | .stmt (.forIn (.var name) _ _) => [name]
  | .stmt (.brk label) | .stmt (.cont label) => label.toList
  | .stmt (.labeled label _) => [label]
  | .declarator d => [d.name]
  | .handler h => [h.param]
  | _ => []

/-- The statement ends in an `if` without `else`, without a brace that closes behind it. -/
inductive Stmt.EndsOpen : Stmt → Prop where
  | here (test : Expr) (cons : Stmt) : EndsOpen (.branch test cons none)
  | alt (test : Expr) (cons : Stmt) {alt : Stmt} (h : EndsOpen alt) :
    EndsOpen (.branch test cons (some alt))
  | forLoop (init : ForInit) (test update : Option Expr) {body : Stmt} (h : EndsOpen body) :
    EndsOpen (.forLoop init test update body)
  | forIn (left : ForTarget) (right : Expr) {body : Stmt} (h : EndsOpen body) :
    EndsOpen (.forIn left right body)
  | whileLoop (test : Expr) {body : Stmt} (h : EndsOpen body) : EndsOpen (.whileLoop test body)
  | withScope (object : Expr) {body : Stmt} (h : EndsOpen body) : EndsOpen (.withScope object body)
  | labeled (label : String) {body : Stmt} (h : EndsOpen body) : EndsOpen (.labeled label body)

theorem Stmt.endsInOpenIf_of_endsOpen {s : Stmt} (h : s.EndsOpen) : s.endsInOpenIf = true := by
  induction h with
  | here test cons => rw [endsInOpenIf]
  | alt | forLoop | forIn | whileLoop | withScope | labeled =>
      rename_i ih
      rw [endsInOpenIf, ih]

/-- What every program has in common that was read from a text. -/
structure Program.WellFormed (p : Program) : Prop where
  assign_target (op : Option BinaryOp) (target value : Expr)
    (h : .expr (.assign op target value) ∈ p.nodes) : target.isReference = true
  assign_op (op : BinaryOp) (target value : Expr)
    (h : .expr (.assign (some op) target value) ∈ p.nodes) :
    op ∈ [.add, .sub, .mul, .div, .mod, .bitAnd, .bitOr, .bitXor, .shl, .shr, .uShr]
  update_target (op : UpdateOp) (before : Bool) (target : Expr)
    (h : .expr (.update op before target) ∈ p.nodes) : target.isReference = true
  sequence_length (exprs : List Expr) (h : .expr (.sequence exprs) ∈ p.nodes) : 2 ≤ exprs.length
  var_ne_nil (decls : List Declarator) (h : .stmt (.var decls) ∈ p.nodes) : decls ≠ []
  loop_var_ne_nil (decls : List Declarator) (test update : Option Expr) (body : Stmt)
    (h : .stmt (.forLoop (.vars decls) test update body) ∈ p.nodes) : decls ≠ []
  attempt_covered (block : List Stmt) (handler : Option Handler) (finalizer : Option (List Stmt))
    (h : .stmt (.attempt block handler finalizer) ∈ p.nodes) :
    handler.isSome = true ∨ finalizer.isSome = true
  getter_value (key : String) (value : Expr) (h : .property ⟨key, .getter, value⟩ ∈ p.nodes) :
    ∃ body, value = .function ⟨none, [], body⟩
  setter_value (key : String) (value : Expr) (h : .property ⟨key, .setter, value⟩ ∈ p.nodes) :
    ∃ param body, value = .function ⟨none, [param], body⟩
  function_named (f : Func) (h : .stmt (.function f) ∈ p.nodes) : f.name.isSome = true
  names (n : Node) (h : n ∈ p.nodes) : ∀ name ∈ n.names, IsName name
  num_isNaN (v : Float) (h : .expr (.num v) ∈ p.nodes) : v.isNaN = false
  num_isNegative (v : Float) (h : .expr (.num v) ∈ p.nodes) : Number.isNegative v = false
  else_closed (test : Expr) (cons alt : Stmt)
    (h : .stmt (.branch test cons (some alt)) ∈ p.nodes) : ¬ cons.EndsOpen

theorem Func.Named.names {f : Func} (h : f.Named) : ∀ name ∈ f.name.toList ++ f.params, IsName name := by
  intro name hname
  rcases List.mem_append.1 hname with hname | hname
  · exact h.1 name (Option.mem_toList.1 hname)
  · exact h.2 name hname

theorem Node.Formed.names {n : Node} (h : n.Formed) : ∀ name ∈ n.names, IsName name := by
  have hsingle : ∀ {name : String}, IsName name → ∀ n ∈ [name], IsName n := by
    rintro name hname n hn
    exact List.mem_singleton.1 hn ▸ hname
  intro name hname
  unfold Node.names at hname
  split at hname
  · exact Func.Named.names h.2 name hname
  · exact Func.Named.names h name hname
  · exact hsingle h name hname
  · exact hsingle h name hname
  · exact h name (Option.mem_toList.1 hname)
  · exact h name (Option.mem_toList.1 hname)
  · exact hsingle h name hname
  · exact hsingle h name hname
  · exact hsingle h name hname
  · cases hname

theorem Node.Formed.assign_op {op : BinaryOp} {target value : Expr}
    (h : (Node.expr (.assign (some op) target value)).Formed) :
    op ∈ [.add, .sub, .mul, .div, .mod, .bitAnd, .bitOr, .bitXor, .shl, .shr, .uShr] := by
  have hmem : op ∈ BinaryOp.compound := h.2 op rfl
  revert hmem
  cases op <;> decide

/-- Whatever is read from a text is well-formed. -/
theorem wellFormed_of_parse {source : String} {p : Program} (h : Program.parse source = .ok p) :
    p.WellFormed := by
  have hformed : ∀ n ∈ p.nodes, n.Formed := allFormed_of_parse h
  exact {
    assign_target := fun _ _ _ hn => (hformed _ hn).1
    assign_op := fun _ _ _ hn => (hformed _ hn).assign_op
    update_target := fun _ _ _ hn => hformed _ hn
    sequence_length := fun _ hn => hformed _ hn
    var_ne_nil := fun _ hn => hformed _ hn
    loop_var_ne_nil := fun _ _ _ _ hn => hformed _ hn
    attempt_covered := fun _ _ _ hn => hformed _ hn
    getter_value := fun _ _ hn => hformed _ hn
    setter_value := fun _ _ hn => hformed _ hn
    function_named := fun _ hn => (hformed _ hn).1
    names := fun _ hn => (hformed _ hn).names
    num_isNaN := fun _ hn => (hformed _ hn).1
    num_isNegative := fun _ hn => (hformed _ hn).2
    else_closed := fun _ _ _ hn hends => by
      have hopen := Stmt.endsInOpenIf_of_endsOpen hends
      rw [hformed _ hn rfl] at hopen
      cases hopen }

/-- The tree of `if (a) if (b) x += 1; else f: while (c) break f;`. -/
def nestedBranches : Program :=
  ⟨[.branch (.ident "a")
    (.branch (.ident "b") (.expr (.assign (some .add) (.ident "x") (.num 1)))
      (some (.labeled "f" (.whileLoop (.ident "c") (.brk (some "f")))))) none]⟩

theorem wellFormed_of_parse_nestedBranches :
    Program.parse "if (a) if (b) x += 1; else f: while (c) break f;" = .ok nestedBranches ∧
      nestedBranches.WellFormed := by
  have hparse : Program.parse "if (a) if (b) x += 1; else f: while (c) break f;" =
      .ok nestedBranches := by
    with_unfolding_all rfl
  exact ⟨hparse, wellFormed_of_parse hparse⟩

end Resumption.Script
