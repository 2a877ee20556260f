import Resumption.Script.Node
import Resumption.Proofs.Reading.Numeral

/-!
# Well-formed trees

What every tree that was read from a text has in common, said of each of its nodes alone: names are
names, targets can be assigned to, a comma has something on both sides, an `if` with an `else` does
not hold an open `if` before it.  `Printable` adds what printing needs beyond that.
-/

namespace Resumption.Script

open Lexeme

/-- The name and the parameters of the function are names. -/
def Func.Named (f : Func) : Prop := (∀ n ∈ f.name, IsName n) ∧ ∀ p ∈ f.params, IsName p

/-- The operators that an assignment may apply on the way. -/
def BinaryOp.compound : List BinaryOp :=
  [.uShr, .shr, .shl, .add, .sub, .mul, .div, .mod, .bitAnd, .bitOr, .bitXor]

def Expr.Formed : Expr → Prop
  | .num v => Number.Plain v
  | .ident name => IsName name
  | .member _ property => IsWord property
  | .update _ _ arg => arg.isReference = true
  | .assign op target _ => target.isReference = true ∧ ∀ o ∈ op, o ∈ BinaryOp.compound
  | .sequence exprs => 2 ≤ exprs.length
  | .function f => f.Named
  | _ => True

def Stmt.Formed : Stmt → Prop
  | .var decls => decls ≠ []
  | .function f => f.name.isSome = true ∧ f.Named
  | .branch _ cons alt => alt.isSome = true → cons.endsInOpenIf = false
  | .forLoop (.vars decls) _ _ _ => decls ≠ []
  | .forIn (.var name) _ _ => IsName name
  | .brk label | .cont label => ∀ n ∈ label, IsName n
  | .attempt _ handler finalizer => handler.isSome = true ∨ finalizer.isSome = true
  | .labeled label _ => IsName label
  | _ => True

def Property.Formed (p : Property) : Prop :=
  match p.kind with
  | .init => True
  | .getter => ∃ body, p.value = .function ⟨none, [], body⟩
  | .setter => ∃ param body, p.value = .function ⟨none, [param], body⟩

/-- The node is such as reading makes it, whatever its children are. -/
def Node.Formed : Node → Prop
  | .func _ | .case _ => True
  | .stmt s => s.Formed
  | .expr e => e.Formed
  | .declarator d => IsName d.name
  | .property p => p.Formed
  | .handler h => IsName h.param

/-- What is left of a chain of property accesses without its steps. -/
def Expr.chainRoot : Expr → Expr
  | .member base _ => base.chainRoot
  | .index base _ => base.chainRoot
  | e => e

/-- A chain of at least one property access that starts from a call. -/
def Expr.isChainOverCall (e : Expr) : Bool := e.isProperty && e.chainRoot.isCall

/-- The node holds everywhere what the test asks for. -/
def Node.Every (P : Node → Prop) (n : Node) : Prop := ∀ c ∈ n.preorder, P c

theorem Node.every_iff {P : Node → Prop} {n : Node} :
    n.Every P ↔ P n ∧ ∀ c ∈ n.children, c.Every P := by
  rw [Node.Every, Node.preorder]
  simp only [List.mem_cons, List.mem_flatMap, List.mem_attach, true_and, Subtype.exists,
    forall_eq_or_imp]
  constructor
  · rintro ⟨hn, hall⟩
    exact ⟨hn, fun c hc d hd => hall d ⟨c, hc, hd⟩⟩
  · rintro ⟨hn, hall⟩
    exact ⟨hn, fun d ⟨c, hc, hd⟩ => hall c hc d hd⟩

theorem Node.Every.imp {P Q : Node → Prop} {n : Node} (h : n.Every P) (hPQ : ∀ c, P c → Q c) :
    n.Every Q := fun c hc => hPQ c (h c hc)

/-- The number literals of a program, in the order of the text. -/
def Program.literals (p : Program) : List Float :=
  (Node.func p.toFunc).preorder.filterMap fun
    | .expr (.num v) => some v
    | _ => none

/-- The callees of every `new`. -/
def Program.constructors (p : Program) : List Expr :=
  (Node.func p.toFunc).preorder.filterMap fun
    | .expr (.construct callee _) => some callee
    | _ => none

/-- Well-formed, and with literals and callees that printing does justice to. -/
def Node.Printable (n : Node) : Prop :=
  n.Formed ∧ (∀ v, n = .expr (.num v) → v.isFinite = true ∧ Number.ReadsBack v) ∧
    ∀ callee args, n = .expr (.construct callee args) → callee.isChainOverCall = false

/-- Every node of the tree is printable. -/
abbrev Node.AllPrintable (n : Node) : Prop := n.Every Node.Printable

namespace Node.AllPrintable

variable {n c : Node}

theorem formed (h : n.AllPrintable) : n.Formed := (Node.every_iff.1 h).1.1

theorem child (h : n.AllPrintable) (hc : c ∈ n.children) : c.AllPrintable :=
  (Node.every_iff.1 h).2 c hc

theorem literal {v : Float} (h : (Node.expr (.num v)).AllPrintable) :
    IsNumeral (Number.text v).toList ∧ Number.ReadsBack v := by
  obtain ⟨hformed, hnum, -⟩ := (Node.every_iff.1 h).1
  obtain ⟨hfinite, hreads⟩ := hnum v rfl
  exact ⟨Number.isNumeral_text hfinite hformed.2, hreads⟩

theorem constructor {callee : Expr} {args : List Expr}
    (h : (Node.expr (.construct callee args)).AllPrintable) : callee.isChainOverCall = false :=
  (Node.every_iff.1 h).1.2.2 callee args rfl

end Node.AllPrintable

/-! ## How tightly printed expressions hold together -/

namespace Expr

theorem print_eq_fit (e : Expr) {l : Nat} (hl : l ≤ 18) :
    e.print l = if e.level < l then "(" ++ e.print 0 ++ ")" else e.print 0 := by
  cases e with
  | update op before arg => cases before <;> rfl
  | object props => cases props <;> exact (if_neg (Nat.not_lt.2 hl)).symm
  | function f => rfl
  | unary op arg => rfl
  | binary op left right => rfl
  | logical op left right => rfl
  | assign op target value => rfl
  | conditional test cons alt => rfl
  | sequence exprs => rfl
  | _ => exact (if_neg (Nat.not_lt.2 hl)).symm

/-- An expression that binds tightly enough stands without parentheses. -/
theorem print_of_le_level {e : Expr} {l : Nat} (h : l ≤ e.level) (hl : l ≤ 18) :
    e.print l = e.print 0 := by
  rw [print_eq_fit e hl, if_neg (by omega)]

theorem print_of_level_lt {e : Expr} {l : Nat} (h : e.level < l) (hl : l ≤ 18) :
    (e.print l).toList = '(' :: ((e.print 0).toList ++ [')']) := by
  rw [print_eq_fit e hl, if_pos h]
  simp

end Expr

end Resumption.Script
