import Resumption.Proofs.Code.Pieces
import Resumption.Proofs.Index.Numbering

/-!
# What lowering yields

Where nothing has to do with a label, lowering comes to code or meets a target that cannot be written to.
In the code, closures are made of functions that keep books: a function whose name asks to be left alone
stays as it is.
-/

namespace Resumption

open Script

/-- What the node itself writes to is a variable or a property. -/
def Script.Node.HitsReference : Node → Prop
  | .expr (.update _ _ target) | .expr (.assign _ target _) | .stmt (.forIn (.expr target) _ _) =>
    target.isReference = true
  | _ => True

/-- Nothing at the node and below it has to do with a label; and unless it is taken for granted that some
target cannot be written to, all of them can. -/
def Script.Node.Passes (strays : Prop) (n : Node) : Prop :=
  ∀ m ∈ n.preorder, Code.unsupported? m = none ∧ (m.HitsReference ∨ strays)

section

variable {strays : Prop} {n : Node}

theorem Script.Node.Passes.self (h : n.Passes strays) :
    Code.unsupported? n = none ∧ (n.HitsReference ∨ strays) :=
  h n (by rw [Node.preorder_eq]; exact List.mem_cons_self)

theorem Script.Node.Passes.children (h : n.Passes strays) : ∀ c ∈ n.children, c.Passes strays := by
  intro c hc m hm
  refine h m ?_
  rw [Node.preorder_eq]
  exact List.mem_cons_of_mem n (List.mem_flatMap.2 ⟨c, hc, hm⟩)

end

theorem Script.Expr.isReference_of_isProperty {e : Expr} (h : e.isProperty = true) : e.isReference = true := by
  cases e <;> first | rfl | cases h

/-- What is said of a function by its name. -/
theorem Script.Func.isEscaped_eq (f : Func) : f.isEscaped = f.name.any Script.isEscaped := by
  obtain ⟨name, params, body⟩ := f
  cases name <;> rfl

namespace Code

/-! ## Functions that are left alone -/

/-- The function of which the piece makes a closure. -/
def Piece.closure? : Piece → Option Func
  | .expr (.closure f) => some f
  | _ => none

theorem Piece.closure?_eq_some {p : Piece} {f : Func} : p.closure? = some f ↔ p = .expr (.closure f) := by
  constructor
  · intro h
    unfold closure? at h
    split at h <;> cases h
    rfl
  · rintro rfl
    rfl

/-- No closure is made in the piece, however deep, of a function whose name asks to be left alone. -/
def Piece.Unescaped (p : Piece) : Prop :=
  ∀ f, (Piece.expr (.closure f)).Within p → f.name.any Script.isEscaped = false

namespace Piece

variable {p a b : Piece}

theorem Unescaped.closure {f : Func} (hname : f.name.any Script.isEscaped = false)
    (h : (Piece.func f).Unescaped) : (Piece.expr (.closure f)).Unescaped := by
  intro g hg
  rcases Relation.ReflTransGen.cases_head hg with heq | ⟨q, hq, hg⟩
  · cases heq
    exact hname
  · rw [List.mem_singleton.1 hq] at hg
    exact h g hg

theorem Unescaped.of_parts (hp : p.closure? = none) (h : ∀ q ∈ p.parts, q.Unescaped) : p.Unescaped := by
  intro f hf
  rcases Relation.ReflTransGen.cases_head hf with rfl | ⟨q, hq, hf⟩
  · cases hp
  · exact h q hq f hf

theorem Unescaped.of_none (hp : p.closure? = none) (hparts : p.parts = []) : p.Unescaped :=
  .of_parts hp (hparts ▸ List.forall_mem_nil _)

theorem Unescaped.of_one (hp : p.closure? = none) (hparts : p.parts = [a]) (ha : a.Unescaped) :
    p.Unescaped :=
  .of_parts hp (hparts ▸ List.forall_mem_singleton.2 ha)

theorem Unescaped.of_two (hp : p.closure? = none) (hparts : p.parts = [a, b]) (ha : a.Unescaped)
    (hb : b.Unescaped) : p.Unescaped :=
  .of_parts hp (hparts ▸ List.forall_mem_cons.2 ⟨ha, List.forall_mem_singleton.2 hb⟩)

end Piece

/-! ## Outcomes -/

section

variable {strays : Prop} {α β γ : Type} {P : α → Prop} {Q : β → Prop} {R : γ → Prop} {x : Lowered α} {y : Lowered β}

/-- Lowering came to something with the property, or met a target that cannot be written to. -/
inductive Yields (strays : Prop) (P : α → Prop) : Lowered α → Prop
  | ok {a : α} (h : P a) : Yields strays P (.ok a)
  | invalidTarget (h : strays) (i : Nat) : Yields strays P (.error (.invalidTarget i))

theorem Yields.of_eq_ok {a : α} (h : Yields strays P x) (hx : x = .ok a) : P a := by
  cases h with
  | ok h =>
      cases hx
      exact h
  | invalidTarget => cases hx

theorem Yields.ne_unsupported (h : Yields strays P x) (construct : String) (i : Nat) :
    x ≠ .error (.unsupported construct i) := by
  cases h <;> exact nofun

theorem Yields.bind {f : α → Lowered β} (h : Yields strays P x) (hf : ∀ a, P a → Yields strays Q (f a)) :
    Yields strays Q (x >>= f) := by
  cases h with
  | ok h => exact hf _ h
  | invalidTarget h i => exact .invalidTarget h i

/-- One part is lowered and taken in. -/
theorem Yields.map {f : α → β} (h : Yields strays P x) (hf : ∀ a, P a → Q (f a)) :
    Yields strays Q (x >>= fun a => .ok (f a)) :=
  h.bind fun a ha => .ok (hf a ha)

/-- Two parts are lowered in order and taken in. -/
theorem Yields.both {f : α → β → γ} (h : Yields strays P x) (h' : Yields strays Q y)
    (hf : ∀ a b, P a → Q b → R (f a b)) :
    Yields strays R (x >>= fun a => y >>= fun b => .ok (f a b)) :=
  h.bind fun a ha => h'.map fun b hb => hf a b ha hb

/-- The same for statements and for the functions declared in them. -/
structure LoweredBody.Yields (strays : Prop) (P : α → Prop) (x : LoweredBody α) : Prop where
  found : ∀ d ∈ x.found, Code.Yields strays (fun e => (Piece.expr e).Unescaped) d.value
  code : Code.Yields strays P x.code

namespace LoweredBody

theorem Yields.plain (h : Code.Yields strays P x) : (plain x).Yields strays P where
  found _ hd := nomatch hd
  code := h

theorem Yields.map {x : LoweredBody α} {f : α → β} (h : x.Yields strays P) (hf : ∀ a, P a → Q (f a)) :
    (x.map f).Yields strays Q := by
  refine ⟨h.found, ?_⟩
  obtain ⟨found, code⟩ := x
  exact Code.Yields.map (f := f) h.code hf

theorem Yields.both {x : LoweredBody α} {y : LoweredBody β} {f : α → β → γ} (h : x.Yields strays P)
    (h' : y.Yields strays Q) (hf : ∀ a b, P a → Q b → R (f a b)) : (LoweredBody.both f x y).Yields strays R :=
  ⟨List.forall_mem_append.2 ⟨h.found, h'.found⟩, Code.Yields.both h.code h'.code hf⟩

theorem Yields.behind {y : LoweredBody β} {f : α → β → γ} (h : Code.Yields strays P x) (h' : y.Yields strays Q)
    (hf : ∀ a b, P a → Q b → R (f a b)) : (LoweredBody.behind f x y).Yields strays R :=
  (Yields.plain h).both h' hf

/-- A loop's head is followed by its body. -/
theorem Yields.loop {x : Lowered (Stmt → Stmt)} {y : LoweredBody Stmt}
    (h : Code.Yields strays
      (fun head => ∀ body, (Piece.stmt body).Unescaped → (Piece.stmt (head body)).Unescaped) x)
    (h' : y.Yields strays (fun body => (Piece.stmt body).Unescaped)) :
    (LoweredBody.behind id x y).Yields strays (fun s => (Piece.stmt s).Unescaped) :=
  .behind h h' fun _ body hhead hbody => hhead body hbody

end LoweredBody

theorem hoist_yields (functions : List (String × Nat)) {found : List Found}
    (h : ∀ d ∈ found, Yields strays (fun e => (Piece.expr e).Unescaped) d.value) :
    Yields strays (fun hoisted => ∀ q ∈ hoisted.map (fun x => Piece.expr x.value), q.Unescaped)
      (hoist functions found) := by
  induction functions with
  | nil => exact .ok (fun _ hq => nomatch hq)
  | cons x functions ih =>
      rw [hoist_cons]
      cases hfind : found.find? (fun d => d.index == x.2) with
      | none => exact ih
      | some d =>
          exact (h d (List.mem_of_find?_eq_some hfind)).both ih
            fun _ _ hvalue hrest => List.forall_mem_cons.2 ⟨hvalue, hrest⟩

end

section

variable (t : IndexedTree)

/-- A function that is left as it is, or a closure of it. -/
theorem closure_yields {f : Script.Func} {x : Lowered Func} (i : Nat)
    (h : Yields strays (fun g => g.name = f.name ∧ (Piece.func g).Unescaped) x) :
    Yields strays (fun e => (Piece.expr e).Unescaped)
      (if f.isEscaped then .ok (Expr.plain t.ns i) else x >>= fun g => .ok (Expr.closure g)) := by
  split
  · exact .ok (.of_none rfl rfl)
  · rename_i hescaped
    refine h.map fun g hg => .closure ?_ hg.2
    rw [hg.1, ← f.isEscaped_eq]
    simpa using hescaped

theorem read_unescaped (scopes : Scopes) (name : String) : (Piece.expr (scopes.read name)).Unescaped := by
  rw [Scopes.read]
  split <;> exact .of_none rfl rfl

mutual

theorem lowerExpr_yields (scopes : Scopes) (i : Nat) :
    ∀ e : Script.Expr, (Node.expr e).Passes strays →
      Yields strays (fun x => (Piece.expr x).Unescaped) (lowerExpr t scopes i e)
  | .num _, _ | .str _, _ | .bool _, _ | .null, _ | .this, _ =>
      .ok (.of_none rfl rfl)
  | .ident name, _ => .ok (read_unescaped scopes name)
  | .array elements, h =>
      (lowerExprs_yields scopes (i + 1) elements h.children).map fun _ hparts => .of_parts rfl hparts
  | .object props, h =>
      (lowerProps_yields scopes (i + 1) props h.children).map fun _ hparts => .of_parts rfl hparts
  | .function f, h => closure_yields t i (lowerFunc_yields scopes i f.name f h.children)
  | .unary op arg, h => by
      obtain ⟨harg, -⟩ := List.forall_mem_cons.1 h.children
      rw [lowerExpr]
      split
      · rename_i hdelete
        have hreference := Script.Expr.isReference_of_isProperty (Bool.and_eq_true_iff.1 hdelete).2
        exact (lowerTarget_yields scopes (i + 1) arg harg (.inl hreference)).map fun _ hx => .of_one rfl rfl hx
      · exact (lowerExpr_yields scopes (i + 1) arg harg).map fun _ hx => .of_one rfl rfl hx
  | .update op before arg, h =>
      (lowerTarget_yields scopes (i + 1) arg (List.forall_mem_cons.1 h.children).1 h.self.2).map
        fun _ hx => .of_one rfl rfl hx
  | .binary op left right, h | .logical op left right, h => by
      obtain ⟨hleft, hright⟩ := List.forall_mem_cons.1 h.children
      exact (lowerExpr_yields scopes (i + 1) left hleft).both
        (lowerExpr_yields scopes (t.after (i + 1)) right (List.forall_mem_cons.1 hright).1)
        fun _ _ hx hy => .of_two rfl rfl hx hy
  | .assign op target value, h => by
      obtain ⟨htarget, hvalue⟩ := List.forall_mem_cons.1 h.children
      exact (lowerTarget_yields scopes (i + 1) target htarget h.self.2).both
        (lowerExpr_yields scopes (t.after (i + 1)) value (List.forall_mem_cons.1 hvalue).1)
        fun _ _ hx hy => .of_two rfl rfl hx hy
  | .conditional test cons alt, h => by
      obtain ⟨htest, hrest⟩ := List.forall_mem_cons.1 h.children
      obtain ⟨hcons, halt⟩ := List.forall_mem_cons.1 hrest
      exact (lowerExpr_yields scopes (i + 1) test htest).bind fun _ hx =>
        (lowerExpr_yields scopes _ cons hcons).both
          (lowerExpr_yields scopes _ alt (List.forall_mem_cons.1 halt).1)
          fun _ _ hy hz => .of_parts rfl
            (List.forall_mem_cons.2 ⟨hx, List.forall_mem_cons.2 ⟨hy, List.forall_mem_singleton.2 hz⟩⟩)
  | .call callee args, h | .construct callee args, h => by
      obtain ⟨hcallee, hargs⟩ := List.forall_mem_cons.1 h.children
      exact (lowerExpr_yields scopes (i + 1) callee hcallee).both
        (lowerExprs_yields scopes (t.after (i + 1)) args hargs)
        fun _ _ hx hparts => .of_parts rfl (List.forall_mem_cons.2 ⟨hx, hparts⟩)
  | .member object property, h =>
      (lowerExpr_yields scopes (i + 1) object (List.forall_mem_cons.1 h.children).1).map
        fun _ hx => .of_one rfl rfl hx
  | .index object key, h => by
      obtain ⟨hobject, hkey⟩ := List.forall_mem_cons.1 h.children
      exact (lowerExpr_yields scopes (i + 1) object hobject).both
        (lowerExpr_yields scopes (t.after (i + 1)) key (List.forall_mem_cons.1 hkey).1)
        fun _ _ hx hy => .of_two rfl rfl hx hy
  | .sequence exprs, h =>
      (lowerExprs_yields scopes (i + 1) exprs h.children).map fun _ hparts => .of_parts rfl hparts
termination_by structural e => e

theorem lowerTarget_yields (scopes : Scopes) (i : Nat) :
    ∀ e : Script.Expr, (Node.expr e).Passes strays → e.isReference = true ∨ strays →
      Yields strays (fun x => (Piece.target x).Unescaped) (lowerTarget t scopes i e)
  | .ident _, _, _ => .ok (.of_none rfl rfl)
  | .member object property, h, _ =>
      (lowerExpr_yields scopes (i + 1) object (List.forall_mem_cons.1 h.children).1).map
        fun _ hx => .of_one rfl rfl hx
  | .index object key, h, _ => by
      obtain ⟨hobject, hkey⟩ := List.forall_mem_cons.1 h.children
      exact (lowerExpr_yields scopes (i + 1) object hobject).both
        (lowerExpr_yields scopes (t.after (i + 1)) key (List.forall_mem_cons.1 hkey).1)
        fun _ _ hx hy => .of_two rfl rfl hx hy
  | .num _, _, h | .str _, _, h | .bool _, _, h | .null, _, h | .this, _, h | .array _, _, h
  | .object _, _, h | .function _, _, h | .unary _ _, _, h | .update _ _ _, _, h | .binary _ _ _, _, h
  | .logical _ _ _, _, h | .assign _ _ _, _, h | .conditional _ _ _, _, h | .call _ _, _, h
  | .construct _ _, _, h | .sequence _, _, h =>
      .invalidTarget (h.resolve_left Bool.false_ne_true) i
termination_by structural e => e

theorem lowerExprs_yields (scopes : Scopes) (i : Nat) :
    ∀ l : List Script.Expr, (∀ n ∈ Node.ofExprs l, n.Passes strays) →
      Yields strays (fun xs => ∀ q ∈ xs.map Piece.expr, q.Unescaped) (lowerExprs t scopes i l)
  | [], _ => .ok fun _ hq => nomatch hq
  | e :: rest, h => by
      obtain ⟨he, hrest⟩ := List.forall_mem_cons.1 h
      exact (lowerExpr_yields scopes i e he).both (lowerExprs_yields scopes (t.after i) rest hrest)
        fun _ _ hx hxs => List.forall_mem_cons.2 ⟨hx, hxs⟩
termination_by structural l => l

theorem lowerExpr?_yields (scopes : Scopes) (i : Nat) :
    ∀ e : Option Script.Expr, (∀ n ∈ Node.ofExpr? e, n.Passes strays) →
      Yields strays (fun x => ∀ q ∈ x.toList.map Piece.expr, q.Unescaped) (lowerExpr? t scopes i e)
  | none, _ => .ok fun _ hq => nomatch hq
  | some e, h =>
      (lowerExpr_yields scopes i e (List.forall_mem_cons.1 h).1).map
        fun _ hx => List.forall_mem_singleton.2 hx
termination_by structural e => e

theorem lowerProp_yields (scopes : Scopes) (i : Nat) :
    ∀ p : Script.Property, (Node.property p).Passes strays →
      Yields strays (fun x => (Piece.property x).Unescaped) (lowerProp t scopes i p)
  | ⟨_, _, value⟩, h =>
      (lowerExpr_yields scopes (i + 1) value (List.forall_mem_cons.1 h.children).1).map
        fun _ hx => .of_one rfl rfl hx
termination_by structural p => p

theorem lowerProps_yields (scopes : Scopes) (i : Nat) :
    ∀ l : List Script.Property, (∀ n ∈ l.map Node.property, n.Passes strays) →
      Yields strays (fun xs => ∀ q ∈ xs.map Piece.property, q.Unescaped) (lowerProps t scopes i l)
  | [], _ => .ok fun _ hq => nomatch hq
  | p :: rest, h => by
      obtain ⟨hp, hrest⟩ := List.forall_mem_cons.1 h
      exact (lowerProp_yields scopes i p hp).both (lowerProps_yields scopes (t.after i) rest hrest)
        fun _ _ hx hxs => List.forall_mem_cons.2 ⟨hx, hxs⟩
termination_by structural l => l

theorem lowerDecl_yields (scopes : Scopes) (i : Nat) :
    ∀ d : Script.Declarator, (Node.declarator d).Passes strays →
      Yields strays (fun x => (Piece.declarator x).Unescaped) (lowerDecl t scopes i d)
  | ⟨_, init⟩, h =>
      (lowerExpr?_yields scopes (i + 1) init h.children).map fun _ hparts => .of_parts rfl hparts
termination_by structural d => d

theorem lowerDecls_yields (scopes : Scopes) (i : Nat) :
    ∀ l : List Script.Declarator, (∀ n ∈ l.map Node.declarator, n.Passes strays) →
      Yields strays (fun xs => ∀ q ∈ xs.map Piece.declarator, q.Unescaped) (lowerDecls t scopes i l)
  | [], _ => .ok fun _ hq => nomatch hq
  | d :: rest, h => by
      obtain ⟨hd, hrest⟩ := List.forall_mem_cons.1 h
      exact (lowerDecl_yields scopes i d hd).both (lowerDecls_yields scopes (t.after i) rest hrest)
        fun _ _ hx hxs => List.forall_mem_cons.2 ⟨hx, hxs⟩
termination_by structural l => l

theorem lowerInit_yields (scopes : Scopes) (i : Nat) :
    ∀ init : Script.ForInit, (∀ n ∈ init.nodes, n.Passes strays) →
      Yields strays (fun x => ∀ q ∈ x.parts, q.Unescaped) (lowerInit t scopes i init)
  | .absent, _ => .ok fun _ hq => nomatch hq
  | .vars decls, h => (lowerDecls_yields scopes i decls h).map fun _ hparts => hparts
  | .expr e, h =>
      (lowerExpr_yields scopes i e (List.forall_mem_cons.1 h).1).map
        fun _ hx => List.forall_mem_singleton.2 hx
termination_by structural init => init

theorem lowerStmt_yields (home scopes : Scopes) (i : Nat) :
    ∀ s : Script.Stmt, (Node.stmt s).Passes strays →
      (lowerStmt t home scopes i s).Yields strays (fun x => (Piece.stmt x).Unescaped)
  | .var decls, h =>
      .plain ((lowerDecls_yields scopes (i + 1) decls h.children).map fun _ hparts => .of_parts rfl hparts)
  | .function f, h => {
      found := List.forall_mem_singleton.2 (closure_yields t i (lowerFunc_yields home i none f h.children))
      code := .ok (.of_none rfl rfl) }
  | .empty, _ | .brk none, _ | .cont none, _ | .debugger, _ =>
      .plain (.ok (.of_none rfl rfl))
  | .brk (some _), h | .cont (some _), h | .labeled _ _, h => nomatch h.self.1
  | .expr e, h | .throwing e, h =>
      .plain ((lowerExpr_yields scopes (i + 1) e (List.forall_mem_cons.1 h.children).1).map
        fun _ hx => .of_one rfl rfl hx)
  | .block body, h =>
      (lowerStmts_yields home scopes (i + 1) body h.children).map fun _ hparts => .of_parts rfl hparts
  | .branch test cons alt, h => by
      obtain ⟨htest, hrest⟩ := List.forall_mem_cons.1 h.children
      obtain ⟨hcons, halt⟩ := List.forall_mem_cons.1 hrest
      exact .behind (lowerExpr_yields scopes (i + 1) test htest)
        ((lowerStmt_yields home scopes _ cons hcons).both (lowerStmt?_yields home scopes _ alt halt)
          fun _ _ hx hparts => List.forall_mem_cons.2 ⟨hx, hparts⟩)
        fun _ _ hx hparts => .of_parts rfl (List.forall_mem_cons.2 ⟨hx, hparts⟩)
  | .forLoop init test update body, h => by
      have hparts := h.children
      rw [Node.children_forLoop] at hparts
      obtain ⟨hinit, hparts⟩ := List.forall_mem_append.1 hparts
      obtain ⟨htest, hparts⟩ := List.forall_mem_append.1 hparts
      obtain ⟨hupdate, hbody⟩ := List.forall_mem_append.1 hparts
      exact .loop ((lowerInit_yields scopes _ init hinit).bind fun _ hx =>
          (lowerExpr?_yields scopes _ test htest).both (lowerExpr?_yields scopes _ update hupdate)
            fun _ _ hy hz _ hbody => .of_parts rfl (List.forall_mem_append.2 ⟨hx, List.forall_mem_append.2
              ⟨hy, List.forall_mem_append.2 ⟨hz, List.forall_mem_singleton.2 hbody⟩⟩⟩))
        (lowerStmt_yields home scopes _ body (List.forall_mem_singleton.1 hbody))
  | .forIn (.var _) right body, h => by
      obtain ⟨hright, hbody⟩ := List.forall_mem_cons.1 h.children
      exact .loop ((lowerExpr_yields scopes _ right hright).map fun _ hx _ hbody => .of_parts rfl
          (List.forall_mem_cons.2 ⟨.of_none rfl rfl,
            List.forall_mem_cons.2 ⟨hx, List.forall_mem_singleton.2 hbody⟩⟩))
        (lowerStmt_yields home scopes _ body (List.forall_mem_singleton.1 hbody))
  | .forIn (.expr left) right body, h => by
      obtain ⟨hleft, hrest⟩ := List.forall_mem_cons.1 h.children
      obtain ⟨hright, hbody⟩ := List.forall_mem_cons.1 hrest
      exact .loop ((lowerTarget_yields scopes (i + 1) left hleft h.self.2).both
          (lowerExpr_yields scopes _ right hright) fun _ _ hx hy _ hbody => .of_parts rfl
            (List.forall_mem_cons.2 ⟨hx,
              List.forall_mem_cons.2 ⟨hy, List.forall_mem_singleton.2 hbody⟩⟩))
        (lowerStmt_yields home scopes _ body (List.forall_mem_singleton.1 hbody))
  | .whileLoop test body, h => by
      obtain ⟨htest, hbody⟩ := List.forall_mem_cons.1 h.children
      exact .behind (lowerExpr_yields scopes (i + 1) test htest)
        (lowerStmt_yields home scopes _ body (List.forall_mem_singleton.1 hbody))
        fun _ _ hx hy => .of_two rfl rfl hx hy
  | .withScope object body, h => by
      obtain ⟨hobject, hbody⟩ := List.forall_mem_cons.1 h.children
      exact .behind (lowerExpr_yields scopes (i + 1) object hobject)
        (lowerStmt_yields home _ _ body (List.forall_mem_singleton.1 hbody))
        fun _ _ hx hy => .of_two rfl rfl hx hy
  | .doLoop body test, h => by
      obtain ⟨hbody, htest⟩ := List.forall_mem_cons.1 h.children
      exact .both (lowerStmt_yields home scopes (i + 1) body hbody)
        (.plain (lowerExpr_yields scopes _ test (List.forall_mem_singleton.1 htest)))
        fun _ _ hx hy => .of_two rfl rfl hx hy
  | .ret value, h =>
      .plain ((lowerExpr?_yields scopes (i + 1) value h.children).map fun _ hparts => .of_parts rfl hparts)
  | .attempt block handler finalizer, h => by
      obtain ⟨hparts, hfinally⟩ := List.forall_mem_append.1 h.children
      obtain ⟨hblock, hhandler⟩ := List.forall_mem_append.1 hparts
      have hfront : (LoweredBody.both Prod.mk (lowerStmts t home scopes (i + 1) block)
          (lowerHandler? t home scopes (t.afterMany block.length (i + 1)) handler)).Yields strays
            (fun x => ∀ q ∈ x.1.map Piece.stmt ++ x.2.toList.map Piece.handler, q.Unescaped) :=
        (lowerStmts_yields home scopes (i + 1) block hblock).both
          (lowerHandler?_yields home scopes _ handler hhandler)
          fun _ _ hx hy => List.forall_mem_append.2 ⟨hx, hy⟩
      refine hfront.both (lowerFinally_yields home scopes _ finalizer hfinally) fun _ _ hxy hz => ?_
      refine .of_parts rfl ?_
      rw [Piece.parts, Stmt.parts, ← List.append_assoc]
      exact List.forall_mem_append.2 ⟨hxy, hz⟩
  | .switch discriminant cases, h => by
      obtain ⟨hdiscriminant, hcases⟩ := List.forall_mem_cons.1 h.children
      exact .behind (lowerExpr_yields scopes (i + 1) discriminant hdiscriminant)
        (lowerCases_yields home scopes _ cases hcases)
        fun _ _ hx hparts => .of_parts rfl (List.forall_mem_cons.2 ⟨hx, hparts⟩)
termination_by structural s => s

theorem lowerStmt?_yields (home scopes : Scopes) (i : Nat) :
    ∀ s : Option Script.Stmt, (∀ n ∈ s.toList.map Node.stmt, n.Passes strays) →
      (lowerStmt? t home scopes i s).Yields strays (fun x => ∀ q ∈ x.toList.map Piece.stmt, q.Unescaped)
  | none, _ => .plain (.ok fun _ hq => nomatch hq)
  | some s, h =>
      (lowerStmt_yields home scopes i s (List.forall_mem_cons.1 h).1).map
        fun _ hx => List.forall_mem_singleton.2 hx
termination_by structural s => s

theorem lowerStmts_yields (home scopes : Scopes) (i : Nat) :
    ∀ l : List Script.Stmt, (∀ n ∈ Node.ofStmts l, n.Passes strays) →
      (lowerStmts t home scopes i l).Yields strays (fun xs => ∀ q ∈ xs.map Piece.stmt, q.Unescaped)
  | [], _ => .plain (.ok fun _ hq => nomatch hq)
  | s :: rest, h => by
      obtain ⟨hs, hrest⟩ := List.forall_mem_cons.1 h
      exact .both (lowerStmt_yields home scopes i s hs)
        (lowerStmts_yields home scopes (t.after i) rest hrest)
        fun _ _ hx hxs => List.forall_mem_cons.2 ⟨hx, hxs⟩
termination_by structural l => l

theorem lowerHandler?_yields (home scopes : Scopes) (i : Nat) :
    ∀ x : Option Script.Handler, (∀ n ∈ x.toList.map Node.handler, n.Passes strays) →
      (lowerHandler? t home scopes i x).Yields strays (fun y => ∀ q ∈ y.toList.map Piece.handler, q.Unescaped)
  | none, _ => .plain (.ok fun _ hq => nomatch hq)
  | some x, h =>
      (lowerHandler_yields home scopes i x (List.forall_mem_cons.1 h).1).map
        fun _ hy => List.forall_mem_singleton.2 hy
termination_by structural x => x

theorem lowerHandler_yields (home scopes : Scopes) (i : Nat) :
    ∀ x : Script.Handler, (Node.handler x).Passes strays →
      (lowerHandler t home scopes i x).Yields strays (fun y => (Piece.handler y).Unescaped)
  | ⟨_, body⟩, h =>
      (lowerStmts_yields home _ (i + 1) body h.children).map fun _ hparts => .of_parts rfl hparts
termination_by structural x => x

theorem lowerFinally_yields (home scopes : Scopes) (i : Nat) :
    ∀ x : Option (List Script.Stmt), (∀ n ∈ Node.ofStmts (x.getD []), n.Passes strays) →
      (lowerFinally t home scopes i x).Yields strays (fun y => ∀ q ∈ (y.getD []).map Piece.stmt, q.Unescaped)
  | none, _ => .plain (.ok fun _ hq => nomatch hq)
  | some body, h => (lowerStmts_yields home scopes i body h).map fun _ hparts => hparts
termination_by structural x => x

theorem lowerCases_yields (home scopes : Scopes) (i : Nat) :
    ∀ l : List Script.Case, (∀ n ∈ l.map Node.case, n.Passes strays) →
      (lowerCases t home scopes i l).Yields strays (fun xs => ∀ q ∈ xs.map Piece.case, q.Unescaped)
  | [], _ => .plain (.ok fun _ hq => nomatch hq)
  | c :: rest, h => by
      obtain ⟨hc, hrest⟩ := List.forall_mem_cons.1 h
      exact .both (lowerCase_yields home scopes i c hc)
        (lowerCases_yields home scopes (t.after i) rest hrest)
        fun _ _ hx hxs => List.forall_mem_cons.2 ⟨hx, hxs⟩
termination_by structural l => l

theorem lowerCase_yields (home scopes : Scopes) (i : Nat) :
    ∀ c : Script.Case, (Node.case c).Passes strays →
      (lowerCase t home scopes i c).Yields strays (fun x => (Piece.case x).Unescaped)
  | ⟨test, body⟩, h => by
      obtain ⟨htest, hbody⟩ := List.forall_mem_append.1 h.children
      exact .behind (lowerExpr?_yields scopes (i + 1) test htest)
        (lowerStmts_yields home scopes _ body hbody)
        fun _ _ hx hy => .of_parts rfl (List.forall_mem_append.2 ⟨hx, hy⟩)
termination_by structural c => c

theorem lowerFunc_yields (outer : Scopes) (i : Nat) (self : Option String) :
    ∀ f : Script.Func, (∀ n ∈ Node.ofStmts f.body, n.Passes strays) →
      Yields strays (fun g => g.name = f.name ∧ (Piece.func g).Unescaped) (lowerFunc t outer i self f)
  | ⟨name, params, body⟩, h => by
      have hbody := fun scopes => lowerStmts_yields scopes scopes (i + 1) body h
      exact (hoist_yields _ (hbody _).found).both (hbody _).code
        fun _ _ hx hy => ⟨rfl, .of_parts rfl (List.forall_mem_append.2 ⟨hx, hy⟩)⟩
termination_by structural f => f

end

end

end Code

end Resumption
