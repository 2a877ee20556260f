import Resumption.Proofs.Code.Positions
import Mathlib.Logic.Relation

/-!
# Pieces of instrumented code

Functions, statements, expressions and the small parts between them seen as one kind of thing, so that it
can be said what stands anywhere in a piece of code, the bodies of closures included.  Whatever stands in
the image of a tree is itself the image of a node of that tree, which stands where the image says.
-/

namespace Resumption

open Script

namespace Code

inductive Piece where
  | func (f : Func)
  | stmt (s : Stmt)
  | expr (e : Expr)
  | target (x : Target)
  | property (p : Property)
  | declarator (d : Declarator)
  | handler (h : Handler)
  | case (c : Case)

/-- The expression in a key. -/
def Key.parts : Key → List Piece
  | .name _ => []
  | .computed e => [.expr e]

def Target.parts : Target → List Piece
  | .ref _ => []
  | .member x key => .expr x :: key.parts

def Expr.parts : Expr → List Piece
  | .num _ | .str _ | .bool _ | .null | .ref _ | .this | .arguments | .plain _ _ => []
  | .array elements => elements.map .expr
  | .object props => props.map .property
  | .closure f => [.func f]
  | .unary _ arg => [.expr arg]
  | .delete target => [.target target]
  | .update _ _ _ target => [.target target]
  | .binary _ left right => [.expr left, .expr right]
  | .logical _ left right => [.expr left, .expr right]
  | .assign _ _ target value => [.target target, .expr value]
  | .conditional test cons alt => [.expr test, .expr cons, .expr alt]
  | .call _ callee args => .expr callee :: args.map .expr
  | .construct _ callee args => .expr callee :: args.map .expr
  | .member x key => .expr x :: key.parts
  | .sequence exprs => exprs.map .expr

def ForInit.parts : ForInit → List Piece
  | .absent => []
  | .vars decls => decls.map .declarator
  | .expr e => [.expr e]

def Stmt.parts : Stmt → List Piece
  | .var decls => decls.map .declarator
  | .expr e => [.expr e]
  | .block body => body.map .stmt
  | .branch test cons alt => .expr test :: .stmt cons :: alt.toList.map .stmt
  | .forLoop init test update body =>
    init.parts ++ (test.toList.map .expr ++ (update.toList.map .expr ++ [.stmt body]))
  | .forIn _ target right body => [.target target, .expr right, .stmt body]
  | .whileLoop test body => [.expr test, .stmt body]
  | .doLoop body test => [.stmt body, .expr test]
  | .ret value => value.toList.map .expr
  | .throwing value => [.expr value]
  | .attempt _ body handler finalizer =>
    body.map .stmt ++ (handler.toList.map .handler ++ (finalizer.getD []).map .stmt)
  | .switch _ discriminant cases => .expr discriminant :: cases.map .case
  | .withScope object body => [.expr object, .stmt body]
  | .brk | .cont | .debugger _ | .empty => []

/-- What a piece consists of; for a closure, that is its function. -/
def Piece.parts : Piece → List Piece
  | .func f => f.hoisted.map (fun h => .expr h.value) ++ f.body.map .stmt
  | .stmt s => s.parts
  | .expr e => e.parts
  | .target x => x.parts
  | .property p => [.expr p.value]
  | .declarator d => d.init.toList.map .expr
  | .handler h => h.body.map .stmt
  | .case c => c.test.toList.map .expr ++ c.body.map .stmt

/-- One piece stands somewhere in another, or is that piece. -/
def Piece.Within (p q : Piece) : Prop := Relation.ReflTransGen (fun q p => p ∈ q.parts) q p

/-- A function is the code itself, or a closure of it is made somewhere in the code, however deep in other
closures. -/
def Func.Holds (code g : Func) : Prop := (Piece.func g).Within (.func code)

variable {r : Registry} {t : IndexedTree} {i j : Nat} {n : Node}

/-! ## Rows -/

section

variable {α β : Type} {node : α → Node} {Image : Nat → α → β → Prop} {as : List α} {bs : List β} {b : β}

/-- Each image in a row is that of a node of the tree. -/
theorem Row.exists_at (h : Row node Image i as bs j) (hat : t.AtAll i (as.map node)) (hb : b ∈ bs) :
    ∃ k a, t.At k (node a) ∧ Image k a b := by
  induction h with
  | nil => cases hb
  | @cons i j a b' as bs head tail ih =>
      rcases List.mem_cons.1 hb with rfl | hb
      · exact ⟨i, a, hat.1, head⟩
      · have hrest := hat.2
        rw [hat.1.after] at hrest
        exact ih hrest hb

theorem Row.after (h : Row node Image i as bs j) (hat : t.AtAll i (as.map node)) :
    t.afterMany as.length i = j := by
  induction h with
  | nil => rfl
  | @cons i j a b as bs head tail ih =>
      have hrest := hat.2
      rw [hat.1.after] at hrest
      rw [List.length_cons, IndexedTree.afterMany_succ, hat.1.after]
      exact ih hrest

end

/-! ## Pieces of an image -/

/-- The piece is the image of a node that stands in the tree. -/
inductive Depicts (r : Registry) (t : IndexedTree) : Piece → Prop
  | func {i : Nat} {n : Node} {f : Script.Func} {code : Func} (hat : t.At i n)
      (image : FuncImage r t.ns i n f code) : Depicts r t (.func code)
  | stmt {i : Nat} {s : Script.Stmt} {code : Stmt} (hat : t.At i (.stmt s))
      (image : StmtImage r t.ns i s code) : Depicts r t (.stmt code)
  | expr {i : Nat} {e : Script.Expr} {code : Expr} (hat : t.At i (.expr e))
      (image : ExprImage r t.ns i e code) : Depicts r t (.expr code)
  | declared {i : Nat} {f : Script.Func} {code : Expr} (hat : t.At i (.stmt (.function f)))
      (image : ClosureImage r t.ns i (.stmt (.function f)) f code) : Depicts r t (.expr code)
  | target {i : Nat} {e : Script.Expr} {code : Target} (hat : t.At i (.expr e))
      (image : TargetImage r t.ns i e code) : Depicts r t (.target code)
  /-- A name that a loop declares is no node of its own. -/
  | name (x : Ref) : Depicts r t (.target (.ref x))
  | property {i : Nat} {p : Script.Property} {code : Property} (hat : t.At i (.property p))
      (image : PropertyImage r t.ns i p code) : Depicts r t (.property code)
  | declarator {i : Nat} {d : Script.Declarator} {code : Declarator} (hat : t.At i (.declarator d))
      (image : DeclaratorImage r t.ns i d code) : Depicts r t (.declarator code)
  | handler {i : Nat} {h : Script.Handler} {code : Handler} (hat : t.At i (.handler h))
      (image : HandlerImage r t.ns i h code) : Depicts r t (.handler code)
  | case {i : Nat} {c : Script.Case} {code : Case} (hat : t.At i (.case c))
      (image : CaseImage r t.ns i c code) : Depicts r t (.case code)

/-- The images in a row are images of nodes of the tree. -/
theorem Row.depicts {α β : Type} {node : α → Node} {Image : Nat → α → β → Prop} {piece : β → Piece}
    {as : List α} {bs : List β} (h : Row node Image i as bs j) (hat : t.AtAll i (as.map node))
    (hdepicts : ∀ {k a b}, t.At k (node a) → Image k a b → Depicts r t (piece b)) :
    ∀ p ∈ bs.map piece, Depicts r t p := by
  intro p hp
  obtain ⟨b, hb, rfl⟩ := List.mem_map.1 hp
  obtain ⟨k, a, hk, hab⟩ := h.exists_at hat hb
  exact hdepicts hk hab

/-- An object and the key under which something is kept in it. -/
theorem targetImage_parts {e : Script.Expr} {code : Target} (hat : t.At i (.expr e))
    (h : TargetImage r t.ns i e code) : ∀ p ∈ code.parts, Depicts r t p := by
  cases h with
  | ident h => exact fun _ hp => nomatch hp
  | member first => exact List.forall_mem_singleton.2 (.expr hat.children.1 first)
  | index first second =>
      obtain ⟨hobject, -, hkey, -⟩ := hat.children.uncons
      exact List.forall_mem_cons.2 ⟨.expr hobject first,
        List.forall_mem_singleton.2 (.expr hkey second)⟩

theorem closureImage_parts {f : Script.Func} {code : Expr} (hat : t.At i n)
    (h : ClosureImage r t.ns i n f code) : ∀ p ∈ code.parts, Depicts r t p := by
  cases h with
  | closure func => exact List.forall_mem_singleton.2 (.func hat func)
  | plain => exact fun _ hp => nomatch hp

theorem exprImage_parts {e : Script.Expr} {code : Expr} (hat : t.At i (.expr e))
    (h : ExprImage r t.ns i e code) : ∀ p ∈ code.parts, Depicts r t p := by
  cases h with
  | num | str | bool | null | this => exact fun _ hp => nomatch hp
  | ident read => cases read <;> exact fun _ hp => nomatch hp
  | array parts => exact parts.depicts hat.children .expr
  | object parts => exact parts.depicts hat.children .property
  | function closure => exact closureImage_parts hat closure
  | unary value => exact List.forall_mem_singleton.2 (.expr hat.children.1 value)
  | delete place => exact List.forall_mem_singleton.2 (.target hat.children.1 place)
  | update here place => exact List.forall_mem_singleton.2 (.target hat.children.1 place)
  | binary first second | logical first second =>
      obtain ⟨hleft, -, hright, -⟩ := hat.children.uncons
      exact List.forall_mem_cons.2 ⟨.expr hleft first,
        List.forall_mem_singleton.2 (.expr hright second)⟩
  | assign here place second =>
      obtain ⟨hleft, -, hright, -⟩ := hat.children.uncons
      exact List.forall_mem_cons.2 ⟨.target hleft place,
        List.forall_mem_singleton.2 (.expr hright second)⟩
  | conditional first second third =>
      obtain ⟨htest, -, hrest⟩ := hat.children.uncons
      obtain ⟨hcons, -, halt, -⟩ := hrest.uncons
      exact List.forall_mem_cons.2 ⟨.expr htest first, List.forall_mem_cons.2 ⟨.expr hcons second,
        List.forall_mem_singleton.2 (.expr halt third)⟩⟩
  | call here first parts | construct here first parts =>
      obtain ⟨hcallee, -, hargs⟩ := hat.children.uncons
      exact List.forall_mem_cons.2 ⟨.expr hcallee first, parts.depicts hargs .expr⟩
  | member first => exact List.forall_mem_singleton.2 (.expr hat.children.1 first)
  | index first second =>
      obtain ⟨hobject, -, hkey, -⟩ := hat.children.uncons
      exact List.forall_mem_cons.2 ⟨.expr hobject first,
        List.forall_mem_singleton.2 (.expr hkey second)⟩
  | sequence parts => exact parts.depicts hat.children .expr

theorem initImage_parts {init : Script.ForInit} {code : ForInit} (hat : t.AtAll i init.nodes)
    (h : InitImage r t.ns i init code j) : ∀ p ∈ code.parts, Depicts r t p := by
  cases h with
  | absent => exact fun _ hp => nomatch hp
  | vars parts => exact parts.depicts hat .declarator
  | expr value => exact List.forall_mem_singleton.2 (.expr hat.1 value)

/-- Where the head of a `for` ends. -/
theorem InitImage.after {init : Script.ForInit} {code : ForInit} (hat : t.AtAll i init.nodes)
    (h : InitImage r t.ns i init code j) : t.afterMany init.nodes.length i = j := by
  cases h with
  | absent => rfl
  | vars parts =>
      rw [ForInit.nodes, List.length_map]
      exact parts.after hat
  | expr value => exact hat.1.after

theorem finallyImage_parts {body : Option (List Script.Stmt)} {code : Option (List Stmt)}
    (hat : t.AtAll i (Node.ofStmts (body.getD []))) (h : FinallyImage r t.ns i body code j) :
    ∀ p ∈ (code.getD []).map Piece.stmt, Depicts r t p := by
  cases h with
  | none => exact fun _ hp => nomatch hp
  | some parts => exact parts.depicts hat .stmt

theorem stmtImage_parts {s : Script.Stmt} {code : Stmt} (hat : t.At i (.stmt s))
    (h : StmtImage r t.ns i s code) : ∀ p ∈ code.parts, Depicts r t p := by
  cases h with
  | function | empty | brk | cont | debugger => exact fun _ hp => nomatch hp
  | var parts => exact parts.depicts hat.children .declarator
  | expr value => exact List.forall_mem_singleton.2 (.expr hat.children.1 value)
  | block parts => exact parts.depicts hat.children .stmt
  | branch first second third =>
      obtain ⟨htest, -, hrest⟩ := hat.children.uncons
      obtain ⟨hcons, -, halt⟩ := hrest.uncons
      exact List.forall_mem_cons.2 ⟨.expr htest first,
        List.forall_mem_cons.2 ⟨.stmt hcons second, third.depicts halt .stmt⟩⟩
  | forLoop first second third last =>
      have hparts := hat.children
      rw [Node.children_forLoop, IndexedTree.atAll_append] at hparts
      obtain ⟨hinit, hparts⟩ := hparts
      rw [first.after hinit, IndexedTree.atAll_append] at hparts
      obtain ⟨htest, hparts⟩ := hparts
      rw [Node.ofExpr?, List.length_map, second.after htest, IndexedTree.atAll_append] at hparts
      obtain ⟨hupdate, hbody⟩ := hparts
      rw [Node.ofExpr?, List.length_map, third.after hupdate] at hbody
      exact List.forall_mem_append.2 ⟨initImage_parts hinit first,
        List.forall_mem_append.2 ⟨second.depicts htest .expr,
          List.forall_mem_append.2 ⟨third.depicts hupdate .expr,
            List.forall_mem_singleton.2 (.stmt hbody.1 last)⟩⟩⟩
  | forIn first here second last =>
      cases first with
      | var h =>
          obtain ⟨hright, -, hbody, -⟩ := hat.children.uncons
          exact List.forall_mem_cons.2 ⟨.name _,
            List.forall_mem_cons.2 ⟨.expr hright second,
              List.forall_mem_singleton.2 (.stmt hbody last)⟩⟩
      | expr place =>
          obtain ⟨hleft, -, hrest⟩ := hat.children.uncons
          obtain ⟨hright, -, hbody, -⟩ := hrest.uncons
          exact List.forall_mem_cons.2 ⟨.target hleft place,
            List.forall_mem_cons.2 ⟨.expr hright second,
              List.forall_mem_singleton.2 (.stmt hbody last)⟩⟩
  | whileLoop first second =>
      obtain ⟨htest, -, hbody, -⟩ := hat.children.uncons
      exact List.forall_mem_cons.2 ⟨.expr htest first,
        List.forall_mem_singleton.2 (.stmt hbody second)⟩
  | doLoop first second =>
      obtain ⟨hbody, -, htest, -⟩ := hat.children.uncons
      exact List.forall_mem_cons.2 ⟨.stmt hbody first,
        List.forall_mem_singleton.2 (.expr htest second)⟩
  | ret part => exact part.depicts hat.children .expr
  | throwing part => exact List.forall_mem_singleton.2 (.expr hat.children.1 part)
  | attempt here first second third =>
      have hparts := hat.children
      rw [Node.children, Node.childrenOfStmt, List.append_assoc, IndexedTree.atAll_append] at hparts
      obtain ⟨hblock, hparts⟩ := hparts
      rw [Node.ofStmts, List.length_map, first.after hblock, IndexedTree.atAll_append] at hparts
      obtain ⟨hhandler, hfinally⟩ := hparts
      rw [List.length_map, second.after hhandler] at hfinally
      exact List.forall_mem_append.2 ⟨first.depicts hblock .stmt,
        List.forall_mem_append.2 ⟨second.depicts hhandler .handler, finallyImage_parts hfinally third⟩⟩
  | switch here first parts =>
      obtain ⟨hdiscriminant, -, hcases⟩ := hat.children.uncons
      exact List.forall_mem_cons.2 ⟨.expr hdiscriminant first, parts.depicts hcases .case⟩
  | withScope first second =>
      obtain ⟨hobject, -, hbody, -⟩ := hat.children.uncons
      exact List.forall_mem_cons.2 ⟨.expr hobject first,
        List.forall_mem_singleton.2 (.stmt hbody second)⟩

/-- The node of a closure is the one that stands at its position. -/
theorem ClosureImage.node_eq {f : Script.Func} {code : Expr} {n' : Node} (hr : r.Leads t)
    (hat : t.At i n) (h : ClosureImage r t.ns i n' f code) : n = n' := by
  have hkeeps : r.Keeps t.ns i n' := by
    cases h with
    | plain escaped here => exact here
    | closure func =>
        cases func with
        | mk introduced here node index =>
            rw [index] at here
            exact ⟨_, here, node⟩
  obtain ⟨handle, hhandle, hnode⟩ := hkeeps
  rw [hr i hat.owns] at hhandle
  cases hhandle
  exact Option.some.inj (hat.node?.symm.trans hnode)

/-- What is kept of a function of the tree. -/
theorem FuncImage.taken {f : Script.Func} {g : Func} (hr : r.Leads t) (hat : t.At i n)
    (h : FuncImage r t.ns i n f g) :
    n.func? = some f ∧ g.index = i ∧
      List.Forall₂ (HoistedImage r t.ns) (t.declarationsOf f i).functions g.hoisted ∧
        t.AtAll (i + 1) (Node.ofStmts f.body) ∧
          ∃ j, Row Node.stmt (StmtImage r t.ns) (i + 1) f.body g.body j := by
  cases h with
  | mk introduced here node index nameSpace name params self vars hoisted body =>
      rw [index, hr i hat.owns] at here
      cases here
      have hbody := hat.children
      rw [Node.children_of_func? introduced] at hbody
      exact ⟨introduced, index, hoisted, hbody, _, body⟩

/-- The closures of declarations are made of the nodes that declare them. -/
theorem hoistedImage_depicts {l : List Node} (hr : r.Leads t) (hat : t.AtAll i l)
    {functions : List (String × Nat)} {hoisted : List Hoisted}
    (hdeclared : ∀ name j, (name, j) ∈ functions → .function name j ∈ t.declaredIn i l)
    (h : List.Forall₂ (HoistedImage r t.ns) functions hoisted) :
    ∀ x ∈ hoisted, Depicts r t (.expr x.value) := by
  induction h with
  | nil => exact fun _ hx => nomatch hx
  | cons head tail ih =>
      refine List.forall_mem_cons.2
        ⟨?_, ih fun name j hmem => hdeclared name j (List.mem_cons_of_mem _ hmem)⟩
      cases head with
      | mk name closure =>
          obtain ⟨d, -, -, hd⟩ := hat.exists_declared (hdeclared _ _ List.mem_cons_self)
          have hnode := closure.node_eq hr hd
          rw [hnode] at hd
          exact .declared hd closure

theorem funcImage_parts {f : Script.Func} {g : Func} (hr : r.Leads t) (hat : t.At i n)
    (h : FuncImage r t.ns i n f g) : ∀ p ∈ (Piece.func g).parts, Depicts r t p := by
  obtain ⟨-, -, hhoisted, hbody, j, hrow⟩ := h.taken hr hat
  refine List.forall_mem_append.2 ⟨List.forall_mem_map.2 ?_, hrow.depicts hbody .stmt⟩
  exact hoistedImage_depicts hr hbody (fun _ _ hmem => Declarations.mem_ofList hmem) hhoisted

/-- The parts of an image are images of nodes of the tree. -/
theorem Depicts.parts (hr : r.Leads t) {p q : Piece} (h : Depicts r t q) (hp : p ∈ q.parts) :
    Depicts r t p := by
  cases h with
  | func hat image => exact funcImage_parts hr hat image p hp
  | stmt hat image => exact stmtImage_parts hat image p hp
  | expr hat image => exact exprImage_parts hat image p hp
  | declared hat image => exact closureImage_parts hat image p hp
  | target hat image => exact targetImage_parts hat image p hp
  | name => cases hp
  | property hat image =>
      cases image with
      | mk first => exact List.forall_mem_singleton.2 (.expr hat.children.1 first) p hp
  | declarator hat image =>
      cases image with
      | mk here h value => exact value.depicts hat.children .expr p hp
  | handler hat image =>
      cases image with
      | mk here parts => exact parts.depicts hat.children .stmt p hp
  | case hat image =>
      cases image with
      | mk first parts =>
          have hparts := hat.children
          rw [Node.children, IndexedTree.atAll_append] at hparts
          obtain ⟨htest, hbody⟩ := hparts
          rw [Node.ofExpr?, List.length_map, first.after htest] at hbody
          exact List.forall_mem_append.2
            ⟨first.depicts htest .expr, parts.depicts hbody .stmt⟩ p hp

/-- Whatever stands in an image, however deep, is the image of a node of the tree. -/
theorem Depicts.within (hr : r.Leads t) {p q : Piece} (h : Depicts r t q) (hp : p.Within q) :
    Depicts r t p := by
  induction hp with
  | refl => exact h
  | tail _ hstep ih => exact ih.parts hr hstep

/-- The registry leads from the positions of a tree that has just been registered to the tree. -/
theorem leads_assign (hr : r.Built) (f : Script.Func) (ns : String) (isProgram : Bool) :
    (r.assign f ns isProgram).2.Leads (r.assign f ns isProgram).1 := by
  intro i hi
  rw [(hr.assign f ns isProgram).resolve_eq_ok_iff]
  exact ⟨hr.tree_assign f ns isProgram hi, rfl⟩

/-- Every function in instrumented code is the image of a function of the tree, at its position. -/
theorem exists_image_of_holds (hr : r.Built) {f : Script.Func} {ns : String} {inherited : List String}
    {isProgram : Bool} {code g : Func} (h : (instrument f r ns inherited isProgram).1 = .ok code)
    (hg : code.Holds g) :
    ∃ n s, (r.assign f ns isProgram).1.At g.index n ∧
      FuncImage (r.assign f ns isProgram).2 (r.assign f ns isProgram).1.ns g.index n s g := by
  have hleads := leads_assign hr f ns isProgram
  obtain ⟨hcode, -⟩ := instrument_eq_ok h
  have hroot := IndexedTree.at_root ns (r.next ns) f isProgram
  have himage := funcsImaged hleads 0 (Nat.zero_le _) hroot rfl (fun _ hx => by cases hx) hcode
  cases Depicts.within hleads (.func hroot himage) hg with
  | func hat image =>
      have hindex := (image.taken hleads hat).2.1
      subst hindex
      exact ⟨_, _, hat, image⟩

end Code

end Resumption
