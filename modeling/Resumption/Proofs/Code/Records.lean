import Resumption.Code.Recording
import Resumption.Code.Traversal
import Resumption.Proofs.Code.Pieces

/-!
# What a function records

The positions under which a function may record are collected from its instrumented code, and the rule of
what is recorded is about source nodes.  `IndexedTree.records` is the rule read as a walk of the source: the
parts of a node come first, then its own position if its result is recorded.  Both give the same list, for
every function that instrumented code contains.
-/

namespace Resumption

open Script

/-- What a node makes of what its parts contribute.  The body of a function records for itself, and a
declaration is recorded when its function is entered. -/
def Script.Node.contributes (i : Nat) (below : List Nat) : Node → List Nat
  | .func _ | .stmt (.function _) => []
  | .expr (.function _) => [i]
  | .handler _ => i :: below
  | .stmt .debugger => below ++ [i]
  | n => if n.recording = .none then below else below ++ [i]

/-- The number of the part whose position is contributed once more right behind it: the value that a
`switch` is about, and the object that a `for-in` runs through. -/
def Script.Node.again? : Node → Option Nat
  | .stmt (.switch _ _) => some 0
  | .stmt (.forIn left _ _) => some (if left.isExpr then 1 else 0)
  | _ => none

namespace IndexedTree

/-- The positions that are recorded at and below a node, in the order of the records. -/
def records (t : IndexedTree) (n : Node) (i : Nat) : List Nat :=
  n.contributes i ((t.children n i).attach.zipIdx.flatMap (fun (⟨(j, c), _⟩, k) =>
    t.records c j ++ if n.again? = some k then [j] else []))
termination_by n.weight
decreasing_by exact Node.weight_lt_of_mem_children (t.mem_of_mem_place ‹_›)

/-- The positions recorded at and below nodes, the first of them at the position. -/
def recordsIn (t : IndexedTree) (i : Nat) (l : List Node) : List Nat :=
  (t.place i l).flatMap (fun (j, c) => t.records c j)

/-- The same for siblings, the first of which has the number, if one of them is noted once more. -/
def recordsAmong (t : IndexedTree) (again : Option Nat) : Nat → Nat → List Node → List Nat
  | _, _, [] => []
  | k, i, c :: rest =>
    t.records c i ++ (if again = some k then [i] else []) ++
      recordsAmong t again (k + 1) (t.after i) rest

variable {t : IndexedTree} {i j k : Nat} {n c : Node} {l l' : List Node} {again : Option Nat}

theorem records_eq (t : IndexedTree) (n : Node) (i : Nat) :
    t.records n i = n.contributes i (t.recordsAmong n.again? 0 (i + 1) n.children) := by
  have hgo : ∀ (again : Option Nat) (i k : Nat) (l : List Node),
      ((t.place i l).zipIdx k).flatMap
          (fun x => t.records x.1.2 x.1.1 ++ if again = some x.2 then [x.1.1] else []) =
        t.recordsAmong again k i l := by
    intro again i k l
    induction l generalizing i k with
    | nil => rfl
    | cons c l ih => rw [place, List.zipIdx_cons, List.flatMap_cons, ih, recordsAmong]
  have hattach : ∀ (k : Nat) (l : List { x // x ∈ t.children n i }),
      (l.zipIdx k).flatMap
          (fun x => t.records x.1.1.2 x.1.1.1 ++ if n.again? = some x.2 then [x.1.1.1] else []) =
        (l.unattach.zipIdx k).flatMap
          (fun x => t.records x.1.2 x.1.1 ++ if n.again? = some x.2 then [x.1.1] else []) := by
    intro k l
    induction l generalizing k with
    | nil => rfl
    | cons x l ih => rw [List.unattach_cons, List.zipIdx_cons, List.zipIdx_cons, List.flatMap_cons,
        List.flatMap_cons, ih]
  rw [records]
  refine congrArg (fun below => n.contributes i below) ((hattach 0 _).trans ?_)
  rw [List.unattach_attach]
  exact hgo n.again? (i + 1) 0 n.children

@[simp] theorem recordsIn_nil (t : IndexedTree) (i : Nat) : t.recordsIn i [] = [] := rfl

@[simp] theorem recordsIn_cons (t : IndexedTree) (i : Nat) (n : Node) (l : List Node) :
    t.recordsIn i (n :: l) = t.records n i ++ t.recordsIn (t.after i) l := rfl

theorem recordsIn_append (t : IndexedTree) (i : Nat) (l l' : List Node) :
    t.recordsIn i (l ++ l') = t.recordsIn i l ++ t.recordsIn (t.afterMany l.length i) l' := by
  induction l generalizing i with
  | nil => rfl
  | cons n l ih =>
      rw [List.cons_append, recordsIn_cons, recordsIn_cons, ih, List.append_assoc, List.length_cons,
        afterMany_succ]

/-- Behind the sibling that is noted once more, and where there is none, nothing is added. -/
theorem recordsAmong_eq (h : ∀ m, again = some m → m < k) :
    t.recordsAmong again k i l = t.recordsIn i l := by
  induction l generalizing i k with
  | nil => rfl
  | cons c l ih =>
      have hk : ¬ again = some k := fun heq => absurd (h k heq) (Nat.lt_irrefl k)
      rw [recordsAmong, if_neg hk, List.append_nil, ih fun m hm => Nat.lt_succ_of_lt (h m hm),
        recordsIn_cons]

/-- A node none of whose parts is noted once more. -/
theorem records_of_plain (h : n.again? = none) :
    t.records n i = n.contributes i (t.recordsIn (i + 1) n.children) := by
  rw [records_eq, h, recordsAmong_eq fun m hm => by cases hm]

theorem records_expr (t : IndexedTree) (e : Expr) (i : Nat) :
    t.records (.expr e) i =
      (Node.expr e).contributes i (t.recordsIn (i + 1) (Node.childrenOfExpr e)) :=
  records_of_plain rfl

end IndexedTree

namespace Code

variable {r : Registry} {t : IndexedTree} {i j : Nat}

/-! ## Expressions -/

/-- A closure is recorded under the position of its function, and so is a function that runs by itself. -/
theorem closureImage_recorded {n : Node} {f : Script.Func} {code : Expr}
    (h : ClosureImage r t.ns i n f code) : code.recorded = [i] := by
  cases h with
  | plain => rfl
  | closure func =>
      cases func with
      | mk introduced here node index =>
          rw [Expr.recorded, index]

mutual

theorem exprImage_recorded (i : Nat) :
    ∀ (e : Script.Expr) {code : Expr}, t.At i (.expr e) → ExprImage r t.ns i e code →
      code.recorded = t.records (.expr e) i
  | .num _, _, _, .num _ | .str _, _, _, .str _ | .bool _, _, _, .bool _ | .null, _, _, .null
  | .this, _, _, .this => by
      rw [IndexedTree.records_expr]
      rfl
  | .ident name, _, _, .ident read => by
      rw [IndexedTree.records_expr]
      cases read <;> rfl
  | .array elements, _, hat, .array parts => by
      rw [IndexedTree.records_expr, Expr.recorded, exprsImage_recorded (i + 1) elements hat.children parts]
      rfl
  | .object props, _, hat, .object parts => by
      rw [IndexedTree.records_expr, Expr.recorded, propsImage_recorded (i + 1) props hat.children parts]
      rfl
  | .function f, _, _, .function closure => by
      rw [IndexedTree.records_expr, closureImage_recorded closure]
      rfl
  | .unary op arg, _, hat, .unary value => by
      rw [IndexedTree.records_expr, Expr.recorded, exprImage_recorded (i + 1) arg hat.children.1 value]
      simp [Node.contributes, Node.recording, Node.childrenOfExpr]
  | .unary _ arg, _, hat, .delete place => by
      rw [IndexedTree.records_expr, Expr.recorded, targetImage_recorded (i + 1) arg hat.children.1 place]
      simp [Node.contributes, Node.recording, Node.childrenOfExpr]
  | .update op before arg, _, hat, .update here place => by
      rw [IndexedTree.records_expr, Expr.recorded, targetImage_recorded (i + 1) arg hat.children.1 place]
      simp [Node.contributes, Node.recording, Node.childrenOfExpr]
  | .binary op left right, _, hat, .binary first second
  | .logical op left right, _, hat, .logical first second => by
      obtain ⟨hleft, hafter, hright, -⟩ := hat.children.uncons
      rw [IndexedTree.records_expr, Expr.recorded, exprImage_recorded _ left hleft first,
        exprImage_recorded _ right hright second]
      simp [Node.contributes, Node.recording, Node.childrenOfExpr, hafter]
  | .assign op left right, _, hat, .assign here place second => by
      obtain ⟨hleft, hafter, hright, -⟩ := hat.children.uncons
      rw [IndexedTree.records_expr, Expr.recorded, targetImage_recorded _ left hleft place,
        exprImage_recorded _ right hright second]
      simp [Node.contributes, Node.recording, Node.childrenOfExpr, hafter]
  | .conditional test cons alt, _, hat, .conditional first second third => by
      obtain ⟨htest, hafter, hrest⟩ := hat.children.uncons
      obtain ⟨hcons, hafter', halt, -⟩ := hrest.uncons
      rw [IndexedTree.records_expr, Expr.recorded, exprImage_recorded _ test htest first,
        exprImage_recorded _ cons hcons second, exprImage_recorded _ alt halt third]
      simp [Node.contributes, Node.recording, Node.childrenOfExpr, hafter, hafter']
  | .call callee args, _, hat, .call here first parts
  | .construct callee args, _, hat, .construct here first parts => by
      obtain ⟨hcallee, hafter, hargs⟩ := hat.children.uncons
      rw [IndexedTree.records_expr, Expr.recorded, exprImage_recorded _ callee hcallee first,
        exprsImage_recorded _ args hargs parts]
      simp [Node.contributes, Node.recording, Node.childrenOfExpr, hafter]
  | .member object property, _, hat, .member first => by
      rw [IndexedTree.records_expr, Expr.recorded, exprImage_recorded (i + 1) object hat.children.1 first]
      simp [Node.contributes, Node.recording, Node.childrenOfExpr, Key.recorded]
  | .index object key, _, hat, .index first second => by
      obtain ⟨hobject, hafter, hkey, -⟩ := hat.children.uncons
      rw [IndexedTree.records_expr, Expr.recorded, Key.recorded,
        exprImage_recorded _ object hobject first, exprImage_recorded _ key hkey second]
      simp [Node.contributes, Node.recording, Node.childrenOfExpr, hafter]
  | .sequence exprs, _, hat, .sequence parts => by
      rw [IndexedTree.records_expr, Expr.recorded, exprsImage_recorded (i + 1) exprs hat.children parts]
      rfl
termination_by structural e => e

theorem targetImage_recorded (i : Nat) :
    ∀ (e : Script.Expr) {code : Target}, t.At i (.expr e) → TargetImage r t.ns i e code →
      code.recorded = t.records (.expr e) i
  | .ident name, _, _, .ident h => by
      rw [IndexedTree.records_expr]
      rfl
  | .member object property, _, hat, .member first => by
      rw [IndexedTree.records_expr, Target.recorded, exprImage_recorded (i + 1) object hat.children.1 first]
      simp [Node.contributes, Node.recording, Node.childrenOfExpr, Key.recorded]
  | .index object key, _, hat, .index first second => by
      obtain ⟨hobject, hafter, hkey, -⟩ := hat.children.uncons
      rw [IndexedTree.records_expr, Target.recorded, Key.recorded,
        exprImage_recorded _ object hobject first, exprImage_recorded _ key hkey second]
      simp [Node.contributes, Node.recording, Node.childrenOfExpr, hafter]
termination_by structural e => e

theorem exprsImage_recorded (i : Nat) :
    ∀ (l : List Script.Expr) {codes : List Expr} {j : Nat}, t.AtAll i (Node.ofExprs l) →
      Row Node.expr (ExprImage r t.ns) i l codes j →
      recordedExprs codes = t.recordsIn i (Node.ofExprs l)
  | [], _, _, _, .nil => rfl
  | e :: rest, _, _, hat, .cons head tail => by
      obtain ⟨he, hafter, hrest⟩ := hat.uncons
      rw [recordedExprs, exprImage_recorded i e he head, exprsImage_recorded _ rest hrest tail, ← hafter]
      rfl
termination_by structural l => l

theorem propImage_recorded (i : Nat) :
    ∀ (p : Script.Property) {code : Property}, t.At i (.property p) →
      PropertyImage r t.ns i p code → code.recorded = t.records (.property p) i
  | ⟨key, kind, value⟩, _, hat, .mk first => by
      rw [IndexedTree.records_of_plain rfl, Property.recorded,
        exprImage_recorded (i + 1) value hat.children.1 first]
      simp [Node.contributes, Node.recording, Node.children]
termination_by structural p => p

theorem propsImage_recorded (i : Nat) :
    ∀ (l : List Script.Property) {codes : List Property} {j : Nat}, t.AtAll i (l.map .property) →
      Row Node.property (PropertyImage r t.ns) i l codes j →
      recordedProps codes = t.recordsIn i (l.map .property)
  | [], _, _, _, .nil => rfl
  | p :: rest, _, _, hat, .cons head tail => by
      obtain ⟨hp, hafter, hrest⟩ := hat.uncons
      rw [recordedProps, propImage_recorded i p hp head, propsImage_recorded _ rest hrest tail,
        ← hafter]
      rfl
termination_by structural l => l

end

theorem expr?Image_recorded {e : Option Script.Expr} {code : Option Expr}
    (hat : t.AtAll i (Node.ofExpr? e)) (h : Row Node.expr (ExprImage r t.ns) i e.toList code.toList j) :
    recordedExpr? code = t.recordsIn i (Node.ofExpr? e) := by
  have hrow : recordedExprs code.toList = t.recordsIn i (Node.ofExpr? e) :=
    exprsImage_recorded i e.toList hat h
  cases code with
  | none => exact hrow
  | some x =>
      rw [← hrow, recordedExpr?]
      exact (List.append_nil _).symm

theorem declImage_recorded {d : Script.Declarator} {code : Declarator} (hat : t.At i (.declarator d))
    (h : DeclaratorImage r t.ns i d code) : code.recorded = t.records (.declarator d) i := by
  cases h with
  | @mk _ _ name init x code here hname value =>
      have hinit := expr?Image_recorded hat.children value
      rw [IndexedTree.records_of_plain rfl]
      cases init with
      | none =>
          cases code with
          | none => rfl
          | some x => cases value
      | some e =>
          cases code with
          | none => cases value
          | some x =>
              rw [Declarator.recorded]
              exact congrArg (· ++ [i]) hinit

theorem declsImage_recorded {decls : List Script.Declarator} {codes : List Declarator}
    (hat : t.AtAll i (decls.map .declarator))
    (h : Row Node.declarator (DeclaratorImage r t.ns) i decls codes j) :
    recordedDecls codes = t.recordsIn i (decls.map .declarator) := by
  induction h with
  | nil => rfl
  | cons head tail ih =>
      obtain ⟨hd, hafter, hrest⟩ := hat.uncons
      rw [recordedDecls, declImage_recorded hd head, ih hrest, ← hafter]
      rfl

theorem initImage_recorded {init : Script.ForInit} {code : ForInit} (hat : t.AtAll i init.nodes)
    (h : InitImage r t.ns i init code j) : code.recorded = t.recordsIn i init.nodes := by
  cases h with
  | absent => rfl
  | vars parts => exact declsImage_recorded hat parts
  | expr value =>
      rw [ForInit.recorded, exprImage_recorded i _ hat.1 value]
      exact (List.append_nil _).symm

/-! ## Statements -/

mutual

theorem stmtImage_recorded (i : Nat) :
    ∀ (s : Script.Stmt) {code : Stmt}, t.At i (.stmt s) → StmtImage r t.ns i s code →
      code.recorded = t.records (.stmt s) i
  | .function f, _, _, .function _ | .empty, _, _, .empty | .brk none, _, _, .brk
  | .cont none, _, _, .cont | .debugger, _, _, .debugger _ => by
      rw [IndexedTree.records_of_plain rfl]
      rfl
  | .var decls, _, hat, .var parts => by
      rw [IndexedTree.records_of_plain rfl, Stmt.recorded, declsImage_recorded hat.children parts]
      rfl
  | .expr e, _, hat, .expr value | .throwing e, _, hat, .throwing value => by
      rw [IndexedTree.records_of_plain rfl, Stmt.recorded, exprImage_recorded _ e hat.children.1 value]
      simp [Node.contributes, Node.recording, Node.children, Node.childrenOfStmt]
  | .block body, _, hat, .block parts => by
      rw [IndexedTree.records_of_plain rfl, Stmt.recorded, stmtsImage_recorded _ body hat.children parts]
      rfl
  | .branch test cons alt, _, hat, .branch first second third => by
      obtain ⟨htest, hafter, hrest⟩ := hat.children.uncons
      obtain ⟨hcons, hafter', halt⟩ := hrest.uncons
      rw [IndexedTree.records_of_plain rfl, Stmt.recorded, exprImage_recorded _ test htest first,
        stmtImage_recorded _ cons hcons second, stmt?Image_recorded _ alt halt third]
      simp [Node.contributes, Node.recording, Node.children, Node.childrenOfStmt, hafter, hafter']
  | .forLoop init test update body, _, hat, .forLoop first second third last => by
      have hparts := hat.children
      rw [Node.children_forLoop, IndexedTree.atAll_append] at hparts
      obtain ⟨hinit, hparts⟩ := hparts
      have hj := first.after hinit
      rw [hj, IndexedTree.atAll_append] at hparts
      obtain ⟨htest, hparts⟩ := hparts
      have hk := second.after htest
      have hlength : (Node.ofExpr? test).length = test.toList.length := List.length_map ..
      have hlength' : (Node.ofExpr? update).length = update.toList.length := List.length_map ..
      rw [hlength, hk, IndexedTree.atAll_append] at hparts
      obtain ⟨hupdate, hbody⟩ := hparts
      have hl := third.after hupdate
      rw [hlength', hl] at hbody
      rw [IndexedTree.records_of_plain rfl, Stmt.recorded, initImage_recorded hinit first,
        expr?Image_recorded htest second, expr?Image_recorded hupdate third,
        stmtImage_recorded _ body hbody.1 last, Node.children_forLoop]
      simp [Node.contributes, Node.recording, IndexedTree.recordsIn_append, hj, hlength, hk, hlength', hl]
  | .forIn (.var name) right body, _, hat, .forIn (.var h) here second last => by
      obtain ⟨hright, hafter, hbody, -⟩ := hat.children.uncons
      rw [IndexedTree.records_eq, Stmt.recorded, Target.recorded, exprImage_recorded _ right hright second,
        stmtImage_recorded _ body hbody last]
      simp [Node.contributes, Node.recording, Node.children, Node.childrenOfStmt, Node.again?,
        ForTarget.isExpr, IndexedTree.recordsAmong, hafter]
  | .forIn (.expr left) right body, _, hat, .forIn (.expr place) here second last => by
      obtain ⟨hleft, hafter, hrest⟩ := hat.children.uncons
      obtain ⟨hright, hafter', hbody, -⟩ := hrest.uncons
      rw [IndexedTree.records_eq, Stmt.recorded, targetImage_recorded _ left hleft place,
        exprImage_recorded _ right hright second, stmtImage_recorded _ body hbody last]
      simp [Node.contributes, Node.recording, Node.children, Node.childrenOfStmt, Node.again?,
        ForTarget.isExpr, IndexedTree.recordsAmong, hafter, hafter']
  | .whileLoop test body, _, hat, .whileLoop first second
  | .withScope test body, _, hat, .withScope first second => by
      obtain ⟨htest, hafter, hbody, -⟩ := hat.children.uncons
      rw [IndexedTree.records_of_plain rfl, Stmt.recorded, exprImage_recorded _ test htest first,
        stmtImage_recorded _ body hbody second]
      simp [Node.contributes, Node.recording, Node.children, Node.childrenOfStmt, hafter]
  | .doLoop body test, _, hat, .doLoop first second => by
      obtain ⟨hbody, hafter, htest, -⟩ := hat.children.uncons
      rw [IndexedTree.records_of_plain rfl, Stmt.recorded, stmtImage_recorded _ body hbody first,
        exprImage_recorded _ test htest second]
      simp [Node.contributes, Node.recording, Node.children, Node.childrenOfStmt, hafter]
  | .ret value, _, hat, .ret part => by
      rw [IndexedTree.records_of_plain rfl, Stmt.recorded, expr?Image_recorded hat.children part]
      rfl
  | .attempt block handler finalizer, _, hat, .attempt here first second third => by
      have hparts := hat.children
      rw [Node.children, Node.childrenOfStmt, List.append_assoc, IndexedTree.atAll_append] at hparts
      obtain ⟨hblock, hparts⟩ := hparts
      have hj := first.after hblock
      have hlength : (Node.ofStmts block).length = block.length := List.length_map ..
      rw [hlength, hj, IndexedTree.atAll_append] at hparts
      obtain ⟨hhandler, hfinally⟩ := hparts
      have hk := second.after hhandler
      rw [List.length_map, hk] at hfinally
      rw [IndexedTree.records_of_plain rfl, Stmt.recorded, stmtsImage_recorded _ block hblock first,
        handler?Image_recorded _ handler hhandler second, finallyImage_recorded _ finalizer hfinally third]
      simp [Node.contributes, Node.recording, Node.children, Node.childrenOfStmt,
        IndexedTree.recordsIn_append, hlength, hj, hk]
  | .switch discriminant cases, _, hat, .switch here first parts => by
      obtain ⟨hdiscriminant, hafter, hcases⟩ := hat.children.uncons
      rw [IndexedTree.records_eq, Stmt.recorded, exprImage_recorded _ discriminant hdiscriminant first,
        casesImage_recorded _ cases hcases parts]
      have hrest : t.recordsAmong (some 0) 1 (i + 1 + (Node.expr discriminant).size)
          (cases.map .case) = t.recordsIn _ (cases.map .case) :=
        IndexedTree.recordsAmong_eq (by simp)
      simp [Node.contributes, Node.recording, Node.children, Node.childrenOfStmt, Node.again?,
        IndexedTree.recordsAmong, hafter, hrest]
termination_by structural s => s

theorem stmt?Image_recorded (i : Nat) :
    ∀ (alt : Option Script.Stmt) {code : Option Stmt} {j : Nat}, t.AtAll i (alt.toList.map .stmt) →
      Row Node.stmt (StmtImage r t.ns) i alt.toList code.toList j →
      recordedStmt? code = t.recordsIn i (alt.toList.map .stmt)
  | none, none, _, _, .nil => rfl
  | some s, some code, _, hat, .cons head _ => by
      rw [recordedStmt?, stmtImage_recorded i s hat.1 head]
      exact (List.append_nil _).symm
termination_by structural alt => alt

theorem stmtsImage_recorded (i : Nat) :
    ∀ (l : List Script.Stmt) {codes : List Stmt} {j : Nat}, t.AtAll i (Node.ofStmts l) →
      Row Node.stmt (StmtImage r t.ns) i l codes j →
      recordedStmts codes = t.recordsIn i (Node.ofStmts l)
  | [], _, _, _, .nil => rfl
  | s :: rest, _, _, hat, .cons head tail => by
      obtain ⟨hs, hafter, hrest⟩ := hat.uncons
      rw [recordedStmts, stmtImage_recorded i s hs head, stmtsImage_recorded _ rest hrest tail, ← hafter]
      rfl
termination_by structural l => l

theorem handler?Image_recorded (i : Nat) :
    ∀ (handler : Option Script.Handler) {code : Option Handler} {j : Nat},
      t.AtAll i (handler.toList.map .handler) →
      Row Node.handler (HandlerImage r t.ns) i handler.toList code.toList j →
      recordedHandler? code = t.recordsIn i (handler.toList.map .handler)
  | none, none, _, _, .nil => rfl
  | some handler, some code, _, hat, .cons head _ => by
      rw [recordedHandler?, handlerImage_recorded i handler hat.1 head]
      exact (List.append_nil _).symm
termination_by structural handler => handler

theorem handlerImage_recorded (i : Nat) :
    ∀ (handler : Script.Handler) {code : Handler}, t.At i (.handler handler) →
      HandlerImage r t.ns i handler code → code.recorded = t.records (.handler handler) i
  | ⟨param, body⟩, _, hat, .mk here parts => by
      rw [IndexedTree.records_of_plain rfl, Handler.recorded, stmtsImage_recorded _ body hat.children parts]
      rfl
termination_by structural handler => handler

theorem finallyImage_recorded (i : Nat) :
    ∀ (f : Option (List Script.Stmt)) {code : Option (List Stmt)} {j : Nat},
      t.AtAll i (Node.ofStmts (f.getD [])) → FinallyImage r t.ns i f code j →
      recordedFinally code = t.recordsIn i (Node.ofStmts (f.getD []))
  | none, _, _, _, .none => rfl
  | some body, _, _, hat, .some parts => stmtsImage_recorded i body hat parts
termination_by structural f => f

theorem casesImage_recorded (i : Nat) :
    ∀ (l : List Script.Case) {codes : List Case} {j : Nat}, t.AtAll i (l.map .case) →
      Row Node.case (CaseImage r t.ns) i l codes j →
      recordedCases codes = t.recordsIn i (l.map .case)
  | [], _, _, _, .nil => rfl
  | c :: rest, _, _, hat, .cons head tail => by
      obtain ⟨hc, hafter, hrest⟩ := hat.uncons
      rw [recordedCases, caseImage_recorded i c hc head, casesImage_recorded _ rest hrest tail, ← hafter]
      rfl
termination_by structural l => l

theorem caseImage_recorded (i : Nat) :
    ∀ (c : Script.Case) {code : Case}, t.At i (.case c) → CaseImage r t.ns i c code →
      code.recorded = t.records (.case c) i
  | ⟨test, body⟩, _, hat, .mk first parts => by
      have hparts := hat.children
      rw [Node.children, IndexedTree.atAll_append] at hparts
      obtain ⟨htest, hbody⟩ := hparts
      have hlength : (Node.ofExpr? test).length = test.toList.length := List.length_map ..
      have hj := first.after htest
      rw [hlength, hj] at hbody
      rw [IndexedTree.records_of_plain rfl, Case.recorded, expr?Image_recorded htest first,
        stmtsImage_recorded _ body hbody parts]
      simp [Node.contributes, Node.recording, Node.children, IndexedTree.recordsIn_append, hlength, hj]
termination_by structural c => c

end

/-! ## Functions -/

/-- The closures of the declarations come first, each under the position of its declaration. -/
theorem hoistedImage_recorded {functions : List (String × Nat)} {hoisted : List Hoisted}
    (h : List.Forall₂ (HoistedImage r t.ns) functions hoisted) :
    hoisted.flatMap (fun x => x.value.recorded) = functions.map Prod.snd := by
  induction h with
  | nil => rfl
  | cons head tail ih =>
      cases head with
      | mk hname closure =>
          rw [List.flatMap_cons, List.map_cons, ih, closureImage_recorded closure]
          rfl

theorem funcImage_recorded {n : Node} {f : Script.Func} {g : Func} (hr : r.Leads t) (hat : t.At i n)
    (h : FuncImage r t.ns i n f g) :
    g.recorded = (t.declarationsOf f i).functions.map Prod.snd ++
      t.recordsIn (i + 1) (Node.ofStmts f.body) := by
  obtain ⟨-, -, hhoisted, hbody, j, hrow⟩ := h.taken hr hat
  rw [Func.recorded, hoistedImage_recorded hhoisted, stmtsImage_recorded _ _ hbody hrow]

/-- What any function in instrumented code may record, in order: the functions that it declares, as they
are declared, and then what the walk of its body meets. -/
theorem recorded_eq_records (calls : List Registration) {f : Script.Func} {ns : String}
    {inherited : List String} {isProgram : Bool} {code g : Func} {r : Registry}
    (h : instrument f (Registry.empty.register calls) ns inherited isProgram = (.ok code, r))
    (hg : code.Holds g) :
    ∃ t n d, t = ((Registry.empty.register calls).assign f ns isProgram).1 ∧
      r.tree ns g.index = .ok t ∧ t.node? g.index = some n ∧ n.func?.isSome = true ∧
        t.declarations? g.index = some d ∧
          g.recorded = d.functions.map Prod.snd ++ t.recordsIn (g.index + 1) n.children := by
  have hbuilt := Registry.built_register calls
  have hok : (instrument f (Registry.empty.register calls) ns inherited isProgram).1 = .ok code :=
    congrArg Prod.fst h
  have hr : r = ((Registry.empty.register calls).assign f ns isProgram).2 := by
    rw [← (instrument_eq_ok hok).2, h]
  have hleads := leads_assign hbuilt f ns isProgram
  obtain ⟨n, s, hat, himage⟩ := exists_image_of_holds hbuilt hok hg
  have htree := hbuilt.tree_assign f ns isProgram hat.owns
  rw [← hr] at htree
  generalize (Registry.empty.register calls).assign f ns isProgram = registered at *
  have hfunc : n.func? = some s := (himage.taken hleads hat).1
  have hdeclarations : registered.1.declarations? g.index =
      some (registered.1.declarationsOf s g.index) := by
    rw [IndexedTree.declarations?, hat.func?, hfunc]
    rfl
  refine ⟨registered.1, n, _, rfl, htree, hat.node?, ?_, hdeclarations, ?_⟩
  · rw [hfunc]
    rfl
  · rw [Node.children_of_func? hfunc]
    exact funcImage_recorded hleads hat himage

/-- The function that `selfCallingCode` makes a closure of. -/
def selfCallingInner : Func :=
  ⟨none, "default", 3, ["x"], [], none, [],
    [.ret (some (.call 5 (.ref (.fixed (.slot 1) "g")) [.ref (.fixed (.slot 0) "x")]))], false⟩

theorem holds_selfCallingInner : selfCallingCode.Holds selfCallingInner := by
  let value : Expr := .closure selfCallingInner
  let decl : Declarator := ⟨2, .fixed (.slot 0) "g", some value⟩
  have hstmt : Piece.stmt (.var [decl]) ∈ (Piece.func selfCallingCode).parts := List.mem_cons_self
  have hdecl : Piece.declarator decl ∈ (Piece.stmt (.var [decl])).parts := List.mem_cons_self
  have hvalue : Piece.expr value ∈ (Piece.declarator decl).parts := List.mem_cons_self
  have hfunc : Piece.func selfCallingInner ∈ (Piece.expr value).parts := List.mem_cons_self
  exact ((Relation.ReflTransGen.single hstmt).tail hdecl).tail hvalue |>.tail hfunc

/-- The function that the program makes a closure of records its one call. -/
theorem recorded_selfCallingInner :
    ∃ t n d, t = (Registry.empty.assign selfCallingProgram.toFunc "default" true).1 ∧
      (⟨[selfCallingTree]⟩ : Registry).tree "default" 3 = .ok t ∧ t.node? 3 = some n ∧
        n.func?.isSome = true ∧ t.declarations? 3 = some d ∧
          [5] = d.functions.map Prod.snd ++ t.recordsIn 4 n.children :=
  recorded_eq_records [] instrument_selfCalling holds_selfCallingInner

end Code

end Resumption
