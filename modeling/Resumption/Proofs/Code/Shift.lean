import Resumption.Proofs.Code.Lowering

/-!
# Lowering and shifts

A tree that is registered further behind gets larger positions, and nothing else about it changes.
Instrumented code is moved by adding to every position that it carries; lowering a tree that has been
moved gives the moved code, so that the same source gives the same code in any two registries, up to the
distance of its positions.
-/

namespace Resumption

open Script

/-! ## Moved trees -/

/-- The same tree, registered further behind. -/
def IndexedTree.moved (t : IndexedTree) (d : Nat) : IndexedTree := { t with base := t.base + d }

def Declaration.shift (d : Nat) : Declaration → Declaration
  | .var name => .var name
  | .function name i => .function name (i + d)

/-- Named positions, moved. -/
def shiftNamed (d : Nat) (l : List (String × Nat)) : List (String × Nat) :=
  l.map (fun x => (x.1, x.2 + d))

namespace IndexedTree

variable {t : IndexedTree} {d i k : Nat} {n : Node} {l : List Node}

@[simp] theorem size_moved (t : IndexedTree) (d i : Nat) : (t.moved d).size (i + d) = t.size i := by
  simp [size, moved, Nat.add_sub_add_right]

@[simp] theorem after_moved (t : IndexedTree) (d i : Nat) :
    (t.moved d).after (i + d) = t.after i + d := by
  rw [after, after, size_moved, Nat.add_right_comm]

@[simp] theorem afterMany_moved (t : IndexedTree) (d k i : Nat) :
    (t.moved d).afterMany k (i + d) = t.afterMany k i + d := by
  induction k generalizing i with
  | zero => rfl
  | succ k ih => rw [afterMany_succ, afterMany_succ, after_moved, ih]

/-- Behind a part that may be missing. -/
theorem after?_moved (t : IndexedTree) (d i : Nat) (present : Bool) :
    (if present then (t.moved d).after (i + d) else i + d) =
      (if present then t.after i else i) + d := by
  cases present
  · rfl
  · exact t.after_moved d i

theorem declares_moved (s : Stmt) (d i : Nat) :
    s.declares (i + d) = (s.declares i).map (.shift d) := by
  unfold Stmt.declares
  split <;> try simp [Declaration.shift, Function.comp_def]
  split <;> rfl

/-- Declarations move with the tree. -/
theorem declared_moved (t : IndexedTree) (d : Nat) (n : Node) (i : Nat) :
    (t.moved d).declared n (i + d) = (t.declared n i).map (.shift d) := by
  have hin : ∀ (l : List Node), (∀ c ∈ l, c ∈ n.children) → ∀ i,
      (t.moved d).declaredIn (i + d) l = (t.declaredIn i l).map (.shift d) := by
    intro l
    induction l with
    | nil => exact fun _ _ => rfl
    | cons c l ih =>
        intro hl i
        obtain ⟨hc, hl⟩ := List.forall_mem_cons.1 hl
        rw [declaredIn_cons, declaredIn_cons, after_moved, ih hl, List.map_append,
          declared_moved t d c i]
  rw [declared_eq, declared_eq, Nat.add_right_comm i d 1, hin n.children (fun _ h => h)]
  cases n with
  | stmt s =>
      rw [Node.declares, Node.declares, declares_moved, List.map_append]
      split <;> rfl
  | _ => rfl
termination_by n.weight
decreasing_by exact Node.weight_lt_of_mem_children hc

theorem declaredIn_moved (t : IndexedTree) (d i : Nat) (l : List Node) :
    (t.moved d).declaredIn (i + d) l = (t.declaredIn i l).map (.shift d) := by
  induction l generalizing i with
  | nil => rfl
  | cons n l ih =>
      rw [declaredIn_cons, declaredIn_cons, after_moved, ih, List.map_append, declared_moved]

end IndexedTree

/-- A function keeps its variables, and its functions move. -/
theorem Declarations.ofList_shift (l : List Declaration) (d : Nat) :
    Declarations.ofList (l.map (.shift d)) =
      ⟨(Declarations.ofList l).vars, shiftNamed d (Declarations.ofList l).functions⟩ := by
  have hgo : ∀ (l : List Declaration) (vars : List String) (functions : List (String × Nat)),
      (l.map (.shift d)).foldl Declarations.add ⟨vars, shiftNamed d functions⟩ =
        ⟨(l.foldl Declarations.add ⟨vars, functions⟩).vars,
          shiftNamed d (l.foldl Declarations.add ⟨vars, functions⟩).functions⟩ := by
    intro l
    induction l with
    | nil => exact fun _ _ => rfl
    | cons x l ih =>
        intro vars functions
        rw [List.map_cons, List.foldl_cons, List.foldl_cons]
        cases x with
        | var name =>
            simp only [Declaration.shift, Declarations.add]
            split <;> exact ih _ _
        | function name i =>
            have hadd : Declarations.add ⟨vars, shiftNamed d functions⟩ (.function name (i + d)) =
                ⟨vars, shiftNamed d (Declarations.add ⟨vars, functions⟩ (.function name i)).functions⟩ := by
              simp [Declarations.add, shiftNamed, List.filter_map, Function.comp_def]
            rw [Declaration.shift, hadd]
            exact ih _ _
  exact hgo l [] []

theorem IndexedTree.declarationsOf_moved (t : IndexedTree) (d : Nat) (f : Func) (i : Nat) :
    (t.moved d).declarationsOf f (i + d) =
      ⟨(t.declarationsOf f i).vars, shiftNamed d (t.declarationsOf f i).functions⟩ := by
  rw [declarationsOf, declarationsOf, ← Declarations.ofList_shift, Nat.add_right_comm i d 1]
  exact congrArg Declarations.ofList (t.declaredIn_moved d (i + 1) (Node.ofStmts f.body))

theorem Declarations.names_shift (x : Declarations) (d : Nat) (params : List String) :
    Declarations.names ⟨x.vars, shiftNamed d x.functions⟩ params = x.names params := by
  simp [Declarations.names, shiftNamed, Function.comp_def]

namespace Code

/-! ## Moved code -/

mutual

/-- Adds to every position in an expression. -/
def Expr.shift (d : Nat) : Expr → Expr
  | .num v => .num v
  | .str v => .str v
  | .bool v => .bool v
  | .null => .null
  | .ref r => .ref r
  | .this => .this
  | .arguments => .arguments
  | .array elements => .array (shiftExprs d elements)
  | .object props => .object (shiftProps d props)
  | .closure f => .closure (f.shift d)
  | .plain ns i => .plain ns (i + d)
  | .unary op arg => .unary op (arg.shift d)
  | .delete target => .delete (target.shift d)
  | .update i op before target => .update (i + d) op before (target.shift d)
  | .binary op left right => .binary op (left.shift d) (right.shift d)
  | .logical op left right => .logical op (left.shift d) (right.shift d)
  | .assign i op target value => .assign (i + d) op (target.shift d) (value.shift d)
  | .conditional test cons alt => .conditional (test.shift d) (cons.shift d) (alt.shift d)
  | .call i callee args => .call (i + d) (callee.shift d) (shiftExprs d args)
  | .construct i callee args => .construct (i + d) (callee.shift d) (shiftExprs d args)
  | .member x key => .member (x.shift d) (key.shift d)
  | .sequence exprs => .sequence (shiftExprs d exprs)
termination_by structural e => e

def Key.shift (d : Nat) : Key → Key
  | .name name => .name name
  | .computed e => .computed (e.shift d)
termination_by structural k => k

def Target.shift (d : Nat) : Target → Target
  | .ref r => .ref r
  | .member x key => .member (x.shift d) (key.shift d)
termination_by structural t => t

def shiftExprs (d : Nat) : List Expr → List Expr
  | [] => []
  | e :: rest => e.shift d :: shiftExprs d rest
termination_by structural l => l

def shiftExpr? (d : Nat) : Option Expr → Option Expr
  | none => none
  | some e => some (e.shift d)
termination_by structural e => e

def Property.shift (d : Nat) : Property → Property
  | ⟨key, kind, value⟩ => ⟨key, kind, value.shift d⟩
termination_by structural p => p

def shiftProps (d : Nat) : List Property → List Property
  | [] => []
  | p :: rest => p.shift d :: shiftProps d rest
termination_by structural l => l

def Declarator.shift (d : Nat) : Declarator → Declarator
  | ⟨i, target, init⟩ => ⟨i + d, target, shiftExpr? d init⟩
termination_by structural x => x

def shiftDecls (d : Nat) : List Declarator → List Declarator
  | [] => []
  | x :: rest => x.shift d :: shiftDecls d rest
termination_by structural l => l

def ForInit.shift (d : Nat) : ForInit → ForInit
  | .absent => .absent
  | .vars decls => .vars (shiftDecls d decls)
  | .expr e => .expr (e.shift d)
termination_by structural x => x

def Handler.shift (d : Nat) : Handler → Handler
  | ⟨i, param, body⟩ => ⟨i + d, param, shiftStmts d body⟩
termination_by structural h => h

def shiftHandler? (d : Nat) : Option Handler → Option Handler
  | none => none
  | some h => some (h.shift d)
termination_by structural h => h

def Case.shift (d : Nat) : Case → Case
  | ⟨test, body⟩ => ⟨shiftExpr? d test, shiftStmts d body⟩
termination_by structural c => c

def shiftCases (d : Nat) : List Case → List Case
  | [] => []
  | c :: rest => c.shift d :: shiftCases d rest
termination_by structural l => l

def Stmt.shift (d : Nat) : Stmt → Stmt
  | .var decls => .var (shiftDecls d decls)
  | .expr e => .expr (e.shift d)
  | .block body => .block (shiftStmts d body)
  | .branch test cons alt => .branch (test.shift d) (cons.shift d) (shiftStmt? d alt)
  | .forLoop init test update body =>
    .forLoop (init.shift d) (shiftExpr? d test) (shiftExpr? d update) (body.shift d)
  | .forIn i target right body => .forIn (i + d) (target.shift d) (right.shift d) (body.shift d)
  | .whileLoop test body => .whileLoop (test.shift d) (body.shift d)
  | .doLoop body test => .doLoop (body.shift d) (test.shift d)
  | .ret value => .ret (shiftExpr? d value)
  | .brk => .brk
  | .cont => .cont
  | .throwing value => .throwing (value.shift d)
  | .attempt i block handler finalizer =>
    .attempt (i + d) (shiftStmts d block) (shiftHandler? d handler) (shiftFinally d finalizer)
  | .switch i discriminant cases => .switch (i + d) (discriminant.shift d) (shiftCases d cases)
  | .withScope x body => .withScope (x.shift d) (body.shift d)
  | .debugger i => .debugger (i + d)
  | .empty => .empty
termination_by structural s => s

def shiftStmt? (d : Nat) : Option Stmt → Option Stmt
  | none => none
  | some s => some (s.shift d)
termination_by structural s => s

def shiftStmts (d : Nat) : List Stmt → List Stmt
  | [] => []
  | s :: rest => s.shift d :: shiftStmts d rest
termination_by structural l => l

def shiftFinally (d : Nat) : Option (List Stmt) → Option (List Stmt)
  | none => none
  | some body => some (shiftStmts d body)
termination_by structural f => f

def Hoisted.shift (d : Nat) : Hoisted → Hoisted
  | ⟨name, value⟩ => ⟨name, value.shift d⟩
termination_by structural h => h

def shiftHoisted (d : Nat) : List Hoisted → List Hoisted
  | [] => []
  | h :: rest => h.shift d :: shiftHoisted d rest
termination_by structural l => l

/-- Adds to every position in a function, those of its closures included. -/
def Func.shift (d : Nat) : Func → Func
  | ⟨name, ns, i, params, declared, selfName, hoisted, body, isProgram⟩ =>
    ⟨name, ns, i + d, params, declared, selfName, shiftHoisted d hoisted, shiftStmts d body, isProgram⟩
termination_by structural f => f

end

def LoweringError.shift (d : Nat) : LoweringError → LoweringError
  | .unsupported construct i => .unsupported construct (i + d)
  | .invalidTarget i => .invalidTarget (i + d)

/-! ## Moved twice -/

section

variable (a b : Nat)

mutual

theorem Expr.shift_shift : ∀ e : Expr, (e.shift a).shift b = e.shift (a + b)
  | .num _ | .str _ | .bool _ | .null | .ref _ | .this | .arguments => rfl
  | .array elements => by simp only [Expr.shift, shiftExprs_shift elements]
  | .object props => by simp only [Expr.shift, shiftProps_shift props]
  | .closure f => by simp only [Expr.shift, Func.shift_shift f]
  | .plain ns i => by simp only [Expr.shift, Nat.add_assoc]
  | .unary op arg => by simp only [Expr.shift, Expr.shift_shift arg]
  | .delete target => by simp only [Expr.shift, Target.shift_shift target]
  | .update i op before target => by simp only [Expr.shift, Nat.add_assoc, Target.shift_shift target]
  | .binary op left right => by
      simp only [Expr.shift, Expr.shift_shift left, Expr.shift_shift right]
  | .logical op left right => by
      simp only [Expr.shift, Expr.shift_shift left, Expr.shift_shift right]
  | .assign i op target value => by
      simp only [Expr.shift, Nat.add_assoc, Target.shift_shift target, Expr.shift_shift value]
  | .conditional test cons alt => by
      simp only [Expr.shift, Expr.shift_shift test, Expr.shift_shift cons, Expr.shift_shift alt]
  | .call i callee args => by
      simp only [Expr.shift, Nat.add_assoc, Expr.shift_shift callee, shiftExprs_shift args]
  | .construct i callee args => by
      simp only [Expr.shift, Nat.add_assoc, Expr.shift_shift callee, shiftExprs_shift args]
  | .member x key => by simp only [Expr.shift, Expr.shift_shift x, Key.shift_shift key]
  | .sequence exprs => by simp only [Expr.shift, shiftExprs_shift exprs]
termination_by structural e => e

theorem Key.shift_shift : ∀ key : Key, (key.shift a).shift b = key.shift (a + b)
  | .name _ => rfl
  | .computed e => by simp only [Key.shift, Expr.shift_shift e]
termination_by structural key => key

theorem Target.shift_shift : ∀ x : Target, (x.shift a).shift b = x.shift (a + b)
  | .ref _ => rfl
  | .member x key => by simp only [Target.shift, Expr.shift_shift x, Key.shift_shift key]
termination_by structural x => x

theorem shiftExprs_shift : ∀ l : List Expr, shiftExprs b (shiftExprs a l) = shiftExprs (a + b) l
  | [] => rfl
  | e :: rest => by simp only [shiftExprs, Expr.shift_shift e, shiftExprs_shift rest]
termination_by structural l => l

theorem shiftExpr?_shift : ∀ e : Option Expr, shiftExpr? b (shiftExpr? a e) = shiftExpr? (a + b) e
  | none => rfl
  | some e => by simp only [shiftExpr?, Expr.shift_shift e]
termination_by structural e => e

theorem Property.shift_shift : ∀ p : Property, (p.shift a).shift b = p.shift (a + b)
  | ⟨_, _, value⟩ => by simp only [Property.shift, Expr.shift_shift value]
termination_by structural p => p

theorem shiftProps_shift : ∀ l : List Property, shiftProps b (shiftProps a l) = shiftProps (a + b) l
  | [] => rfl
  | p :: rest => by simp only [shiftProps, Property.shift_shift p, shiftProps_shift rest]
termination_by structural l => l

theorem Declarator.shift_shift : ∀ x : Declarator, (x.shift a).shift b = x.shift (a + b)
  | ⟨_, _, init⟩ => by simp only [Declarator.shift, Nat.add_assoc, shiftExpr?_shift init]
termination_by structural x => x

theorem shiftDecls_shift : ∀ l : List Declarator, shiftDecls b (shiftDecls a l) = shiftDecls (a + b) l
  | [] => rfl
  | x :: rest => by simp only [shiftDecls, Declarator.shift_shift x, shiftDecls_shift rest]
termination_by structural l => l

theorem ForInit.shift_shift : ∀ x : ForInit, (x.shift a).shift b = x.shift (a + b)
  | .absent => rfl
  | .vars decls => by simp only [ForInit.shift, shiftDecls_shift decls]
  | .expr e => by simp only [ForInit.shift, Expr.shift_shift e]
termination_by structural x => x

theorem Handler.shift_shift : ∀ h : Handler, (h.shift a).shift b = h.shift (a + b)
  | ⟨_, _, body⟩ => by simp only [Handler.shift, Nat.add_assoc, shiftStmts_shift body]
termination_by structural h => h

theorem shiftHandler?_shift :
    ∀ h : Option Handler, shiftHandler? b (shiftHandler? a h) = shiftHandler? (a + b) h
  | none => rfl
  | some h => by simp only [shiftHandler?, Handler.shift_shift h]
termination_by structural h => h

theorem Case.shift_shift : ∀ c : Case, (c.shift a).shift b = c.shift (a + b)
  | ⟨test, body⟩ => by simp only [Case.shift, shiftExpr?_shift test, shiftStmts_shift body]
termination_by structural c => c

theorem shiftCases_shift : ∀ l : List Case, shiftCases b (shiftCases a l) = shiftCases (a + b) l
  | [] => rfl
  | c :: rest => by simp only [shiftCases, Case.shift_shift c, shiftCases_shift rest]
termination_by structural l => l

theorem Stmt.shift_shift : ∀ s : Stmt, (s.shift a).shift b = s.shift (a + b)
  | .brk | .cont | .empty => rfl
  | .var decls => by simp only [Stmt.shift, shiftDecls_shift decls]
  | .expr e => by simp only [Stmt.shift, Expr.shift_shift e]
  | .block body => by simp only [Stmt.shift, shiftStmts_shift body]
  | .branch test cons alt => by
      simp only [Stmt.shift, Expr.shift_shift test, Stmt.shift_shift cons, shiftStmt?_shift alt]
  | .forLoop init test update body => by
      simp only [Stmt.shift, ForInit.shift_shift init, shiftExpr?_shift test, shiftExpr?_shift update,
        Stmt.shift_shift body]
  | .forIn i target right body => by
      simp only [Stmt.shift, Nat.add_assoc, Target.shift_shift target, Expr.shift_shift right,
        Stmt.shift_shift body]
  | .whileLoop test body => by simp only [Stmt.shift, Expr.shift_shift test, Stmt.shift_shift body]
  | .doLoop body test => by simp only [Stmt.shift, Expr.shift_shift test, Stmt.shift_shift body]
  | .ret value => by simp only [Stmt.shift, shiftExpr?_shift value]
  | .throwing value => by simp only [Stmt.shift, Expr.shift_shift value]
  | .attempt i block handler finalizer => by
      simp only [Stmt.shift, Nat.add_assoc, shiftStmts_shift block, shiftHandler?_shift handler,
        shiftFinally_shift finalizer]
  | .switch i discriminant cases => by
      simp only [Stmt.shift, Nat.add_assoc, Expr.shift_shift discriminant, shiftCases_shift cases]
  | .withScope x body => by simp only [Stmt.shift, Expr.shift_shift x, Stmt.shift_shift body]
  | .debugger i => by simp only [Stmt.shift, Nat.add_assoc]
termination_by structural s => s

theorem shiftStmt?_shift : ∀ s : Option Stmt, shiftStmt? b (shiftStmt? a s) = shiftStmt? (a + b) s
  | none => rfl
  | some s => by simp only [shiftStmt?, Stmt.shift_shift s]
termination_by structural s => s

theorem shiftStmts_shift : ∀ l : List Stmt, shiftStmts b (shiftStmts a l) = shiftStmts (a + b) l
  | [] => rfl
  | s :: rest => by simp only [shiftStmts, Stmt.shift_shift s, shiftStmts_shift rest]
termination_by structural l => l

theorem shiftFinally_shift :
    ∀ f : Option (List Stmt), shiftFinally b (shiftFinally a f) = shiftFinally (a + b) f
  | none => rfl
  | some body => by simp only [shiftFinally, shiftStmts_shift body]
termination_by structural f => f

theorem Hoisted.shift_shift : ∀ h : Hoisted, (h.shift a).shift b = h.shift (a + b)
  | ⟨_, value⟩ => by simp only [Hoisted.shift, Expr.shift_shift value]
termination_by structural h => h

theorem shiftHoisted_shift :
    ∀ l : List Hoisted, shiftHoisted b (shiftHoisted a l) = shiftHoisted (a + b) l
  | [] => rfl
  | h :: rest => by simp only [shiftHoisted, Hoisted.shift_shift h, shiftHoisted_shift rest]
termination_by structural l => l

theorem Func.shift_shift : ∀ f : Func, (f.shift a).shift b = f.shift (a + b)
  | ⟨_, _, _, _, _, _, hoisted, body, _⟩ => by
      simp only [Func.shift, Nat.add_assoc, shiftHoisted_shift hoisted, shiftStmts_shift body]
termination_by structural f => f

end

theorem LoweringError.shift_shift (e : LoweringError) : (e.shift a).shift b = e.shift (a + b) := by
  cases e <;> simp only [LoweringError.shift, Nat.add_assoc]

end

/-! ## Lowering a moved tree -/

/-- What lowering says about a tree, moved: code or error. -/
def Lowered.shift {α β : Type} (d : Nat) (f : α → β) : Lowered α → Lowered β
  | .ok a => .ok (f a)
  | .error e => .error (e.shift d)

def Found.shift (d : Nat) (x : Found) : Found := ⟨x.index + d, Lowered.shift d (Expr.shift d) x.value⟩

def LoweredBody.shift {α β : Type} (d : Nat) (f : α → β) (x : LoweredBody α) : LoweredBody β :=
  ⟨x.found.map (Found.shift d), Lowered.shift d f x.code⟩

section

variable {α α' β β' γ γ' : Type} {d : Nat} {s : α → α'} {u : β → β'} {v : γ → γ'}

theorem Lowered.shift_bind {x : Lowered α} {g : α → Lowered β} {g' : α' → Lowered β'}
    (h : ∀ a, g' (s a) = Lowered.shift d u (g a)) :
    Lowered.shift d s x >>= g' = Lowered.shift d u (x >>= g) := by
  cases x with
  | ok a => exact h a
  | error e => rfl

theorem LoweredBody.shift_map {x : LoweredBody α} {f : α → β} {f' : α' → β'}
    (h : ∀ a, f' (s a) = u (f a)) : (x.shift d s).map f' = (x.map f).shift d u := by
  obtain ⟨found, code⟩ := x
  cases code with
  | ok a => simp [LoweredBody.map, LoweredBody.shift, Lowered.shift, Functor.map, Except.map, h]
  | error e => rfl

theorem LoweredBody.shift_both {x : LoweredBody α} {y : LoweredBody β} {f : α → β → γ}
    {f' : α' → β' → γ'} (h : ∀ a b, f' (s a) (u b) = v (f a b)) :
    LoweredBody.both f' (x.shift d s) (y.shift d u) = (LoweredBody.both f x y).shift d v := by
  simp only [LoweredBody.both, LoweredBody.shift, List.map_append]
  congr 1
  exact Lowered.shift_bind fun a => Lowered.shift_bind fun b => congrArg Except.ok (h a b)

theorem LoweredBody.shift_pair (x : LoweredBody α) (y : LoweredBody β) :
    LoweredBody.both Prod.mk (x.shift d s) (y.shift d u) =
      (LoweredBody.both Prod.mk x y).shift d (Prod.map s u) :=
  LoweredBody.shift_both fun _ _ => rfl

theorem LoweredBody.shift_plain (x : Lowered α) :
    LoweredBody.plain (Lowered.shift d s x) = (LoweredBody.plain x).shift d s := rfl

theorem LoweredBody.shift_behind {x : Lowered α} {y : LoweredBody β} {f : α → β → γ}
    {f' : α' → β' → γ'} (h : ∀ a b, f' (s a) (u b) = v (f a b)) :
    LoweredBody.behind f' (Lowered.shift d s x) (y.shift d u) = (LoweredBody.behind f x y).shift d v :=
  LoweredBody.shift_both (x := .plain x) (y := y) h

end

/-- A head that has been lowered takes its body in. -/
theorem LoweredBody.shift_into {α α' β β' : Type} {d : Nat} {s : α → α'} {u : β → β'} {f : α → β}
    {f' : α' → β'} {y : LoweredBody α} (h : ∀ a, f' (s a) = u (f a)) :
    LoweredBody.behind id (.ok f') (y.shift d s) = (LoweredBody.behind id (.ok f) y).shift d u :=
  LoweredBody.shift_map h

/-- The closures of declarations move with the positions of the declarations. -/
theorem hoist_shift (d : Nat) (functions : List (String × Nat)) (found : List Found) :
    hoist (shiftNamed d functions) (found.map (Found.shift d)) =
      Lowered.shift d (shiftHoisted d) (hoist functions found) := by
  induction functions with
  | nil => rfl
  | cons x functions ih =>
      obtain ⟨name, i⟩ := x
      have hfind : (found.map (Found.shift d)).find? (fun x => x.index == i + d) =
          (found.find? (fun x => x.index == i)).map (Found.shift d) := by
        rw [List.find?_map]
        congr 2
        funext x
        rw [Function.comp_apply, Found.shift, Bool.eq_iff_iff, beq_iff_eq, beq_iff_eq,
          Nat.add_right_cancel_iff]
      have hcons : shiftNamed d ((name, i) :: functions) = (name, i + d) :: shiftNamed d functions := rfl
      rw [hcons, hoist_cons, hoist_cons, hfind, ih]
      cases found.find? (fun x => x.index == i) with
      | none => rfl
      | some x => exact Lowered.shift_bind fun _ => Lowered.shift_bind fun _ => rfl

section

set_option linter.unusedVariables false

variable (t : IndexedTree) (d : Nat)

mutual

theorem lowerExpr_moved (scopes : Scopes) (i : Nat) :
    ∀ e : Script.Expr, lowerExpr (t.moved d) scopes (i + d) e =
      Lowered.shift d (Expr.shift d) (lowerExpr t scopes i e)
  | .num _ | .str _ | .bool _ | .null | .this => rfl
  | .ident name => by
      simp only [lowerExpr, Scopes.read]
      split <;> rfl
  | .array elements => by
      rw [lowerExpr, lowerExpr, Nat.add_right_comm i d 1, lowerExprs_moved]
      exact Lowered.shift_bind fun _ => rfl
  | .object props => by
      rw [lowerExpr, lowerExpr, Nat.add_right_comm i d 1, lowerProps_moved]
      exact Lowered.shift_bind fun _ => rfl
  | .function f => by
      rw [lowerExpr, lowerExpr, lowerFunc_moved]
      split
      · rfl
      · exact Lowered.shift_bind fun _ => rfl
  | .unary op arg => by
      rw [lowerExpr, lowerExpr, Nat.add_right_comm i d 1, lowerTarget_moved, lowerExpr_moved]
      split <;> exact Lowered.shift_bind fun _ => rfl
  | .update op before arg => by
      rw [lowerExpr, lowerExpr, Nat.add_right_comm i d 1, lowerTarget_moved]
      exact Lowered.shift_bind fun _ => rfl
  | .binary op left right => by
      rw [lowerExpr, lowerExpr, Nat.add_right_comm i d 1, t.after_moved, lowerExpr_moved scopes _ left,
        lowerExpr_moved scopes _ right]
      exact Lowered.shift_bind fun _ => Lowered.shift_bind fun _ => rfl
  | .logical op left right => by
      rw [lowerExpr, lowerExpr, Nat.add_right_comm i d 1, t.after_moved, lowerExpr_moved scopes _ left,
        lowerExpr_moved scopes _ right]
      exact Lowered.shift_bind fun _ => Lowered.shift_bind fun _ => rfl
  | .assign op target value => by
      rw [lowerExpr, lowerExpr, Nat.add_right_comm i d 1, t.after_moved, lowerTarget_moved,
        lowerExpr_moved]
      exact Lowered.shift_bind fun _ => Lowered.shift_bind fun _ => rfl
  | .conditional test cons alt => by
      simp only [lowerExpr, Nat.add_right_comm i d 1, t.after_moved]
      rw [lowerExpr_moved scopes _ test, lowerExpr_moved scopes _ cons, lowerExpr_moved scopes _ alt]
      exact Lowered.shift_bind fun _ => Lowered.shift_bind fun _ => Lowered.shift_bind fun _ => rfl
  | .call callee args => by
      rw [lowerExpr, lowerExpr, Nat.add_right_comm i d 1, t.after_moved, lowerExpr_moved,
        lowerExprs_moved]
      exact Lowered.shift_bind fun _ => Lowered.shift_bind fun _ => rfl
  | .construct callee args => by
      rw [lowerExpr, lowerExpr, Nat.add_right_comm i d 1, t.after_moved, lowerExpr_moved,
        lowerExprs_moved]
      exact Lowered.shift_bind fun _ => Lowered.shift_bind fun _ => rfl
  | .member object property => by
      rw [lowerExpr, lowerExpr, Nat.add_right_comm i d 1, lowerExpr_moved]
      exact Lowered.shift_bind fun _ => rfl
  | .index object key => by
      rw [lowerExpr, lowerExpr, Nat.add_right_comm i d 1, t.after_moved, lowerExpr_moved scopes _ object,
        lowerExpr_moved scopes _ key]
      exact Lowered.shift_bind fun _ => Lowered.shift_bind fun _ => rfl
  | .sequence exprs => by
      rw [lowerExpr, lowerExpr, Nat.add_right_comm i d 1, lowerExprs_moved]
      exact Lowered.shift_bind fun _ => rfl
termination_by structural e => e

theorem lowerTarget_moved (scopes : Scopes) (i : Nat) :
    ∀ e : Script.Expr, lowerTarget (t.moved d) scopes (i + d) e =
      Lowered.shift d (Target.shift d) (lowerTarget t scopes i e)
  | .ident name => rfl
  | .member object property => by
      rw [lowerTarget, lowerTarget, Nat.add_right_comm i d 1, lowerExpr_moved]
      exact Lowered.shift_bind fun _ => rfl
  | .index object key => by
      rw [lowerTarget, lowerTarget, Nat.add_right_comm i d 1, t.after_moved,
        lowerExpr_moved scopes _ object, lowerExpr_moved scopes _ key]
      exact Lowered.shift_bind fun _ => Lowered.shift_bind fun _ => rfl
  | .num _ | .str _ | .bool _ | .null | .this | .array _ | .object _ | .function _ | .unary _ _
  | .update _ _ _ | .binary _ _ _ | .logical _ _ _ | .assign _ _ _ | .conditional _ _ _ | .call _ _
  | .construct _ _ | .sequence _ => rfl
termination_by structural e => e

theorem lowerExprs_moved (scopes : Scopes) (i : Nat) :
    ∀ l : List Script.Expr, lowerExprs (t.moved d) scopes (i + d) l =
      Lowered.shift d (shiftExprs d) (lowerExprs t scopes i l)
  | [] => rfl
  | e :: rest => by
      rw [lowerExprs, lowerExprs, t.after_moved, lowerExpr_moved, lowerExprs_moved scopes _ rest]
      exact Lowered.shift_bind fun _ => Lowered.shift_bind fun _ => rfl
termination_by structural l => l

theorem lowerExpr?_moved (scopes : Scopes) (i : Nat) :
    ∀ e : Option Script.Expr, lowerExpr? (t.moved d) scopes (i + d) e =
      Lowered.shift d (shiftExpr? d) (lowerExpr? t scopes i e)
  | none => rfl
  | some e => by
      rw [lowerExpr?, lowerExpr?, lowerExpr_moved]
      exact Lowered.shift_bind fun _ => rfl
termination_by structural e => e

theorem lowerProp_moved (scopes : Scopes) (i : Nat) :
    ∀ p : Script.Property, lowerProp (t.moved d) scopes (i + d) p =
      Lowered.shift d (Property.shift d) (lowerProp t scopes i p)
  | ⟨key, kind, value⟩ => by
      rw [lowerProp, lowerProp, Nat.add_right_comm i d 1, lowerExpr_moved]
      exact Lowered.shift_bind fun _ => rfl
termination_by structural p => p

theorem lowerProps_moved (scopes : Scopes) (i : Nat) :
    ∀ l : List Script.Property, lowerProps (t.moved d) scopes (i + d) l =
      Lowered.shift d (shiftProps d) (lowerProps t scopes i l)
  | [] => rfl
  | p :: rest => by
      rw [lowerProps, lowerProps, t.after_moved, lowerProp_moved, lowerProps_moved scopes _ rest]
      exact Lowered.shift_bind fun _ => Lowered.shift_bind fun _ => rfl
termination_by structural l => l

theorem lowerDecl_moved (scopes : Scopes) (i : Nat) :
    ∀ x : Script.Declarator, lowerDecl (t.moved d) scopes (i + d) x =
      Lowered.shift d (Declarator.shift d) (lowerDecl t scopes i x)
  | ⟨name, init⟩ => by
      rw [lowerDecl, lowerDecl, Nat.add_right_comm i d 1, lowerExpr?_moved]
      exact Lowered.shift_bind fun _ => rfl
termination_by structural x => x

theorem lowerDecls_moved (scopes : Scopes) (i : Nat) :
    ∀ l : List Script.Declarator, lowerDecls (t.moved d) scopes (i + d) l =
      Lowered.shift d (shiftDecls d) (lowerDecls t scopes i l)
  | [] => rfl
  | x :: rest => by
      rw [lowerDecls, lowerDecls, t.after_moved, lowerDecl_moved, lowerDecls_moved scopes _ rest]
      exact Lowered.shift_bind fun _ => Lowered.shift_bind fun _ => rfl
termination_by structural l => l

theorem lowerInit_moved (scopes : Scopes) (i : Nat) :
    ∀ x : Script.ForInit, lowerInit (t.moved d) scopes (i + d) x =
      Lowered.shift d (ForInit.shift d) (lowerInit t scopes i x)
  | .absent => rfl
  | .vars decls => by
      rw [lowerInit, lowerInit, lowerDecls_moved]
      exact Lowered.shift_bind fun _ => rfl
  | .expr e => by
      rw [lowerInit, lowerInit, lowerExpr_moved]
      exact Lowered.shift_bind fun _ => rfl
termination_by structural x => x

theorem lowerForTarget_moved (scopes : Scopes) (i : Nat) :
    ∀ x : Script.ForTarget, lowerForTarget (t.moved d) scopes (i + d) x =
      Lowered.shift d (Target.shift d) (lowerForTarget t scopes i x)
  | .var name => rfl
  | .expr e => lowerTarget_moved scopes i e
termination_by structural x => x

theorem lowerStmt_moved (home scopes : Scopes) (i : Nat) :
    ∀ s : Script.Stmt, lowerStmt (t.moved d) home scopes (i + d) s =
      (lowerStmt t home scopes i s).shift d (Stmt.shift d)
  | .empty | .brk none | .cont none | .brk (some _) | .cont (some _) | .debugger | .labeled _ _ => rfl
  | .var decls => by
      rw [lowerStmt, lowerStmt, Nat.add_right_comm i d 1, lowerDecls_moved]
      exact congrArg LoweredBody.plain (Lowered.shift_bind fun _ => rfl)
  | .function f => by
      rw [lowerStmt, lowerStmt, lowerFunc_moved]
      split
      · rfl
      · simp only [LoweredBody.shift, List.map_cons, List.map_nil, Found.shift]
        congr 2
        congr 1
        exact Lowered.shift_bind fun _ => rfl
  | .expr e => by
      rw [lowerStmt, lowerStmt, Nat.add_right_comm i d 1, lowerExpr_moved]
      exact congrArg LoweredBody.plain (Lowered.shift_bind fun _ => rfl)
  | .block body => by
      rw [lowerStmt, lowerStmt, Nat.add_right_comm i d 1, lowerStmts_moved]
      exact LoweredBody.shift_map fun _ => rfl
  | .branch test cons alt => by
      simp only [lowerStmt, Nat.add_right_comm i d 1, t.after_moved]
      rw [lowerExpr_moved, lowerStmt_moved home scopes _ cons, lowerStmt?_moved, LoweredBody.shift_pair]
      exact LoweredBody.shift_behind fun _ _ => rfl
  | .forLoop init test update body => by
      simp only [lowerStmt, Nat.add_right_comm i d 1, t.afterMany_moved, t.after?_moved]
      rw [lowerInit_moved, lowerExpr?_moved scopes _ test, lowerExpr?_moved scopes _ update,
        lowerStmt_moved]
      generalize lowerInit t scopes _ init = x
      generalize lowerExpr? t scopes _ test = y
      generalize lowerExpr? t scopes _ update = z
      rcases x with e | x
      · rfl
      · rcases y with e | y
        · rfl
        · rcases z with e | z
          · rfl
          · exact LoweredBody.shift_into fun _ => rfl
  | .forIn left right body => by
      simp only [lowerStmt, Nat.add_right_comm i d 1, t.after?_moved]
      rw [t.after_moved, lowerForTarget_moved, lowerExpr_moved, lowerStmt_moved]
      generalize lowerForTarget t scopes _ left = x
      generalize lowerExpr t scopes _ right = y
      rcases x with e | x
      · rfl
      · rcases y with e | y
        · rfl
        · exact LoweredBody.shift_into fun _ => rfl
  | .whileLoop test body => by
      rw [lowerStmt, lowerStmt, Nat.add_right_comm i d 1, t.after_moved, lowerExpr_moved,
        lowerStmt_moved home scopes _ body]
      exact LoweredBody.shift_behind fun _ _ => rfl
  | .doLoop body test => by
      rw [lowerStmt, lowerStmt, Nat.add_right_comm i d 1, t.after_moved, lowerExpr_moved,
        lowerStmt_moved home scopes _ body, LoweredBody.shift_plain]
      exact LoweredBody.shift_both fun _ _ => rfl
  | .ret value => by
      rw [lowerStmt, lowerStmt, Nat.add_right_comm i d 1, lowerExpr?_moved]
      exact congrArg LoweredBody.plain (Lowered.shift_bind fun _ => rfl)
  | .throwing value => by
      rw [lowerStmt, lowerStmt, Nat.add_right_comm i d 1, lowerExpr_moved]
      exact congrArg LoweredBody.plain (Lowered.shift_bind fun _ => rfl)
  | .attempt block handler finalizer => by
      simp only [lowerStmt, Nat.add_right_comm i d 1, t.afterMany_moved, t.after?_moved]
      rw [lowerStmts_moved, lowerHandler?_moved, lowerFinally_moved, LoweredBody.shift_pair]
      exact LoweredBody.shift_both fun _ _ => rfl
  | .switch discriminant cases => by
      rw [lowerStmt, lowerStmt, Nat.add_right_comm i d 1, t.after_moved, lowerExpr_moved,
        lowerCases_moved]
      exact LoweredBody.shift_behind fun _ _ => rfl
  | .withScope object body => by
      rw [lowerStmt, lowerStmt, Nat.add_right_comm i d 1, t.after_moved, lowerExpr_moved,
        lowerStmt_moved home _ _ body]
      exact LoweredBody.shift_behind fun _ _ => rfl
termination_by structural s => s

theorem lowerStmt?_moved (home scopes : Scopes) (i : Nat) :
    ∀ s : Option Script.Stmt, lowerStmt? (t.moved d) home scopes (i + d) s =
      (lowerStmt? t home scopes i s).shift d (shiftStmt? d)
  | none => rfl
  | some s => by
      rw [lowerStmt?, lowerStmt?, lowerStmt_moved]
      exact LoweredBody.shift_map fun _ => rfl
termination_by structural s => s

theorem lowerStmts_moved (home scopes : Scopes) (i : Nat) :
    ∀ l : List Script.Stmt, lowerStmts (t.moved d) home scopes (i + d) l =
      (lowerStmts t home scopes i l).shift d (shiftStmts d)
  | [] => rfl
  | s :: rest => by
      rw [lowerStmts, lowerStmts, t.after_moved, lowerStmt_moved, lowerStmts_moved home scopes _ rest]
      exact LoweredBody.shift_both fun _ _ => rfl
termination_by structural l => l

theorem lowerHandler?_moved (home scopes : Scopes) (i : Nat) :
    ∀ h : Option Script.Handler, lowerHandler? (t.moved d) home scopes (i + d) h =
      (lowerHandler? t home scopes i h).shift d (shiftHandler? d)
  | none => rfl
  | some h => by
      rw [lowerHandler?, lowerHandler?, lowerHandler_moved]
      exact LoweredBody.shift_map fun _ => rfl
termination_by structural h => h

theorem lowerHandler_moved (home scopes : Scopes) (i : Nat) :
    ∀ h : Script.Handler, lowerHandler (t.moved d) home scopes (i + d) h =
      (lowerHandler t home scopes i h).shift d (Handler.shift d)
  | ⟨param, body⟩ => by
      rw [lowerHandler, lowerHandler, Nat.add_right_comm i d 1, lowerStmts_moved]
      exact LoweredBody.shift_map fun _ => rfl
termination_by structural h => h

theorem lowerFinally_moved (home scopes : Scopes) (i : Nat) :
    ∀ f : Option (List Script.Stmt), lowerFinally (t.moved d) home scopes (i + d) f =
      (lowerFinally t home scopes i f).shift d (shiftFinally d)
  | none => rfl
  | some body => by
      rw [lowerFinally, lowerFinally, lowerStmts_moved]
      exact LoweredBody.shift_map fun _ => rfl
termination_by structural f => f

theorem lowerCases_moved (home scopes : Scopes) (i : Nat) :
    ∀ l : List Script.Case, lowerCases (t.moved d) home scopes (i + d) l =
      (lowerCases t home scopes i l).shift d (shiftCases d)
  | [] => rfl
  | c :: rest => by
      rw [lowerCases, lowerCases, t.after_moved, lowerCase_moved, lowerCases_moved home scopes _ rest]
      exact LoweredBody.shift_both fun _ _ => rfl
termination_by structural l => l

theorem lowerCase_moved (home scopes : Scopes) (i : Nat) :
    ∀ c : Script.Case, lowerCase (t.moved d) home scopes (i + d) c =
      (lowerCase t home scopes i c).shift d (Case.shift d)
  | ⟨test, body⟩ => by
      simp only [lowerCase, Nat.add_right_comm i d 1, t.after?_moved]
      rw [lowerExpr?_moved, lowerStmts_moved]
      exact LoweredBody.shift_behind fun _ _ => rfl
termination_by structural c => c

theorem lowerFunc_moved (outer : Scopes) (i : Nat) (self : Option String) :
    ∀ f : Script.Func, lowerFunc (t.moved d) outer (i + d) self f =
      Lowered.shift d (Func.shift d) (lowerFunc t outer i self f)
  | ⟨name, params, body⟩ => by
      have hbase : (i + d == (t.moved d).base) = (i == t.base) := by
        rw [Bool.eq_iff_iff, beq_iff_eq, beq_iff_eq]
        exact Nat.add_right_cancel_iff
      simp only [lowerFunc, t.declarationsOf_moved, Declarations.names_shift,
        Nat.add_right_comm i d 1, hbase]
      rw [lowerStmts_moved]
      refine (congrArg (· >>= _) (hoist_shift d _ _)).trans ?_
      exact Lowered.shift_bind fun _ => Lowered.shift_bind fun _ => rfl
termination_by structural f => f

end

end

/-! ## Instrumenting in two registries -/

/-- The construct that is refused does not depend on where the tree would be registered. -/
theorem firstUnsupported_add (base d : Nat) (n : Node) :
    firstUnsupported (base + d) n = (firstUnsupported base n).map (LoweringError.shift d) := by
  have hgo : ∀ (l : List Node) (base : Nat),
      (l.zipIdx (base + d)).findSome? (fun x => (unsupported? x.1).map (.unsupported · x.2)) =
        ((l.zipIdx base).findSome? (fun x => (unsupported? x.1).map (.unsupported · x.2))).map
          (LoweringError.shift d) := by
    intro l
    induction l with
    | nil => exact fun _ => rfl
    | cons m l ih =>
        intro base
        rw [List.zipIdx_cons, List.zipIdx_cons, List.findSome?_cons, List.findSome?_cons,
          Nat.add_right_comm, ih]
        cases unsupported? m <;> rfl
  exact hgo n.preorder base

/-- What is made of a source is what is made of it in an empty registry, moved to where the tree is
registered. -/
theorem instrument_eq_shift (f : Script.Func) (r : Registry) (ns : String) (inherited : List String)
    (isProgram : Bool) :
    (instrument f r ns inherited isProgram).1 =
      Lowered.shift (r.next ns) (Func.shift (r.next ns))
        (instrument f Registry.empty ns inherited isProgram).1 := by
  have hempty : Registry.empty.next ns = 0 := rfl
  have htree : (r.assign f ns isProgram).1 = (Registry.empty.assign f ns isProgram).1.moved (r.next ns) := by
    simp [Registry.assign, IndexedTree.ofFunc, IndexedTree.moved, hempty]
  have hfirst := firstUnsupported_add 0 (r.next ns) (.func f)
  rw [Nat.zero_add] at hfirst
  cases h : firstUnsupported 0 (.func f) with
  | some e =>
      rw [h] at hfirst
      simp only [instrument, hfirst, hempty, h]
      rfl
  | none =>
      rw [h] at hfirst
      have hnone : firstUnsupported (Registry.empty.next ns) (.func f) = none := h
      rw [instrument_of_supported hfirst, instrument_of_supported hnone, htree]
      have hmoved := lowerFunc_moved (Registry.empty.assign f ns isProgram).1 (r.next ns)
        (.ofInherited inherited) 0 none f
      rwa [Nat.zero_add] at hmoved

/-- The same source gives the same in any two registries, but for the positions, which are as far apart as
those at which the tree is registered: where it is registered further behind, they are larger by that
much. -/
theorem instrument_shift (f : Script.Func) (r₁ r₂ : Registry) (ns : String) (inherited : List String)
    (isProgram : Bool) :
    let i₁ := r₁.next ns
    let i₂ := r₂.next ns
    match (instrument f r₁ ns inherited isProgram).1, (instrument f r₂ ns inherited isProgram).1 with
    | .ok code₁, .ok code₂ =>
      if i₁ ≤ i₂ then code₂ = code₁.shift (i₂ - i₁) else code₁ = code₂.shift (i₁ - i₂)
    | .error e₁, .error e₂ =>
      if i₁ ≤ i₂ then e₂ = e₁.shift (i₂ - i₁) else e₁ = e₂.shift (i₁ - i₂)
    | _, _ => False := by
  intro i₁ i₂
  rw [instrument_eq_shift f r₁, instrument_eq_shift f r₂]
  cases (instrument f Registry.empty ns inherited isProgram).1 with
  | ok code =>
      simp only [Lowered.shift, Func.shift_shift]
      split
      · rw [Nat.add_sub_cancel' ‹i₁ ≤ i₂›]
      · rw [Nat.add_sub_cancel' (Nat.le_of_not_le ‹¬i₁ ≤ i₂›)]
  | error e =>
      simp only [Lowered.shift, LoweringError.shift_shift]
      split
      · rw [Nat.add_sub_cancel' ‹i₁ ≤ i₂›]
      · rw [Nat.add_sub_cancel' (Nat.le_of_not_le ‹¬i₁ ≤ i₂›)]

end Code

end Resumption
