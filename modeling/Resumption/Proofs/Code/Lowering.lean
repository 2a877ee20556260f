import Resumption.Code.Lowering
import Resumption.Proofs.Index.Declared
import Resumption.Proofs.Index.Registered

/-!
# Lowering, taken apart

What a successful lowering is made of.  The functions that a function declares anywhere in its body are
the ones that lowering finds there, each under its position, lowered in the scopes of the function around.
-/

namespace Resumption

open Script

variable {t : IndexedTree} {i j : Nat} {n : Node} {l l' : List Node} {name : String}
  {home scopes : Code.Scopes}

/-- What a `for` begins with. -/
def Script.ForInit.nodes : ForInit → List Node
  | .absent => []
  | .vars decls => decls.map .declarator
  | .expr e => [.expr e]

theorem Script.ForInit.length_nodes (init : ForInit) : init.nodes.length = init.count := by
  cases init <;> simp [ForInit.nodes, ForInit.count]

theorem Script.Node.children_forLoop (init : ForInit) (test update : Option Expr) (body : Stmt) :
    (Node.stmt (.forLoop init test update body)).children =
      init.nodes ++ (Node.ofExpr? test ++ (Node.ofExpr? update ++ [.stmt body])) := by
  cases init <;> simp [Node.children, Node.childrenOfStmt, ForInit.nodes]

theorem Except.bind_eq_ok {ε α β : Type} {x : Except ε α} {f : α → Except ε β} {b : β} :
    (x >>= f) = .ok b ↔ ∃ a, x = .ok a ∧ f a = .ok b := by
  cases x with
  | error e => simp [bind, Except.bind]
  | ok a => simp [bind, Except.bind]

/-- What is kept of a function when it is instrumented. -/
theorem Code.lowerFunc_eq_ok {t : IndexedTree} {outer : Code.Scopes} {i : Nat} {self : Option String}
    {f : Script.Func} {code : Code.Func} (h : Code.lowerFunc t outer i self f = .ok code) :
    code.name = f.name ∧ code.ns = t.ns ∧ code.index = i ∧ code.params = f.params := by
  obtain ⟨name, params, body⟩ := f
  rw [Code.lowerFunc] at h
  obtain ⟨hoisted, -, h⟩ := Except.bind_eq_ok.1 h
  obtain ⟨stmts, -, h⟩ := Except.bind_eq_ok.1 h
  cases h
  exact ⟨rfl, rfl, rfl, rfl⟩

/-! ## What lowering finds -/

namespace Code

/-- A declared function, lowered. -/
def lowerDeclared (t : IndexedTree) (home : Scopes) (i : Nat) (f : Script.Func) : Lowered Expr :=
  if f.isEscaped then return .plain t.ns i
  else do return .closure (← lowerFunc t home i none f)

/-- What is found among nodes is declared there, and everything declared there is found. -/
structure Finds (t : IndexedTree) (home : Scopes) (i : Nat) (l : List Node) (found : List Found) :
    Prop where
  sound : t.AtAll i l → ∀ d ∈ found,
    ∃ f, t.At d.index (.stmt (.function f)) ∧ d.value = lowerDeclared t home d.index f
  complete : ∀ name j, .function name j ∈ t.declaredIn i l → ∃ d ∈ found, d.index = j

namespace Finds

variable {found found' : List Found}

theorem nil : Finds t home i [] [] :=
  ⟨fun _ _ hd => absurd hd List.not_mem_nil, fun _ _ h => absurd h List.not_mem_nil⟩

theorem append (h : Finds t home i l found) (h' : Finds t home (t.afterMany l.length i) l' found') :
    Finds t home i (l ++ l') (found ++ found') where
  sound hat d hd := by
    obtain ⟨hl, hl'⟩ := (t.atAll_append i l l').1 hat
    exact (List.mem_append.1 hd).elim (h.sound hl d) (h'.sound hl' d)
  complete name j hmem := by
    rw [IndexedTree.declaredIn_append] at hmem
    rcases List.mem_append.1 hmem with hmem | hmem
    · exact (h.complete name j hmem).imp fun _ hd => ⟨List.mem_append_left _ hd.1, hd.2⟩
    · exact (h'.complete name j hmem).imp fun _ hd => ⟨List.mem_append_right _ hd.1, hd.2⟩

theorem cons (h : Finds t home i [n] found) (h' : Finds t home (t.after i) l found') :
    Finds t home i (n :: l) (found ++ found') :=
  append h h'

/-- A node that is no declaration finds what its parts find. -/
theorem node (hfunc : ∀ f, n ≠ .stmt (.function f)) (h : Finds t home (i + 1) n.children found) :
    Finds t home i [n] found where
  sound hat := h.sound hat.1.children
  complete name j hmem := by
    rw [IndexedTree.declaredIn_cons] at hmem
    rcases List.mem_append.1 hmem with hmem | hmem
    · rcases IndexedTree.mem_declared hmem with ⟨f, hf, -, -⟩ | ⟨-, hmem⟩
      · exact absurd hf (hfunc f)
      · exact h.complete name j hmem
    · cases hmem

/-- Below some nodes nothing is declared. -/
theorem silent (hn : n.mayDeclare = false) (hfunc : ∀ f, n ≠ .stmt (.function f)) :
    Finds t home i [n] [] where
  sound _ _ hd := absurd hd List.not_mem_nil
  complete name j hmem := by
    rw [IndexedTree.declaredIn_cons] at hmem
    rcases List.mem_append.1 hmem with hmem | hmem
    · rcases IndexedTree.mem_declared hmem with ⟨f, hf, -, -⟩ | ⟨hmay, -⟩
      · exact absurd hf (hfunc f)
      · rw [hn] at hmay
        cases hmay
    · cases hmem

theorem function (f : Script.Func) :
    Finds t home i [.stmt (.function f)] [⟨i, lowerDeclared t home i f⟩] where
  sound hat d hd := by
    cases List.mem_singleton.1 hd
    exact ⟨f, hat.1, rfl⟩
  complete name j hmem := by
    rw [IndexedTree.declaredIn_cons] at hmem
    rcases List.mem_append.1 hmem with hmem | hmem
    · rcases IndexedTree.mem_declared hmem with ⟨_, _, -, rfl⟩ | ⟨hmay, -⟩
      · exact ⟨_, List.mem_singleton_self _, rfl⟩
      · cases hmay
    · cases hmem

/-- An expression is passed over. -/
theorem expr {e : Script.Expr} (h : Finds t home (t.after i) l found) :
    Finds t home i (.expr e :: l) found :=
  cons (silent rfl fun _ heq => by cases heq) h

theorem expr? {e? : Option Script.Expr}
    (h : Finds t home (if e?.isSome then t.after i else i) l found) :
    Finds t home i (Node.ofExpr? e? ++ l) found := by
  cases e? with
  | none => exact h
  | some e => exact expr h

theorem declarators (decls : List Script.Declarator) :
    Finds t home i (decls.map .declarator) [] := by
  induction decls generalizing i with
  | nil => exact nil
  | cons d decls ih => exact cons (silent rfl fun _ heq => by cases heq) ih

/-- What a `for` begins with is passed over. -/
theorem init {init : Script.ForInit} (h : Finds t home (t.afterMany init.count i) l found) :
    Finds t home i (init.nodes ++ l) found := by
  cases init with
  | absent => exact h
  | vars decls => exact append (declarators decls) (by rwa [List.length_map])
  | expr e => exact expr h

end Finds

variable {α β γ : Type}

variable {x : LoweredBody α} {y : LoweredBody β}

theorem LoweredBody.map_eq_ok {f : α → β} {b : β} (h : (x.map f).code = .ok b) :
    ∃ a, x.code = .ok a ∧ f a = b := by
  obtain ⟨found, code⟩ := x
  cases code with
  | error e => cases h
  | ok a =>
      cases h
      exact ⟨a, rfl, rfl⟩

theorem LoweredBody.both_eq_ok {f : α → β → γ} {d : γ} (h : (LoweredBody.both f x y).code = .ok d) :
    ∃ a b, x.code = .ok a ∧ y.code = .ok b ∧ f a b = d := by
  obtain ⟨a, ha, h⟩ := Except.bind_eq_ok.1 h
  obtain ⟨b, hb, h⟩ := Except.bind_eq_ok.1 h
  cases h
  exact ⟨a, b, ha, hb, rfl⟩

theorem LoweredBody.behind_eq_ok {f : α → β → γ} {x : Lowered α} {y : LoweredBody β} {c : γ}
    (h : (LoweredBody.behind f x y).code = .ok c) : ∃ b, y.code = .ok b := by
  obtain ⟨-, b, -, hb, -⟩ := LoweredBody.both_eq_ok h
  exact ⟨b, hb⟩

mutual

/-- Lowering a statement finds the functions that are declared in it. -/
theorem lowerStmt_finds (scopes : Scopes) (i : Nat) :
    ∀ (stmt : Script.Stmt) {code : Stmt}, (lowerStmt t home scopes i stmt).code = .ok code →
      Finds t home i [.stmt stmt] (lowerStmt t home scopes i stmt).found
  | .var decls, _, _ => .node (fun _ heq => by cases heq) (.declarators decls)
  | .function f, _, _ => .function f
  | .empty, _, _ => .node (fun _ heq => by cases heq) .nil
  | .expr e, _, _ => .node (fun _ heq => by cases heq) (.expr .nil)
  | .block body, _, hcode => by
      obtain ⟨codes, hcodes, -⟩ := LoweredBody.map_eq_ok hcode
      exact .node (fun _ heq => by cases heq) (lowerStmts_finds scopes (i + 1) body hcodes)
  | .branch test cons alt, _, hcode => by
      obtain ⟨_, hcode⟩ := LoweredBody.behind_eq_ok hcode
      obtain ⟨_, _, hcons, halt, -⟩ := LoweredBody.both_eq_ok hcode
      have hfinds := (lowerStmt_finds scopes _ cons hcons).cons (lowerStmt?_finds scopes _ alt halt)
      exact .node (fun _ heq => by cases heq) (.expr hfinds)
  | .forLoop init test update body, _, hcode => by
      obtain ⟨_, hbody⟩ := LoweredBody.behind_eq_ok hcode
      refine .node (fun _ heq => by cases heq) ?_
      rw [Node.children_forLoop]
      exact .init (.expr? (.expr? (lowerStmt_finds scopes _ body hbody)))
  | .forIn left right body, _, hcode => by
      obtain ⟨_, hbody⟩ := LoweredBody.behind_eq_ok hcode
      refine .node (fun _ heq => by cases heq) ?_
      have hfinds := lowerStmt_finds scopes _ body hbody
      cases left with
      | var name => exact .expr hfinds
      | expr e => exact .expr (.expr hfinds)
  | .whileLoop test body, _, hcode => by
      obtain ⟨_, hbody⟩ := LoweredBody.behind_eq_ok hcode
      exact .node (fun _ heq => by cases heq) (.expr (lowerStmt_finds scopes _ body hbody))
  | .doLoop body test, _, hcode => by
      obtain ⟨_, _, hbody, -, -⟩ := LoweredBody.both_eq_ok hcode
      exact .node (fun _ heq => by cases heq)
        (.cons (lowerStmt_finds scopes _ body hbody) (.expr .nil))
  | .ret value, _, _ => by
      refine .node (fun _ heq => by cases heq) ?_
      have hfinds : Finds t home (i + 1) (Node.ofExpr? value ++ []) [] := .expr? .nil
      rwa [List.append_nil] at hfinds
  | .brk none, _, _ => .node (fun _ heq => by cases heq) .nil
  | .cont none, _, _ => .node (fun _ heq => by cases heq) .nil
  | .brk (some _), _, hcode => by cases hcode
  | .cont (some _), _, hcode => by cases hcode
  | .throwing value, _, _ => .node (fun _ heq => by cases heq) (.expr .nil)
  | .attempt block handler finalizer, _, hcode => by
      obtain ⟨_, _, hcode, hfinally, -⟩ := LoweredBody.both_eq_ok hcode
      obtain ⟨_, _, hblock, hhandler, -⟩ := LoweredBody.both_eq_ok hcode
      refine .node (fun _ heq => by cases heq) ?_
      have hstep : ∀ j, t.afterMany handler.toList.length j =
          if handler.isSome then t.after j else j := by
        intro j
        cases handler <;> rfl
      refine .append (.append (lowerStmts_finds scopes _ block hblock) ?_) ?_
      · rw [Node.ofStmts, List.length_map]
        exact lowerHandler?_finds scopes _ handler hhandler
      · rw [List.length_append, IndexedTree.afterMany_add, Node.ofStmts, List.length_map,
          List.length_map, hstep]
        exact lowerFinally_finds scopes _ finalizer hfinally
  | .switch discriminant cases, _, hcode => by
      obtain ⟨_, hcases⟩ := LoweredBody.behind_eq_ok hcode
      exact .node (fun _ heq => by cases heq) (.expr (lowerCases_finds scopes _ cases hcases))
  | .withScope object body, _, hcode => by
      obtain ⟨_, hbody⟩ := LoweredBody.behind_eq_ok hcode
      exact .node (fun _ heq => by cases heq) (.expr (lowerStmt_finds _ _ body hbody))
  | .debugger, _, _ => .node (fun _ heq => by cases heq) .nil
  | .labeled _ _, _, hcode => by cases hcode
termination_by structural stmt => stmt

theorem lowerStmt?_finds (scopes : Scopes) (i : Nat) :
    ∀ (alt : Option Script.Stmt) {code : Option Stmt},
      (lowerStmt? t home scopes i alt).code = .ok code →
      Finds t home i (alt.toList.map .stmt) (lowerStmt? t home scopes i alt).found
  | none, _, _ => .nil
  | some stmt, _, hcode => by
      obtain ⟨_, hstmt, -⟩ := LoweredBody.map_eq_ok hcode
      exact lowerStmt_finds scopes i stmt hstmt
termination_by structural alt => alt

theorem lowerStmts_finds (scopes : Scopes) (i : Nat) :
    ∀ (l : List Script.Stmt) {codes : List Stmt},
      (lowerStmts t home scopes i l).code = .ok codes →
      Finds t home i (Node.ofStmts l) (lowerStmts t home scopes i l).found
  | [], _, _ => .nil
  | stmt :: rest, _, hcode => by
      obtain ⟨_, _, hstmt, hrest, -⟩ := LoweredBody.both_eq_ok hcode
      exact .cons (lowerStmt_finds scopes i stmt hstmt) (lowerStmts_finds scopes _ rest hrest)
termination_by structural l => l

theorem lowerHandler?_finds (scopes : Scopes) (i : Nat) :
    ∀ (handler : Option Script.Handler) {code : Option Handler},
      (lowerHandler? t home scopes i handler).code = .ok code →
      Finds t home i (handler.toList.map .handler) (lowerHandler? t home scopes i handler).found
  | none, _, _ => .nil
  | some handler, _, hcode => by
      obtain ⟨_, hhandler, -⟩ := LoweredBody.map_eq_ok hcode
      exact lowerHandler_finds scopes i handler hhandler
termination_by structural handler => handler

theorem lowerHandler_finds (scopes : Scopes) (i : Nat) :
    ∀ (handler : Script.Handler) {code : Handler},
      (lowerHandler t home scopes i handler).code = .ok code →
      Finds t home i [.handler handler] (lowerHandler t home scopes i handler).found
  | ⟨param, body⟩, _, hcode => by
      obtain ⟨_, hbody, -⟩ := LoweredBody.map_eq_ok hcode
      exact .node (fun _ heq => by cases heq) (lowerStmts_finds _ (i + 1) body hbody)
termination_by structural handler => handler

theorem lowerFinally_finds (scopes : Scopes) (i : Nat) :
    ∀ (f : Option (List Script.Stmt)) {code : Option (List Stmt)},
      (lowerFinally t home scopes i f).code = .ok code →
      Finds t home i (Node.ofStmts (f.getD [])) (lowerFinally t home scopes i f).found
  | none, _, _ => .nil
  | some body, _, hcode => by
      obtain ⟨_, hbody, -⟩ := LoweredBody.map_eq_ok hcode
      exact lowerStmts_finds scopes i body hbody
termination_by structural f => f

theorem lowerCases_finds (scopes : Scopes) (i : Nat) :
    ∀ (cases : List Script.Case) {codes : List Case},
      (lowerCases t home scopes i cases).code = .ok codes →
      Finds t home i (cases.map .case) (lowerCases t home scopes i cases).found
  | [], _, _ => .nil
  | arm :: rest, _, hcode => by
      obtain ⟨_, _, harm, hrest, -⟩ := LoweredBody.both_eq_ok hcode
      exact .cons (lowerCase_finds scopes i arm harm) (lowerCases_finds scopes _ rest hrest)
termination_by structural l => l

theorem lowerCase_finds (scopes : Scopes) (i : Nat) :
    ∀ (arm : Script.Case) {code : Case}, (lowerCase t home scopes i arm).code = .ok code →
      Finds t home i [.case arm] (lowerCase t home scopes i arm).found
  | ⟨test, body⟩, _, hcode => by
      obtain ⟨_, hbody⟩ := LoweredBody.behind_eq_ok hcode
      exact .node (fun _ heq => by cases heq) (.expr? (lowerStmts_finds scopes _ body hbody))
termination_by structural arm => arm

end

theorem hoist_cons (name : String) (i : Nat) (functions : List (String × Nat)) (found : List Found) :
    hoist ((name, i) :: functions) found =
      match found.find? (fun x => x.index == i) with
      | some x => x.value >>= fun value => hoist functions found >>= fun rest =>
          .ok (⟨name, value⟩ :: rest)
      | none => hoist functions found := by
  rw [hoist, List.filterMapM_cons, ← hoist]
  dsimp only
  generalize found.find? (fun x => x.index == i) = x
  rcases x with - | ⟨j, e | value⟩ <;> rfl

/-- A declaration that counts becomes the closure of its function. -/
theorem hoist_cons_eq_ok {functions : List (String × Nat)} {found : List Found}
    {hoisted : List Hoisted} (hfinds : Finds t home i l found) (hat : t.AtAll i l)
    (hdeclared : .function name j ∈ t.declaredIn i l)
    (h : hoist ((name, j) :: functions) found = .ok hoisted) :
    ∃ f value rest, t.At j (.stmt (.function f)) ∧ lowerDeclared t home j f = .ok value ∧
      hoist functions found = .ok rest ∧ hoisted = ⟨name, value⟩ :: rest := by
  obtain ⟨d, hd, hj⟩ := hfinds.complete name j hdeclared
  obtain ⟨e, he⟩ : ∃ e, found.find? (fun d => d.index == j) = some e :=
    Option.isSome_iff_exists.1 (List.find?_isSome.2 ⟨d, hd, by simp [hj]⟩)
  obtain ⟨f, hatf, hvalue⟩ := hfinds.sound hat e (List.mem_of_find?_eq_some he)
  have hindex : e.index = j := by simpa using List.find?_some he
  rw [hindex] at hatf hvalue
  rw [hoist_cons, he] at h
  dsimp only at h
  rw [hvalue] at h
  obtain ⟨value, hlowered, h⟩ := Except.bind_eq_ok.1 h
  obtain ⟨rest, hrest, h⟩ := Except.bind_eq_ok.1 h
  cases h
  exact ⟨f, value, rest, hatf, hlowered, hrest, rfl⟩

/-! ## Instrumented trees -/

variable {r : Registry} {f : Script.Func} {ns : String} {isProgram : Bool}

theorem instrument_of_supported {inherited : List String}
    (h : firstUnsupported (r.next ns) (.func f) = none) :
    instrument f r ns inherited isProgram =
      (lowerFunc (r.assign f ns isProgram).1 (.ofInherited inherited) (r.next ns) none f,
        (r.assign f ns isProgram).2) := by
  rw [instrument, h]
  rfl

theorem instrument_eq (f : Script.Func) (r : Registry) (ns : String) (inherited : List String)
    (isProgram : Bool) :
    (∃ e, instrument f r ns inherited isProgram = (.error e, r)) ∨
      instrument f r ns inherited isProgram =
        (lowerFunc (r.assign f ns isProgram).1 (.ofInherited inherited) (r.next ns) none f,
          (r.assign f ns isProgram).2) := by
  cases h : firstUnsupported (r.next ns) (.func f) with
  | some e => exact .inl ⟨e, by rw [instrument, h]⟩
  | none => exact .inr (instrument_of_supported h)

/-- An instrumented tree has been registered. -/
theorem instrument_eq_ok {inherited : List String} {code : Func}
    (h : (instrument f r ns inherited isProgram).1 = .ok code) :
    lowerFunc (r.assign f ns isProgram).1 (.ofInherited inherited) (r.next ns) none f = .ok code ∧
      (instrument f r ns inherited isProgram).2 = (r.assign f ns isProgram).2 := by
  rcases instrument_eq f r ns inherited isProgram with ⟨e, heq⟩ | heq
  · rw [heq] at h
    cases h
  · rw [heq] at h ⊢
    exact ⟨h, rfl⟩

theorem le_instrument (f : Script.Func) (r : Registry) (ns : String) (inherited : List String)
    (isProgram : Bool) : r.Le (instrument f r ns inherited isProgram).2 := by
  rcases instrument_eq f r ns inherited isProgram with ⟨e, heq⟩ | heq
  · rw [heq]
    exact .refl r
  · rw [heq]
    exact r.le_assign f ns isProgram

theorem built_instrument (h : r.Built) (f : Script.Func) (ns : String) (inherited : List String)
    (isProgram : Bool) : (instrument f r ns inherited isProgram).2.Built := by
  rcases instrument_eq f r ns inherited isProgram with ⟨e, heq⟩ | heq
  · rw [heq]
    exact h
  · rw [heq]
    exact h.assign f ns isProgram

/-- The function in `var g = function (x) { return g(x); }; debugger;`. -/
def selfCalling : Script.Func := ⟨none, ["x"], [.ret (some (.call (.ident "g") [.ident "x"]))]⟩

def selfCallingProgram : Script.Program := ⟨[.var [⟨"g", some (.function selfCalling)⟩], .debugger]⟩

def selfCallingTree : IndexedTree :=
  ⟨"default", 0, selfCallingProgram.toFunc, true, #[9, 7, 6, 5, 4, 3, 1, 1, 1]⟩

def selfCallingCode : Func :=
  let call : Expr := .call 5 (.ref (.fixed (.slot 1) "g")) [.ref (.fixed (.slot 0) "x")]
  let g : Func := ⟨none, "default", 3, ["x"], [], none, [], [.ret (some call)], false⟩
  ⟨none, "default", 0, [], ["g"], none, [],
    [.var [⟨2, .fixed (.slot 0) "g", some (.closure g)⟩], .debugger 8], true⟩

theorem instrument_selfCalling :
    instrument selfCallingProgram.toFunc Registry.empty "default" [] true =
      (.ok selfCallingCode, ⟨[selfCallingTree]⟩) := by
  have hsupported : firstUnsupported (Registry.empty.next "default") (.func selfCallingProgram.toFunc) = none := by
    cbv
  have hassign : Registry.empty.assign selfCallingProgram.toFunc "default" true =
      (selfCallingTree, ⟨[selfCallingTree]⟩) := by cbv
  have hprogram : selfCallingTree.declarationsOf selfCallingProgram.toFunc 0 = ⟨["g"], []⟩ := by cbv
  have hfunc : selfCallingTree.declarationsOf selfCalling 3 = ⟨[], []⟩ := by cbv
  refine (instrument_of_supported hsupported).trans ?_
  rw [hassign, show Registry.empty.next "default" = 0 from rfl]
  simp only [Script.Program.toFunc, selfCallingProgram, selfCalling] at hprogram hfunc ⊢
  simp only [lowerFunc, hprogram, hfunc, lowerStmts, lowerStmt, lowerDecls, lowerDecl, lowerExpr?,
    lowerExpr, lowerExprs]
  rfl

end Code

end Resumption
