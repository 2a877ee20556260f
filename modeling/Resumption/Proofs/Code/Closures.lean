import Mathlib.Data.List.Perm.Basic
import Resumption.Code.Traversal
import Resumption.Proofs.Code.Labels

/-!
# The closures of a function

Two walks go over the code of a function: one collects the closures that are made there, the other one the
positions that are recorded.  What they should find can be read off the parts of the code: the closures
that stand in it, but not in the functions of other closures.  The first walk finds each of them once, with
one exception: it does not look at the key of the property that a `for-in` writes to.
-/

namespace Resumption

open Script (Node)

namespace Code

/-- Falls from a piece to each of its parts. -/
noncomputable def Piece.weight : Piece → Nat
  | .func f => sizeOf f
  | .stmt s => sizeOf s
  | .expr e => sizeOf e
  | .target x => sizeOf x
  | .property p => sizeOf p
  | .declarator d => sizeOf d
  | .handler h => sizeOf h
  | .case c => sizeOf c

section

variable {α : Type} [SizeOf α] {piece : α → Piece} {q : Piece}

theorem weight_lt_of_mem_map (hpiece : ∀ a, (piece a).weight = sizeOf a) {l : List α}
    (h : q ∈ l.map piece) : q.weight < sizeOf l := by
  obtain ⟨a, ha, rfl⟩ := List.mem_map.1 h
  rw [hpiece]
  exact List.sizeOf_lt_of_mem ha

theorem weight_lt_of_mem_toList (hpiece : ∀ a, (piece a).weight = sizeOf a) {x : Option α}
    (h : q ∈ x.toList.map piece) : q.weight < sizeOf x := by
  cases x with
  | none => cases h
  | some a =>
      rw [List.mem_singleton.1 h, hpiece]
      simp

end

theorem Key.weight_lt_of_mem_parts {k : Key} {q : Piece} (h : q ∈ k.parts) : q.weight < sizeOf k := by
  cases k with
  | name => cases h
  | computed e =>
      rw [List.mem_singleton.1 h]
      simp [Piece.weight]

theorem Expr.weight_lt_of_mem_parts {e : Expr} {q : Piece} (h : q ∈ e.parts) : q.weight < sizeOf e := by
  have hexprs := @weight_lt_of_mem_map _ _ Piece.expr q (fun _ => rfl)
  have hprops := @weight_lt_of_mem_map _ _ Piece.property q (fun _ => rfl)
  have hkey := @Key.weight_lt_of_mem_parts
  cases e <;> simp only [Expr.parts, List.mem_cons, List.not_mem_nil, or_false] at h <;> grind [Piece.weight]

theorem Target.weight_lt_of_mem_parts {x : Target} {q : Piece} (h : q ∈ x.parts) : q.weight < sizeOf x := by
  cases x with
  | ref x => cases h
  | member object key =>
      rcases List.mem_cons.1 h with rfl | h
      · simp [Piece.weight]
        omega
      · have hlt := Key.weight_lt_of_mem_parts h
        simp
        omega

theorem ForInit.weight_lt_of_mem_parts {x : ForInit} {q : Piece} (h : q ∈ x.parts) : q.weight < sizeOf x := by
  have hdecls := @weight_lt_of_mem_map _ _ Piece.declarator q (fun _ => rfl)
  cases x <;> simp only [ForInit.parts, List.mem_singleton, List.not_mem_nil] at h <;>
    grind [Piece.weight]

theorem Stmt.weight_lt_of_mem_parts {s : Stmt} {q : Piece} (h : q ∈ s.parts) : q.weight < sizeOf s := by
  have hdecls := @weight_lt_of_mem_map _ _ Piece.declarator q (fun _ => rfl)
  have hstmts := @weight_lt_of_mem_map _ _ Piece.stmt q (fun _ => rfl)
  have hcases := @weight_lt_of_mem_map _ _ Piece.case q (fun _ => rfl)
  have hstmt := @weight_lt_of_mem_toList _ _ Piece.stmt q (fun _ => rfl)
  have hexpr := @weight_lt_of_mem_toList _ _ Piece.expr q (fun _ => rfl)
  have hhandler := @weight_lt_of_mem_toList _ _ Piece.handler q (fun _ => rfl)
  have hinit := @ForInit.weight_lt_of_mem_parts
  have hfinally : ∀ {body : Option (List Stmt)}, q ∈ (body.getD []).map .stmt → q.weight < sizeOf body := by
    intro body h
    cases body with
    | none => cases h
    | some body =>
        have hlt := hstmts h
        simp at hlt ⊢
        omega
  cases s <;> simp only [Stmt.parts, List.mem_append, List.mem_cons, List.not_mem_nil, or_false] at h <;>
    grind [Piece.weight]

/-- A part weighs less than the piece, so walks over the parts end. -/
theorem Piece.weight_lt_of_mem_parts {p q : Piece} (h : q ∈ p.parts) : q.weight < p.weight := by
  have hstmts := @weight_lt_of_mem_map _ _ Piece.stmt q (fun _ => rfl)
  have hexpr := @weight_lt_of_mem_toList _ _ Piece.expr q (fun _ => rfl)
  cases p with
  | stmt s => exact Stmt.weight_lt_of_mem_parts h
  | expr e => exact Expr.weight_lt_of_mem_parts h
  | target x => exact Target.weight_lt_of_mem_parts h
  | func f =>
      obtain ⟨name, ns, i, params, declared, self, hoisted, body, isProgram⟩ := f
      rcases List.mem_append.1 h with h | h
      · obtain ⟨x, hx, rfl⟩ := List.mem_map.1 h
        have hlt := List.sizeOf_lt_of_mem hx
        obtain ⟨name, value⟩ := x
        simp [weight] at hlt ⊢
        omega
      · have hlt := hstmts h
        simp [weight] at hlt ⊢
        omega
  | property p =>
      obtain ⟨key, kind, value⟩ := p
      rw [List.mem_singleton.1 h]
      simp only [weight, Property.mk.sizeOf_spec]
      omega
  | declarator d =>
      obtain ⟨i, x, init⟩ := d
      have hlt := hexpr h
      simp [weight] at hlt ⊢
      omega
  | handler x =>
      obtain ⟨i, param, body⟩ := x
      have hlt := hstmts h
      simp [weight] at hlt ⊢
      omega
  | case c =>
      obtain ⟨test, body⟩ := c
      rcases List.mem_append.1 h with h | h
      · have hlt := hexpr h
        simp [weight] at hlt ⊢
        omega
      · have hlt := hstmts h
        simp [weight] at hlt ⊢
        omega

/-! ## Closures that are made in a piece -/

/-- The piece and everything that stands in it, but not in the functions of closures. -/
def Piece.surface (p : Piece) : List Piece :=
  p :: if p.closure?.isSome then [] else p.parts.attach.flatMap (fun ⟨q, _⟩ => q.surface)
termination_by p.weight
decreasing_by exact Piece.weight_lt_of_mem_parts ‹_›

/-- The functions of the closures that are made in the piece, in the order of the text. -/
def Piece.made (p : Piece) : List Func := p.surface.filterMap Piece.closure?

/-- The key of the property that the keys of a `for-in` are written to. -/
def Piece.enumeratedKey : Piece → List Piece
  | .stmt (.forIn _ (.member _ key) _ _) => key.parts
  | _ => []

/-- The functions of the closures that are made in such keys. -/
def Piece.overlooked (p : Piece) : List Func :=
  p.surface.flatMap (fun q => q.enumeratedKey.flatMap Piece.made)

section

variable {p q : Piece} {f : Func}

theorem Piece.surface_of_parts (h : p.closure? = none) :
    p.surface = p :: p.parts.flatMap Piece.surface := by
  rw [surface, h, List.flatMap_subtype (g := surface) (fun _ _ => rfl), List.unattach_attach]
  rfl

theorem Piece.made_of_parts (h : p.closure? = none) : p.made = p.parts.flatMap Piece.made := by
  rw [made, surface_of_parts h, List.filterMap_cons_none h, List.filterMap_flatMap]
  rfl

theorem Piece.made_closure (f : Func) : (Piece.expr (.closure f)).made = [f] := by
  rw [made, surface]
  rfl

theorem Piece.overlooked_of_parts (h : p.closure? = none) :
    p.overlooked = p.enumeratedKey.flatMap Piece.made ++ p.parts.flatMap Piece.overlooked := by
  rw [overlooked, surface_of_parts h, List.flatMap_cons, List.flatMap_assoc]
  rfl

theorem Piece.overlooked_closure (f : Func) : (Piece.expr (.closure f)).overlooked = [] := by
  rw [overlooked, surface]
  rfl

end

/-! ## Closures that are found -/

/-- The closures that the walk finds in a piece. -/
def Piece.closures : Piece → List Func
  | .func f => f.closures
  | .stmt s => s.closures
  | .expr e => e.closures
  | .target x => x.closures
  | .property p => p.closures
  | .declarator d => d.closures
  | .handler h => h.closures
  | .case c => c.testClosures ++ c.armClosures

/-- A list is walked element by element. -/
theorem eq_flatMap {α β : Type} {walk : List α → List β} {one : α → List β} (hnil : walk [] = [])
    (hcons : ∀ a l, walk (a :: l) = one a ++ walk l) (l : List α) : walk l = l.flatMap one := by
  induction l with
  | nil => exact hnil
  | cons a l ih => rw [hcons, ih, List.flatMap_cons]

theorem closuresOfExprs_eq (l : List Expr) : closuresOfExprs l = l.flatMap Expr.closures :=
  eq_flatMap rfl (fun _ _ => rfl) l

theorem closuresOfProps_eq (l : List Property) : closuresOfProps l = l.flatMap Property.closures :=
  eq_flatMap rfl (fun _ _ => rfl) l

theorem closuresOfDecls_eq (l : List Declarator) : closuresOfDecls l = l.flatMap Declarator.closures :=
  eq_flatMap rfl (fun _ _ => rfl) l

theorem closuresOfStmts_eq (l : List Stmt) : closuresOfStmts l = l.flatMap Stmt.closures :=
  eq_flatMap rfl (fun _ _ => rfl) l

theorem closuresOfExpr?_eq (e : Option Expr) : closuresOfExpr? e = e.toList.flatMap Expr.closures := by
  cases e <;> simp [closuresOfExpr?]

theorem closuresOfStmt?_eq (s : Option Stmt) : closuresOfStmt? s = s.toList.flatMap Stmt.closures := by
  cases s <;> simp [closuresOfStmt?]

theorem closuresOfHandler?_eq (h : Option Handler) :
    closuresOfHandler? h = h.toList.flatMap Handler.closures := by
  cases h <;> simp [closuresOfHandler?]

theorem closuresOfFinally_eq (body : Option (List Stmt)) :
    closuresOfFinally body = (body.getD []).flatMap Stmt.closures := by
  cases body with
  | none => rfl
  | some body => exact closuresOfStmts_eq body

theorem ForInit.closures_eq (x : ForInit) : x.closures = x.parts.flatMap Piece.closures := by
  cases x with
  | absent => rfl
  | vars decls => simp [closures, parts, closuresOfDecls_eq, List.flatMap_map, Piece.closures]
  | expr e => exact (List.append_nil _).symm

theorem Key.closures_eq (k : Key) : k.closures = k.parts.flatMap Piece.closures := by
  cases k with
  | name => rfl
  | computed e => exact (List.append_nil _).symm

/-- Tests of cases are looked at before what the cases do. -/
theorem closuresOfCases_perm (l : List Case) :
    (closuresOfTests l ++ closuresOfArms l).Perm ((l.map Piece.case).flatMap Piece.closures) := by
  induction l with
  | nil => exact .nil
  | cons c l ih =>
      rw [closuresOfTests, closuresOfArms, List.map_cons, List.flatMap_cons, Piece.closures]
      refine .trans ?_ (ih.append_left _)
      simp only [List.append_assoc]
      refine .append_left _ ?_
      rw [← List.append_assoc, ← List.append_assoc]
      exact .append_right _ List.perm_append_comm

theorem Expr.closures_eq {e : Expr} (h : (Piece.expr e).closure? = none) :
    e.closures = e.parts.flatMap Piece.closures := by
  cases e with
  | closure f => cases h
  | _ => simp [Expr.closures, Expr.parts, closuresOfExprs_eq, closuresOfProps_eq, Key.closures_eq,
      List.flatMap_map, Piece.closures]

/-- What is found in a statement is found in its parts, but for the key that a `for-in` writes to. -/
theorem Stmt.closures_perm (s : Stmt) :
    (s.closures ++ (Piece.stmt s).enumeratedKey.flatMap Piece.closures).Perm
      (s.parts.flatMap Piece.closures) := by
  cases s with
  | doLoop body test =>
      simpa [Stmt.closures, Stmt.parts, Piece.enumeratedKey, Piece.closures] using List.perm_append_comm
  | switch i discriminant cases =>
      have hcases := (closuresOfCases_perm cases).append_left discriminant.closures
      simpa [Stmt.closures, Stmt.parts, Piece.enumeratedKey, Piece.closures] using hcases
  | forIn i target right body =>
      cases target with
      | ref x =>
          refine .of_eq ?_
          simp [Stmt.closures, Stmt.parts, Piece.enumeratedKey, Piece.closures, Target.objectClosures,
            Target.closures]
      | member object key =>
          have hkey : (right.closures ++ body.closures ++ key.closures).Perm
              (key.closures ++ (right.closures ++ body.closures)) := List.perm_append_comm
          simpa [Stmt.closures, Stmt.parts, Piece.enumeratedKey, Piece.closures, Target.objectClosures,
            Target.closures, Key.closures_eq] using hkey.append_left object.closures
  | _ =>
      refine .of_eq ?_
      simp [Stmt.closures, Stmt.parts, Piece.enumeratedKey, Piece.closures, closuresOfDecls_eq,
        closuresOfStmts_eq, closuresOfExpr?_eq, closuresOfStmt?_eq, closuresOfHandler?_eq,
        closuresOfFinally_eq, ForInit.closures_eq, List.flatMap_map]

theorem Piece.closures_perm {p : Piece} (h : p.closure? = none) :
    (p.closures ++ p.enumeratedKey.flatMap Piece.closures).Perm (p.parts.flatMap Piece.closures) := by
  cases p with
  | stmt s => exact s.closures_perm
  | expr e => exact .of_eq ((List.append_nil _).trans (Expr.closures_eq h))
  | target x => cases x <;> simp [closures, parts, enumeratedKey, Target.closures, Target.parts, Key.closures_eq]
  | func f =>
      simp [closures, Piece.parts, enumeratedKey, Func.closures, closuresOfStmts_eq, List.flatMap_map]
  | property x =>
      obtain ⟨key, kind, value⟩ := x
      simp [closures, Piece.parts, enumeratedKey, Property.closures]
  | declarator d =>
      obtain ⟨i, x, init⟩ := d
      simp [closures, Piece.parts, enumeratedKey, Declarator.closures, closuresOfExpr?_eq, List.flatMap_map]
  | handler x =>
      obtain ⟨i, param, body⟩ := x
      simp [closures, Piece.parts, enumeratedKey, Handler.closures, closuresOfStmts_eq, List.flatMap_map]
  | case c =>
      obtain ⟨test, body⟩ := c
      simp [closures, Piece.parts, enumeratedKey, Case.testClosures, Case.armClosures, closuresOfStmts_eq,
        closuresOfExpr?_eq, List.flatMap_map]

/-! ## Closures that are found and closures that are made -/

/-- The piece is no statement and holds none, but for those in functions. -/
def Piece.isOperand : Piece → Bool
  | .expr _ | .target _ | .property _ => true
  | _ => false

theorem Piece.isOperand_of_mem_parts {p q : Piece} (h : p.isOperand = true) (hp : p.closure? = none)
    (hq : q ∈ p.parts) : q.isOperand = true := by
  have hkey : ∀ k : Key, q ∈ k.parts → q.isOperand = true := by
    intro k hk
    cases k with
    | name => cases hk
    | computed e =>
        rw [List.mem_singleton.1 hk]
        rfl
  cases p with
  | expr e =>
      rw [parts] at hq
      cases e <;> grind [Expr.parts, isOperand, closure?]
  | target x =>
      rw [parts] at hq
      cases x <;> grind [Target.parts, isOperand]
  | property x =>
      rw [List.mem_singleton.1 hq]
      rfl
  | _ => cases h

theorem Piece.closures_of_isOperand {p : Piece} (h : p.isOperand = true) (hp : p.closure? = none) :
    p.closures = p.parts.flatMap Piece.closures := by
  cases p with
  | expr e => exact Expr.closures_eq hp
  | target x => cases x <;> simp [closures, parts, Target.closures, Target.parts, Key.closures_eq]
  | property x =>
      obtain ⟨key, kind, value⟩ := x
      simp [closures, parts, Property.closures]
  | _ => cases h

/-- In expressions every closure that is made is found, in the order of the text. -/
theorem Piece.closures_eq_made {p : Piece} (h : p.isOperand = true) :
    p.closures = p.made ∧ p.overlooked = [] := by
  cases hp : p.closure? with
  | some f =>
      rw [closure?_eq_some.1 hp, overlooked_closure, made_closure]
      exact ⟨rfl, rfl⟩
  | none =>
      have hparts : ∀ q ∈ p.parts, q.closures = q.made ∧ q.overlooked = [] :=
        fun q hq => closures_eq_made (isOperand_of_mem_parts h hp hq)
      have hkey : p.enumeratedKey = [] := by
        cases p <;> first | rfl | cases h
      constructor
      · rw [closures_of_isOperand h hp, made_of_parts hp]
        exact List.flatMap_congr fun q hq => (hparts q hq).1
      · rw [overlooked_of_parts hp, hkey, List.flatMap_nil, List.nil_append, List.flatMap_eq_nil_iff]
        exact fun q hq => (hparts q hq).2
termination_by p.weight
decreasing_by exact Piece.weight_lt_of_mem_parts hq

theorem Piece.isOperand_of_mem_enumeratedKey {p q : Piece} (h : q ∈ p.enumeratedKey) :
    q.isOperand = true := by
  unfold enumeratedKey at h
  split at h
  · rename_i key _ _
    cases key with
    | name => cases h
    | computed e =>
        rw [List.mem_singleton.1 h]
        rfl
  · cases h

/-- Every closure that is made is found once, unless it is made in the key that a `for-in` writes to. -/
theorem Piece.closures_perm_made (p : Piece) : (p.closures ++ p.overlooked).Perm p.made := by
  cases hp : p.closure? with
  | some f =>
      rw [closure?_eq_some.1 hp, overlooked_closure, made_closure]
      rfl
  | none =>
      have hkey : p.enumeratedKey.flatMap made = p.enumeratedKey.flatMap closures :=
        List.flatMap_congr fun q hq => (closures_eq_made (isOperand_of_mem_enumeratedKey hq)).1.symm
      have hparts : (p.parts.flatMap (fun q => q.closures ++ q.overlooked)).Perm (p.parts.flatMap made) :=
        .flatMap_left _ fun q hq => closures_perm_made q
      rw [overlooked_of_parts hp, made_of_parts hp, hkey, ← List.append_assoc]
      exact (List.Perm.append_right _ (closures_perm hp)).trans
        ((List.flatMap_append_perm _ _ _).trans hparts)
termination_by p.weight
decreasing_by exact Piece.weight_lt_of_mem_parts hq

/-! ## Positions that are recorded -/

/-- The positions that a piece records by itself. -/
def Piece.noted : Piece → List Nat
  | .expr (.closure f) => [f.index]
  | .expr (.plain _ i) | .expr (.update i _ _ _) | .expr (.assign i _ _ _) | .expr (.call i _ _)
  | .expr (.construct i _ _) => [i]
  | .stmt (.forIn i _ _ _) | .stmt (.switch i _ _) | .stmt (.debugger i) => [i]
  | .handler h => [h.index]
  | .declarator d => if d.init.isSome then [d.index] else []
  | _ => []

/-- The positions that a piece records by itself or in its parts. -/
def Piece.recorded : Piece → List Nat
  | .func f => f.recorded
  | .stmt s => s.recorded
  | .expr e => e.recorded
  | .target x => x.recorded
  | .property p => p.recorded
  | .declarator d => d.recorded
  | .handler h => h.recorded
  | .case c => c.recorded

theorem recordedExprs_eq (l : List Expr) : recordedExprs l = l.flatMap Expr.recorded :=
  eq_flatMap rfl (fun _ _ => rfl) l

theorem recordedProps_eq (l : List Property) : recordedProps l = l.flatMap Property.recorded :=
  eq_flatMap rfl (fun _ _ => rfl) l

theorem recordedDecls_eq (l : List Declarator) : recordedDecls l = l.flatMap Declarator.recorded :=
  eq_flatMap rfl (fun _ _ => rfl) l

theorem recordedStmts_eq (l : List Stmt) : recordedStmts l = l.flatMap Stmt.recorded :=
  eq_flatMap rfl (fun _ _ => rfl) l

theorem recordedCases_eq (l : List Case) : recordedCases l = l.flatMap Case.recorded :=
  eq_flatMap rfl (fun _ _ => rfl) l

theorem recordedExpr?_eq (e : Option Expr) : recordedExpr? e = e.toList.flatMap Expr.recorded := by
  cases e <;> simp [recordedExpr?]

theorem recordedStmt?_eq (s : Option Stmt) : recordedStmt? s = s.toList.flatMap Stmt.recorded := by
  cases s <;> simp [recordedStmt?]

theorem recordedHandler?_eq (h : Option Handler) :
    recordedHandler? h = h.toList.flatMap Handler.recorded := by
  cases h <;> simp [recordedHandler?]

theorem recordedFinally_eq (body : Option (List Stmt)) :
    recordedFinally body = (body.getD []).flatMap Stmt.recorded := by
  cases body with
  | none => rfl
  | some body => exact recordedStmts_eq body

section

variable {i : Nat}

theorem Key.recorded_eq (k : Key) : k.recorded = k.parts.flatMap Piece.recorded := by
  cases k with
  | name => rfl
  | computed e => exact (List.append_nil _).symm

theorem ForInit.recorded_eq (x : ForInit) : x.recorded = x.parts.flatMap Piece.recorded := by
  cases x with
  | absent => rfl
  | vars decls => simp [recorded, parts, recordedDecls_eq, List.flatMap_map, Piece.recorded]
  | expr e => exact (List.append_nil _).symm

/-- What is recorded in a piece is recorded by itself or in one of its parts. -/
theorem Piece.mem_recorded {p : Piece} (h : p.closure? = none) :
    i ∈ p.recorded ↔ i ∈ p.noted ∨ i ∈ p.parts.flatMap Piece.recorded := by
  cases p with
  | expr e =>
      cases e with
      | closure f => cases h
      | _ => simp [recorded, noted, parts, Expr.recorded, Expr.parts, recordedExprs_eq, recordedProps_eq,
          Key.recorded_eq, -List.mem_flatMap, List.flatMap_map, or_assoc, or_comm]
  | stmt s =>
      cases s <;> simp [recorded, noted, parts, Stmt.recorded, Stmt.parts, recordedDecls_eq, recordedStmts_eq,
        recordedCases_eq, recordedExpr?_eq, recordedStmt?_eq, recordedHandler?_eq, recordedFinally_eq,
        ForInit.recorded_eq, -List.mem_flatMap, List.flatMap_map, or_assoc, or_comm, or_left_comm]
  | target x => cases x <;> simp [recorded, noted, parts, Target.recorded, Target.parts, Key.recorded_eq]
  | func f => simp [recorded, noted, parts, Func.recorded, recordedStmts_eq, List.flatMap_map]
  | property x =>
      obtain ⟨key, kind, value⟩ := x
      simp [recorded, noted, parts, Property.recorded]
  | declarator d =>
      obtain ⟨j, x, init⟩ := d
      cases init <;> simp [recorded, noted, parts, Declarator.recorded, or_comm]
  | handler x =>
      obtain ⟨j, param, body⟩ := x
      simp [recorded, noted, parts, Handler.recorded, recordedStmts_eq]
  | case c =>
      obtain ⟨test, body⟩ := c
      simp [recorded, noted, parts, Case.recorded, recordedStmts_eq, recordedExpr?_eq, List.flatMap_map]

/-- A piece records what is recorded by something that stands in it. -/
theorem Piece.mem_recorded_iff (p : Piece) : i ∈ p.recorded ↔ ∃ q ∈ p.surface, i ∈ q.noted := by
  cases hp : p.closure? with
  | some f =>
      rw [closure?_eq_some.1 hp]
      simp [surface, closure?, recorded, noted, Expr.recorded]
  | none =>
      have hparts : i ∈ p.parts.flatMap recorded ↔ ∃ q ∈ p.parts, ∃ q' ∈ q.surface, i ∈ q'.noted := by
        rw [List.mem_flatMap]
        constructor
        · rintro ⟨q, hq, h⟩
          exact ⟨q, hq, (mem_recorded_iff q).1 h⟩
        · rintro ⟨q, hq, h⟩
          exact ⟨q, hq, (mem_recorded_iff q).2 h⟩
      rw [mem_recorded hp, hparts, surface_of_parts hp]
      simp only [List.mem_cons, List.mem_flatMap]
      grind
termination_by p.weight
decreasing_by all_goals exact Piece.weight_lt_of_mem_parts hq

end

/-! ## Source nodes -/

section

variable {r : Registry} {t : IndexedTree} {i : Nat} {p q : Piece} {f : Script.Func}

/-- What stands in a piece outside of other functions stands in the piece. -/
theorem Piece.within_of_mem_surface {p q : Piece} (h : q ∈ p.surface) : q.Within p := by
  rw [surface] at h
  rcases List.mem_cons.1 h with rfl | h
  · exact .refl
  · split at h
    · cases h
    · obtain ⟨⟨q', hq'⟩, -, h⟩ := List.mem_flatMap.1 h
      exact .head hq' (within_of_mem_surface h)
termination_by p.weight
decreasing_by exact Piece.weight_lt_of_mem_parts hq'

theorem Piece.self_mem_surface (p : Piece) : p ∈ p.surface := by
  rw [surface]
  exact List.mem_cons_self

theorem Piece.mem_surface_of_parts (h : p.closure? = none) (hq : q ∈ p.parts) : q ∈ p.surface := by
  rw [surface_of_parts h]
  exact List.mem_cons_of_mem _ (List.mem_flatMap.2 ⟨q, hq, q.self_mem_surface⟩)

theorem Piece.mem_surface_trans {p q q' : Piece} (h : q ∈ p.surface) (h' : q' ∈ q.surface) :
    q' ∈ p.surface := by
  cases hp : p.closure? with
  | some f =>
      rw [closure?_eq_some.1 hp, surface] at h
      rw [List.mem_singleton.1 h] at h'
      rwa [closure?_eq_some.1 hp]
  | none =>
      rw [surface_of_parts hp] at h ⊢
      rcases List.mem_cons.1 h with rfl | h
      · rwa [← surface_of_parts hp]
      · obtain ⟨x, hx, h⟩ := List.mem_flatMap.1 h
        exact List.mem_cons_of_mem _ (List.mem_flatMap.2 ⟨x, hx, mem_surface_trans h h'⟩)
termination_by p.weight
decreasing_by exact Piece.weight_lt_of_mem_parts hx

theorem Piece.mem_made {g : Func} : g ∈ p.made ↔ .expr (.closure g) ∈ p.surface := by
  rw [made, List.mem_filterMap]
  simp only [closure?_eq_some, exists_eq_right]

/-- A function that is not left as it is becomes a closure under its position. -/
theorem ClosureImage.exists_closure {n : Node} {code : Expr} (h : ClosureImage r t.ns i n f code)
    (hescaped : f.isEscaped = false) : ∃ g, code = .closure g ∧ g.index = i := by
  cases h with
  | plain escaped =>
      rw [escaped] at hescaped
      cases hescaped
  | closure func =>
      cases func with
      | mk introduced here node index => exact ⟨_, rfl, index⟩

theorem ExprImage.exists_closure {e : Script.Expr} {code : Expr} (h : ExprImage r t.ns i e code)
    (hat : t.At i (.expr e)) (hf : t.func? i = some f) (hescaped : f.isEscaped = false) :
    ∃ g, code = .closure g ∧ g.index = i := by
  rw [hat.func?] at hf
  cases h with
  | function closure =>
      cases hf
      exact closure.exists_closure hescaped
  | _ => cases hf

theorem ClosureImage.exists_closure_of_noted {j : Nat} {n : Node} {f' : Script.Func} {code : Expr}
    (h : ClosureImage r t.ns j n f' code) (hat : t.At j n) (hn : n.func? = some f')
    (hi : i ∈ (Piece.expr code).noted) (hf : t.func? i = some f) (hescaped : f.isEscaped = false) :
    ∃ g, .expr (.closure g) ∈ (Piece.expr code).surface ∧ g.index = i := by
  cases h with
  | closure func => exact ⟨_, Piece.self_mem_surface _, (List.mem_singleton.1 hi).symm⟩
  | plain escaped =>
      rw [List.mem_singleton.1 hi, hat.func?, hn] at hf
      cases hf
      rw [escaped] at hescaped
      cases hescaped

/-- Where a piece records under the position of a function that is not left as it is, a closure of the
function is made. -/
theorem Depicts.exists_closure (h : Depicts r t q) (hi : i ∈ q.noted) (hf : t.func? i = some f)
    (hescaped : f.isEscaped = false) : ∃ g, .expr (.closure g) ∈ q.surface ∧ g.index = i := by
  -- Most positions are those of nodes that introduce no function.
  have hother : ∀ {j n}, t.At j n → n.func? = none → i ∈ [j] → False := by
    intro j n hat hn hi
    rw [List.mem_singleton.1 hi, hat.func?, hn] at hf
    cases hf
  cases h with
  | func | target | name | property | case => cases hi
  | handler hat image =>
      cases image
      exact (hother hat rfl hi).elim
  | declarator hat image =>
      cases image
      rw [Piece.noted] at hi
      split at hi
      · exact (hother hat rfl hi).elim
      · cases hi
  | declared hat image => exact image.exists_closure_of_noted hat rfl hi hf hescaped
  | expr hat image =>
      cases image with
      | function closure => exact closure.exists_closure_of_noted hat rfl hi hf hescaped
      | update | assign | call | construct => exact (hother hat rfl hi).elim
      | ident read => cases read <;> cases hi
      | _ => cases hi
  | stmt hat image =>
      cases image with
      | debugger => exact (hother hat rfl hi).elim
      | switch here first parts =>
          obtain ⟨hdiscriminant, -⟩ := hat.children.uncons
          cases List.mem_singleton.1 hi
          obtain ⟨g, rfl, hg⟩ := first.exists_closure hdiscriminant hf hescaped
          exact ⟨g, Piece.mem_surface_of_parts rfl List.mem_cons_self, hg⟩
      | @forIn _ _ _ right _ _ _ _ first here second last =>
          cases List.mem_singleton.1 hi
          have hright : t.At i (.expr right) := by
            cases first with
            | var => exact hat.children.1
            | expr =>
                obtain ⟨-, -, hrest⟩ := hat.children.uncons
                exact hrest.1
          obtain ⟨g, rfl, hg⟩ := second.exists_closure hright hf hescaped
          exact ⟨g, Piece.mem_surface_of_parts rfl (List.mem_cons_of_mem _ List.mem_cons_self), hg⟩
      | _ => cases hi

/-- A closure is made of a function of the tree, and keeps its position and its name. -/
theorem Depicts.closure (hr : r.Leads t) {g : Func} (h : Depicts r t (.expr (.closure g))) :
    ∃ f, t.func? g.index = some f ∧ f.name = g.name := by
  have himage : ∀ {j : Nat} {n : Node} {f' : Script.Func}, t.At j n →
      ClosureImage r t.ns j n f' (.closure g) → ∃ f, t.func? g.index = some f ∧ f.name = g.name := by
    intro j n f' hat himage
    cases himage with
    | closure func =>
        obtain ⟨hn, hindex, -⟩ := func.taken hr hat
        cases func with
        | mk introduced here node index nameSpace name =>
            exact ⟨f', by rw [hindex, hat.func?, hn], name.symm⟩
  cases h with
  | expr hat image =>
      cases image with
      | function closure => exact himage hat closure
      | ident read => cases read
  | declared hat image => exact himage hat image

end

/-! ## What the walk finds -/

/-- No closure in instrumented code is of a function whose name asks to be left alone. -/
theorem unescaped_of_instrument {r : Registry} {f : Script.Func} {ns : String} {inherited : List String}
    {isProgram : Bool} {code : Func} (h : (instrument f r ns inherited isProgram).1 = .ok code) :
    (Piece.func code).Unescaped := by
  have hcheck : firstUnsupported (r.next ns) (.func f) = none := by
    rw [instrument] at h
    split at h
    · cases h
    · assumption
  have hcode := (instrument_eq_ok h).1
  exact ((lowerFunc_yields_of_check hcheck _ _ _ _).of_eq_ok hcode).2

/-- What a function of instrumented code makes closures of, and what the walk over it finds. -/
structure Func.ClosuresFound (t : IndexedTree) (g : Func) : Prop where
  /-- Each closure that is made is found once, but for those in the keys that a `for-in` writes to. -/
  perm : (g.closures ++ (Piece.func g).overlooked).Perm (Piece.func g).made
  /-- Those of declarations come first. -/
  hoisted : ∃ rest, g.closures = g.hoisted.flatMap (fun x => (Piece.expr x.value).made) ++ rest
  /-- They are the closures of the functions that are recorded, unless a function is left as it is. -/
  mem_index : ∀ i, i ∈ (g.closures ++ (Piece.func g).overlooked).map Func.index ↔
    i ∈ g.recorded ∧ ∃ f, t.func? i = some f ∧ f.isEscaped = false

/-- Of the closures that are made in a function, the walk finds all but those that are made in the keys of
properties that a `for-in` writes to; with these they are the closures of the recorded functions. -/
theorem closures_found (calls : List Registration) {f : Script.Func} {ns : String}
    {inherited : List String} {isProgram : Bool} {code g : Func} {r : Registry}
    (h : instrument f (Registry.empty.register calls) ns inherited isProgram = (.ok code, r))
    (hg : code.Holds g) :
    g.ClosuresFound ((Registry.empty.register calls).assign f ns isProgram).1 := by
  have hbuilt := Registry.built_register calls
  have hok : (instrument f (Registry.empty.register calls) ns inherited isProgram).1 = .ok code :=
    congrArg Prod.fst h
  have hleads := leads_assign hbuilt f ns isProgram
  obtain ⟨n, s, hat, himage⟩ := exists_image_of_holds hbuilt hok hg
  have hunescaped := unescaped_of_instrument hok
  generalize (Registry.empty.register calls).assign f ns isProgram = registered at *
  have hdepicts : ∀ q ∈ (Piece.func g).surface, Depicts registered.2 registered.1 q := fun q hq =>
    Depicts.within hleads (.func hat himage) (Piece.within_of_mem_surface hq)
  have hperm : (g.closures ++ (Piece.func g).overlooked).Perm (Piece.func g).made :=
    Piece.closures_perm_made (.func g)
  refine ⟨hperm, ⟨closuresOfStmts g.body, ?_⟩, fun i => ?_⟩
  · rw [Func.closures]
    congr 1
    exact List.flatMap_congr fun x _ => (Piece.closures_eq_made (p := .expr x.value) rfl).1
  · have hmade : i ∈ (g.closures ++ (Piece.func g).overlooked).map Func.index ↔
        ∃ x, .expr (.closure x) ∈ (Piece.func g).surface ∧ x.index = i := by
      simp only [List.mem_map, hperm.mem_iff, Piece.mem_made]
    have hrecorded : i ∈ g.recorded ↔ ∃ q ∈ (Piece.func g).surface, i ∈ q.noted :=
      Piece.mem_recorded_iff (.func g)
    rw [hmade, hrecorded]
    constructor
    · rintro ⟨x, hx, rfl⟩
      obtain ⟨f', hf', hname⟩ := (hdepicts _ hx).closure hleads
      refine ⟨⟨_, hx, List.mem_singleton.2 rfl⟩, f', hf', ?_⟩
      rw [f'.isEscaped_eq, hname]
      exact hunescaped x (hg.trans (Piece.within_of_mem_surface hx))
    · rintro ⟨⟨q, hq, hi⟩, f', hf', hescaped⟩
      obtain ⟨x, hx, hindex⟩ := (hdepicts q hq).exists_closure hi hf' hescaped
      exact ⟨x, Piece.mem_surface_trans hq hx, hindex⟩

/-- The program `for (o[function () {}] in x) {}`. -/
def keyClosureProgram : Script.Program :=
  ⟨[.forIn (.expr (.index (.ident "o") (.function ⟨none, [], []⟩))) (.ident "x") (.block [])]⟩

def keyClosureTree : IndexedTree :=
  ⟨"default", 0, keyClosureProgram.toFunc, true, #[7, 6, 3, 1, 1, 1, 1]⟩

def keyClosureCode : Func :=
  let key : Expr := .closure ⟨none, "default", 4, [], [], none, [], [], false⟩
  let target : Target := .member (.ref (.fixed .global "o")) (.computed key)
  ⟨none, "default", 0, [], [], none, [], [.forIn 5 target (.ref (.fixed .global "x")) (.block [])], true⟩

theorem instrument_keyClosure :
    instrument keyClosureProgram.toFunc Registry.empty "default" [] true =
      (.ok keyClosureCode, ⟨[keyClosureTree]⟩) := by
  have hsupported : firstUnsupported (Registry.empty.next "default") (.func keyClosureProgram.toFunc) = none := by
    cbv
  have hassign : Registry.empty.assign keyClosureProgram.toFunc "default" true =
      (keyClosureTree, ⟨[keyClosureTree]⟩) := by cbv
  have hprogram : keyClosureTree.declarationsOf keyClosureProgram.toFunc 0 = ⟨[], []⟩ := by cbv
  refine (instrument_of_supported hsupported).trans ?_
  rw [hassign, show Registry.empty.next "default" = 0 from rfl]
  simp only [Script.Program.toFunc, keyClosureProgram] at hprogram ⊢
  simp only [lowerFunc, hprogram, lowerStmts, lowerStmt, lowerForTarget, lowerTarget, lowerExpr]
  rfl

theorem closures_found_keyClosure :
    keyClosureCode.ClosuresFound (Registry.empty.assign keyClosureProgram.toFunc "default" true).1 :=
  closures_found [] instrument_keyClosure .refl

/-- The closure in the key is recorded, but the walk does not find it. -/
theorem closures_keyClosure :
    instrument keyClosureProgram.toFunc Registry.empty "default" [] true =
        (.ok keyClosureCode, ⟨[keyClosureTree]⟩) ∧
      keyClosureCode.closures = [] ∧ (Piece.func keyClosureCode).made.map Func.index = [4] ∧
        keyClosureCode.recorded = [4, 5] ∧
          ∃ f, keyClosureTree.func? 4 = some f ∧ f.isEscaped = false := by
  refine ⟨instrument_keyClosure, rfl, ?_, rfl, ⟨none, [], []⟩, ?_, rfl⟩
  · cbv
  · cbv

end Code

end Resumption
