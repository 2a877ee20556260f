import Resumption.Proofs.Reading.Depth
import Resumption.Proofs.Reading.Level

/-!
# What is read is well-formed

The rules for statements, like those for expressions, do the same on two levels that are deep enough.
This is what rules out that an `if` without `else` is read in front of an `else`: a level further down
would have read the `else` as well, and taken it for its own.
-/

namespace Resumption.Script

open Lexeme Rule

namespace Grammar

variable {g g' : Grammar} {k : Nat} {r : List Char}

/-! ## Parts of statements -/

theorem allFormed_ofStmts {body : List Stmt} (h : ∀ s ∈ body, (Node.stmt s).AllFormed) :
    ∀ c ∈ Node.ofStmts body, c.AllFormed := by
  intro c hc
  obtain ⟨s, hs, rfl⟩ := List.mem_map.1 hc
  exact h s hs

theorem allFormed_ofExpr? {e : Option Expr} (h : ∀ x ∈ e, (Node.expr x).AllFormed) :
    ∀ c ∈ Node.ofExpr? e, c.AllFormed := by
  intro c hc
  obtain ⟨x, hx, rfl⟩ := List.mem_map.1 hc
  exact h x (Option.mem_toList.1 hx)

/-- A statement that cannot be taken for the beginning of a longer one. -/
theorem closed (s : Stmt) (hopen : s.endsInOpenIf = false) (hformed : s.Formed)
    (hchildren : ∀ c ∈ Node.childrenOfStmt s, c.AllFormed) : g.StmtMade (.ok s) r :=
  .ok ⟨Node.allFormed_iff.2 ⟨hformed, hchildren⟩, by simp [hopen]⟩

/-- A statement that ends as its last part does. -/
theorem ending (s : Stmt) (hformed : s.Formed) (hchildren : ∀ c ∈ Node.childrenOfStmt s, c.AllFormed)
    (hopen : s.endsInOpenIf = true → ∀ t, keyword "else" r = some t → g.statement t = none) :
    g.StmtMade (.ok s) r :=
  .ok ⟨Node.allFormed_iff.2 ⟨hformed, hchildren⟩, hopen⟩

theorem length_optionalEnd (s : List Char) : (optionalEnd s).length ≤ s.length := by
  rw [optionalEnd]
  cases h : mark ";" s with
  | none => exact Nat.le_refl _
  | some r => exact Nat.le_of_lt (length_mark h (by decide))

theorem Steady.optional_expression (h : Steady k g g') {s : List Char} (hs : s.length < k) :
    ∃ found r, optional g.expression s = (found, r) ∧ optional g'.expression s = (found, r) ∧
      r.length ≤ s.length ∧ Built.Holds (fun e => ∀ x ∈ e, (Node.expr x).AllFormed) (Built.option found) := by
  obtain ⟨found, r, hfound, hfound', hle, hall, -⟩ := (h.expression s hs).optional
  exact ⟨found, r, hfound, hfound', hle, (Built.Holds.option hall).imp fun _ h => h.2⟩

theorem Steady.declarator (h : Steady k g g') : AgreedBelow (k + 1)
    (fun x _ => x.Holds fun d => (Node.declarator d).AllFormed) g.declarator g'.declarator := by
  intro s hs
  unfold Grammar.declarator
  refine .bind (agreed_identifier (k := k + 1) s hs) fun name s₁ h₁ hname => ?_
  have hvalue : AgreedBelow (k + 1) ExprMade (behind (markBefore "=" (· == '=')) g.assignment)
      (behind (markBefore "=" (· == '=')) g'.assignment) :=
    h.assignment.behind fun _ _ h => length_markBefore h (by decide)
  obtain ⟨init, s₂, hinit, hinit', hle, hall, -⟩ := (hvalue s₁ (by omega)).optional
  simp only [hinit, hinit']
  refine .found (by omega) ((Built.Holds.option hall).bind fun e he => .ok ?_)
  exact Node.allFormed_iff.2 ⟨hname, allFormed_ofExpr? he.2⟩

theorem Steady.declarators (h : Steady k g g') : AgreedBelow (k + 1)
    (fun x _ => x.Holds fun decls => decls ≠ [] ∧ ∀ d ∈ decls, (Node.declarator d).AllFormed)
    g.declarators g'.declarators := by
  intro s hs
  unfold Grammar.declarators
  refine .step fun s₁ h₁ => ?_
  have := length_keyword h₁ (by decide)
  refine .bind (((h.declarator.mono (Nat.le_succ k)).separated h.bound h.bound') s₁ (by omega))
    fun decls s₂ h₂ hdecls => ?_
  refine .found (by omega) ((Built.Holds.all (P := fun d => (Node.declarator d).AllFormed) fun x hx =>
    (hdecls.2 x hx).elim fun _ h => h).imp fun ds hds => ⟨?_, hds.2⟩)
  rintro rfl
  exact hdecls.1 (List.eq_nil_of_length_eq_zero hds.1.symm)

/-! ## Statements without bodies -/

theorem Steady.blockStmt (h : Steady k g g') : AgreedBelow (k + 1) g.StmtMade g.blockStmt g'.blockStmt := by
  intro s hs
  unfold Grammar.blockStmt
  refine .bind (h.braced s hs) fun body s₁ h₁ hbody => .found h₁ (hbody.bind fun body hbody => ?_)
  exact closed (.block body) rfl trivial (allFormed_ofStmts hbody)

theorem Steady.varStmt (h : Steady k g g') : AgreedBelow (k + 1) g.StmtMade g.varStmt g'.varStmt := by
  intro s hs
  unfold Grammar.varStmt
  refine .bind (h.declarators s hs) fun decls s₁ h₁ hdecls => ?_
  have := length_optionalEnd s₁
  refine .found (by omega) (hdecls.bind fun ds hds => closed (.var ds) rfl hds.1 fun c hc => ?_)
  obtain ⟨d, hd, rfl⟩ := List.mem_map.1 hc
  exact hds.2 d hd

theorem Steady.functionStmt (h : Steady k g g') :
    AgreedBelow (k + 1) g.StmtMade g.functionStmt g'.functionStmt := by
  intro s hs
  unfold Grammar.functionStmt
  refine .step fun s₁ h₁ => ?_
  have := length_keyword h₁ (by decide)
  refine .bind (agreed_identifier (k := k) s₁ (by omega)) fun name s₂ h₂ hname => ?_
  refine .bind (h.functionTail (some name) (by simpa using hname) s₂ (by omega)) fun f s₃ h₃ hf => ?_
  refine .found (by omega) (hf.bind fun f hf => closed (.function f) rfl ⟨?_, hf.2.1⟩ (allFormed_ofStmts hf.2.2))
  rw [hf.1]
  rfl

theorem Steady.returnStmt (h : Steady k g g') :
    AgreedBelow (k + 1) g.StmtMade g.returnStmt g'.returnStmt := by
  intro s hs
  unfold Grammar.returnStmt
  refine .step fun s₁ h₁ => ?_
  have := length_keyword h₁ (by decide)
  obtain ⟨value, s₂, hvalue, hvalue', hle, hall⟩ := h.optional_expression (s := s₁) (by omega)
  have := length_optionalEnd s₂
  simp only [hvalue, hvalue']
  exact .found (by omega) (hall.bind fun e he => closed (.ret e) rfl trivial (allFormed_ofExpr? he))

theorem Steady.throwStmt (h : Steady k g g') :
    AgreedBelow (k + 1) g.StmtMade g.throwStmt g'.throwStmt := by
  intro s hs
  unfold Grammar.throwStmt
  refine .step fun s₁ h₁ => ?_
  have := length_keyword h₁ (by decide)
  refine .bind (h.expression s₁ (by omega)) fun value s₂ h₂ hvalue => ?_
  have := length_optionalEnd s₂
  refine .found (by omega) (hvalue.bind fun e he => closed (.throwing e) rfl trivial ?_)
  simpa [Node.childrenOfStmt] using he

theorem agreed_labelled {word : String} (hword : word.toList ≠ []) (make : Option String → Stmt)
    (hopen : ∀ label, (make label).endsInOpenIf = false)
    (hformed : ∀ label : Option String, (∀ n ∈ label, IsName n) → (make label).Formed)
    (hchildren : ∀ label, Node.childrenOfStmt (make label) = []) (s : List Char) :
    Agreed s.length g.StmtMade
      (do
        let s ← keyword word s
        let (label, s) := optional identifier s
        return (.ok (make label), optionalEnd s))
      (do
        let s ← keyword word s
        let (label, s) := optional identifier s
        return (.ok (make label), optionalEnd s)) := by
  refine .step fun s₁ h₁ => ?_
  have := length_keyword h₁ hword
  obtain ⟨label, s₂, hlabel, -, hle, hname, -⟩ :=
    ((agreed_identifier (k := s.length)) s₁ (by omega)).optional
  have := length_optionalEnd s₂
  simp only [hlabel]
  exact .found (by omega) (closed (make label) (hopen label) (hformed label hname) (by simp [hchildren]))

theorem exprStmt_agreed (hbound : k + 1 ≤ g.bound) (hbound' : k + 1 ≤ g'.bound)
    (hassign : AgreedBelow (k + 1) ExprMade g.assignment g'.assignment) :
    AgreedBelow (k + 1) g.StmtMade g.exprStmt g'.exprStmt := by
  intro s hs
  unfold Grammar.exprStmt
  refine .bind (expression_agreed hbound hbound' hassign s hs) fun e s₁ h₁ he => ?_
  have := length_optionalEnd s₁
  refine .found (by omega) (he.bind fun e he => closed (.expr e) rfl trivial ?_)
  simpa [Node.childrenOfStmt] using he

/-! ## Statements with bodies -/

theorem Steady.whileStmt (h : Steady k g g') :
    AgreedBelow (k + 1) g.StmtMade g.whileStmt g'.whileStmt := by
  intro s hs
  unfold Grammar.whileStmt
  refine .step fun s₁ h₁ => ?_
  have := length_keyword h₁ (by decide)
  refine .bind (h.parenthesized s₁ (by omega)) fun test s₂ h₂ htest => ?_
  refine .bind (h.statement s₂ (by omega)) fun body s₃ h₃ hbody => ?_
  refine .found (by omega) (htest.bind fun t ht => hbody.bind fun b hb => ?_)
  exact ending (.whileLoop t b) trivial (by simpa [Node.childrenOfStmt] using ⟨ht, hb.1⟩) hb.2

theorem Steady.withStmt (h : Steady k g g') :
    AgreedBelow (k + 1) g.StmtMade g.withStmt g'.withStmt := by
  intro s hs
  unfold Grammar.withStmt
  refine .step fun s₁ h₁ => ?_
  have := length_keyword h₁ (by decide)
  refine .bind (h.parenthesized s₁ (by omega)) fun object s₂ h₂ hobject => ?_
  refine .bind (h.statement s₂ (by omega)) fun body s₃ h₃ hbody => ?_
  refine .found (by omega) (hobject.bind fun o ho => hbody.bind fun b hb => ?_)
  exact ending (.withScope o b) trivial (by simpa [Node.childrenOfStmt] using ⟨ho, hb.1⟩) hb.2

theorem Steady.doStmt (h : Steady k g g') : AgreedBelow (k + 1) g.StmtMade g.doStmt g'.doStmt := by
  intro s hs
  unfold Grammar.doStmt
  refine .step fun s₁ h₁ => ?_
  have := length_keyword h₁ (by decide)
  refine .bind (h.statement s₁ (by omega)) fun body s₂ h₂ hbody => .step fun s₃ h₃ => ?_
  have := length_keyword h₃ (by decide)
  refine .bind (h.parenthesized s₃ (by omega)) fun test s₄ h₄ htest => ?_
  have := length_optionalEnd s₄
  refine .found (by omega) (hbody.bind fun b hb => htest.bind fun t ht => ?_)
  exact closed (.doLoop b t) rfl trivial (by simpa [Node.childrenOfStmt] using ⟨hb.1, ht⟩)

theorem Steady.labeledStmt (h : Steady k g g') :
    AgreedBelow (k + 1) g.StmtMade g.labeledStmt g'.labeledStmt := by
  intro s hs
  unfold Grammar.labeledStmt
  refine .bind (agreed_identifier (k := k + 1) s hs) fun label s₁ h₁ hlabel => .step fun s₂ h₂ => ?_
  have := length_mark h₂ (by decide)
  refine .bind (h.statement s₂ (by omega)) fun body s₃ h₃ hbody => ?_
  refine .found (by omega) (hbody.bind fun b hb => ?_)
  exact ending (.labeled label b) hlabel (by simpa [Node.childrenOfStmt] using hb.1) hb.2

/-- An `else` is read by the innermost `if` that is open. -/
theorem Steady.branchStmt (h : Steady k g g') :
    AgreedBelow (k + 1) g.StmtMade g.branchStmt g'.branchStmt := by
  intro s hs
  unfold Grammar.branchStmt
  refine .step fun s₁ h₁ => ?_
  have := length_keyword h₁ (by decide)
  refine .bind (h.parenthesized s₁ (by omega)) fun test s₂ h₂ htest => ?_
  refine .bind (h.statement s₂ (by omega)) fun cons s₃ h₃ hcons => ?_
  have helse : AgreedBelow (k + 1) g.StmtMade (behind (keyword "else") g.statement)
      (behind (keyword "else") g'.statement) :=
    h.statement.behind fun _ _ h => length_keyword h (by decide)
  obtain ⟨alt, s₄, halt, halt', hle, hall, hnone⟩ := (helse s₃ (by omega)).optional
  simp only [halt, halt']
  refine .found (by omega) (htest.bind fun t ht => hcons.bind fun c hc => ?_)
  cases alt with
  | none =>
      obtain ⟨rfl, hrefused⟩ := hnone rfl
      refine ending (.branch t c none) (by simp [Stmt.Formed])
        (by simpa [Node.childrenOfStmt] using ⟨ht, hc.1⟩) fun _ t hkeyword => ?_
      rw [Rule.behind, hkeyword] at hrefused
      exact hrefused
  | some alt =>
      have hread : behind (keyword "else") g.statement s₃ = some (alt, s₄) := by
        rw [Rule.optional] at halt
        split at halt
        · rename_i a rest hsome
          cases halt
          exact hsome
        · cases halt
      refine (Built.Holds.option hall).bind fun found hfound => ?_
      obtain ⟨a, rfl⟩ := Option.isSome_iff_exists.1 hfound.1
      have ha := hfound.2 a rfl
      refine ending (.branch t c (some a)) (fun _ => ?_)
        (by simpa [Node.childrenOfStmt] using ⟨ht, hc.1, ha.1⟩) ha.2
      -- If the first branch ended in an open `if`, that one would have read the `else`.
      rw [Bool.eq_false_iff]
      intro hopen
      rw [Rule.behind] at hread
      obtain ⟨t, hkeyword, hstatement⟩ := Option.bind_eq_some_iff.1 hread
      rw [hc.2 hopen t hkeyword] at hstatement
      cases hstatement

/-! ### Loops with heads -/

/-- A tree for the target of a loop over keys. -/
abbrev TargetMade (x : Built ForTarget) (_ : List Char) : Prop :=
  x.Holds fun
    | .var name => IsName name
    | .expr e => (Node.expr e).AllFormed

theorem Steady.forTarget (h : Steady k g g') : AgreedBelow (k + 1) TargetMade g.forTarget g'.forTarget := by
  intro s hs
  unfold Grammar.forTarget
  refine .oneOf_cons ?_ (.oneOf_cons ?_ .oneOf_nil)
  · refine .step fun s₁ h₁ => ?_
    have := length_keyword h₁ (by decide)
    exact .bind (agreed_identifier (k := k) s₁ (by omega)) fun name s₂ h₂ hname =>
      .found (by omega) (.ok hname)
  · exact .bind (h.callExpr s hs) fun e s₁ h₁ he => .found h₁ (he.bind fun e he => .ok he)

theorem Steady.forInStmt (h : Steady k g g') :
    AgreedBelow (k + 1) g.StmtMade g.forInStmt g'.forInStmt := by
  intro s hs
  unfold Grammar.forInStmt
  refine .step fun s₁ h₁ => .step fun s₂ h₂ => ?_
  have := length_keyword h₁ (by decide)
  have := length_mark h₂ (by decide)
  refine .bind (h.forTarget s₂ (by omega)) fun left s₃ h₃ hleft => .step fun s₄ h₄ => ?_
  have := length_keyword h₄ (by decide)
  refine .bind (h.expression s₄ (by omega)) fun right s₅ h₅ hright => .step fun s₆ h₆ => ?_
  have := length_mark h₆ (by decide)
  refine .bind (h.statement s₆ (by omega)) fun body s₇ h₇ hbody => ?_
  refine .found (by omega) (hleft.bind fun l hl => hright.bind fun r hr => hbody.bind fun b hb => ?_)
  cases l with
  | var name => exact ending (.forIn (.var name) r b) hl (by simpa [Node.childrenOfStmt] using ⟨hr, hb.1⟩) hb.2
  | expr e =>
      exact ending (.forIn (.expr e) r b) trivial (by simpa [Node.childrenOfStmt] using ⟨hl, hr, hb.1⟩) hb.2

/-- A tree for the beginning of a loop. -/
abbrev InitMade (x : Built ForInit) (_ : List Char) : Prop :=
  x.Holds fun
    | .absent => True
    | .vars decls => decls ≠ [] ∧ ∀ d ∈ decls, (Node.declarator d).AllFormed
    | .expr e => (Node.expr e).AllFormed

theorem Steady.forInit (h : Steady k g g') : AgreedBelow k InitMade g.forInit g'.forInit := by
  intro s hs
  unfold Grammar.forInit
  refine .oneOf_cons ?_ (.oneOf_cons ?_ .oneOf_nil)
  · exact .bind (h.declarators s (by omega)) fun decls s₁ h₁ hdecls =>
      .found h₁ (hdecls.bind fun ds hds => .ok hds)
  · exact .bind (h.expression s hs) fun e s₁ h₁ he => .found h₁ (he.bind fun e he => .ok he)

theorem Steady.forStmt (h : Steady k g g') :
    AgreedBelow (k + 1) g.StmtMade g.forStmt g'.forStmt := by
  intro s hs
  unfold Grammar.forStmt
  refine .step fun s₁ h₁ => .step fun s₂ h₂ => ?_
  have := length_keyword h₁ (by decide)
  have := length_mark h₂ (by decide)
  obtain ⟨init, s₃, hinit, hinit', hle, hall, -⟩ := (h.forInit s₂ (by omega)).optional
  simp only [hinit, hinit']
  refine .step fun s₄ h₄ => ?_
  have := length_mark h₄ (by decide)
  obtain ⟨test, s₅, htest, htest', hle', hmadeTest⟩ := h.optional_expression (s := s₄) (by omega)
  simp only [htest, htest']
  refine .step fun s₆ h₆ => ?_
  have := length_mark h₆ (by decide)
  obtain ⟨update, s₇, hupdate, hupdate', hle'', hmadeUpdate⟩ := h.optional_expression (s := s₆) (by omega)
  simp only [hupdate, hupdate']
  refine .step fun s₈ h₈ => ?_
  have := length_mark h₈ (by decide)
  refine .bind (h.statement s₈ (by omega)) fun body s₉ h₉ hbody => ?_
  have hmadeInit : InitMade (init.getD (.ok .absent)) s₃ := by
    cases init with
    | none => exact .ok trivial
    | some init => exact hall init rfl
  dsimp only
  refine .found (by omega) (hmadeInit.bind fun i hi => hmadeTest.bind fun t ht => hmadeUpdate.bind fun u hu =>
    hbody.bind fun b hb => ?_)
  have hparts : ∀ c ∈ Node.ofExpr? t ++ Node.ofExpr? u ++ [.stmt b], c.AllFormed := by
    intro c hc
    rw [List.mem_append, List.mem_append, List.mem_singleton] at hc
    rcases hc with (hc | hc) | rfl
    · exact allFormed_ofExpr? ht c hc
    · exact allFormed_ofExpr? hu c hc
    · exact hb.1
  have hchildren : ∀ head : List Node, (∀ c ∈ head, c.AllFormed) →
      ∀ c ∈ head ++ Node.ofExpr? t ++ Node.ofExpr? u ++ [.stmt b], c.AllFormed := by
    intro head hhead c hc
    rw [List.append_assoc, List.append_assoc, List.mem_append, ← List.append_assoc] at hc
    exact hc.elim (hhead c) (hparts c)
  cases i with
  | absent => exact ending (.forLoop .absent t u b) trivial (hchildren [] (by simp)) hb.2
  | vars decls =>
      refine ending (.forLoop (.vars decls) t u b) hi.1 (hchildren (decls.map .declarator) fun c hc => ?_) hb.2
      obtain ⟨d, hd, rfl⟩ := List.mem_map.1 hc
      exact hi.2 d hd
  | expr e => exact ending (.forLoop (.expr e) t u b) trivial (hchildren [.expr e] (by simpa using hi)) hb.2

/-! ### Clauses -/

theorem Steady.handler (h : Steady k g g') : AgreedBelow (k + 1)
    (fun x _ => x.Holds fun c => (Node.handler c).AllFormed) g.handler g'.handler := by
  intro s hs
  unfold Grammar.handler
  refine .step fun s₁ h₁ => ?_
  have := length_keyword h₁ (by decide)
  refine .bind (AgreedBelow.parenthesized (agreed_identifier (k := k)) s₁ (by omega)) fun name s₂ h₂ hname => ?_
  refine .bind (h.braced s₂ (by omega)) fun body s₃ h₃ hbody => ?_
  refine .found (by omega) (hbody.bind fun b hb => .ok (Node.allFormed_iff.2 ⟨?_, allFormed_ofStmts hb⟩))
  exact hname.elim fun _ h => h

theorem Steady.tryStmt (h : Steady k g g') :
    AgreedBelow (k + 1) g.StmtMade g.tryStmt g'.tryStmt := by
  intro s hs
  unfold Grammar.tryStmt
  refine .step fun s₁ h₁ => ?_
  have := length_keyword h₁ (by decide)
  refine .bind (h.braced s₁ (by omega)) fun block s₂ h₂ hblock => ?_
  obtain ⟨guarded, s₃, hguarded, hguarded', hle, hall, -⟩ := (h.handler s₂ (by omega)).optional
  simp only [hguarded, hguarded']
  have hfinally : AgreedBelow (k + 1 + 1)
      (fun x _ => x.Holds fun body => ∀ s ∈ body, (Node.stmt s).AllFormed)
      (behind (keyword "finally") g.braced) (behind (keyword "finally") g'.braced) :=
    h.braced.behind fun _ _ h => length_keyword h (by decide)
  obtain ⟨finalizer, s₄, hfinalizer, hfinalizer', hle', hall', -⟩ := (hfinally s₃ (by omega)).optional
  simp only [hfinalizer, hfinalizer']
  refine .found (by omega) (hblock.bind fun b hb => (Built.Holds.option hall).bind fun c hc =>
    (Built.Holds.option hall').bind fun f hf => ?_)
  split_ifs with hbare
  · exact .error _
  · refine closed (.attempt b c f) rfl ?_ fun n hn => ?_
    · cases c <;> cases f <;> simp_all [Stmt.Formed]
    · rw [Node.childrenOfStmt, List.mem_append, List.mem_append] at hn
      rcases hn with (hn | hn) | hn
      · exact allFormed_ofStmts hb n hn
      · obtain ⟨x, hx, rfl⟩ := List.mem_map.1 hn
        exact hc.2 x (Option.mem_toList.1 hx)
      · cases f with
        | none => simp [Node.ofStmts] at hn
        | some f => exact allFormed_ofStmts (hf.2 f rfl) n hn

theorem Steady.caseLabel (h : Steady k g g') :
    AgreedBelow (k + 1) (fun test r => ∀ x ∈ test, ExprMade x r) g.caseLabel g'.caseLabel := by
  intro s hs
  unfold Grammar.caseLabel
  refine .oneOf_cons ?_ (.oneOf_cons ?_ .oneOf_nil)
  · refine .step fun s₁ h₁ => ?_
    have := length_keyword h₁ (by decide)
    refine .bind (h.expression s₁ (by omega)) fun test s₂ h₂ htest => .step fun s₃ h₃ => ?_
    have := length_mark h₃ (by decide)
    exact .found (by omega) (by simpa using htest)
  · refine .step fun s₁ h₁ => .step fun s₂ h₂ => ?_
    have := length_keyword h₁ (by decide)
    have := length_mark h₂ (by decide)
    exact .found (by omega) (by simp)

theorem Steady.switchCase (h : Steady k g g') : AgreedBelow (k + 1)
    (fun x _ => x.Holds fun c => (Node.case c).AllFormed) g.switchCase g'.switchCase := by
  intro s hs
  unfold Grammar.switchCase
  refine .bind (h.caseLabel s hs) fun test s₁ h₁ htest => ?_
  have := h.bound
  have := h.bound'
  obtain ⟨body, s₂, hmany, hmany', hle, hall⟩ :=
    h.statement.many g.bound g'.bound s₁ (by omega) (by omega) (by omega)
  simp only [hmany, hmany']
  refine .found (by omega) ((Built.Holds.option htest).bind fun t ht => ?_)
  refine (Built.Holds.all (P := fun s => (Node.stmt s).AllFormed) fun x hx => ?_).bind fun b hb =>
    .ok (Node.allFormed_iff.2 ⟨trivial, fun c hc => ?_⟩)
  · obtain ⟨t, ht⟩ := hall x hx
    exact ht.imp fun s hs => hs.1
  · rcases List.mem_append.1 hc with hc | hc
    · exact allFormed_ofExpr? ht.2 c hc
    · exact allFormed_ofStmts hb.2 c hc

theorem Steady.switchStmt (h : Steady k g g') :
    AgreedBelow (k + 1) g.StmtMade g.switchStmt g'.switchStmt := by
  intro s hs
  unfold Grammar.switchStmt
  refine .step fun s₁ h₁ => ?_
  have := length_keyword h₁ (by decide)
  refine .bind (h.parenthesized s₁ (by omega)) fun discriminant s₂ h₂ hdiscriminant => .step fun s₃ h₃ => ?_
  have := length_mark h₃ (by decide)
  have := h.bound
  have := h.bound'
  obtain ⟨cases, s₄, hmany, hmany', hle, hall⟩ :=
    h.switchCase.many g.bound g'.bound s₃ (by omega) (by omega) (by omega)
  simp only [hmany, hmany']
  refine .step fun s₅ h₅ => ?_
  have := length_mark h₅ (by decide)
  refine .found (by omega) (hdiscriminant.bind fun d hd => ?_)
  refine (Built.Holds.all (P := fun c => (Node.case c).AllFormed) fun x hx =>
    (hall x hx).elim fun _ h => h).bind fun cs hcs => closed (.switch d cs) rfl trivial fun c hc => ?_
  rcases List.mem_cons.1 hc with rfl | hc
  · exact hd
  · obtain ⟨x, hx, rfl⟩ := List.mem_map.1 hc
    exact hcs.2 x hx

/-! ## All levels -/

theorem anyStmt_agreed (h : Steady k g g') (hbound : k + 1 ≤ g.bound) (hbound' : k + 1 ≤ g'.bound)
    (hassign : AgreedBelow (k + 1) ExprMade g.assignment g'.assignment) :
    AgreedBelow (k + 1) g.StmtMade g.anyStmt g'.anyStmt := by
  intro s hs
  unfold Grammar.anyStmt
  refine .oneOf_cons (h.blockStmt s hs) (.oneOf_cons (h.varStmt s hs) (.oneOf_cons (h.functionStmt s hs)
    (.oneOf_cons (h.branchStmt s hs) (.oneOf_cons (h.forInStmt s hs) (.oneOf_cons (h.forStmt s hs)
    (.oneOf_cons (h.whileStmt s hs) (.oneOf_cons (h.doStmt s hs) (.oneOf_cons (h.returnStmt s hs)
    (.oneOf_cons ?_ (.oneOf_cons ?_ (.oneOf_cons (h.throwStmt s hs) (.oneOf_cons (h.tryStmt s hs)
    (.oneOf_cons (h.switchStmt s hs) (.oneOf_cons (h.withStmt s hs) (.oneOf_cons ?_ (.oneOf_cons ?_
    (.oneOf_cons (h.labeledStmt s hs) (.oneOf_cons (exprStmt_agreed hbound hbound' hassign s hs)
    .oneOf_nil))))))))))))))))))
  · exact agreed_labelled (by decide) .brk (fun _ => rfl) (fun _ h => h) (fun _ => rfl) s
  · exact agreed_labelled (by decide) .cont (fun _ => rfl) (fun _ h => h) (fun _ => rfl) s
  · refine .step fun s₁ h₁ => ?_
    have := length_keyword h₁ (by decide)
    have := length_optionalEnd s₁
    exact .found (by omega) (closed .debugger rfl trivial (by simp [Node.childrenOfStmt]))
  · refine .step fun s₁ h₁ => ?_
    have := length_mark h₁ (by decide)
    exact .found (by omega) (closed .empty rfl trivial (by simp [Node.childrenOfStmt]))

/-- A level and the next one do the same with short texts, if the ones below do. -/
theorem Steady.step (h : Steady k g g.step) : Steady (k + 1) g.step g.step.step := by
  have hwithin : Steady k g.within g.step.within :=
    { bound := Nat.le_succ_of_le h.bound
      bound' := Nat.le_succ_of_le h.bound'
      statement := h.statement
      assignment := h.assign.mono (Nat.le_succ k)
      construction := h.construction }
  refine ⟨Nat.succ_le_succ h.bound, Nat.succ_le_succ h.bound', fun s hs => ?_, h.assign, h.newExpr⟩
  obtain ⟨heq, hmade⟩ := anyStmt_agreed hwithin (Nat.succ_le_succ h.bound) (Nat.succ_le_succ h.bound')
    h.assign s hs
  refine ⟨heq, fun x r hx => ⟨(hmade x r hx).1, (hmade x r hx).2.imp fun s' hs' => ⟨hs'.1, ?_⟩⟩⟩
  intro hopen t ht
  have hlength := (hmade x r hx).1
  have := length_keyword ht (by decide)
  rw [← (h.statement t (by omega)).1]
  exact hs'.2 hopen t ht

theorem steady_upTo : ∀ n, Steady n (upTo n) (upTo (n + 1))
  | 0 =>
    { bound := Nat.le_refl 0
      bound' := Nat.zero_le _
      statement := fun s hs => absurd hs (Nat.not_lt_zero _)
      assignment := fun s hs => absurd hs (Nat.not_lt_zero _)
      construction := fun s hs => by
        obtain rfl : s = [] := List.eq_nil_of_length_eq_zero (by omega)
        have hkeyword : keyword "new" [] = none := by
          rw [keyword, markBefore, mark_of_skip_nil solid_nil (by decide)]
          rfl
        have hnone : refuse.newExpr [] = none := by simp [Grammar.newExpr, hkeyword]
        exact (congrArg (Agreed _ ExprMade none) hnone).mpr .none }
  | n + 1 => (steady_upTo n).step

end Grammar

/-- What the statements of a text make is well-formed. -/
theorem read_holds {s : List Char} {x : Built Program} (h : Program.read s = some x) :
    x.Holds fun p => (Node.func p.toFunc).AllFormed := by
  obtain ⟨found, r, hmany, -, -, hall⟩ :=
    (Grammar.steady_upTo (s.length + 1)).statement.many (s.length + 1) (s.length + 1) s (by omega)
      (by omega) (by omega)
  rw [Program.read, hmany] at h
  obtain ⟨-, -, hx⟩ := Option.bind_eq_some_iff.1 h
  cases hx
  refine (Built.Holds.all (P := fun s => (Node.stmt s).AllFormed) fun y hy => ?_).bind fun body hbody =>
    .ok (Node.allFormed_iff.2 ⟨trivial, Grammar.allFormed_ofStmts hbody.2⟩)
  exact (hall y hy).elim fun _ h => h.imp fun _ h => h.1

/-- Every node of a program that was read is such as reading makes it. -/
theorem allFormed_of_parse {source : String} {p : Program} (h : Program.parse source = .ok p) :
    (Node.func p.toFunc).AllFormed := by
  rw [Program.parse] at h
  split at h
  · cases h
  · cases h
  · rename_i hread
    cases h
    exact read_holds hread p rfl

/-- Printing is undone by reading: a program that was read, printed and read again is the same, if the texts of
its number literals are read back and no `new` has a callee that its text would cut short. -/
theorem parse_print_of_parse {source : String} {p : Program} (h : Program.parse source = .ok p)
    (hfinite : ∀ v ∈ p.literals, v.isFinite = true) (hreads : ∀ v ∈ p.literals, Number.ReadsBack v)
    (hcallees : ∀ callee ∈ p.constructors, callee.isChainOverCall = false) :
    Program.parse p.print = .ok p := by
  refine parse_print fun n hn => ?_
  have hformed : n.Formed := allFormed_of_parse h n hn
  refine ⟨hformed, ?_, ?_⟩
  · rintro v rfl
    have hv : v ∈ p.literals := List.mem_filterMap.2 ⟨_, hn, rfl⟩
    exact ⟨hfinite v hv, hreads v hv⟩
  · rintro callee args rfl
    exact hcallees callee (List.mem_filterMap.2 ⟨_, hn, rfl⟩)

/-- The tree of `if (a) if (b) x = 1.5; else new (f())(y).z;`: the `else` belongs to the inner `if`. -/
def danglingElse : Program :=
  ⟨[.branch (.ident "a")
    (.branch (.ident "b") (.expr (.assign none (.ident "x") (.num 1.5)))
      (some (.expr (.member (.construct (.call (.ident "f") []) [.ident "y"]) "z")))) none]⟩

theorem parse_print_of_parse_danglingElse :
    Program.parse "if (a) if (b) x = 1.5; else new (f())(y).z;" = .ok danglingElse ∧
      (∀ v ∈ danglingElse.literals, v.isFinite = true) ∧
      (∀ v ∈ danglingElse.literals, Number.ReadsBack v) ∧
      (∀ callee ∈ danglingElse.constructors, callee.isChainOverCall = false) ∧
      Program.parse danglingElse.print = .ok danglingElse := by
  have hparse : Program.parse "if (a) if (b) x = 1.5; else new (f())(y).z;" = .ok danglingElse := by
    with_unfolding_all rfl
  have hfinite : ∀ v ∈ danglingElse.literals, v.isFinite = true := by with_unfolding_all decide
  have hreads : ∀ v ∈ danglingElse.literals, Number.decimal? (Number.text v).toList = some v := by
    with_unfolding_all decide
  have hcallees : ∀ callee ∈ danglingElse.constructors, callee.isChainOverCall = false := by
    with_unfolding_all decide
  exact ⟨hparse, hfinite, hreads, hcallees, parse_print_of_parse hparse hfinite hreads hcallees⟩

end Resumption.Script
