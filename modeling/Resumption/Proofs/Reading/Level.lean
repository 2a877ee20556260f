import Resumption.Proofs.Reading.Loop

/-!
# Level by level

Each level of the grammar reads back what is one character longer than what the level below reads back.
So the grammar for texts of a length reads back all printed trees of that length, and a printed program
is read as itself.
-/

namespace Resumption.Script

open Lexeme Rule Printer

variable {g : Grammar} {n m : Nat} {b r s t : List Char} {c : Char} {flat : Bool} {i : Nat}

namespace Grammar

/-! ## Expressions as statements -/

/-- Parentheses are read off whatever stands in them. -/
theorem Faithful.assign_paren (hg : g.Faithful n) {e : Expr} (he : (Node.expr e).AllPrintable) :
    Reads g.assign (n + 1) (Follow 2) ('(' :: ((e.print 0).toList ++ [')'])) (.ok e) := by
  intro b r hb hr hlength
  have hbase := hg.base_paren he b r hb trivial hlength
  have hshort : r.length < (b ++ ('(' :: ((e.print 0).toList ++ [')']) ++ r)).length := by
    simp only [List.length_append, List.length_cons]
    omega
  have hcall : g.callExpr (b ++ ('(' :: ((e.print 0).toList ++ [')']) ++ r)) = some (.ok e, r) := by
    refine (Spine.of_base hbase hshort : Spine g true _ _ _).suffixed
      (suffixOf_refused (fun _ => hr.call) hr.member hr.index) ?_
    have := hg.bound
    simp only [List.length_append] at hlength ⊢
    omega
  have hleads : many leadOp g.bound (b ++ ('(' :: ((e.print 0).toList ++ [')']) ++ r)) =
      ([], b ++ ('(' :: ((e.print 0).toList ++ [')']) ++ r)) :=
    (Repeats.stop (leadOp_of_operand (operand_paren (r := [])) hb)).many (Nat.zero_le _)
  have hunary : g.unary (b ++ ('(' :: ((e.print 0).toList ++ [')']) ++ r)) = some (.ok e, r) := by
    rw [Grammar.unary, hleads]
    simp only [Grammar.updated, hcall, Option.bind_eq_bind, Option.bind_some,
      optional_none (updateMark_refused hr)]
    rfl
  have hrest : many g.infixed g.bound r = ([], r) := by
    have hstop : g.infixed r = none := by simp [Grammar.infixed, hr.operator (by decide)]
    exact (Repeats.stop hstop).many (Nat.zero_le _)
  have hbinary : g.binary (b ++ ('(' :: ((e.print 0).toList ++ [')']) ++ r)) = some (.ok e, r) := by
    rw [binary_eq, hunary]
    simp only [Option.bind_eq_bind, Option.bind_some, hrest]
    rfl
  exact assign_of_plain (conditional_of_plain hbinary (hr.branch (by decide))) (hr.assign (by decide))

theorem exprStmt_of_expression {e : Expr} (h : g.expression s = some (.ok e, ';' :: r)) :
    g.exprStmt s = some (.ok (.expr e), r) := by
  rw [Grammar.exprStmt, h]
  simp only [Option.bind_eq_bind, Option.bind_some, optionalEnd_semicolon]
  rfl

theorem mark_colon_semicolon (r : List Char) : mark ":" (';' :: r) = none :=
  (leads_cons (c := ';') rfl (by decide)).mark (by simp) (by simp)

/-- What begins like an expression, but neither like a block nor like a function, is read as an
expression. -/
theorem anyStmt_of_opening (h : Opening (';' :: r) s) (hb : Blank b)
    (hbrace : ∀ t, s ≠ '\x7b' :: t) (hfunction : ∀ t, s ≠ "function".toList ++ t) :
    g.anyStmt (b ++ s) = g.exprStmt (b ++ s) := by
  have hsign : ∀ {c : Char} {t : List Char}, (c ∈ ['(', '[', '"', '\x7b'] ∨ c.isDigit = true ∨
      c ∈ ['+', '-', '!', '~']) → c ≠ '\x7b' → g.anyStmt (b ++ c :: t) = g.exprStmt (b ++ c :: t) := by
    intro c t hc hne
    obtain ⟨⟨t', ht'⟩, hname⟩ := leads_of_opening_sign hc t
    have hlead : Leads c (b ++ c :: t) := ⟨t', (skip_blank_append hb _).trans ht'⟩
    refine anyStmt_of_sign hlead hname hne ?_
    rintro rfl
    simp at hc
  have hword : ∀ {w : String} {t : List Char}, IsWord w → endsBefore isNameChar t = true →
      w ∉ statementWords → w ∈ reserved → g.anyStmt (b ++ (w.toList ++ t)) = g.exprStmt (b ++ (w.toList ++ t)) := by
    intro w t hw ht hnot hreserved
    have hopens := Opens.of_word hw hb ht
    rw [anyStmt_of_other hopens hnot, labeledStmt_of_reserved hopens hreserved]
    rfl
  cases h with
  | operand h =>
      cases h with
      | sign h =>
          refine hsign (h.elim .inl (fun h => .inr (.inl h))) ?_
          rintro rfl
          exact hbrace _ rfl
      | @word w t word apart h =>
          have hmem : w = "this" ∨ w = "null" ∨ w = "true" ∨ w = "false" ∨ w = "new" ∨ w = "function" := by
            simpa using h
          have hne : w ≠ "function" := by
            rintro rfl
            exact hfunction _ rfl
          refine hword word apart ?_ ?_
          · rcases hmem with rfl | rfl | rfl | rfl | rfl | rfl <;> first
              | exact absurd rfl hne
              | decide
          · rcases hmem with rfl | rfl | rfl | rfl | rfl | rfl <;> decide
      | @name w t name apart h =>
          have hstatement : ∀ w ∈ statementWords, w ∈ reserved := by decide
          have hopens := Opens.of_word name.1 hb apart
          have hcolon : mark ":" t = none := by
            rcases h with rfl | h
            · exact mark_colon_semicolon r
            · exact h
          have hlabel : g.labeledStmt (b ++ (w.toList ++ t)) = none := by
            rw [Grammar.labeledStmt, identifier_name name hb apart]
            simp [hcolon]
          rw [anyStmt_of_other hopens fun hw => name.2 (hstatement w hw), hlabel]
          rfl
  | sign h =>
      refine hsign (.inr (.inr h)) ?_
      rintro rfl
      simp at h
  | @word w t word apart h =>
      have hmem : w = "typeof" ∨ w = "void" ∨ w = "delete" := by simpa using h
      refine hword word apart ?_ ?_ <;> rcases hmem with rfl | rfl | rfl <;> decide

/-- A beginning that the text does not have, it does not have in front of a semicolon either. -/
theorem ne_of_startsWith {beginning text : String} (h : startsWith beginning text = false)
    (hsemicolon : ';' ∉ beginning.toList) (r t : List Char) :
    text.toList ++ ';' :: r ≠ beginning.toList ++ t := by
  intro heq
  rcases List.append_eq_append_iff.1 heq with ⟨rest, hbeginning, hrest⟩ | ⟨rest, htext, -⟩
  · cases rest with
    | nil =>
        have : startsWith beginning text = true := by
          simp [startsWith, List.isPrefixOf_iff_prefix, hbeginning]
        rw [h] at this
        cases this
    | cons c rest =>
        obtain ⟨rfl, -⟩ := List.cons.inj hrest
        exact hsemicolon (by simp [hbeginning])
  · have : startsWith beginning text = true := by
      rw [startsWith, List.isPrefixOf_iff_prefix, htext]
      exact List.prefix_append _ _
    rw [h] at this
    cases this

theorem Faithful.exprStmt (hg : g.Faithful n) {e : Expr} (hs : (Node.stmt (.expr e)).AllPrintable) :
    Reads g.within.anyStmt (n + 1) (fun _ => True) ((Stmt.expr e).text flat i) (.ok (.expr e)) := by
  intro b r hb _ hlength
  have he : (Node.expr e).AllPrintable := hs.child List.mem_cons_self
  rw [text_expr he] at hlength ⊢
  split_ifs at hlength ⊢ with hshield
  · have hsplit : '(' :: ((e.print 0).toList ++ [')', ';']) ++ r =
        '(' :: ((e.print 0).toList ++ [')']) ++ ';' :: r := by simp
    have hlead : Leads '(' (b ++ ('(' :: ((e.print 0).toList ++ [')']) ++ ';' :: r)) :=
      leads_of_solid hb (solid_cons rfl (by decide))
    have hread := hg.assign_paren he b (';' :: r) hb (follow_semicolon r) (by
      simp only [List.length_append, List.length_cons, List.length_nil] at hlength ⊢
      omega)
    rw [hsplit, anyStmt_of_sign hlead (by decide) (by decide) (by decide)]
    exact exprStmt_of_expression (expression_of_single (g := g.within) hread
      ((follow_semicolon r (k := 1)).comma (by decide)))
  · simp only [Bool.or_eq_true, not_or, Bool.not_eq_true] at hshield
    have hread := hg.within_expression e he b (';' :: r) hb (follow_semicolon r) (by
      simp only [List.length_append, List.length_cons, List.length_nil] at hlength ⊢
      omega)
    have hopening := opening_print e he (Nat.zero_le 18) (r := ';' :: r) rfl
    rw [List.append_assoc, List.cons_append, List.nil_append,
      anyStmt_of_opening hopening hb]
    · exact exprStmt_of_expression hread
    · exact ne_of_startsWith hshield.1 (by decide) r
    · exact ne_of_startsWith hshield.2 (by decide) r

theorem Faithful.labeledStmt (hg : g.Faithful n) {label : String} {body : Stmt}
    (hs : (Node.stmt (.labeled label body)).AllPrintable) :
    Reads g.anyStmt (n + 1) (Stmt.labeled label body).Stops ((Stmt.labeled label body).text flat i)
      (.ok (.labeled label body)) := by
  intro b r hb hr hlength
  have hname : IsName label := hs.formed
  have hbody : (Node.stmt body).AllPrintable := hs.child List.mem_cons_self
  have hstatement : ∀ w ∈ statementWords, w ∈ reserved := by decide
  rw [text_of_spaced (spaced_labeled (lined body hbody flat) (unbroken_word hname.1) i)] at hlength ⊢
  simp only [List.length_append, List.length_cons] at hlength
  have hread := hg.statement body hbody flat i (gap flat :: margin i) r (blank_gap_margin flat i)
    ⟨hr.otherwise, hr.finish⟩ (by simp only [List.length_cons]; omega)
  simp only [List.append_assoc, List.cons_append] at hread ⊢
  rw [anyStmt_of_other (Opens.of_word hname.1 hb rfl) fun hw => hname.2 (hstatement label hw),
    Grammar.labeledStmt, identifier_name hname hb rfl]
  simp only [Option.bind_eq_bind, Option.bind_some, mark_head (c := ':') ":" rfl rfl (by decide), hread]
  rfl

/-! ## All statements -/

/-- What the rules of a word read, no other rule takes. -/
theorem anyStmt_word {w : String} {rules : List (Rule (Built Stmt))}
    (hw : w ∈ statementWords) (hrules : (g.wordRules.filter (fun p => p.1 == w)).map Prod.snd = rules)
    {F : List Char → Prop} {s : Stmt} (hread : Reads (oneOf rules) n F (s.text flat i) (.ok s)) :
    Reads g.anyStmt n F (s.text flat i) (.ok s) := by
  intro b r hb hr hlength
  have hfound := hread b r hb hr hlength
  cases hkeyword : keyword w (b ++ (s.text flat i ++ r)) with
  | none =>
      have hnone : oneOf rules (b ++ (s.text flat i ++ r)) = none := by
        refine oneOf_refused fun rule hrule => ?_
        rw [← hrules] at hrule
        obtain ⟨p, hp, rfl⟩ := List.mem_map.1 hrule
        obtain ⟨hp, hword⟩ := List.mem_filter.1 hp
        refine wordRule_refused p hp ?_
        rw [beq_iff_eq.1 hword, hkeyword]
      rw [hnone] at hfound
      cases hfound
  | some t =>
      refine anyStmt_of_word (Opens.of_keyword (isWord_of_mem w (List.mem_append_left _ hw)) hkeyword) ?_
      rw [hrules, hfound]

theorem reads_oneOf {α : Type} {rule : Rule α} {F : List Char → Prop} {v : α}
    (h : Reads rule n F t v) : Reads (oneOf [rule]) n F t v := by
  intro b r hb hr hlength
  rw [oneOf_cons, h b r hb hr hlength]
  rfl

theorem Faithful.anyStmt (hg : g.Faithful n) (s : Stmt) (hs : (Node.stmt s).AllPrintable) :
    Reads g.within.anyStmt (n + 1) s.Stops (s.text flat i) (.ok s) := by
  have hw := hg.within
  cases s with
  | var decls =>
      exact anyStmt_word (w := "var") (by decide) rfl
        (reads_oneOf ((hw.varStmt hs).mono (Nat.le_refl _) fun _ _ => trivial))
  | function f =>
      exact anyStmt_word (w := "function") (by decide) rfl
        (reads_oneOf ((hw.functionStmt hs).mono (Nat.le_refl _) fun _ _ => trivial))
  | expr e => exact (hg.exprStmt hs).mono (Nat.le_refl _) fun _ _ => trivial
  | block body =>
      intro b r hb _ hlength
      rw [anyStmt_eq, hw.blockStmt hs b r hb trivial hlength]
      rfl
  | branch test cons alt =>
      exact anyStmt_word (w := "if") (by decide) rfl (reads_oneOf (hw.branchStmt hs))
  | forLoop init test update body =>
      exact anyStmt_word (w := "for") (by decide) rfl (hg.forStmt hs)
  | forIn left right body =>
      refine anyStmt_word (w := "for") (by decide)
        (show _ = [g.within.forInStmt, g.within.forStmt] from rfl) fun b r hb hr hlength => ?_
      rw [oneOf_cons, hw.forInStmt hs b r hb hr hlength]
      rfl
  | whileLoop test body =>
      exact anyStmt_word (w := "while") (by decide) rfl (reads_oneOf (hw.whileStmt hs))
  | doLoop body test =>
      exact anyStmt_word (w := "do") (by decide) rfl (reads_oneOf (hw.doStmt hs))
  | ret value =>
      exact anyStmt_word (w := "return") (by decide) rfl
        (reads_oneOf ((hw.returnStmt hs).mono (Nat.le_refl _) fun _ _ => trivial))
  | brk label =>
      exact anyStmt_word (w := "break") (by decide) rfl
        (reads_oneOf fun b r hb _ _ => breakStmt_text hs hb r)
  | cont label =>
      exact anyStmt_word (w := "continue") (by decide) rfl
        (reads_oneOf fun b r hb _ _ => continueStmt_text hs hb r)
  | throwing value =>
      exact anyStmt_word (w := "throw") (by decide) rfl
        (reads_oneOf ((hw.throwStmt hs).mono (Nat.le_refl _) fun _ _ => trivial))
  | attempt block handler finalizer =>
      exact anyStmt_word (w := "try") (by decide) rfl (reads_oneOf (hw.tryStmt hs))
  | switch discriminant cases =>
      exact anyStmt_word (w := "switch") (by decide) rfl
        (reads_oneOf ((hw.switchStmt hs).mono (Nat.le_refl _) fun _ _ => trivial))
  | withScope object body =>
      exact anyStmt_word (w := "with") (by decide) rfl (reads_oneOf (hw.withStmt hs))
  | labeled label body => exact hw.labeledStmt hs
  | debugger =>
      exact anyStmt_word (w := "debugger") (by decide) rfl
        (reads_oneOf fun b r hb _ _ => debuggerStmt_text hb r)
  | empty =>
      intro b r hb _ _
      have htext : Stmt.empty.text flat i = [';'] := text_of_line (l := ";") rfl (by decide)
      have hlead : Leads ';' (b ++ ';' :: r) := leads_of_solid hb (solid_cons rfl (by decide))
      rw [htext, List.cons_append, List.nil_append, anyStmt_eq, wordRules_of_leads hlead (by decide)]
      simp [Grammar.blockStmt, Grammar.braced, emptyStmt, (hlead.mark (by simp) (by simp) : mark "\x7b" _ = none),
        mark_blank_append hb, mark_head (c := ';') ";" rfl rfl (by decide)]

/-! ## Where no statement begins -/

theorem Faithful.anyStmt_refused (hg : g.Faithful n) (h : Barren s)
    (hwords : ∀ w ∈ statementWords, keyword w s = none) (hempty : mark ";" s = none) :
    g.anyStmt s = none := by
  rw [anyStmt_eq, wordRules_refused hwords]
  simp [Grammar.blockStmt, Grammar.braced, emptyStmt, Grammar.labeledStmt, Grammar.exprStmt, hempty, h.identifier,
    h.mark "\x7b" (by simp), hg.expression_refused h]

theorem Faithful.anyStmt_halting (hg : g.Faithful n) (h : Halting s) : g.anyStmt s = none := by
  rcases h with h | h | ⟨w, t, h, hw⟩
  · refine hg.anyStmt_refused (Barren.of_skip_nil h) (fun w hw => ?_) (mark_of_skip_nil h (by simp))
    obtain ⟨c, cs, hword, -⟩ := isWord_of_mem w (List.mem_append_left _ hw)
    rw [keyword, markBefore, mark_of_skip_nil h (by simp [hword])]
    rfl
  · refine hg.anyStmt_refused (Barren.of_leads h (by simp)) (fun w hw => ?_)
      (h.mark (by simp) (by simp))
    exact keyword_of_leads h (by decide) (isWord_of_mem w (List.mem_append_left _ hw))
  · have hmem : w = "case" ∨ w = "default" := by simpa using hw
    have hbarren : Barren s := Barren.of_opens h (by rcases hmem with rfl | rfl <;> simp)
    rw [anyStmt_of_other h (by rcases hmem with rfl | rfl <;> decide),
      labeledStmt_of_reserved h (by rcases hmem with rfl | rfl <;> decide), Grammar.exprStmt,
      hg.expression_refused hbarren]
    rfl

/-! ## All levels -/

theorem Faithful.step (hg : g.Faithful n) : g.step.Faithful (n + 1) where
  bound := Nat.succ_le_succ hg.bound
  assignment := hg.assign
  construction := hg.newExpr
  statement s hs _ _ := hg.anyStmt s hs
  barren _ h := hg.assign_barren h
  ordinary _ h := newExpr_ordinary h
  halting _ h := hg.within.anyStmt_halting h

theorem faithful_refuse : refuse.Faithful 0 where
  bound := Nat.le_refl 0
  assignment e he b r _ _ hlength := by
    have := length_print_pos he (l := 2) (by decide)
    omega
  construction callee args he b r _ _ hlength := by
    have hprint : ∃ t, ((Expr.construct callee args).print 0).toList = "new".toList ++ t := by
      simp only [Expr.print, String.toList_append, List.append_assoc]
      exact ⟨' ' :: _, rfl⟩
    obtain ⟨t, ht⟩ := hprint
    have hsize : ("new".toList).length = 3 := rfl
    rw [ht, List.length_append] at hlength
    omega
  statement s hs flat i b r _ _ hlength := by
    have := length_text_pos hs flat i
    omega
  barren _ _ := rfl
  ordinary _ _ := rfl
  halting _ _ := rfl

theorem faithful_upTo : ∀ n, (upTo n).Faithful n
  | 0 => faithful_refuse
  | n + 1 => (faithful_upTo n).step

end Grammar

theorem spaced_false (s : String) : spaced false s = s.toList := by
  rw [spaced, show respace false = id from funext fun c => by simp [respace], List.map_id]

/-- A printed program is read as itself. -/
theorem parse_print {p : Program} (hp : (Node.func p.toFunc).AllPrintable) :
    Program.parse p.print = .ok p := by
  have hbody : ∀ s ∈ p.body, (Node.stmt s).AllPrintable :=
    fun s hs => hp.child (List.mem_map.2 ⟨s, hs, rfl⟩)
  have htext : p.print.toList = stmtsText false 0 p.body := (spaced_false _).symm
  obtain ⟨b, hb, -, hstmts⟩ := (Grammar.faithful_upTo (p.print.toList.length + 1)).statements (r := [])
    false 0 (.inl solid_nil) (fresh_of_skip_nil solid_nil) p.body hbody [] blank_nil (by
      rw [htext]
      simp only [List.length_nil]
      omega)
  rw [List.append_nil, List.nil_append, List.append_nil, ← htext] at hstmts
  have hmany := hstmts.many (n := p.print.toList.length + 1) (by
    have := hstmts.length_le
    omega)
  have hskip : skip b = [] := by
    have := hb
    rw [← List.append_nil b, skip_blank_append hb]
    exact solid_nil
  have hread : Program.read p.print.toList = some (.ok p) := by
    rw [Program.read, hmany]
    change (do
      guard (skip b).isEmpty
      return (do return ⟨← Built.all (p.body.map .ok)⟩) : Option (Built Program)) = _
    rw [hskip, Built.all_ok]
    rfl
  rw [Program.parse, hread]

end Resumption.Script
