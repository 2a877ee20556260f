import Resumption.Proofs.Reading.Lines

/-!
# Printed operands

`Faithful g n` says that a level of the grammar reads back whatever of at most `n` characters the
level is asked for.  From that follows what the rules of one level do with everything that stands
between marks of its own: literals, functions and expressions in parentheses.
-/

namespace Resumption.Script

open Lexeme Rule Printer

/-- What may stand behind a statement: no `else` that an open `if` would take for its own, and no
`finally`. -/
structure Stmt.Stops (s : Stmt) (r : List Char) : Prop where
  otherwise : s.endsInOpenIf = true → keyword "else" r = none
  finish : keyword "finally" r = none

/-- No statement begins here: the text is over, or a body or a `case` is. -/
def Halting (r : List Char) : Prop :=
  skip r = [] ∨ Leads '\x7d' r ∨ ∃ w t, Opens w r t ∧ w ∈ ["case", "default"]

/-- The level reads back printed trees of at most `n` characters and does not mistake anything else
for one. -/
structure Grammar.Faithful (g : Grammar) (n : Nat) : Prop where
  bound : n ≤ g.bound
  assignment (e : Expr) : (Node.expr e).AllPrintable →
    Reads g.assignment n (Follow 2) (e.print 2).toList (.ok e)
  construction (callee : Expr) (args : List Expr) : (Node.expr (.construct callee args)).AllPrintable →
    Reads g.construction (n + 1) (fun _ => True) ((Expr.construct callee args).print 0).toList
      (.ok (.construct callee args))
  statement (s : Stmt) : (Node.stmt s).AllPrintable → ∀ flat i,
    Reads g.statement n s.Stops (s.text flat i) (.ok s)
  barren (s : List Char) : Barren s → g.assignment s = none
  ordinary (s : List Char) : keyword "new" s = none → g.construction s = none
  halting (s : List Char) : Halting s → g.statement s = none

variable {g : Grammar} {n m : Nat} {b r s t : List Char} {c : Char}

theorem mark_head (text : String) (htext : text.toList = [c]) (hc : isBlank c = false)
    (hslash : c ≠ '/') (s : List Char) : mark text (c :: s) = some s := by
  rw [mark_solid (solid_cons hc hslash), htext]
  simp [after?]

theorem keyword_word {word : String} (hw : IsWord word) (hb : Blank b)
    (hr : endsBefore isNameChar r = true) : keyword word (b ++ (word.toList ++ r)) = some r := by
  rw [(Opens.of_word hw hb hr).keyword hw.all, if_pos rfl]

namespace Grammar

/-! ## Expressions between marks -/

theorem reads_expression (hbound : m ≤ g.bound)
    (hassign : ∀ e, (Node.expr e).AllPrintable → Reads g.assignment m (Follow 2) (e.print 2).toList (.ok e))
    (e : Expr) (he : (Node.expr e).AllPrintable) :
    Reads g.expression m (Follow 1) (e.print 0).toList (.ok e) := by
  have hitems : ∀ (e₀ : Expr) (es : List Expr), (∀ x ∈ e₀ :: es, (Node.expr x).AllPrintable) →
      Reads (separated g.bound g.assignment) m (Follow 1)
        (commaText ((e₀ :: es).map fun x => (x.print 2).toList)) ((e₀ :: es).map .ok) := by
    intro e₀ es hall
    exact reads_separated hbound (fun x hx => hassign x (hall x hx)) Follow.comma_cons
      fun r hr => ⟨hr.mono (by decide), hr.comma (by decide)⟩
  intro b r hb hr hlength
  rw [Grammar.expression]
  by_cases hsequence : ∃ exprs, e = .sequence exprs
  · obtain ⟨exprs, rfl⟩ := hsequence
    have hlong := he.formed
    match exprs, hlong with
    | e₁ :: e₂ :: es, _ =>
        have htext : ((Expr.sequence (e₁ :: e₂ :: es)).print 0).toList =
            commaText ((e₁ :: e₂ :: es).map fun x => (x.print 2).toList) := by
          change (commas (printExprs (e₁ :: e₂ :: es))).toList = _
          rw [printExprs_eq, toList_commas, List.map_map]
          rfl
        rw [htext] at hlength ⊢
        rw [hitems e₁ (e₂ :: es) (fun x hx => he.child (List.mem_map.2 ⟨x, hx, rfl⟩)) b r hb hr hlength]
        simp only [Option.bind_eq_bind, Option.bind_some, Built.all_ok]
        rfl
  · have hlevel : 2 ≤ e.level := by
      cases e with
      | sequence exprs => exact absurd ⟨exprs, rfl⟩ hsequence
      | binary op left right => cases op <;> simp [Expr.level, BinaryOp.level]
      | logical op left right => cases op <;> simp [Expr.level, LogicalOp.level]
      | update op before arg => cases before <;> simp [Expr.level]
      | _ => simp [Expr.level]
    rw [← Expr.print_of_le_level hlevel (by decide)] at hlength ⊢
    have hone := hitems e [] (by simpa using he) b r hb hr (by simpa [commaText] using hlength)
    simp only [List.map_cons, List.map_nil, commaText, List.flatMap_nil, List.append_nil] at hone
    rw [hone]
    rfl

theorem Faithful.expression (hg : g.Faithful n) (e : Expr) (he : (Node.expr e).AllPrintable) :
    Reads g.expression n (Follow 1) (e.print 0).toList (.ok e) :=
  reads_expression hg.bound hg.assignment e he

theorem Faithful.parenthesized (hg : g.Faithful n) (e : Expr) (he : (Node.expr e).AllPrintable) :
    Reads (Rule.parenthesized g.expression) (n + 1) (fun _ => True)
      ('(' :: ((e.print 0).toList ++ [')'])) (.ok e) := by
  intro b r hb _ hlength
  simp only [List.length_cons, List.length_append, List.length_nil] at hlength
  have hinner := hg.expression e he [] (')' :: r) blank_nil
    (Follow.close (b := []) blank_nil (by simp) r) (by simp; omega)
  rw [List.nil_append] at hinner
  simp only [List.cons_append, List.append_assoc, List.nil_append, Rule.parenthesized, between,
    mark_blank_append hb, mark_head (c := '(') "(" rfl rfl (by decide), Option.bind_eq_bind, Option.bind_some,
    hinner, mark_head (c := ')') ")" rfl rfl (by decide)]
  rfl

end Grammar

/-! ## Statements one below the other -/

/-- No word that goes on with the statement before. -/
def Fresh (s : List Char) : Prop := ∀ word ∈ ["else", "finally"], keyword word s = none

theorem Fresh.stops {s : Stmt} (h : Fresh r) : s.Stops r :=
  ⟨fun _ => h _ (by simp), h _ (by simp)⟩

theorem Fresh.blank_append (h : Fresh s) (hb : Blank b) : Fresh (b ++ s) :=
  fun word hword => (keyword_blank_append hb word s).trans (h word hword)

theorem fresh_of_opens {w : String} (h : Opens w s r) (hw : w ∉ ["else", "finally"]) : Fresh s := by
  have hall : ∀ word ∈ ["else", "finally"], word.toList.all isNameChar = true := by decide
  intro word hword
  rw [h.keyword (hall word hword), if_neg]
  rintro rfl
  exact hw hword

theorem fresh_of_leads (h : Leads c s) (he : c ≠ 'e') (hf : c ≠ 'f') : Fresh s := by
  intro word hword
  have hmem : word = "else" ∨ word = "finally" := by simpa using hword
  rcases hmem with rfl | rfl
  · exact h.keyword (by simp) (by simpa using Ne.symm he)
  · exact h.keyword (by simp) (by simpa using Ne.symm hf)

theorem fresh_of_skip_nil (h : skip s = []) : Fresh s := by
  intro word hword
  have hmem : word = "else" ∨ word = "finally" := by simpa using hword
  rw [keyword, markBefore, mark_of_skip_nil h (by rcases hmem with rfl | rfl <;> simp)]
  rfl

theorem leads_of_opening_sign (hc : c ∈ ['(', '[', '"', '\x7b'] ∨ c.isDigit = true ∨
    c ∈ ['+', '-', '!', '~']) (t : List Char) : Leads c (c :: t) ∧ isNameStart c = false := by
  by_cases hdigit : c.isDigit = true
  · have hname := isNameChar_of_isDigit hdigit
    refine ⟨leads_cons (isBlank_of_isNameChar hname) (ne_slash_of_isNameChar hname), ?_⟩
    cases hstart : isNameStart c with
    | false => rfl
    | true => simp [(not_isDigit_of_isNameStart hstart).1] at hdigit
  · have hmem : (c = '(' ∨ c = '[' ∨ c = '"' ∨ c = '\x7b') ∨ c = '+' ∨ c = '-' ∨ c = '!' ∨ c = '~' := by
      simpa [hdigit] using hc
    rcases hmem with (rfl | rfl | rfl | rfl) | rfl | rfl | rfl | rfl <;>
      exact ⟨leads_cons rfl (by decide), by decide⟩

theorem fresh_of_opening (h : Opening r s) : Fresh s := by
  have hlead : ∀ {c : Char} {t : List Char}, (c ∈ ['(', '[', '"', '\x7b'] ∨ c.isDigit = true ∨
      c ∈ ['+', '-', '!', '~']) → Fresh (c :: t) := by
    intro c t hc
    obtain ⟨hlead, hname⟩ := leads_of_opening_sign hc t
    refine fresh_of_leads hlead ?_ ?_
    all_goals
      rintro rfl
      exact absurd hname (by decide)
  have hword : ∀ {w : String} {t : List Char}, IsWord w → endsBefore isNameChar t = true →
      w ∉ ["else", "finally"] → Fresh (w.toList ++ t) :=
    fun hw ht hne => fresh_of_opens (Opens.of_word (b := []) hw blank_nil ht) hne
  cases h with
  | operand h =>
      cases h with
      | sign h => exact hlead (h.elim .inl (fun h => .inr (.inl h)))
      | word word apart h =>
          refine hword word apart ?_
          rintro hmem
          simp only [List.mem_cons, List.not_mem_nil, or_false] at h hmem
          rcases hmem with rfl | rfl <;> simp at h
      | name name apart h =>
          refine hword name.1 apart fun hmem => name.2 ?_
          simp only [List.mem_cons, List.not_mem_nil, or_false] at hmem
          rcases hmem with rfl | rfl <;> decide
  | sign h => exact hlead (.inr (.inr h))
  | word word apart h =>
      refine hword word apart ?_
      rintro hmem
      simp only [List.mem_cons, List.not_mem_nil, or_false] at h hmem
      rcases hmem with rfl | rfl <;> simp at h

/-- The words that begin a statement. -/
def statementWords : List String :=
  ["var", "function", "if", "for", "while", "do", "return", "break", "continue", "throw", "try",
   "switch", "with", "debugger"]

/-- The words that begin a statement or a part of one. -/
def clauseWords : List String :=
  statementWords ++ ["else", "catch", "finally", "case", "default"]

theorem isWord_of_mem : ∀ w ∈ clauseWords, IsWord w := by decide

theorem keyword_clause {w : String} (hw : w ∈ clauseWords) (hb : Blank b)
    (hr : endsBefore isNameChar r = true) : keyword w (b ++ (w.toList ++ r)) = some r :=
  keyword_word (isWord_of_mem w hw) hb hr

/-- One of these words is not taken for another. -/
theorem keyword_other {k w : String} (hw : w ∈ clauseWords) (hk : k ∈ clauseWords) (hne : k ≠ w)
    (hb : Blank b) (hr : endsBefore isNameChar r = true) : keyword k (b ++ (w.toList ++ r)) = none := by
  rw [(Opens.of_word (isWord_of_mem w hw) hb hr).keyword (isWord_of_mem k hk).all, if_neg hne]

theorem fresh_word {w : String} {t : List Char} (hb : Blank b) (hw : w ∈ statementWords)
    (ht : endsBefore isNameChar t = true) : Fresh (b ++ (w.toList ++ t)) := by
  have hwords : ∀ w ∈ statementWords, IsWord w ∧ w ∉ ["else", "finally"] := by decide
  exact fresh_of_opens (Opens.of_word (hwords w hw).1 hb ht) (hwords w hw).2

/-- A printed statement begins with none of the words that go on with another. -/
theorem fresh_text {s : Stmt} (hs : (Node.stmt s).AllPrintable) {flat : Bool} {i : Nat}
    (hb : Blank b) (r : List Char) : Fresh (b ++ (s.text flat i ++ r)) := by
  have hexpr : ∀ e : Expr, Node.expr e ∈ (Node.stmt s).children → (Node.expr e).AllPrintable :=
    fun e hmem => hs.child hmem
  have hlined : ∀ body : Stmt, Node.stmt body ∈ (Node.stmt s).children → body.Lined flat :=
    fun body hmem => lined body (hs.child hmem) flat
  have hformed := hs.formed
  have hhead : ∀ c : Char, isBlank c = false → c ≠ '/' → c ≠ 'e' → c ≠ 'f' → ∀ t, Fresh (b ++ c :: t) :=
    fun c hc hslash he hf t => (fresh_of_leads (leads_cons hc hslash) he hf).blank_append hb
  cases s with
  | var decls =>
      rw [text_var fun d hd => hs.child (by simp [Node.children, Node.childrenOfStmt, hd])]
      exact fresh_word hb (w := "var") (by decide) rfl
  | function f =>
      rw [text_function hformed.2, List.append_assoc]
      refine fresh_word hb (w := "function") (by decide) ?_
      cases f.name <;> rfl
  | expr e =>
      have he := hexpr e List.mem_cons_self
      rw [text_expr he]
      split_ifs
      · exact hhead '(' rfl (by decide) (by decide) (by decide) _
      · rw [List.append_assoc]
        exact (fresh_of_opening (opening_print e he (Nat.zero_le _) rfl)).blank_append hb
  | block body =>
      rw [text_block]
      exact hhead '\x7b' rfl (by decide) (by decide) (by decide) _
  | branch test cons alt =>
      have htest := hexpr test List.mem_cons_self
      have hcons := hlined cons (by simp [Node.children, Node.childrenOfStmt])
      cases alt with
      | none =>
          obtain ⟨b', j, -, -, h⟩ := spaced_branch_none hcons htest i
          rw [text_of_spaced h, List.append_assoc]
          exact fresh_word hb (w := "if") (by decide) rfl
      | some alt =>
          obtain ⟨b', j, b'', j', -, -, -, -, h⟩ := spaced_branch_some hcons
            (hlined alt (by simp [Node.children, Node.childrenOfStmt])) htest (hformed rfl) i
          rw [text_of_spaced h, List.append_assoc]
          exact fresh_word hb (w := "if") (by decide) rfl
  | forLoop init test update body =>
      obtain ⟨b', j, -, -, h⟩ := text_forLoop (i := i) (hlined body (by
        simp [Node.children, Node.childrenOfStmt])) hs
      rw [h, List.append_assoc]
      exact fresh_word hb (w := "for") (by decide) rfl
  | forIn left right body =>
      obtain ⟨b', j, -, -, h⟩ := text_forIn (i := i) (hlined body (by
        cases left <;> simp [Node.children, Node.childrenOfStmt])) hs
      rw [h, List.append_assoc]
      exact fresh_word hb (w := "for") (by decide) rfl
  | whileLoop test body =>
      obtain ⟨b', j, -, -, h⟩ := text_whileLoop (i := i) (hlined body (by
        simp [Node.children, Node.childrenOfStmt])) (hexpr test List.mem_cons_self)
      rw [h, List.append_assoc]
      exact fresh_word hb (w := "while") (by decide) rfl
  | doLoop body test =>
      obtain ⟨b', j, b'', hb', hne, -, -, h⟩ := spaced_doLoop (hlined body List.mem_cons_self)
        (hexpr test (by simp [Node.children, Node.childrenOfStmt])) i
      rw [text_of_spaced h, List.append_assoc]
      refine fresh_word hb (w := "do") (by decide) ?_
      rw [List.append_assoc]
      exact Follow.endsBefore_of_blank hb' hne _
  | ret value =>
      cases value with
      | none =>
          rw [text_of_line (l := "return;") rfl (by decide)]
          exact fresh_word hb (w := "return") (by decide) rfl
      | some value =>
          rw [text_ret (hexpr value (by simp [Node.children, Node.childrenOfStmt, Node.ofExpr?])),
            List.append_assoc]
          exact fresh_word hb (w := "return") (by decide) rfl
  | brk label =>
      rw [text_brk hformed, List.append_assoc]
      refine fresh_word hb (w := "break") (by decide) ?_
      cases label <;> rfl
  | cont label =>
      rw [text_cont hformed, List.append_assoc]
      refine fresh_word hb (w := "continue") (by decide) ?_
      cases label <;> rfl
  | throwing value =>
      rw [text_throwing (hexpr value List.mem_cons_self), List.append_assoc]
      exact fresh_word hb (w := "throw") (by decide) rfl
  | attempt block handler finalizer =>
      rw [text_attempt hs, List.append_assoc]
      exact fresh_word hb (w := "try") (by decide) rfl
  | switch test cases =>
      rw [text_of_spaced (spaced_switch (hexpr test List.mem_cons_self) (fun c hc =>
        hs.child (by simp [Node.children, Node.childrenOfStmt, hc])) i), List.append_assoc]
      exact fresh_word hb (w := "switch") (by decide) rfl
  | withScope object body =>
      obtain ⟨b', j, -, -, h⟩ := text_withScope (i := i) (hlined body (by
        simp [Node.children, Node.childrenOfStmt])) (hexpr object List.mem_cons_self)
      rw [h, List.append_assoc]
      exact fresh_word hb (w := "with") (by decide) rfl
  | labeled label body =>
      rw [text_of_spaced (spaced_labeled (hlined body List.mem_cons_self)
        (unbroken_word hformed.1) i), List.append_assoc]
      have hopens := Opens.of_word (r := ':' :: ((gap flat :: margin i) ++ body.text flat i) ++ r)
        hformed.1 hb rfl
      refine fresh_of_opens hopens fun hmem => hformed.2 ?_
      have hreserved : ∀ w ∈ ["else", "finally"], w ∈ reserved := by decide
      exact hreserved label hmem
  | debugger =>
      rw [text_of_line (l := "debugger;") rfl (by decide)]
      exact fresh_word hb (w := "debugger") (by decide) rfl
  | empty =>
      rw [text_of_line (l := ";") rfl (by decide)]
      exact hhead ';' rfl (by decide) (by decide) (by decide) _

/-- No statement is printed as nothing. -/
theorem length_text_pos {s : Stmt} (hs : (Node.stmt s).AllPrintable) (flat : Bool) (i : Nat) :
    0 < (s.text flat i).length := by
  rw [List.length_pos_iff]
  intro hnil
  have hempty : Fresh ([] ++ (s.text flat i ++ "else".toList)) := fresh_text hs blank_nil "else".toList
  rw [hnil] at hempty
  exact absurd (hempty "else" (by simp)) (by with_unfolding_all decide)

theorem Opens.blank_append {w : String} (h : Opens w s r) (hb : Blank b) : Opens w (b ++ s) r :=
  ⟨h.word, (skip_blank_append hb s).trans h.skipped, h.apart⟩

theorem Halting.blank_append (h : Halting r) (hb : Blank b) : Halting (b ++ r) := by
  rcases h with h | ⟨t, h⟩ | ⟨w, t, h, hw⟩
  · exact .inl ((skip_blank_append hb r).trans h)
  · exact .inr (.inl ⟨t, (skip_blank_append hb r).trans h⟩)
  · exact .inr (.inr ⟨w, t, Opens.blank_append h hb, hw⟩)

theorem halting_brace (hb : Blank b) (t : List Char) : Halting (b ++ '\x7d' :: t) :=
  .inr (.inl (leads_of_solid hb (solid_cons rfl (by decide))))

theorem fresh_brace (hb : Blank b) (t : List Char) : Fresh (b ++ '\x7d' :: t) :=
  fresh_of_leads (leads_of_solid hb (solid_cons rfl (by decide))) (by decide) (by decide)

namespace Grammar

/-- Statements are read until none begins. -/
theorem Faithful.statements (hg : g.Faithful n) (flat : Bool) (i : Nat) (hr : Halting r)
    (hfresh : Fresh r) : ∀ body : List Stmt, (∀ s ∈ body, (Node.stmt s).AllPrintable) → ∀ b,
      Blank b → b.length + (stmtsText flat i body).length + r.length ≤ n →
      ∃ b', Blank b' ∧ b'.length ≤ b.length + (stmtsText flat i body).length ∧
        Repeats g.statement (b ++ (stmtsText flat i body ++ r)) (body.map .ok) (b' ++ r)
  | [], _, b, hb, _ => ⟨b, hb, Nat.le_add_right _ _, .stop (hg.halting _ (hr.blank_append hb))⟩
  | s :: body, hall, b, hb, hlength => by
      have hs := hall s List.mem_cons_self
      have hbody := fun s hs => hall s (List.mem_cons_of_mem _ hs)
      rw [stmtsText_cons, lined s hs flat i] at hlength ⊢
      simp only [List.length_append, List.length_cons, List.length_nil] at hlength
      obtain ⟨b', hb', hshort, hrest⟩ := hg.statements flat i hr hfresh body hbody [gap flat]
        (blank_gap flat) (by simp only [List.length_cons, List.length_nil]; omega)
      have hstops : s.Stops ([gap flat] ++ (stmtsText flat i body ++ r)) := by
        refine Fresh.stops (Fresh.blank_append ?_ (blank_gap flat))
        cases body with
        | nil => exact hfresh
        | cons s' body =>
            rw [stmtsText_cons, lined s' (hbody s' List.mem_cons_self) flat i]
            simp only [List.append_assoc]
            exact fresh_text (hbody s' List.mem_cons_self) (blank_margin i) _
      have hfirst := hg.statement s hs flat i (b ++ margin i) _ (blank_append.2 ⟨hb, blank_margin i⟩)
        hstops (by simp only [List.length_append, List.length_cons, List.length_nil]; omega)
      refine ⟨b', hb', by simp only [List.length_cons, List.length_nil, List.length_append] at hshort ⊢; omega, ?_⟩
      simp only [List.append_assoc] at hfirst ⊢
      refine .turn hfirst ?_ hrest
      have hpositive := length_text_pos hs flat i
      simp only [List.length_append, List.length_cons, List.length_nil]
      omega

theorem Faithful.braced (hg : g.Faithful n) {body : List Stmt}
    (hbody : ∀ s ∈ body, (Node.stmt s).AllPrintable) (flat : Bool) (i : Nat) :
    Reads g.braced (n + 1) (fun _ => True) (bracedText flat i body) (.ok body) := by
  intro b r hb _ hlength
  simp only [bracedText, List.length_cons, List.length_append, List.length_nil] at hlength
  obtain ⟨b', hb', hshort, hstmts⟩ := hg.statements (r := margin i ++ '\x7d' :: r) flat (i + 1)
    (halting_brace (blank_margin i) r) (fresh_brace (blank_margin i) r) body hbody [gap flat]
    (blank_gap flat) (by simp only [List.length_cons, List.length_append, List.length_nil]; omega)
  have hmany := hstmts.many (n := g.bound) (by
    have := hg.bound
    have := hstmts.length_le
    simp only [List.length_append, List.length_cons, List.length_nil] at this
    omega)
  simp only [List.cons_append, List.nil_append] at hmany
  simp only [bracedText, Grammar.braced, mark_blank_append hb, List.cons_append, List.append_assoc,
    List.nil_append, mark_head (c := '\x7b') "\x7b" rfl rfl (by decide), Option.bind_eq_bind,
    Option.bind_some, hmany, mark_blank_append hb', mark_blank_append (blank_margin i),
    mark_head (c := '\x7d') "\x7d" rfl rfl (by decide), Built.all_ok]
  rfl

theorem identifier_name {name : String} (hname : IsName name) (hb : Blank b)
    (hr : endsBefore isNameChar r = true) :
    identifier (b ++ (name.toList ++ r)) = some (name, r) := by
  rw [(Opens.of_word hname.1 hb hr).identifier, if_neg hname.2]

theorem Faithful.parameters (hg : g.Faithful n) {params : List String}
    (hparams : ∀ p ∈ params, IsName p) :
    Reads g.parameters (n + 1) (fun _ => True)
      ('(' :: (commaText (params.map String.toList) ++ [')'])) params := by
  intro b r hb _ hlength
  simp only [List.length_cons, List.length_append, List.length_nil] at hlength
  have hlead : Leads ')' (')' :: r) := leads_cons rfl (by decide)
  have hlist : Rule.list g.bound identifier (commaText (params.map String.toList) ++ ')' :: r) =
      (params.map id, ')' :: r) := reads_list (F := fun r => endsBefore isNameChar r = true)
    (G := fun r => endsBefore isNameChar r = true ∧ mark "," r = none) hg.bound
    (fun p hp b r hb hr _ => identifier_name (hparams p hp) hb hr) (fun _ => rfl) (fun _ h => h)
    (r := ')' :: r) ⟨rfl, hlead.mark (by simp) (by simp)⟩ (hlead.identifier (by decide)) (by
      change (commaText (params.map String.toList)).length + _ ≤ n
      simp only [List.length_cons]
      omega)
  rw [List.map_id] at hlist
  simp only [Grammar.parameters, mark_blank_append hb, List.cons_append, List.append_assoc,
    List.nil_append, mark_head (c := '(') "(" rfl rfl (by decide), Option.bind_eq_bind,
    Option.bind_some, hlist, mark_head (c := ')') ")" rfl rfl (by decide)]
  rfl

theorem Faithful.functionTail (hg : g.Faithful n) {f : Func} (hparams : ∀ p ∈ f.params, IsName p)
    (hbody : ∀ s ∈ f.body, (Node.stmt s).AllPrintable) (flat : Bool) (i : Nat) :
    Reads (g.functionTail f.name) (n + 1) (fun _ => True) (f.tailText flat i) (.ok f) := by
  intro b r hb _ hlength
  obtain ⟨name, params, body⟩ := f
  rw [Func.tailText_eq] at hlength ⊢
  simp only [List.length_cons, List.length_append] at hlength
  have hpar := hg.parameters hparams b (' ' :: (bracedText flat i body ++ r)) hb trivial
    (by simp only [List.length_cons, List.length_append, List.length_nil]; omega)
  have hbraced := hg.braced hbody flat i [' '] r blank_space trivial
    (by simp only [List.length_cons, List.length_nil]; omega)
  simp only [List.cons_append, List.append_assoc, List.nil_append] at hpar hbraced ⊢
  simp only [Grammar.functionTail, hpar, hbraced, Option.bind_eq_bind, Option.bind_some]
  rfl

end Grammar

end Resumption.Script
