import Resumption.Proofs.Reading.Operator

/-!
# Printed statements

All statements but three kinds are known by their first word, so the alternatives before the right one
refuse.  The others are told apart by what comes first: a brace, a name with a colon behind it, or an
expression, which is why expressions that begin like a block or a function stand in parentheses.
-/

namespace Resumption.Script

open Lexeme Rule Printer

variable {g : Grammar} {n m : Nat} {b r s t : List Char} {c : Char} {flat : Bool} {i : Nat}

namespace Grammar

/-! ## Which alternative reads a statement -/

/-- The rules that begin with a word, each with its word. -/
def wordRules (g : Grammar) : List (String × Rule (Built Stmt)) :=
  [("var", g.varStmt), ("function", g.functionStmt), ("if", g.branchStmt), ("for", g.forInStmt),
   ("for", g.forStmt), ("while", g.whileStmt), ("do", g.doStmt), ("return", g.returnStmt),
   ("break", breakStmt), ("continue", continueStmt), ("throw", g.throwStmt), ("try", g.tryStmt),
   ("switch", g.switchStmt), ("with", g.withStmt), ("debugger", debuggerStmt)]

theorem word_mem : ∀ p ∈ g.wordRules, p.1 ∈ statementWords := by simp [wordRules, statementWords]

theorem anyStmt_eq (s : List Char) : g.anyStmt s = (g.blockStmt s).or
    ((oneOf (g.wordRules.map Prod.snd) s).or
      ((emptyStmt s).or ((g.labeledStmt s).or (g.exprStmt s)))) := by
  simp only [anyStmt, wordRules, List.map_cons, List.map_nil, oneOf_cons, oneOf_nil, Option.or_assoc,
    Option.or_none]

theorem wordRule_refused : ∀ p ∈ g.wordRules, keyword p.1 s = none → p.2 s = none := by
  simp only [wordRules, List.forall_mem_cons, List.not_mem_nil, false_imp_iff, implies_true, and_true]
  refine ⟨?_, ?_, ?_, ?_, ?_, ?_, ?_, ?_, ?_, ?_, ?_, ?_, ?_, ?_, ?_⟩ <;> intro h <;>
    simp [varStmt, declarators, functionStmt, branchStmt, forInStmt, forStmt, whileStmt, doStmt,
      returnStmt, breakStmt, continueStmt, throwStmt, tryStmt, switchStmt, withStmt, debuggerStmt, h]

theorem oneOf_refused {α : Type} {rules : List (Rule α)} (h : ∀ rule ∈ rules, rule s = none) :
    oneOf rules s = none := by
  rw [oneOf, List.findSome?_eq_none_iff]
  exact h

theorem wordRules_refused (h : ∀ w ∈ statementWords, keyword w s = none) :
    oneOf (g.wordRules.map Prod.snd) s = none := by
  refine oneOf_refused fun rule hrule => ?_
  obtain ⟨p, hp, rfl⟩ := List.mem_map.1 hrule
  exact wordRule_refused p hp (h p.1 (word_mem p hp))

/-- Behind a word, the rules with another word are passed over. -/
theorem wordRules_of_opens {w : String} (h : Opens w s r) : oneOf (g.wordRules.map Prod.snd) s =
    oneOf ((g.wordRules.filter (fun p => p.1 == w)).map Prod.snd) s := by
  have hall : ∀ p ∈ g.wordRules, p.1.toList.all isNameChar = true :=
    fun p hp => (isWord_of_mem p.1 (List.mem_append_left _ (word_mem p hp))).all
  have hpass : ∀ rules : List (String × Rule (Built Stmt)), (∀ p ∈ rules, p ∈ g.wordRules) →
      oneOf (rules.map Prod.snd) s =
        oneOf ((rules.filter (fun p => p.1 == w)).map Prod.snd) s := by
    intro rules
    induction rules with
    | nil => exact fun _ => rfl
    | cons p rules ih =>
        intro hmem
        have hrest := ih fun p hp => hmem p (List.mem_cons_of_mem _ hp)
        by_cases hp : p.1 = w
        · rw [List.filter_cons_of_pos (by simpa using hp), List.map_cons, List.map_cons, oneOf_cons,
            oneOf_cons, hrest]
        · have hrefused := wordRule_refused p (hmem p List.mem_cons_self)
            (by rw [h.keyword (hall p (hmem p List.mem_cons_self)), if_neg hp])
          rw [List.filter_cons_of_neg (by simpa using hp), List.map_cons, oneOf_cons, hrefused,
            Option.none_or, hrest]
  exact hpass _ fun p hp => hp

theorem blockStmt_of_opens {w : String} (h : Opens w s r) : g.blockStmt s = none := by
  simp [blockStmt, braced, (h.mark (by simp; decide) : mark "\x7b" _ = none)]

/-- Behind a word that begins a statement, the rules with that word decide. -/
theorem anyStmt_of_word {w : String} {found : Built Stmt × List Char} (h : Opens w s r)
    (hread : oneOf ((g.wordRules.filter (fun p => p.1 == w)).map Prod.snd) s = some found) :
    g.anyStmt s = some found := by
  rw [anyStmt_eq, blockStmt_of_opens h, wordRules_of_opens h, hread]
  rfl

/-- Behind another word, a label is looked for and then an expression. -/
theorem anyStmt_of_other {w : String} (h : Opens w s r) (hw : w ∉ statementWords) :
    g.anyStmt s = (g.labeledStmt s).or (g.exprStmt s) := by
  have hall : ∀ k ∈ statementWords, k.toList.all isNameChar = true :=
    fun k hk => (isWord_of_mem k (List.mem_append_left _ hk)).all
  have hrefused : oneOf (g.wordRules.map Prod.snd) s = none := by
    refine wordRules_refused fun k hk => ?_
    rw [h.keyword (hall k hk), if_neg]
    rintro rfl
    exact hw hk
  have hempty : emptyStmt s = none := by
    simp [emptyStmt, (h.mark (by simp; decide) : mark ";" _ = none)]
  rw [anyStmt_eq, blockStmt_of_opens h, hrefused, hempty]
  rfl

theorem labeledStmt_of_reserved {w : String} (h : Opens w s r) (hw : w ∈ reserved) :
    g.labeledStmt s = none := by
  simp [labeledStmt, h.identifier, hw]

theorem wordRules_of_leads (h : Leads c s) (hc : isNameStart c = false) :
    oneOf (g.wordRules.map Prod.snd) s = none := by
  have hwords : ∀ w ∈ statementWords, IsWord w :=
    fun w hw => isWord_of_mem w (List.mem_append_left _ hw)
  exact wordRules_refused fun w hw => keyword_of_leads h hc (hwords w hw)

/-- Behind a mark that begins no other statement, an expression is looked for. -/
theorem anyStmt_of_sign (h : Leads c s) (hc : isNameStart c = false) (hbrace : c ≠ '\x7b')
    (hempty : c ≠ ';') : g.anyStmt s = g.exprStmt s := by
  rw [anyStmt_eq, wordRules_of_leads h hc]
  simp [blockStmt, braced, emptyStmt, labeledStmt, h.identifier hc,
    (h.mark (by simp) (by simpa using Ne.symm hbrace) : mark "\x7b" _ = none),
    (h.mark (by simp) (by simpa using Ne.symm hempty) : mark ";" _ = none)]

theorem optionalEnd_semicolon (r : List Char) : optionalEnd (';' :: r) = r := by
  rw [optionalEnd, mark_head (c := ';') ";" rfl rfl (by decide)]
  rfl

/-! ## Statements with a condition in their head -/

section Heads

variable {body : Stmt} {test object : Expr}

/-- A word and the expression in parentheses behind it. -/
theorem Faithful.headed (hg : g.Faithful n) {word : String} (hword : IsWord word) (head : String)
    (hhead : head.toList = word.toList ++ [' ', '(']) {e : Expr} (he : (Node.expr e).AllPrintable)
    (hb : Blank b) (t : List Char)
    (hlength : b.length + head.toList.length + (e.print 0).toList.length + t.length ≤ n) :
    ∃ s, keyword word (b ++ (head.toList ++ ((e.print 0).toList ++ ')' :: t))) = some s ∧
      Rule.parenthesized g.expression s = some (.ok e, t) := by
  simp only [hhead, List.length_append, List.length_cons, List.length_nil] at hlength
  have hread := hg.parenthesized e he [' '] t blank_space trivial
    (by simp only [List.length_append, List.length_cons, List.length_nil]; omega)
  refine ⟨_, ?_, hread⟩
  simp only [hhead, List.append_assoc, List.cons_append, List.nil_append]
  exact keyword_word hword hb rfl

theorem Faithful.whileStmt (hg : g.Faithful n) (hs : (Node.stmt (.whileLoop test body)).AllPrintable) :
    Reads g.whileStmt (n + 1) (Stmt.whileLoop test body).Stops ((Stmt.whileLoop test body).text flat i)
      (.ok (.whileLoop test body)) := by
  intro b r hb hr hlength
  have htest : (Node.expr test).AllPrintable := hs.child List.mem_cons_self
  have hbody : (Node.stmt body).AllPrintable :=
    hs.child (by simp [Node.children, Node.childrenOfStmt])
  obtain ⟨b', j, hb', -, htext⟩ := text_whileLoop (i := i) (lined body hbody flat) htest
  rw [htext] at hlength ⊢
  simp only [List.length_append, List.length_cons] at hlength
  obtain ⟨s, hword, hcondition⟩ := hg.headed (isWord_of_mem "while" (by decide)) "while (" rfl
    htest hb (b' ++ (body.text flat j ++ r)) (by simp only [List.length_append]; omega)
  have hread := hg.statement body hbody flat j b' r hb' ⟨hr.otherwise, hr.finish⟩ (by omega)
  simp only [List.append_assoc, List.cons_append]
  rw [Grammar.whileStmt, hword]
  simp only [Option.bind_eq_bind, Option.bind_some, hcondition, hread]
  rfl

theorem Faithful.withStmt (hg : g.Faithful n) (hs : (Node.stmt (.withScope object body)).AllPrintable) :
    Reads g.withStmt (n + 1) (Stmt.withScope object body).Stops
      ((Stmt.withScope object body).text flat i) (.ok (.withScope object body)) := by
  intro b r hb hr hlength
  have hobject : (Node.expr object).AllPrintable := hs.child List.mem_cons_self
  have hbody : (Node.stmt body).AllPrintable :=
    hs.child (by simp [Node.children, Node.childrenOfStmt])
  obtain ⟨b', j, hb', -, htext⟩ := text_withScope (i := i) (lined body hbody flat) hobject
  rw [htext] at hlength ⊢
  simp only [List.length_append, List.length_cons] at hlength
  obtain ⟨s, hword, hcondition⟩ := hg.headed (isWord_of_mem "with" (by decide)) "with (" rfl
    hobject hb (b' ++ (body.text flat j ++ r)) (by simp only [List.length_append]; omega)
  have hread := hg.statement body hbody flat j b' r hb' ⟨hr.otherwise, hr.finish⟩ (by omega)
  simp only [List.append_assoc, List.cons_append]
  rw [Grammar.withStmt, hword]
  simp only [Option.bind_eq_bind, Option.bind_some, hcondition, hread]
  rfl

/-- The branches of an `if` behind its condition. -/
theorem branchStmt_eq (s : List Char) : g.branchStmt s = do
    let s ← keyword "if" s
    let (test, s) ← Rule.parenthesized g.expression s
    let (cons, s) ← g.statement s
    let (alt, s) := optional (behind (keyword "else") g.statement) s
    let built : Built Stmt := do
      let t ← test
      let c ← cons
      return .branch t c (← Built.option alt)
    return (built, s) := rfl

theorem keyword_else (flat : Bool) (i : Nat) (hr : endsBefore isNameChar r = true) :
    keyword "else" ((gap flat :: margin i) ++ ("else".toList ++ r)) = some r :=
  keyword_clause (by decide) (blank_gap_margin flat i) hr

theorem Faithful.branchStmt (hg : g.Faithful n) {cons : Stmt} {alt : Option Stmt}
    (hs : (Node.stmt (.branch test cons alt)).AllPrintable) :
    Reads g.branchStmt (n + 1) (Stmt.branch test cons alt).Stops
      ((Stmt.branch test cons alt).text flat i) (.ok (.branch test cons alt)) := by
  intro b r hb hr hlength
  have htest : (Node.expr test).AllPrintable := hs.child List.mem_cons_self
  have hcons : (Node.stmt cons).AllPrintable :=
    hs.child (by simp [Node.children, Node.childrenOfStmt])
  have hif : IsWord "if" := isWord_of_mem _ (by decide)
  cases alt with
  | none =>
      have helse : keyword "else" r = none := hr.otherwise rfl
      have hstop : behind (keyword "else") g.statement r = none := by
        rw [behind, helse]
        rfl
      obtain ⟨b', j, hb', -, htext⟩ := spaced_branch_none (lined cons hcons flat) htest i
      rw [text_of_spaced htext] at hlength ⊢
      simp only [List.length_append, List.length_cons] at hlength
      obtain ⟨s, hword, hcondition⟩ := hg.headed hif "if (" rfl htest hb
        (b' ++ (cons.text flat j ++ r)) (by simp only [List.length_append]; omega)
      have hread := hg.statement cons hcons flat j b' r hb' ⟨fun _ => helse, hr.finish⟩ (by omega)
      simp only [List.append_assoc, List.cons_append]
      rw [branchStmt_eq, hword]
      simp only [Option.bind_eq_bind, Option.bind_some, hcondition, hread, optional_none hstop]
      rfl
  | some alt =>
      have halt : (Node.stmt alt).AllPrintable :=
        hs.child (by simp [Node.children, Node.childrenOfStmt])
      have hclosed : cons.endsInOpenIf = false := hs.formed rfl
      obtain ⟨b', j, b'', j', hb', -, hb'', hne, htext⟩ := spaced_branch_some (lined cons hcons flat)
        (lined alt halt flat) htest hclosed i
      rw [text_of_spaced htext] at hlength ⊢
      simp only [List.length_append, List.length_cons] at hlength
      have helse := keyword_else flat i (Follow.endsBefore_of_blank hb'' hne (alt.text flat j' ++ r))
      have hfinally : keyword "finally" ((gap flat :: margin i) ++ ("else".toList ++
          (b'' ++ (alt.text flat j' ++ r)))) = none :=
        keyword_other (by decide) (by decide) (by decide) (blank_gap_margin flat i)
          (Follow.endsBefore_of_blank hb'' hne _)
      obtain ⟨s, hword, hcondition⟩ := hg.headed hif "if (" rfl htest hb
        (b' ++ (cons.text flat j ++ ((gap flat :: margin i) ++ ("else".toList ++
          (b'' ++ (alt.text flat j' ++ r)))))) (by simp only [List.length_append, List.length_cons]; omega)
      have hfirst := hg.statement cons hcons flat j b' ((gap flat :: margin i) ++ ("else".toList ++
          (b'' ++ (alt.text flat j' ++ r)))) hb' ⟨fun h => absurd (hclosed.symm.trans h) (by decide), hfinally⟩
        (by simp only [List.length_append, List.length_cons]; omega)
      have hsecond := hg.statement alt halt flat j' b'' r hb'' ⟨hr.otherwise, hr.finish⟩ (by omega)
      have hoptional : optional (behind (keyword "else") g.statement) ((gap flat :: margin i) ++
          ("else".toList ++ (b'' ++ (alt.text flat j' ++ r)))) = (some (.ok alt), r) := by
        refine optional_some ?_
        rw [behind, helse]
        exact hsecond
      simp only [List.append_assoc, List.cons_append] at hword hcondition hfirst hoptional ⊢
      rw [branchStmt_eq, hword]
      simp only [Option.bind_eq_bind, Option.bind_some, hcondition, hfirst, hoptional]
      rfl

theorem Faithful.doStmt (hg : g.Faithful n) (hs : (Node.stmt (.doLoop body test)).AllPrintable) :
    Reads g.doStmt (n + 1) (Stmt.doLoop body test).Stops ((Stmt.doLoop body test).text flat i)
      (.ok (.doLoop body test)) := by
  intro b r hb hr hlength
  have hbody : (Node.stmt body).AllPrintable := hs.child List.mem_cons_self
  have htest : (Node.expr test).AllPrintable :=
    hs.child (by simp [Node.children, Node.childrenOfStmt])
  obtain ⟨b', j, b'', hb', hne, hb'', -, htext⟩ := spaced_doLoop (lined body hbody flat) htest i
  rw [text_of_spaced htext] at hlength ⊢
  simp only [List.length_append] at hlength
  have hword' : ("do".toList).length = 2 := rfl
  have hend : (");".toList).length = 2 := rfl
  have hwhile : ("while (".toList).length = 7 := rfl
  obtain ⟨s, hword, hcondition⟩ := hg.headed (isWord_of_mem "while" (by decide)) "while (" rfl
    htest hb'' (';' :: r) (by simp only [List.length_cons]; omega)
  have hother : ∀ k ∈ ["else", "finally"], keyword k (b'' ++ ("while (".toList ++ ((test.print 0).toList ++
      ')' :: ';' :: r))) = none := by
    intro k hk
    have hmem : k = "else" ∨ k = "finally" := by simpa using hk
    exact keyword_other (w := "while") (r := ' ' :: '(' :: ((test.print 0).toList ++ ')' :: ';' :: r))
      (by decide) (by rcases hmem with rfl | rfl <;> decide) (by rcases hmem with rfl | rfl <;> decide)
      hb'' rfl
  have hread := hg.statement body hbody flat j b' (b'' ++ ("while (".toList ++ ((test.print 0).toList ++
    ')' :: ';' :: r))) hb'
    ⟨fun _ => hother _ (by simp), hother _ (by simp)⟩
    (by simp only [List.length_append, List.length_cons]; omega)
  have hdo : ∀ t, endsBefore isNameChar t = true → keyword "do" (b ++ ("do".toList ++ t)) = some t :=
    fun t ht => keyword_clause (by decide) hb ht
  have htail : (");".toList) ++ r = ')' :: ';' :: r := rfl
  simp only [List.append_assoc, htail]
  rw [Grammar.doStmt, hdo _ (Follow.endsBefore_of_blank hb' hne _)]
  simp only [Option.bind_eq_bind, Option.bind_some, hread, hword, hcondition, optionalEnd_semicolon]
  rfl

end Heads

/-! ## Statements on one line -/

section Lines

theorem follow_semicolon (r : List Char) {k : Nat} : Follow k (';' :: r) :=
  Follow.close (b := []) blank_nil (by simp) r

theorem barren_semicolon (r : List Char) : Barren (';' :: r) :=
  Barren.of_leads (leads_cons (c := ';') rfl (by decide)) (by simp)

theorem Faithful.expression_refused (hg : g.Faithful n) (h : Barren s) : g.expression s = none := by
  simp [Grammar.expression, separated, hg.barren s h]

theorem Faithful.returnStmt (hg : g.Faithful n) {value : Option Expr}
    (hs : (Node.stmt (.ret value)).AllPrintable) :
    Reads g.returnStmt (n + 1) (fun _ => True) ((Stmt.ret value).text flat i) (.ok (.ret value)) := by
  intro b r hb _ hlength
  have hreturn : ∀ t, endsBefore isNameChar t = true →
      keyword "return" (b ++ ("return".toList ++ t)) = some t :=
    fun t ht => keyword_clause (by decide) hb ht
  cases value with
  | none =>
      have htext : (Stmt.ret none).text flat i = "return".toList ++ [';'] :=
        text_of_line (l := "return;") rfl (by decide)
      rw [htext, List.append_assoc, Grammar.returnStmt, hreturn _ rfl]
      simp only [Option.bind_eq_bind, Option.bind_some, List.cons_append, List.nil_append,
        optional_none (hg.expression_refused (barren_semicolon r)), optionalEnd_semicolon]
      rfl
  | some value =>
      have hvalue : (Node.expr value).AllPrintable :=
        hs.child (by simp [Node.children, Node.childrenOfStmt, Node.ofExpr?])
      have hhead : "return ".toList = "return".toList ++ [' '] := rfl
      have hsize : ("return".toList).length = 6 := rfl
      rw [text_ret hvalue, hhead] at hlength ⊢
      simp only [List.length_append, List.length_cons, List.length_nil] at hlength
      have hread := hg.expression value hvalue [' '] (';' :: r) blank_space (follow_semicolon r)
        (by simp only [List.length_cons, List.length_nil]; omega)
      simp only [List.append_assoc, List.cons_append, List.nil_append] at hread ⊢
      rw [Grammar.returnStmt, hreturn _ rfl]
      simp only [Option.bind_eq_bind, Option.bind_some, optional_some hread, optionalEnd_semicolon]
      rfl

theorem Faithful.throwStmt (hg : g.Faithful n) {value : Expr}
    (hs : (Node.stmt (.throwing value)).AllPrintable) :
    Reads g.throwStmt (n + 1) (fun _ => True) ((Stmt.throwing value).text flat i)
      (.ok (.throwing value)) := by
  intro b r hb _ hlength
  have hvalue : (Node.expr value).AllPrintable := hs.child List.mem_cons_self
  have hthrow : ∀ t, endsBefore isNameChar t = true →
      keyword "throw" (b ++ ("throw".toList ++ t)) = some t :=
    fun t ht => keyword_clause (by decide) hb ht
  have hhead : "throw ".toList = "throw".toList ++ [' '] := rfl
  have hsize : ("throw".toList).length = 5 := rfl
  rw [text_throwing hvalue, hhead] at hlength ⊢
  simp only [List.length_append, List.length_cons, List.length_nil] at hlength
  have hread := hg.expression value hvalue [' '] (';' :: r) blank_space (follow_semicolon r)
    (by simp only [List.length_cons, List.length_nil]; omega)
  simp only [List.append_assoc, List.cons_append, List.nil_append] at hread ⊢
  rw [Grammar.throwStmt, hthrow _ rfl]
  simp only [Option.bind_eq_bind, Option.bind_some, hread, optionalEnd_semicolon]
  rfl

/-- A name behind a word, if there is one. -/
theorem optional_identifier (label : Option String) (hlabel : ∀ l ∈ label, IsName l) (r : List Char) :
    endsBefore isNameChar (nameText label ++ ';' :: r) = true ∧
      optional identifier (nameText label ++ ';' :: r) = (label, ';' :: r) := by
  cases label with
  | none =>
      exact ⟨rfl, optional_none ((leads_cons (c := ';') rfl (by decide)).identifier (by decide))⟩
  | some l =>
      have hread := identifier_name (r := ';' :: r) (hlabel l rfl) blank_space rfl
      exact ⟨rfl, optional_some hread⟩

theorem breakStmt_text {label : Option String} (hs : (Node.stmt (.brk label)).AllPrintable) (hb : Blank b)
    (r : List Char) : breakStmt (b ++ ((Stmt.brk label).text flat i ++ r)) = some (.ok (.brk label), r) := by
  obtain ⟨hapart, hread⟩ := optional_identifier label hs.formed r
  rw [text_brk hs.formed, List.append_assoc, List.append_assoc, breakStmt]
  simp only [List.cons_append, List.nil_append, keyword_clause (w := "break") (by decide) hb hapart,
    Option.bind_eq_bind, Option.bind_some, hread, optionalEnd_semicolon]
  rfl

theorem continueStmt_text {label : Option String} (hs : (Node.stmt (.cont label)).AllPrintable)
    (hb : Blank b) (r : List Char) :
    continueStmt (b ++ ((Stmt.cont label).text flat i ++ r)) = some (.ok (.cont label), r) := by
  obtain ⟨hapart, hread⟩ := optional_identifier label hs.formed r
  rw [text_cont hs.formed, List.append_assoc, List.append_assoc, continueStmt]
  simp only [List.cons_append, List.nil_append,
    keyword_clause (w := "continue") (by decide) hb hapart,
    Option.bind_eq_bind, Option.bind_some, hread, optionalEnd_semicolon]
  rfl

theorem debuggerStmt_text (hb : Blank b) (r : List Char) :
    debuggerStmt (b ++ (Stmt.debugger.text flat i ++ r)) = some (.ok .debugger, r) := by
  have htext : Stmt.debugger.text flat i = "debugger".toList ++ [';'] :=
    text_of_line (l := "debugger;") rfl (by decide)
  rw [htext, List.append_assoc, debuggerStmt, keyword_clause (by decide) hb rfl]
  simp only [Option.bind_eq_bind, Option.bind_some, List.cons_append, List.nil_append,
    optionalEnd_semicolon]
  rfl

/-! ## Declarations -/

theorem Faithful.declarator (hg : g.Faithful n) {d : Declarator} (hd : (Node.declarator d).AllPrintable) :
    Reads g.declarator n (Follow 2) d.print.toList (.ok d) := by
  intro b r hb hr hlength
  obtain ⟨name, init⟩ := d
  have hname : IsName name := hd.formed
  cases init with
  | none =>
      have hstop : behind (markBefore "=" (· == '=')) g.assignment r = none := by
        have hassign := hr.assign (by decide)
        rw [assignMark, oneOf_cons, Option.or_eq_none_iff, Option.map_eq_none_iff] at hassign
        rw [behind, hassign.1]
        rfl
      rw [Declarator.print, Grammar.declarator, identifier_name hname hb hr.apart]
      simp only [Option.bind_eq_bind, Option.bind_some, optional_none hstop]
      rfl
  | some init =>
      have hinit : (Node.expr init).AllPrintable := hd.child (by simp [Node.children, Node.ofExpr?])
      have hprint : (Declarator.print ⟨name, some init⟩).toList =
          name.toList ++ (' ' :: '=' :: ' ' :: (init.print 2).toList) := by
        simp only [Declarator.print, String.toList_append, List.append_assoc]
        rfl
      rw [hprint] at hlength ⊢
      simp only [List.length_append, List.length_cons] at hlength
      have hread := hg.assignment init hinit [' '] r blank_space hr
        (by simp only [List.length_cons, List.length_nil]; omega)
      have hmark : markBefore "=" (· == '=') (' ' :: '=' :: ' ' :: ((init.print 2).toList ++ r)) =
          some (' ' :: ((init.print 2).toList ++ r)) := by
        rw [markBefore, mark_space, mark_head (c := '=') "=" rfl rfl (by decide)]
        rfl
      have hoptional : optional (behind (markBefore "=" (· == '=')) g.assignment)
          (' ' :: '=' :: ' ' :: ((init.print 2).toList ++ r)) = (some (.ok init), r) := by
        refine optional_some ?_
        rw [behind, hmark]
        exact hread
      simp only [List.append_assoc, List.cons_append]
      rw [Grammar.declarator, identifier_name hname hb rfl]
      simp only [Option.bind_eq_bind, Option.bind_some, hoptional]
      rfl

theorem Faithful.declarators (hg : g.Faithful n) {decls : List Declarator} (hne : decls ≠ [])
    (hdecls : ∀ d ∈ decls, (Node.declarator d).AllPrintable) :
    Reads g.declarators (n + 1) (Follow 1) ("var ".toList ++ commaText (decls.map fun d => d.print.toList))
      (.ok decls) := by
  intro b r hb hr hlength
  have hhead : "var ".toList = "var".toList ++ [' '] := rfl
  simp only [hhead, List.length_append, List.length_cons, List.length_nil] at hlength
  cases decls with
  | nil => exact absurd rfl hne
  | cons d decls =>
      have hitems := reads_separated hg.bound (fun d' hd' => hg.declarator (hdecls d' hd'))
        Follow.comma_cons (G := Follow 1) (fun r hr => ⟨hr.mono (by decide), hr.comma (by decide)⟩)
        [' '] r blank_space hr (by
          have hvar : ("var".toList).length = 3 := rfl
          simp only [List.length_cons, List.length_nil]
          omega)
      have hvar : ∀ t, endsBefore isNameChar t = true → keyword "var" (b ++ ("var".toList ++ t)) = some t :=
        fun t ht => keyword_clause (by decide) hb ht
      simp only [hhead, List.append_assoc, List.cons_append, List.nil_append] at hitems ⊢
      rw [Grammar.declarators, hvar _ rfl]
      simp only [Option.bind_eq_bind, Option.bind_some, hitems, Built.all_ok]
      rfl

theorem Faithful.varStmt (hg : g.Faithful n) {decls : List Declarator}
    (hs : (Node.stmt (.var decls)).AllPrintable) :
    Reads g.varStmt (n + 1) (fun _ => True) ((Stmt.var decls).text flat i) (.ok (.var decls)) := by
  intro b r hb _ hlength
  have hdecls : ∀ d ∈ decls, (Node.declarator d).AllPrintable :=
    fun d hd => hs.child (List.mem_map.2 ⟨d, hd, rfl⟩)
  rw [text_var hdecls, ← List.append_assoc] at hlength ⊢
  simp only [List.length_append, List.length_cons, List.length_nil] at hlength
  have hread := hg.declarators hs.formed hdecls b (';' :: r) hb (follow_semicolon r)
    (by simp only [List.length_append, List.length_cons]; omega)
  simp only [List.append_assoc, List.cons_append, List.nil_append] at hread ⊢
  rw [Grammar.varStmt]
  simp only [hread, Option.bind_eq_bind, Option.bind_some,
    optionalEnd_semicolon]
  rfl

/-! ## Bodies in braces -/

theorem Faithful.blockStmt (hg : g.Faithful n) {body : List Stmt}
    (hs : (Node.stmt (.block body)).AllPrintable) :
    Reads g.blockStmt (n + 1) (fun _ => True) ((Stmt.block body).text flat i) (.ok (.block body)) := by
  intro b r hb _ hlength
  rw [text_block] at hlength ⊢
  rw [Grammar.blockStmt, hg.braced (fun s hs' => hs.child (List.mem_map.2 ⟨s, hs', rfl⟩)) flat i b r hb
    trivial hlength]
  rfl

theorem Faithful.functionStmt (hg : g.Faithful n) {f : Func}
    (hs : (Node.stmt (.function f)).AllPrintable) :
    Reads g.functionStmt (n + 1) (fun _ => True) ((Stmt.function f).text flat i)
      (.ok (.function f)) := by
  intro b r hb _ hlength
  obtain ⟨hsome, hnamed⟩ : f.name.isSome = true ∧ f.Named := hs.formed
  obtain ⟨name, hname⟩ := Option.isSome_iff_exists.1 hsome
  rw [text_function hnamed, hname] at hlength ⊢
  simp only [nameText, List.length_append, List.length_cons] at hlength
  have htail := hg.functionTail hnamed.2 (fun s hs' => hs.child (List.mem_map.2 ⟨s, hs', rfl⟩)) flat i
    [] r blank_nil trivial (by simp only [List.length_nil]; omega)
  have hread : identifier ([' '] ++ (name.toList ++ (f.tailText flat i ++ r))) =
      some (name, f.tailText flat i ++ r) :=
    identifier_name (hnamed.1 name (by simp [hname])) blank_space rfl
  have hfunction : ∀ t, endsBefore isNameChar t = true →
      keyword "function" (b ++ ("function".toList ++ t)) = some t :=
    fun t ht => keyword_clause (by decide) hb ht
  rw [hname] at htail
  simp only [nameText, List.append_assoc, List.cons_append, List.nil_append] at htail hread ⊢
  rw [Grammar.functionStmt, hfunction _ rfl]
  simp only [Option.bind_eq_bind, Option.bind_some, hread, htail]
  rfl

theorem Faithful.handler (hg : g.Faithful n) {h : Handler} (hh : (Node.handler h).AllPrintable)
    (hb : Blank b)
    (hlength : b.length + (handlerText flat i (some h)).length + r.length ≤ n + 1) :
    g.handler (b ++ (handlerText flat i (some h) ++ r)) = some (.ok h, r) := by
  have hhead : "catch (".toList = "catch".toList ++ [' ', '('] := rfl
  have hsize : ("catch".toList).length = 5 := rfl
  simp only [handlerText, hhead, List.length_append, List.length_cons] at hlength
  have hbraced := hg.braced (fun s hs => hh.child (List.mem_map.2 ⟨s, hs, rfl⟩)) flat i [' '] r
    blank_space trivial (by simp only [List.length_cons, List.length_nil]; omega)
  have hcatch : ∀ t, endsBefore isNameChar t = true →
      keyword "catch" (b ++ ((gap flat :: margin i) ++ ("catch".toList ++ t))) = some t := by
    intro t ht
    rw [← List.append_assoc]
    exact keyword_clause (by decide) (blank_append.2 ⟨hb, blank_gap_margin flat i⟩) ht
  have hname : ∀ t, identifier (h.param.toList ++ ')' :: t) = some (h.param, ')' :: t) :=
    fun t => identifier_name (b := []) hh.formed blank_nil rfl
  have hparam : ∀ t, Rule.parenthesized identifier (' ' :: '(' :: (h.param.toList ++ ')' :: t)) =
      some (h.param, t) := by
    intro t
    simp [Rule.parenthesized, between, mark_space, mark_head (c := '(') "(" rfl rfl (by decide), hname,
      mark_head (c := ')') ")" rfl rfl (by decide)]
  simp only [handlerText, hhead, List.append_assoc, List.cons_append, List.nil_append] at hcatch hbraced ⊢
  rw [Grammar.handler, hcatch _ rfl]
  simp only [Option.bind_eq_bind, Option.bind_some, hparam, hbraced]
  cases h
  rfl

theorem tryStmt_eq (s : List Char) : g.tryStmt s = do
    let s ← keyword "try" s
    let (block, s) ← g.braced s
    let (guarded, s) := optional g.handler s
    let (finalizer, s) := optional (behind (keyword "finally") g.braced) s
    let built : Built Stmt := do
      let b ← block
      let h ← Built.option guarded
      let f ← Built.option finalizer
      if h.isNone && f.isNone then .error .bareTry
      else return .attempt b h f
    return (built, s) := rfl

theorem Faithful.finallyClause (hg : g.Faithful n) {finalizer : Option (List Stmt)}
    (hbody : ∀ body ∈ finalizer, ∀ s ∈ body, (Node.stmt s).AllPrintable)
    (hr : keyword "finally" r = none)
    (hlength : (finallyText flat i finalizer).length + r.length ≤ n + 1) :
    optional (behind (keyword "finally") g.braced) (finallyText flat i finalizer ++ r) =
      (finalizer.map .ok, r) := by
  cases finalizer with
  | none =>
      refine optional_none ?_
      rw [behind, finallyText, List.nil_append, hr]
      rfl
  | some body =>
      have hsize : ("finally".toList).length = 7 := rfl
      simp only [finallyText, List.length_append, List.length_cons] at hlength
      have hbraced := hg.braced (hbody body rfl) flat i [' '] r blank_space trivial
        (by simp only [List.length_cons, List.length_nil]; omega)
      have hfinally : ∀ t, endsBefore isNameChar t = true →
          keyword "finally" ((gap flat :: margin i) ++ ("finally".toList ++ t)) = some t :=
        fun t ht => keyword_clause (by decide) (blank_gap_margin flat i) ht
      refine optional_some ?_
      simp only [finallyText, List.append_assoc, List.cons_append] at hfinally ⊢
      rw [behind, hfinally _ rfl]
      exact hbraced

theorem Faithful.catchClause (hg : g.Faithful n) {handler : Option Handler}
    (hh : ∀ h ∈ handler, (Node.handler h).AllPrintable) (hr : handler = none → keyword "catch" r = none)
    (hlength : (handlerText flat i handler).length + r.length ≤ n + 1) :
    optional g.handler (handlerText flat i handler ++ r) = (handler.map .ok, r) := by
  cases handler with
  | none =>
      refine optional_none ?_
      rw [Grammar.handler, handlerText, List.nil_append, hr rfl]
      rfl
  | some h =>
      exact optional_some (hg.handler (b := []) (hh h rfl) blank_nil (by simpa using hlength))

theorem built_option {α : Type} (a : Option α) : Built.option (a.map .ok) = .ok a := by
  cases a <;> rfl

theorem Faithful.tryStmt (hg : g.Faithful n) {block : List Stmt} {handler : Option Handler}
    {finalizer : Option (List Stmt)} (hs : (Node.stmt (.attempt block handler finalizer)).AllPrintable) :
    Reads g.tryStmt (n + 1) (Stmt.attempt block handler finalizer).Stops
      ((Stmt.attempt block handler finalizer).text flat i) (.ok (.attempt block handler finalizer)) := by
  intro b r hb hr hlength
  have hsize : ("try".toList).length = 3 := rfl
  rw [text_attempt hs] at hlength ⊢
  simp only [List.length_append, List.length_cons] at hlength
  have hbraced := @Faithful.braced g n hg block (fun s hs' => hs.child (by
      simp only [Node.children, Node.childrenOfStmt, Node.ofStmts, List.mem_append]
      exact .inl (.inl (List.mem_map.2 ⟨s, hs', rfl⟩)))) flat i [' ']
    (handlerText flat i handler ++ (finallyText flat i finalizer ++ r)) blank_space trivial
    (by simp only [List.length_append, List.length_cons, List.length_nil]; omega)
  have hcatch : optional g.handler (handlerText flat i handler ++ (finallyText flat i finalizer ++ r)) =
      (handler.map .ok, finallyText flat i finalizer ++ r) := hg.catchClause (fun h hh => hs.child (by
      simp [Node.children, Node.childrenOfStmt, Option.mem_def.1 hh])) (fun hnone => by
      cases finalizer with
      | none =>
          have := hs.formed
          simp [Node.Formed, Stmt.Formed, hnone] at this
      | some body =>
          simp only [finallyText, List.append_assoc, List.cons_append]
          exact keyword_other (by decide) (by decide) (by decide) (blank_gap_margin flat i) rfl)
    (by simp only [List.length_append]; omega)
  have hfinally : optional (behind (keyword "finally") g.braced) (finallyText flat i finalizer ++ r) =
      (finalizer.map .ok, r) := hg.finallyClause
    (fun body hbody s hs' => hs.child (by
      simp only [Node.children, Node.childrenOfStmt, Node.ofStmts, List.mem_append]
      exact .inr (List.mem_map.2 ⟨s, by simpa [Option.mem_def.1 hbody] using hs', rfl⟩)))
    hr.finish (by omega)
  have htry : ∀ t, endsBefore isNameChar t = true → keyword "try" (b ++ ("try".toList ++ t)) = some t :=
    fun t ht => keyword_clause (by decide) hb ht
  have hclause : (handler.isNone && finalizer.isNone) = false := by
    have hformed : handler.isSome = true ∨ finalizer.isSome = true := hs.formed
    cases handler <;> cases finalizer <;> simp at hformed ⊢
  simp only [List.append_assoc, List.cons_append, List.nil_append] at hbraced ⊢
  rw [tryStmt_eq, htry _ rfl]
  simp only [Option.bind_eq_bind, Option.bind_some, hbraced, hcatch, hfinally, built_option]
  change some ((if (handler.isNone && finalizer.isNone) = true then _ else _), r) = _
  rw [hclause]
  rfl

/-! ## Switches -/

theorem halting_clause {w : String} (hw : w ∈ ["case", "default"]) (hb : Blank b)
    (hr : endsBefore isNameChar r = true) : Halting (b ++ (w.toList ++ r)) := by
  have hmem : ∀ w ∈ ["case", "default"], w ∈ clauseWords := by decide
  exact .inr (.inr ⟨w, r, Opens.of_word (isWord_of_mem w (hmem w hw)) hb hr, hw⟩)

theorem fresh_clause {w : String} (hw : w ∈ ["case", "default"]) (hb : Blank b)
    (hr : endsBefore isNameChar r = true) : Fresh (b ++ (w.toList ++ r)) := by
  have hmem : ∀ w ∈ ["case", "default"], w ∈ clauseWords ∧ w ∉ ["else", "finally"] := by decide
  exact fresh_of_opens (Opens.of_word (isWord_of_mem w (hmem w hw).1) hb hr) (hmem w hw).2

/-- The first word of an arm and what follows it. -/
theorem caseText_eq (c : Case) (flat : Bool) (i : Nat) : ∃ w d t, w ∈ ["case", "default"] ∧
    isNameChar d = false ∧ c.text flat i = w.toList ++ d :: t := by
  obtain ⟨test, body⟩ := c
  cases test with
  | none => exact ⟨"default", ':', _, by simp, by decide, rfl⟩
  | some test =>
      refine ⟨"case", ' ', (test.print 0).toList ++ (':' :: gap flat :: stmtsText flat (i + 1) body),
        by simp, by decide, ?_⟩
      simp only [Case.text, List.append_assoc]
      rfl

theorem Faithful.caseLabel (hg : g.Faithful n) (flat : Bool) {c : Case} (hc : (Node.case c).AllPrintable)
    (hb : Blank b) (r : List Char)
    (hlength : b.length + (c.text flat i).length + r.length ≤ n + 1) :
    g.caseLabel (b ++ (c.text flat i ++ r)) =
      some (c.test.map .ok, [gap flat] ++ (stmtsText flat (i + 1) c.body ++ r)) := by
  obtain ⟨test, body⟩ := c
  cases test with
  | none =>
      have hcase : ∀ t, endsBefore isNameChar t = true →
          keyword "case" (b ++ ("default".toList ++ t)) = none :=
        fun t ht => keyword_other (by decide) (by decide) (by decide) hb ht
      have hdefault : ∀ t, endsBefore isNameChar t = true →
          keyword "default" (b ++ ("default".toList ++ t)) = some t :=
        fun t ht => keyword_clause (by decide) hb ht
      simp only [Case.text, List.append_assoc, List.cons_append]
      simp only [Grammar.caseLabel, oneOf_cons, oneOf_nil, hcase (':' :: _) rfl,
        hdefault (':' :: _) rfl, Option.bind_eq_bind, Option.bind_none, Option.bind_some, Option.none_or,
        mark_head (c := ':') ":" rfl rfl (by decide)]
      rfl
  | some test =>
      have htest : (Node.expr test).AllPrintable := hc.child (by simp [Node.children, Node.ofExpr?])
      have hhead : "case ".toList = "case".toList ++ [' '] := rfl
      have hsize : ("case".toList).length = 4 := rfl
      simp only [Case.text, hhead, List.length_append, List.length_cons] at hlength
      have hcase : ∀ t, endsBefore isNameChar t = true →
          keyword "case" (b ++ ("case".toList ++ t)) = some t :=
        fun t ht => keyword_clause (by decide) hb ht
      have hread := hg.expression test htest [' ']
        (':' :: gap flat :: (stmtsText flat (i + 1) body ++ r)) blank_space
        (Follow.close (b := []) blank_nil (by simp) _)
        (by simp only [List.length_append, List.length_cons, List.length_nil] at hlength ⊢; omega)
      simp only [Case.text, hhead, List.append_assoc, List.cons_append, List.nil_append] at hread ⊢
      simp only [Grammar.caseLabel, oneOf_cons, hcase (' ' :: _) rfl, hread, Option.bind_eq_bind,
        Option.bind_some, mark_head (c := ':') ":" rfl rfl (by decide)]
      rfl

theorem switchCase_refused (h : Leads c s) (hc : isNameStart c = false) : g.switchCase s = none := by
  have hcase := keyword_of_leads h hc (isWord_of_mem "case" (by decide))
  have hdefault := keyword_of_leads h hc (isWord_of_mem "default" (by decide))
  simp [Grammar.switchCase, Grammar.caseLabel, oneOf_cons, oneOf_nil, hcase, hdefault]

/-- Arms are read until the closing brace. -/
theorem Faithful.cases (hg : g.Faithful n) (flat : Bool) (hr : Leads '\x7d' r) : ∀ cases : List Case,
    (∀ c ∈ cases, (Node.case c).AllPrintable) → ∀ b, Blank b →
      b.length + (cases.flatMap fun c => margin i ++ c.text flat i).length + r.length ≤ n →
      ∃ b', Blank b' ∧ Repeats g.switchCase
        (b ++ ((cases.flatMap fun c => margin i ++ c.text flat i) ++ r)) (cases.map .ok) (b' ++ r)
  | [], _, b, hb, _ => by
      obtain ⟨t, ht⟩ := hr
      have hlead : Leads '\x7d' (b ++ r) := ⟨t, (skip_blank_append hb r).trans ht⟩
      exact ⟨b, hb, .stop (switchCase_refused hlead (by decide))⟩
  | c :: cases, hall, b, hb, hlength => by
      have hc := hall c List.mem_cons_self
      have hcases := fun c hc => hall c (List.mem_cons_of_mem _ hc)
      simp only [List.flatMap_cons, List.length_append] at hlength
      have htext : (stmtsText flat (i + 1) c.body).length + 2 ≤ (c.text flat i).length := by
        simp only [Case.text, List.length_append, List.length_cons]
        exact Nat.le_add_left _ _
      -- the statements of the arm end where the next arm or the brace begins
      have hnext : Halting ((cases.flatMap fun c => margin i ++ c.text flat i) ++ r) ∧
          Fresh ((cases.flatMap fun c => margin i ++ c.text flat i) ++ r) := by
        cases cases with
        | nil => exact ⟨.inr (.inl hr), fresh_of_leads hr (by decide) (by decide)⟩
        | cons c' cases =>
            obtain ⟨w, d, t, hw, hd, htext⟩ := caseText_eq c' flat i
            have hapart : ∀ t, endsBefore isNameChar (d :: t) = true := by simp [endsBefore, hd]
            rw [List.flatMap_cons, htext]
            simp only [List.append_assoc, List.cons_append]
            exact ⟨halting_clause hw (blank_margin i) (hapart _), fresh_clause hw (blank_margin i) (hapart _)⟩
      have hlabel := hg.caseLabel flat hc (b := b ++ margin i) (i := i)
        (blank_append.2 ⟨hb, blank_margin i⟩)
        ((cases.flatMap fun c => margin i ++ c.text flat i) ++ r)
        (by simp only [List.length_append]; omega)
      have hbody : ∀ s ∈ c.body, (Node.stmt s).AllPrintable := fun s hs => hc.child (by
        simp only [Node.children, List.mem_append]
        exact .inr (List.mem_map.2 ⟨s, hs, rfl⟩))
      obtain ⟨b', hb', hshort, hstmts⟩ := hg.statements flat (i + 1) hnext.1 hnext.2 c.body hbody
        [gap flat] (blank_gap flat)
        (by simp only [List.length_append, List.length_cons, List.length_nil]; omega)
      simp only [List.length_cons, List.length_nil] at hshort
      obtain ⟨b'', hb'', hrest⟩ := hg.cases flat hr cases hcases b' hb' (by omega)
      have hmany := hstmts.many (n := g.bound) (by
        have hall := hstmts.length_le
        have := hg.bound
        simp only [List.length_append, List.length_cons, List.length_nil] at hall
        omega)
      refine ⟨b'', hb'', ?_⟩
      have hread : g.switchCase (b ++ (margin i ++ (c.text flat i ++
          ((cases.flatMap fun c => margin i ++ c.text flat i) ++ r)))) =
          some (.ok c, b' ++ ((cases.flatMap fun c => margin i ++ c.text flat i) ++ r)) := by
        rw [← List.append_assoc, Grammar.switchCase, hlabel]
        simp only [Option.bind_eq_bind, Option.bind_some, hmany, built_option, Built.all_ok]
        cases c
        rfl
      simp only [List.flatMap_cons, List.append_assoc]
      refine .turn hread ?_ hrest
      simp only [List.length_append]
      omega

theorem Faithful.switchStmt (hg : g.Faithful n) {discriminant : Expr} {cases : List Case}
    (hs : (Node.stmt (.switch discriminant cases)).AllPrintable) :
    Reads g.switchStmt (n + 1) (fun _ => True) ((Stmt.switch discriminant cases).text flat i)
      (.ok (.switch discriminant cases)) := by
  intro b r hb _ hlength
  have hdiscriminant : (Node.expr discriminant).AllPrintable := hs.child List.mem_cons_self
  have hcases : ∀ c ∈ cases, (Node.case c).AllPrintable :=
    fun c hc => hs.child (List.mem_cons_of_mem _ (List.mem_map.2 ⟨c, hc, rfl⟩))
  rw [text_of_spaced (spaced_switch hdiscriminant hcases i)] at hlength ⊢
  simp only [List.length_append, List.length_cons, List.length_nil] at hlength
  obtain ⟨s, hword, hcondition⟩ := hg.headed (isWord_of_mem "switch" (by decide)) "switch (" rfl hdiscriminant hb
    (' ' :: '\x7b' :: gap flat :: ((cases.flatMap fun c => margin (i + 1) ++ c.text flat (i + 1)) ++
      (margin i ++ '\x7d' :: r))) (by simp only [List.length_append, List.length_cons]; omega)
  obtain ⟨b', hb', harms⟩ := hg.cases flat (r := margin i ++ '\x7d' :: r) (i := i + 1)
    (leads_of_solid (blank_margin i) (solid_cons rfl (by decide))) cases hcases [gap flat]
    (blank_gap flat) (by simp only [List.length_append, List.length_cons, List.length_nil]; omega)
  have hmany := harms.many (n := g.bound) (by
    have hall := harms.length_le
    have := hg.bound
    simp only [List.length_append, List.length_cons, List.length_nil] at hall
    omega)
  simp only [List.append_assoc, List.cons_append, List.nil_append] at hmany ⊢
  rw [Grammar.switchStmt, hword]
  simp only [Option.bind_eq_bind, Option.bind_some, hcondition, mark_space,
    mark_head (c := '\x7b') "\x7b" rfl rfl (by decide), hmany, mark_blank_append hb',
    mark_blank_append (blank_margin i), mark_head (c := '\x7d') "\x7d" rfl rfl (by decide), Built.all_ok]
  rfl

end Lines

end Grammar

end Resumption.Script
