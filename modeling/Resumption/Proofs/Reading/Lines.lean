import Resumption.Proofs.Reading.Opening

/-!
# Printed statements piece by piece

`Stmt.text flat i s` is the printed statement without the blanks in front of it and the line break
behind it.  For every kind of statement it is spelled out as the keywords and marks the grammar asks
for, with the texts of the parts between them; only blanks depend on the indentation, on whether a
body has braces and on whether the lines are joined.
-/

namespace Resumption.Script

open Lexeme Rule Printer

/-- The printed statement from its first to its last character that is no blank. -/
def Stmt.text (flat : Bool) (i : Nat) (s : Stmt) : List Char :=
  ((spaced flat (s.print i "")).drop (2 * i)).dropLast

/-- The statement stands behind its margin and ends with a line. -/
def Stmt.Lined (flat : Bool) (s : Stmt) : Prop :=
  ∀ i, spaced flat (s.print i "") = margin i ++ (s.text flat i ++ [gap flat])

variable {flat : Bool} {i : Nat} {s : Stmt} {t : List Char}

theorem text_of_spaced (h : spaced flat (s.print i "") = margin i ++ (t ++ [gap flat])) :
    s.text flat i = t := by
  rw [Stmt.text, h, List.drop_left' (by simp [margin]), List.dropLast_concat]

theorem lined_of_spaced
    (h : ∀ i, ∃ t, spaced flat (s.print i "") = margin i ++ (t ++ [gap flat])) : s.Lined flat := by
  intro i
  obtain ⟨t, ht⟩ := h i
  rw [ht, text_of_spaced ht]

/-- Statements one below the other. -/
def stmtsText (flat : Bool) (i : Nat) (body : List Stmt) : List Char :=
  spaced flat (printStmts i body)

/-- A body in braces, from the opening brace on. -/
def bracedText (flat : Bool) (i : Nat) (body : List Stmt) : List Char :=
  '\x7b' :: gap flat :: (stmtsText flat (i + 1) body ++ (margin i ++ ['\x7d']))

theorem Func.tailText_eq (f : Func) (flat : Bool) (i : Nat) :
    f.tailText flat i = '(' :: (commaText (f.params.map String.toList) ++
      (')' :: ' ' :: bracedText flat i f.body)) := rfl

theorem stmtsText_cons (body : List Stmt) :
    stmtsText flat i (s :: body) = spaced flat (s.print i "") ++ stmtsText flat i body := by
  rw [stmtsText, printStmts, spaced_append]
  rfl

/-- The lines of a body in braces behind a head. -/
theorem spaced_braces (head : String) (hhead : Unbroken head.toList) (body : List Stmt) :
    spaced flat (line i (head ++ "\x7b") ++ printStmts (i + 1) body ++ line i "\x7d") =
      margin i ++ (head.toList ++ (bracedText flat i body ++ [gap flat])) := by
  have hbrace : Unbroken (head ++ "\x7b").toList := by
    rw [String.toList_append, unbroken_append]
    exact ⟨hhead, by decide⟩
  rw [spaced_append, spaced_append, spaced_line hbrace, spaced_line (s := "\x7d") (by decide)]
  simp [bracedText, stmtsText]

theorem spaced_print_block (head : String) (hhead : Unbroken head.toList) (body : List Stmt) :
    spaced flat ((Stmt.block body).print i head) =
      margin i ++ (head.toList ++ (bracedText flat i body ++ [gap flat])) := by
  rw [Stmt.print_block]
  exact spaced_braces head hhead body

theorem text_block (body : List Stmt) : (Stmt.block body).text flat i = bracedText flat i body :=
  text_of_spaced (spaced_print_block "" (by decide) body)

/-- A body behind its head: a block goes on in the same line, anything else in a line further in. -/
theorem spaced_nest (hs : s.Lined flat) (head : String) (hhead : Unbroken head.toList) :
    ∃ b j, Blank b ∧ b ≠ [] ∧ spaced flat (nest i head s.isBlock (fun i h => s.print i h)) =
      margin i ++ (head.toList ++ (b ++ (s.text flat j ++ [gap flat]))) := by
  have hline : spaced flat (line i head ++ s.print (i + 1) "") = margin i ++ (head.toList ++
      ((gap flat :: margin (i + 1)) ++ (s.text flat (i + 1) ++ [gap flat]))) := by
    rw [spaced_append, spaced_line hhead, hs (i + 1)]
    simp
  unfold nest
  cases s with
  | block body =>
      refine ⟨[' '], i, blank_space, by simp, ?_⟩
      have hspace : Unbroken (head ++ " ").toList := by
        rw [String.toList_append, unbroken_append]
        exact ⟨hhead, by decide⟩
      rw [text_block]
      simp only [Stmt.isBlock, if_true]
      rw [spaced_print_block _ hspace body]
      simp
  | _ => exact ⟨gap flat :: margin (i + 1), i + 1, blank_gap_margin flat (i + 1), by simp, hline⟩

/-- A line of its own. -/
theorem text_of_line {l : String} (hprint : s.print i "" = line i l) (hl : Unbroken l.toList) :
    s.text flat i = l.toList := by
  refine text_of_spaced ?_
  rw [hprint, spaced_line hl]

theorem text_of_nest (head : String) {body : Stmt} (hbody : body.Lined flat)
    (hprint : s.print i "" = nest i head body.isBlock (fun i h => body.print i h))
    (hhead : Unbroken head.toList) :
    ∃ b j, Blank b ∧ b ≠ [] ∧ s.text flat i = head.toList ++ (b ++ body.text flat j) := by
  obtain ⟨b, j, hb, hne, hspaced⟩ := spaced_nest (i := i) hbody _ hhead
  refine ⟨b, j, hb, hne, text_of_spaced ?_⟩
  rw [hprint, hspaced]
  simp

/-! ## Parts -/

theorem unbroken_printExpr? {e : Option Expr} (he : ∀ x ∈ e, (Node.expr x).AllPrintable) :
    Unbroken (printExpr? e).toList := by
  cases e with
  | none => decide
  | some e => exact unbroken_print e (he e rfl) 0

theorem unbroken_declarators {decls : List Declarator}
    (hd : ∀ d ∈ decls, (Node.declarator d).AllPrintable) :
    Unbroken (commas (printDecls decls)).toList := by
  rw [printDecls_eq]
  refine unbroken_commas fun s hs => ?_
  obtain ⟨⟨name, init⟩, hmem, rfl⟩ := List.mem_map.1 hs
  have hname := unbroken_word (hd _ hmem).formed.1
  cases init with
  | none => exact hname
  | some init =>
      simp only [Declarator.print, String.toList_append, unbroken_append]
      exact ⟨⟨hname, by decide⟩, unbroken_print init ((hd _ hmem).child (by
        simp [Node.children, Node.ofExpr?])) 2⟩

theorem unbroken_forInit {init : ForInit} {test update : Option Expr} {body : Stmt}
    (h : (Node.stmt (.forLoop init test update body)).AllPrintable) : Unbroken init.print.toList := by
  cases init with
  | absent => decide
  | vars decls =>
      simp only [ForInit.print, String.toList_append, unbroken_append]
      exact ⟨by decide, unbroken_declarators fun d hd =>
        h.child (by simp [Node.children, Node.childrenOfStmt, hd])⟩
  | expr e => exact unbroken_print e (h.child (by simp [Node.children, Node.childrenOfStmt])) 0

theorem unbroken_forTarget {left : ForTarget} {right : Expr} {body : Stmt}
    (h : (Node.stmt (.forIn left right body)).AllPrintable) : Unbroken left.print.toList := by
  cases left with
  | var name =>
      simp only [ForTarget.print, String.toList_append, unbroken_append]
      exact ⟨by decide, unbroken_word h.formed.1⟩
  | expr e => exact unbroken_print e (h.child (by simp [Node.children, Node.childrenOfStmt])) 17

/-! ## Statements with bodies -/

section Texts

variable {body cons alt : Stmt} {test object : Expr} {label : String}

theorem unbroken_head {e : Expr} (he : (Node.expr e).AllPrintable) (before behind : String)
    (hbefore : Unbroken before.toList) (hbehind : Unbroken behind.toList) :
    Unbroken (before ++ e.print 0 ++ behind).toList := by
  simp only [String.toList_append, unbroken_append]
  exact ⟨⟨hbefore, unbroken_print e he 0⟩, hbehind⟩

theorem spaced_branch_none (hcons : cons.Lined flat) (htest : (Node.expr test).AllPrintable) (i : Nat) :
    ∃ b j, Blank b ∧ b ≠ [] ∧ spaced flat ((Stmt.branch test cons none).print i "") = margin i ++
      (("if (".toList ++ ((test.print 0).toList ++ (')' :: (b ++ cons.text flat j)))) ++
        [gap flat]) := by
  have hhead := unbroken_head htest "if (" ")" (by decide) (by decide)
  obtain ⟨b, j, hb, hne, hspaced⟩ := spaced_nest (i := i) hcons _ hhead
  refine ⟨b, j, hb, hne, ?_⟩
  simp only [Stmt.print, Option.isSome_none, Bool.false_and, Bool.false_eq_true, if_false, printElse,
    spaced_append]
  rw [hspaced]
  simp [spaced]

theorem spaced_branch_some (hcons : cons.Lined flat) (halt : alt.Lined flat)
    (htest : (Node.expr test).AllPrintable) (hopen : cons.endsInOpenIf = false) (i : Nat) :
    ∃ b j b' j', Blank b ∧ b ≠ [] ∧ Blank b' ∧ b' ≠ [] ∧
      spaced flat ((Stmt.branch test cons (some alt)).print i "") = margin i ++
        (("if (".toList ++ ((test.print 0).toList ++ (')' :: (b ++ (cons.text flat j ++
          ((gap flat :: margin i) ++ ("else".toList ++ (b' ++ alt.text flat j')))))))) ++ [gap flat]) := by
  have hhead := unbroken_head htest "if (" ")" (by decide) (by decide)
  obtain ⟨b, j, hb, hne, hfirst⟩ := spaced_nest (i := i) hcons _ hhead
  obtain ⟨b', j', hb', hne', hsecond⟩ := spaced_nest (i := i) halt "else" (by decide)
  refine ⟨b, j, b', j', hb, hne, hb', hne', ?_⟩
  simp only [Stmt.print, hopen, Bool.and_false, Bool.false_eq_true, if_false, printElse, spaced_append]
  rw [hfirst, hsecond]
  simp

theorem spaced_doLoop (hbody : body.Lined flat) (htest : (Node.expr test).AllPrintable) (i : Nat) :
    ∃ b j b', Blank b ∧ b ≠ [] ∧ Blank b' ∧ b' ≠ [] ∧
      spaced flat ((Stmt.doLoop body test).print i "") = margin i ++
        (("do".toList ++ (b ++ (body.text flat j ++ (b' ++
          ("while (".toList ++ ((test.print 0).toList ++ ");".toList)))))) ++ [gap flat]) := by
  have hlast : ∀ before : String, Unbroken before.toList →
      Unbroken (before ++ test.print 0 ++ ");").toList :=
    fun before hbefore => unbroken_head htest _ _ hbefore (by decide)
  cases body with
  | block stmts =>
      refine ⟨[' '], i, [' '], blank_space, by simp, blank_space, by simp, ?_⟩
      rw [Stmt.print, text_block, spaced_append, spaced_append,
        spaced_line (s := "do \x7b") (by decide), spaced_line (hlast _ (by decide))]
      simp [bracedText, stmtsText]
  | _ =>
      refine ⟨gap flat :: margin (i + 1), i + 1, gap flat :: margin i, blank_gap_margin _ _, by simp,
        blank_gap_margin _ _, by simp, ?_⟩
      rw [Stmt.print, spaced_append, spaced_append, spaced_line (s := "do") (by decide),
        spaced_line (hlast _ (by decide)), hbody (i + 1)]
      · simp
      · simp

theorem spaced_labeled (hbody : body.Lined flat) (hlabel : Unbroken label.toList) (i : Nat) :
    spaced flat ((Stmt.labeled label body).print i "") = margin i ++
      ((label.toList ++ (':' :: ((gap flat :: margin i) ++ body.text flat i))) ++ [gap flat]) := by
  have hline : Unbroken (label ++ ":").toList := by
    rw [String.toList_append, unbroken_append]
    exact ⟨hlabel, by decide⟩
  rw [Stmt.print, spaced_append, spaced_line hline, hbody i]
  simp

/-- A `catch` clause with the blanks in front of it. -/
def handlerText (flat : Bool) (i : Nat) (handler : Option Handler) : List Char :=
  match handler with
  | none => []
  | some h => (gap flat :: margin i) ++ ("catch (".toList ++ (h.param.toList ++
      (')' :: ' ' :: bracedText flat i h.body)))

/-- A `finally` clause with the blanks in front of it. -/
def finallyText (flat : Bool) (i : Nat) (finalizer : Option (List Stmt)) : List Char :=
  match finalizer with
  | none => []
  | some body => (gap flat :: margin i) ++ ("finally".toList ++ (' ' :: bracedText flat i body))

theorem spaced_attempt {block : List Stmt} {handler : Option Handler}
    {finalizer : Option (List Stmt)} (hparam : ∀ h ∈ handler, Unbroken h.param.toList) (i : Nat) :
    spaced flat ((Stmt.attempt block handler finalizer).print i "") = margin i ++
      (("try".toList ++ (' ' :: (bracedText flat i block ++
        (handlerText flat i handler ++ finallyText flat i finalizer)))) ++ [gap flat]) := by
  have htry := @spaced_braces flat i "try " (by decide) block
  have hfinally : ∀ body, spaced flat (line i "finally \x7b" ++ printStmts (i + 1) body ++
      line i "\x7d") = margin i ++ ("finally ".toList ++ (bracedText flat i body ++ [gap flat])) :=
    fun body => spaced_braces "finally " (by decide) body
  have hhandler : ∀ h ∈ handler, spaced flat (h.print i) = margin i ++
      ("catch (".toList ++ (h.param.toList ++ (") ".toList ++ (bracedText flat i h.body ++ [gap flat])))) := by
    intro h hh
    have hhead : Unbroken ("catch (" ++ h.param ++ ") ").toList := by
      simp only [String.toList_append, unbroken_append]
      exact ⟨⟨by decide, hparam h hh⟩, by decide⟩
    obtain ⟨param, body⟩ := h
    have hbraces := @spaced_braces flat i _ hhead body
    rw [Handler.print]
    simp only [String.append_assoc, String.toList_append, List.append_assoc] at hbraces ⊢
    exact hbraces
  have hclauses : spaced flat (Stmt.print i "" (.attempt block handler finalizer)) =
      spaced flat (line i "try \x7b" ++ printStmts (i + 1) block ++ line i "\x7d") ++
        (spaced flat (printHandler i handler) ++ spaced flat (printFinally i finalizer)) := by
    rw [Stmt.print, spaced_append, spaced_append, List.append_assoc]
  rw [hclauses, show ("try \x7b" : String) = "try " ++ "\x7b" from rfl, htry]
  cases handler with
  | none =>
      cases finalizer with
      | none => simp [printHandler, printFinally, handlerText, finallyText, spaced]
      | some body =>
          rw [printHandler, printFinally, hfinally]
          simp [handlerText, finallyText, spaced]
  | some h =>
      rw [printHandler, hhandler h rfl]
      cases finalizer with
      | none => simp [printFinally, handlerText, finallyText, spaced]
      | some body =>
          rw [printFinally, hfinally]
          simp [handlerText, finallyText]

/-- An arm of a `switch`, from its word on. -/
def Case.text (flat : Bool) (i : Nat) (c : Case) : List Char :=
  (match c.test with
    | none => "default".toList
    | some test => "case ".toList ++ (test.print 0).toList) ++
  (':' :: gap flat :: stmtsText flat (i + 1) c.body)

theorem spaced_cases {cases : List Case} (hcases : ∀ c ∈ cases, (Node.case c).AllPrintable) (i : Nat) :
    spaced flat (printCases i cases) = cases.flatMap fun c => margin i ++ c.text flat i := by
  induction cases with
  | nil => rfl
  | cons c cases ih =>
      obtain ⟨test, body⟩ := c
      have hc := hcases _ List.mem_cons_self
      rw [printCases, spaced_append, ih (fun c hc => hcases c (List.mem_cons_of_mem _ hc)),
        List.flatMap_cons]
      cases test with
      | none =>
          rw [Case.print, spaced_append, spaced_line (s := "default:") (by decide)]
          simp [Case.text, stmtsText]
      | some test =>
          have htest : (Node.expr test).AllPrintable :=
            hc.child (by simp [Node.children, Node.ofExpr?])
          rw [Case.print, spaced_append, spaced_line (unbroken_head htest _ _ (by decide) (by decide))]
          simp [Case.text, stmtsText]

theorem spaced_switch {cases : List Case} (htest : (Node.expr test).AllPrintable)
    (hcases : ∀ c ∈ cases, (Node.case c).AllPrintable) (i : Nat) :
    spaced flat ((Stmt.switch test cases).print i "") = margin i ++
      (("switch (".toList ++ ((test.print 0).toList ++ (')' :: ' ' :: '\x7b' :: gap flat ::
        ((cases.flatMap fun c => margin (i + 1) ++ c.text flat (i + 1)) ++
          (margin i ++ ['\x7d']))))) ++ [gap flat]) := by
  rw [Stmt.print, spaced_append, spaced_append,
    spaced_line (unbroken_head htest _ _ (by decide) (by decide)), spaced_cases hcases,
    spaced_line (s := "\x7d") (by decide)]
  simp

end Texts

/-- Every printed statement stands behind its margin and ends with a line. -/
theorem lined (s : Stmt) (hs : (Node.stmt s).AllPrintable) (flat : Bool) : s.Lined flat := by
  have hbody : ∀ body : Stmt, Node.stmt body ∈ (Node.stmt s).children → body.Lined flat :=
    fun body hmem =>
      have := Node.weight_lt_of_mem_children hmem
      lined body (hs.child hmem) flat
  have hexpr : ∀ e : Expr, Node.expr e ∈ (Node.stmt s).children → (Node.expr e).AllPrintable :=
    fun e hmem => hs.child hmem
  have hline : ∀ l : String, Unbroken l.toList → ∀ i,
      ∃ t, spaced flat (line i l) = margin i ++ (t ++ [gap flat]) :=
    fun l hl i => ⟨_, spaced_line hl⟩
  have hnest : ∀ (body : Stmt) (head : String), Node.stmt body ∈ (Node.stmt s).children →
      Unbroken head.toList → ∀ i,
      ∃ t, spaced flat (nest i head body.isBlock (fun i h => body.print i h)) =
        margin i ++ (t ++ [gap flat]) := by
    intro body head hmem hhead i
    obtain ⟨b, j, -, -, hspaced⟩ := spaced_nest (i := i) (hbody body hmem) _ hhead
    exact ⟨head.toList ++ (b ++ body.text flat j), by rw [hspaced]; simp⟩
  refine lined_of_spaced fun i => ?_
  have hformed := hs.formed
  cases s with
  | var decls =>
      refine hline _ ?_ i
      simp only [String.toList_append, unbroken_append]
      exact ⟨⟨by decide, unbroken_declarators fun d hd =>
        hs.child (by simp [Node.children, Node.childrenOfStmt, hd])⟩, by decide⟩
  | function f =>
      refine ⟨"function".toList ++ (nameText f.name ++ f.tailText flat i), ?_⟩
      rw [Stmt.print, spaced_print_func hformed.2]
      simp
  | expr e =>
      have he := unbroken_print e (hexpr e List.mem_cons_self) 0
      change ∃ t, spaced flat (exprLine i (e.print 0)) = _
      unfold exprLine
      split_ifs
      · refine hline _ ?_ i
        simp only [String.toList_append, unbroken_append]
        exact ⟨⟨by decide, he⟩, by decide⟩
      · refine hline _ ?_ i
        simp only [String.toList_append, unbroken_append]
        exact ⟨he, by decide⟩
  | block body => exact ⟨_, spaced_print_block "" (by decide) body⟩
  | branch test cons alt =>
      have htest := hexpr test List.mem_cons_self
      have hcons := hbody cons (by simp [Node.children, Node.childrenOfStmt])
      cases alt with
      | none =>
          obtain ⟨b, j, -, -, h⟩ := spaced_branch_none hcons htest i
          exact ⟨_, h⟩
      | some alt =>
          obtain ⟨b, j, b', j', -, -, -, -, h⟩ := spaced_branch_some hcons
            (hbody alt (by simp [Node.children, Node.childrenOfStmt])) htest (hformed rfl) i
          exact ⟨_, h⟩
  | forLoop init test update body =>
      refine hnest body _ (by simp [Node.children, Node.childrenOfStmt]) ?_ i
      simp only [String.toList_append, unbroken_append]
      refine ⟨⟨⟨⟨⟨⟨by decide, unbroken_forInit hs⟩, by decide⟩, unbroken_printExpr? fun x hx => ?_⟩,
        by decide⟩, unbroken_printExpr? fun x hx => ?_⟩, by decide⟩
      · exact hexpr x (by simp [Node.children, Node.childrenOfStmt, Node.ofExpr?, Option.mem_def.1 hx])
      · exact hexpr x (by simp [Node.children, Node.childrenOfStmt, Node.ofExpr?, Option.mem_def.1 hx])
  | forIn left right body =>
      refine hnest body _ (by cases left <;> simp [Node.children, Node.childrenOfStmt]) ?_ i
      simp only [String.toList_append, unbroken_append]
      exact ⟨⟨⟨⟨by decide, unbroken_forTarget hs⟩, by decide⟩, unbroken_print right
        (hexpr right (by cases left <;> simp [Node.children, Node.childrenOfStmt])) 0⟩, by decide⟩
  | whileLoop test body =>
      exact hnest body _ (by simp [Node.children, Node.childrenOfStmt])
        (unbroken_head (hexpr test List.mem_cons_self) _ _ (by decide) (by decide)) i
  | doLoop body test =>
      obtain ⟨b, j, b', -, -, -, -, h⟩ := spaced_doLoop (hbody body List.mem_cons_self)
        (hexpr test (by simp [Node.children, Node.childrenOfStmt])) i
      exact ⟨_, h⟩
  | ret value =>
      cases value with
      | none => exact hline _ (by decide) i
      | some value => exact hline _ (unbroken_head (hexpr value (by
          simp [Node.children, Node.childrenOfStmt, Node.ofExpr?])) _ _ (by decide) (by decide)) i
  | brk label =>
      cases label with
      | none => exact hline _ (by decide) i
      | some label =>
          refine hline _ ?_ i
          simp only [String.toList_append, unbroken_append]
          exact ⟨⟨by decide, unbroken_word (hformed label rfl).1⟩, by decide⟩
  | cont label =>
      cases label with
      | none => exact hline _ (by decide) i
      | some label =>
          refine hline _ ?_ i
          simp only [String.toList_append, unbroken_append]
          exact ⟨⟨by decide, unbroken_word (hformed label rfl).1⟩, by decide⟩
  | throwing value =>
      exact hline _ (unbroken_head (hexpr value List.mem_cons_self) _ _ (by decide) (by decide)) i
  | attempt block handler finalizer =>
      refine ⟨_, spaced_attempt (fun h hh => ?_) i⟩
      have hmem : Node.handler h ∈ (Node.stmt (.attempt block handler finalizer)).children := by
        simp [Node.children, Node.childrenOfStmt, Option.mem_def.1 hh]
      exact unbroken_word (hs.child hmem).formed.1
  | switch test cases =>
      exact ⟨_, spaced_switch (hexpr test List.mem_cons_self) (fun c hc =>
        hs.child (by simp [Node.children, Node.childrenOfStmt, hc])) i⟩
  | withScope object body =>
      exact hnest body _ (by simp [Node.children, Node.childrenOfStmt])
        (unbroken_head (hexpr object List.mem_cons_self) _ _ (by decide) (by decide)) i
  | labeled label body =>
      exact ⟨_, spaced_labeled (hbody body List.mem_cons_self) (unbroken_word hformed.1) i⟩
  | debugger => exact hline _ (by decide) i
  | empty => exact hline _ (by decide) i
termination_by (Node.stmt s).weight

/-! ## The texts of the statements -/

section Texts

variable {body : Stmt} {label : String}

theorem text_function {f : Func} (hf : f.Named) :
    (Stmt.function f).text flat i = "function".toList ++ (nameText f.name ++ f.tailText flat i) := by
  refine text_of_spaced ?_
  rw [Stmt.print, spaced_print_func hf]
  simp

/-- An expression as a statement: in parentheses where its beginning would be misread. -/
theorem text_expr {e : Expr} (he : (Node.expr e).AllPrintable) :
    (Stmt.expr e).text flat i =
      if startsWith "\x7b" (e.print 0) || startsWith "function" (e.print 0)
      then '(' :: ((e.print 0).toList ++ [')', ';']) else (e.print 0).toList ++ [';'] := by
  have hprint : (Stmt.expr e).print i "" = exprLine i (e.print 0) := rfl
  have hunbroken := unbroken_print e he 0
  unfold exprLine at hprint
  split_ifs at hprint ⊢
  · rw [text_of_line hprint]
    · simp
    · simp only [String.toList_append, unbroken_append]
      exact ⟨⟨by decide, hunbroken⟩, by decide⟩
  · rw [text_of_line hprint]
    · simp
    · simp only [String.toList_append, unbroken_append]
      exact ⟨hunbroken, by decide⟩

theorem text_var {decls : List Declarator} (hd : ∀ d ∈ decls, (Node.declarator d).AllPrintable) :
    (Stmt.var decls).text flat i =
      "var ".toList ++ (commaText (decls.map fun d => d.print.toList) ++ [';']) := by
  rw [text_of_line (l := "var " ++ commas (printDecls decls) ++ ";") rfl]
  · rw [String.toList_append, String.toList_append, toList_commas, printDecls_eq, List.map_map,
      List.append_assoc]
    rfl
  · simp only [String.toList_append, unbroken_append]
    exact ⟨⟨by decide, unbroken_declarators hd⟩, by decide⟩

theorem text_forLoop {init : ForInit} {test update : Option Expr} (hbody : body.Lined flat)
    (hs : (Node.stmt (.forLoop init test update body)).AllPrintable) :
    ∃ b j, Blank b ∧ b ≠ [] ∧ (Stmt.forLoop init test update body).text flat i =
      "for (".toList ++ (init.print.toList ++ ("; ".toList ++ ((printExpr? test).toList ++
        ("; ".toList ++ ((printExpr? update).toList ++ (')' :: (b ++ body.text flat j))))))) := by
  have hparts : ∀ e : Option Expr, (∀ x ∈ e, Node.expr x ∈ (Node.stmt (.forLoop init test update body)).children) →
      Unbroken (printExpr? e).toList :=
    fun e he => unbroken_printExpr? fun x hx => hs.child (he x hx)
  obtain ⟨b, j, hb, hne, h⟩ := text_of_nest (i := i)
    (s := .forLoop init test update body) ("for (" ++ init.print ++ "; " ++ printExpr? test ++
      "; " ++ printExpr? update ++ ")") hbody rfl (by
    simp only [String.toList_append, unbroken_append]
    refine ⟨⟨⟨⟨⟨⟨by decide, unbroken_forInit hs⟩, by decide⟩, hparts test fun x hx => ?_⟩,
      by decide⟩, hparts update fun x hx => ?_⟩, by decide⟩
    · simp [Node.children, Node.childrenOfStmt, Node.ofExpr?, Option.mem_def.1 hx]
    · simp [Node.children, Node.childrenOfStmt, Node.ofExpr?, Option.mem_def.1 hx])
  refine ⟨b, j, hb, hne, ?_⟩
  rw [h]
  simp

theorem text_forIn {left : ForTarget} {right : Expr} (hbody : body.Lined flat)
    (hs : (Node.stmt (.forIn left right body)).AllPrintable) :
    ∃ b j, Blank b ∧ b ≠ [] ∧ (Stmt.forIn left right body).text flat i =
      "for (".toList ++ (left.print.toList ++ (" in ".toList ++ ((right.print 0).toList ++
        (')' :: (b ++ body.text flat j))))) := by
  have hright : (Node.expr right).AllPrintable :=
    hs.child (by cases left <;> simp [Node.children, Node.childrenOfStmt])
  obtain ⟨b, j, hb, hne, h⟩ := text_of_nest (i := i) (s := .forIn left right body)
    ("for (" ++ left.print ++ " in " ++ right.print 0 ++ ")") hbody rfl (by
    simp only [String.toList_append, unbroken_append]
    exact ⟨⟨⟨⟨by decide, unbroken_forTarget hs⟩, by decide⟩, unbroken_print right hright 0⟩,
      by decide⟩)
  refine ⟨b, j, hb, hne, ?_⟩
  rw [h]
  simp

theorem text_whileLoop {test : Expr} (hbody : body.Lined flat) (htest : (Node.expr test).AllPrintable) :
    ∃ b j, Blank b ∧ b ≠ [] ∧ (Stmt.whileLoop test body).text flat i =
      "while (".toList ++ ((test.print 0).toList ++ (')' :: (b ++ body.text flat j))) := by
  obtain ⟨b, j, hb, hne, h⟩ := text_of_nest (i := i) (s := .whileLoop test body)
    ("while (" ++ test.print 0 ++ ")") hbody rfl (unbroken_head htest _ _ (by decide) (by decide))
  refine ⟨b, j, hb, hne, ?_⟩
  rw [h]
  simp

theorem text_withScope {object : Expr} (hbody : body.Lined flat)
    (hobject : (Node.expr object).AllPrintable) :
    ∃ b j, Blank b ∧ b ≠ [] ∧ (Stmt.withScope object body).text flat i =
      "with (".toList ++ ((object.print 0).toList ++ (')' :: (b ++ body.text flat j))) := by
  obtain ⟨b, j, hb, hne, h⟩ := text_of_nest (i := i) (s := .withScope object body)
    ("with (" ++ object.print 0 ++ ")") hbody rfl
    (unbroken_head hobject _ _ (by decide) (by decide))
  refine ⟨b, j, hb, hne, ?_⟩
  rw [h]
  simp

theorem text_ret {value : Expr} (hvalue : (Node.expr value).AllPrintable) :
    (Stmt.ret (some value)).text flat i =
      "return ".toList ++ ((value.print 0).toList ++ [';']) := by
  rw [text_of_line (l := "return " ++ value.print 0 ++ ";") rfl
    (unbroken_head hvalue _ _ (by decide) (by decide))]
  simp

theorem text_throwing {value : Expr} (hvalue : (Node.expr value).AllPrintable) :
    (Stmt.throwing value).text flat i =
      "throw ".toList ++ ((value.print 0).toList ++ [';']) := by
  rw [text_of_line (l := "throw " ++ value.print 0 ++ ";") rfl
    (unbroken_head hvalue _ _ (by decide) (by decide))]
  simp

theorem text_brk {label : Option String} (hlabel : ∀ l ∈ label, IsName l) :
    (Stmt.brk label).text flat i = "break".toList ++ (nameText label ++ [';']) := by
  cases label with
  | none => exact text_of_line (l := "break;") rfl (by decide)
  | some l =>
      rw [text_of_line (l := "break " ++ l ++ ";") rfl]
      · simp [nameText]
      · simp only [String.toList_append, unbroken_append]
        exact ⟨⟨by decide, unbroken_word (hlabel l rfl).1⟩, by decide⟩

theorem text_cont {label : Option String} (hlabel : ∀ l ∈ label, IsName l) :
    (Stmt.cont label).text flat i = "continue".toList ++ (nameText label ++ [';']) := by
  cases label with
  | none => exact text_of_line (l := "continue;") rfl (by decide)
  | some l =>
      rw [text_of_line (l := "continue " ++ l ++ ";") rfl]
      · simp [nameText]
      · simp only [String.toList_append, unbroken_append]
        exact ⟨⟨by decide, unbroken_word (hlabel l rfl).1⟩, by decide⟩

theorem text_attempt {block : List Stmt} {handler : Option Handler} {finalizer : Option (List Stmt)}
    (hs : (Node.stmt (.attempt block handler finalizer)).AllPrintable) :
    (Stmt.attempt block handler finalizer).text flat i = "try".toList ++ (' ' ::
      (bracedText flat i block ++ (handlerText flat i handler ++ finallyText flat i finalizer))) := by
  refine text_of_spaced (spaced_attempt (fun h hh => ?_) i)
  have hmem : Node.handler h ∈ (Node.stmt (.attempt block handler finalizer)).children := by
    simp [Node.children, Node.childrenOfStmt, Option.mem_def.1 hh]
  exact unbroken_word (hs.child hmem).formed.1

end Texts

end Resumption.Script
