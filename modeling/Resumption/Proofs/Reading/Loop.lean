import Resumption.Proofs.Reading.Statement

/-!
# Printed loops and lines

The rule for `for (… in …)` is tried before the one for `for (…; …; …)`, and a loop of the second kind
may begin like one of the first: `for (a in b; …)`.  It is told apart by its end, because everything
behind the `in` is read up to the semicolon as one expression, whatever it belongs to.
-/

namespace Resumption.Script

open Lexeme Rule Printer

variable {g g' : Grammar} {n m : Nat} {b r s s' t : List Char} {c : Char} {flat : Bool} {i : Nat}

/-! ## The word `in` -/

theorem keyword_in_of_follow {k : Nat} (h : Follow k r) (hk : k ≤ 13) : keyword "in" r = none := by
  have hnone := h.operator hk
  rw [infixOp, oneOf, List.findSome?_eq_none_iff] at hnone
  exact Option.map_eq_none_iff.1 (hnone (fun s => (keyword "in" s).map (.binary .isIn, ·)) (by simp))

theorem keyword_in_symbol (op : Infix) (t : List Char) :
    keyword "in" (' ' :: (op.symbol.toList ++ ' ' :: t)) =
      if op = .binary .isIn then some (' ' :: t) else none := by
  rw [keyword, markBefore, mark_symbol op.solid_symbol]
  cases op with
  | logical op => cases op <;> simp [Infix.symbol, LogicalOp.symbol, after?]
  | binary op => cases op <;> simp [Infix.symbol, BinaryOp.symbol, after?, endsBefore, isNameChar,
      Char.isAlphanum]

namespace Grammar

theorem Faithful.callExpr_of_sign (hg : g.Faithful n) (h : Leads c s) (hc : c ∈ ['+', '-', '!', '~']) :
    g.callExpr s = none := by
  have hmem : c = '+' ∨ c = '-' ∨ c = '!' ∨ c = '~' := by simpa using hc
  have hchar : isNameStart c = false ∧ c.isDigit = false ∧ c ≠ '.' ∧ c ≠ '"' ∧ c ≠ '\x27' := by
    rcases hmem with rfl | rfl | rfl | rfl <;> decide
  obtain ⟨hname, hdigit, hpoint, hdouble, hsingle⟩ := hchar
  have hmarks : ∀ m ∈ ["[", "\x7b", "("], mark m s = none := by
    intro m hm
    have hmem' : m = "[" ∨ m = "\x7b" ∨ m = "(" := by simpa using hm
    refine h.mark ?_ ?_
    · rcases hmem' with rfl | rfl | rfl <;> simp
    · rcases hmem' with rfl | rfl | rfl <;> rcases hmem with rfl | rfl | rfl | rfl <;> simp
  simp only [List.forall_mem_cons] at hmarks
  have hprimary : g.primary s = none := by
    rw [primary_of_sign h hname, h.number hdigit hpoint, h.string hdouble hsingle]
    simp [Grammar.arrayLiteral, Grammar.objectLiteral, Rule.parenthesized, between, hmarks]
  simp [Grammar.callExpr, suffixed, hg.base_of_ordinary (keyword_of_leads h hname primaryWords.2.2.2.2.2),
    hprimary]

theorem Faithful.callExpr_of_word (hg : g.Faithful n) {w : String} (h : Opens w s r)
    (hw : w ∈ ["typeof", "void", "delete"]) : g.callExpr s = none := by
  have hmem : w = "typeof" ∨ w = "void" ∨ w = "delete" := by simpa using hw
  have hnew : keyword "new" s = none := by
    rw [h.keyword primaryWords.2.2.2.2.2.all, if_neg]
    rcases hmem with rfl | rfl | rfl <;> decide
  have hprimary : g.primary s = none := by
    rw [primary_of_word h]
    rcases hmem with rfl | rfl | rfl <;> rfl
  simp [Grammar.callExpr, suffixed, hg.base_of_ordinary hnew, hprimary]

/-- An operator in front is not part of an operand. -/
theorem Faithful.callExpr_of_prefixed (hg : g.Faithful n) {e : Expr} (hlevel : e.level = 15) (hb : Blank b)
    (r : List Char) : g.callExpr (b ++ ((e.print 14).toList ++ r)) = none := by
  have hsign : ∀ (c : Char) (t : List Char), c ∈ ['+', '-', '!', '~'] → g.callExpr (b ++ c :: t) = none := by
    intro c t hc
    have hchar : isBlank c = false ∧ c ≠ '/' := by
      have hmem : c = '+' ∨ c = '-' ∨ c = '!' ∨ c = '~' := by simpa using hc
      rcases hmem with rfl | rfl | rfl | rfl <;> decide
    exact hg.callExpr_of_sign (leads_of_solid hb (solid_cons hchar.1 hchar.2)) hc
  have hword : ∀ (w : String) (t : List Char), w ∈ ["typeof", "void", "delete"] →
      g.callExpr (b ++ (w.toList ++ ' ' :: t)) = none := by
    have hwords : ∀ w ∈ ["typeof", "void", "delete"], IsWord w := by decide
    exact fun w t hw => hg.callExpr_of_word (Opens.of_word (hwords w hw) hb rfl) hw
  cases e with
  | unary op arg =>
      obtain ⟨t, heq, hblank⟩ : ∃ t, ((Expr.unary op arg).print 14).toList ++ r = op.symbol.toList ++ t ∧
          (op.isWord = true → ∃ t', t = ' ' :: t') := by
        refine ⟨(if op.isWord || arg.startsWithOperator then " " else "").toList ++
          ((arg.print 15).toList ++ r), ?_, fun h => ⟨(arg.print 15).toList ++ r, by simp [h]⟩⟩
        rw [Expr.print, fit, if_neg (by decide)]
        simp only [String.toList_append, List.append_assoc]
      rw [heq]
      cases op
      case typeOf =>
        obtain ⟨t', rfl⟩ := hblank rfl
        exact hword "typeof" t' (by simp)
      case void =>
        obtain ⟨t', rfl⟩ := hblank rfl
        exact hword "void" t' (by simp)
      case delete =>
        obtain ⟨t', rfl⟩ := hblank rfl
        exact hword "delete" t' (by simp)
      case neg => exact hsign '-' t (by simp)
      case plus => exact hsign '+' t (by simp)
      case not => exact hsign '!' t (by simp)
      case bitNot => exact hsign '~' t (by simp)
  | update op before arg =>
      cases before with
      | false => simp [Expr.level] at hlevel
      | true =>
          have heq : ((Expr.update op true arg).print 14).toList ++ r =
              op.symbol.toList ++ ((arg.print 16).toList ++ r) := by
            rw [Expr.print, fit, if_neg (by decide), String.toList_append, List.append_assoc]
          rw [heq]
          cases op
          · exact hsign '+' _ (by simp)
          · exact hsign '-' _ (by simp)
  | binary op left right => cases op <;> simp [Expr.level, BinaryOp.level] at hlevel
  | logical op left right => cases op <;> simp [Expr.level, LogicalOp.level] at hlevel
  | _ => simp [Expr.level] at hlevel

/-- What the rule for operands with suffixes takes from a printed chain, and what is left if the word
`in` follows: the rest of the chain. -/
theorem Faithful.binary_behind_in (hg : g.Faithful n) (hg' : g'.Faithful n) {e : Expr}
    (he : (Node.expr e).AllPrintable) (hb : Blank b) (hr : Follow 4 r)
    (hlength : b.length + (e.print 4).toList.length + r.length ≤ n + 1) {v : Built Expr}
    (hcall : g'.callExpr (b ++ ((e.print 4).toList ++ r)) = some (v, s)) (hin : keyword "in" s = some s') :
    ∃ v', g.binary s' = some (v', r) := by
  obtain ⟨chain, htext, -, hall⟩ := chain_print e he (l := 4) (by decide) (by decide)
  obtain ⟨first, rest⟩ := chain
  have hfirst : (Node.expr first).AllPrintable := hall first List.mem_cons_self
  rw [htext, Chain.text] at hlength hcall
  simp only [List.append_assoc, List.length_append] at hlength hcall
  obtain ⟨tail, htail⟩ : ∃ tail : List Char, tail =
    rest.flatMap (fun p => ' ' :: (p.1.symbol.toList ++ ' ' :: (p.2.print 14).toList)) ++ r := ⟨_, rfl⟩
  have hfollow : Follow 14 tail := by
    cases rest with
    | nil => exact htail ▸ hr.mono (by decide)
    | cons p rest =>
        rw [htail]
        simpa using Follow.symbol p.1 _
  have hsize : b.length + (first.print 14).toList.length + tail.length ≤ n + 1 := by
    rw [htail, List.length_append]
    omega
  rw [← htail] at hcall
  by_cases hlow : first.level = 15
  · rw [hg'.callExpr_of_prefixed hlow hb] at hcall
    cases hcall
  by_cases hpostfix : first.level = 16
  · obtain ⟨op, arg, rfl⟩ := eq_update_of_level hpostfix
    have hprint : ((Expr.update op false arg).print 14).toList =
        (arg.print 17).toList ++ op.symbol.toList := String.toList_append
    obtain ⟨-, hbare⟩ := updateMark_symbol op tail
    rw [hprint, List.length_append] at hsize
    rw [hprint, List.append_assoc, hg'.callExpr arg (hfirst.child List.mem_cons_self) (by decide) (by decide) b
      (op.symbol.toList ++ tail) hb hbare (by simp only [List.length_append]; omega)] at hcall
    cases hcall
    have hlead : ∃ c t, op.symbol.toList ++ tail = c :: t ∧ c ∈ ['+', '-'] := by
      cases op
      · exact ⟨'+', _, rfl, by simp⟩
      · exact ⟨'-', _, rfl, by simp⟩
    obtain ⟨c, t, heq, hc⟩ := hlead
    have hmem : c = '+' ∨ c = '-' := by simpa using hc
    have hnone : keyword "in" (op.symbol.toList ++ tail) = none := by
      rw [heq]
      rcases hmem with rfl | rfl
      · exact (leads_cons rfl (by decide)).keyword (by simp) (by simp)
      · exact (leads_cons rfl (by decide)).keyword (by simp) (by simp)
    rw [hnone] at hin
    cases hin
  have hprint : first.print 14 = first.print 17 := by
    rw [← print_succ (level_ne_fourteen first) (by decide), ← print_succ hlow (by decide),
      ← print_succ hpostfix (by decide)]
  rw [hprint] at hsize hcall
  rw [hg'.callExpr first hfirst (by decide) (by decide) b tail hb hfollow.bare hsize] at hcall
  obtain ⟨-, rfl⟩ := Prod.mk.inj (Option.some.inj hcall)
  cases rest with
  | nil =>
      rw [htail, List.flatMap_nil, List.nil_append, keyword_in_of_follow hr (by decide)] at hin
      cases hin
  | cons p rest =>
      obtain ⟨op, second⟩ := p
      have hsplit : tail = ' ' :: (op.symbol.toList ++ ' ' :: ((⟨second, rest⟩ : Chain).text ++ r)) := by
        rw [htail]
        simp [Chain.text]
      rw [hsplit, keyword_in_symbol] at hin
      split_ifs at hin
      cases hin
      have hread := hg.chain (c := ⟨second, rest⟩) (fun x hx => hall x (by
        simp only [Chain.operands, List.map_cons, List.mem_cons] at hx ⊢
        exact .inr hx)) [' '] r blank_space hr (by
          rw [hsplit] at hsize
          simp only [List.length_append, List.length_cons, List.length_nil] at hsize ⊢
          omega)
      exact ⟨_, hread⟩

theorem Faithful.assign_behind_in (hg : g.Faithful n) (hg' : g'.Faithful n) {e : Expr}
    (he : (Node.expr e).AllPrintable) (hb : Blank b) (hr : Follow 2 r)
    (hlength : b.length + (e.print 2).toList.length + r.length ≤ n + 1) {v : Built Expr}
    (hcall : g'.callExpr (b ++ ((e.print 2).toList ++ r)) = some (v, s)) (hin : keyword "in" s = some s') :
    ∃ v', g.assign s' = some (v', r) := by
  have hstop : assignMark r = none := hr.assign (by decide)
  by_cases htwo : e.level = 2
  · cases e with
    | assign op target value =>
        obtain ⟨hreference, hop⟩ : target.isReference = true ∧ ∀ o ∈ op, o ∈ BinaryOp.compound :=
          he.formed
        rw [toList_assign] at hlength hcall
        simp only [List.append_assoc, List.cons_append, List.length_append, List.length_cons] at hlength hcall
        have hfollow := Follow.assignText hop ((value.print 2).toList ++ r)
        rw [hg'.callExpr target (he.child List.mem_cons_self) (by decide) (by decide) b _ hb hfollow.bare
          (by simp only [List.length_append, List.length_cons]; omega)] at hcall
        obtain ⟨-, rfl⟩ := Prod.mk.inj (Option.some.inj hcall)
        rw [keyword_in_of_follow hfollow (by decide)] at hin
        cases hin
    | update op before arg => cases before <;> simp [Expr.level] at htwo
    | binary op left right => cases op <;> simp [Expr.level, BinaryOp.level] at htwo
    | logical op left right => cases op <;> simp [Expr.level, LogicalOp.level] at htwo
    | _ => simp [Expr.level] at htwo
  by_cases hthree : e.level = 3
  · cases e with
    | conditional test cons alt =>
        rw [toList_conditional] at hlength hcall
        simp only [List.append_assoc, List.cons_append, List.length_append, List.length_cons] at hlength hcall
        obtain ⟨v', hbinary⟩ := hg.binary_behind_in hg' (he.child List.mem_cons_self) hb
          (Follow.question _) (by simp only [List.length_append, List.length_cons]; omega) hcall hin
        have hbranches := hg.branches (he.child (c := .expr cons) (by
            simp [Node.children, Node.childrenOfExpr])) (he.child (c := .expr alt) (by
            simp [Node.children, Node.childrenOfExpr])) hr (by omega)
        exact ⟨_, assign_of_plain (conditional_of_branches hbinary hbranches) hstop⟩
    | update op before arg => cases before <;> simp [Expr.level] at hthree
    | binary op left right => cases op <;> simp [Expr.level, BinaryOp.level] at hthree
    | logical op left right => cases op <;> simp [Expr.level, LogicalOp.level] at hthree
    | _ => simp [Expr.level] at hthree
  have hprint : e.print 2 = e.print 4 := (print_succ (l := 2) htwo (by decide)).symm.trans
    (print_succ (l := 3) hthree (by decide)).symm
  rw [hprint] at hlength hcall
  obtain ⟨v', hbinary⟩ := hg.binary_behind_in hg' he hb (hr.mono (by decide)) hlength hcall hin
  exact ⟨v', assign_of_plain (conditional_of_plain hbinary (hr.branch (by decide))) hstop⟩

/-! ## The level of a statement -/

/-- The expressions of a statement are read on the level of the statement. -/
def within (g : Grammar) : Grammar := ⟨g.bound + 1, g.statement, g.assign, g.construction⟩

theorem Faithful.within (hg : g.Faithful n) : g.within.Faithful n where
  bound := Nat.le_succ_of_le hg.bound
  assignment e he := (hg.assign e he).mono (Nat.le_succ n) fun _ h => h
  construction := hg.construction
  statement := hg.statement
  barren _ h := hg.assign_barren h
  ordinary := hg.ordinary
  halting := hg.halting

theorem Faithful.within_expression (hg : g.Faithful n) (e : Expr) (he : (Node.expr e).AllPrintable) :
    Reads g.within.expression (n + 1) (Follow 1) (e.print 0).toList (.ok e) :=
  reads_expression (Nat.succ_le_succ hg.bound) hg.assign e he

/-- The items of a list behind the first. -/
def more (g : Grammar) (s : List Char) : List (Built Expr) × List Char :=
  many (behind (mark ",") g.assignment) g.bound s

theorem separated_eq (s : List Char) : separated g.bound g.assignment s =
    (g.assignment s).map fun found => (found.1 :: (g.more found.2).1, (g.more found.2).2) := by
  rw [separated]
  cases g.assignment s <;> rfl

theorem more_of_stop (h : mark "," r = none) : g.more r = ([], r) := by
  have hstop : behind (mark ",") g.assignment r = none := by
    rw [behind, h]
    rfl
  exact (Repeats.stop hstop).many (Nat.zero_le _)

theorem expression_of_assignment {v : Built Expr} {vs : List (Built Expr)} {r₁ : List Char}
    (h : g.assignment s = some (v, r₁)) (hmore : g.more r₁ = (vs, r)) :
    ∃ v', g.expression s = some (v', r) := by
  rw [Grammar.expression, separated_eq, h]
  simp only [Option.map_some, Option.bind_eq_bind, Option.bind_some, hmore]
  exact ⟨_, rfl⟩

theorem expression_of_single {e : Expr} (h : g.assignment s = some (.ok e, r)) (hr : mark "," r = none) :
    g.expression s = some (.ok e, r) := by
  rw [Grammar.expression, separated_eq, h]
  simp only [Option.map_some, Option.bind_eq_bind, Option.bind_some, more_of_stop hr]
  rfl

theorem Faithful.expression_behind_in (hg : g.Faithful n) {e : Expr} (he : (Node.expr e).AllPrintable)
    (hb : Blank b) (hr : Follow 1 r) (hlength : b.length + (e.print 0).toList.length + r.length ≤ n + 1)
    {v : Built Expr} (hcall : g.within.callExpr (b ++ ((e.print 0).toList ++ r)) = some (v, s))
    (hin : keyword "in" s = some s') : ∃ v', g.within.expression s' = some (v', r) := by
  by_cases hsequence : ∃ exprs, e = .sequence exprs
  · obtain ⟨exprs, rfl⟩ := hsequence
    have hlong := he.formed
    match exprs, hlong with
    | e₁ :: e₂ :: es, _ =>
        have hall : ∀ x ∈ e₁ :: e₂ :: es, (Node.expr x).AllPrintable :=
          fun x hx => he.child (List.mem_map.2 ⟨x, hx, rfl⟩)
        obtain ⟨rest, hrest⟩ : ∃ rest, rest =
          ((e₂ :: es).map fun x => (x.print 2).toList).flatMap (fun t => ',' :: ' ' :: t) := ⟨_, rfl⟩
        have htext : ((Expr.sequence (e₁ :: e₂ :: es)).print 0).toList = (e₁.print 2).toList ++ rest := by
          change (commas (printExprs (e₁ :: e₂ :: es))).toList = _
          rw [printExprs_eq, toList_commas, List.map_map, hrest]
          rfl
        have hcomma : Follow 2 (rest ++ r) := by
          rw [hrest]
          exact Follow.comma_cons _
        rw [htext] at hlength hcall
        simp only [List.append_assoc, List.length_append] at hlength hcall
        obtain ⟨v', hread⟩ := hg.assign_behind_in hg.within (hall e₁ List.mem_cons_self) hb hcomma
          (by simp only [List.length_append]; omega) hcall hin
        -- the other items are the same as those of the whole
        have hfirst := hg.assign e₁ (hall e₁ List.mem_cons_self) b (rest ++ r) hb hcomma
          (by simp only [List.length_append]; omega)
        have hitems := reads_separated (Nat.succ_le_succ hg.bound)
          (fun x hx => hg.assign x (hall x hx)) Follow.comma_cons (G := Follow 1)
          (fun r hr => ⟨hr.mono (by decide), hr.comma (by decide)⟩) b r hb hr
          (by
            have hcommas : (commaText ((e₁ :: e₂ :: es).map fun x => (x.print 2).toList)).length =
                (e₁.print 2).toList.length + rest.length := by
              rw [hrest]
              exact length_commaText_cons _ _
            rw [hcommas]
            omega)
        have hcommas : commaText ((e₁ :: e₂ :: es).map fun x => (x.print 2).toList) =
            (e₁.print 2).toList ++ rest := by
          rw [hrest]
          rfl
        have hseparated := separated_eq (g := g.within) (b ++ ((e₁.print 2).toList ++ (rest ++ r)))
        rw [hcommas, List.append_assoc] at hitems
        have hwhole := hseparated.symm.trans hitems
        change (g.assign _).map _ = _ at hwhole
        rw [hfirst, Option.map_some, List.map_cons] at hwhole
        obtain ⟨hvalues, hleft⟩ := Prod.mk.inj (Option.some.inj hwhole)
        exact expression_of_assignment (g := g.within) hread
          (Prod.ext (List.cons.inj hvalues).2 hleft)
  · have hlevel : 2 ≤ e.level := by
      cases e with
      | sequence exprs => exact absurd ⟨exprs, rfl⟩ hsequence
      | binary op left right => cases op <;> simp [Expr.level, BinaryOp.level]
      | logical op left right => cases op <;> simp [Expr.level, LogicalOp.level]
      | update op before arg => cases before <;> simp [Expr.level]
      | _ => simp [Expr.level]
    rw [← Expr.print_of_le_level hlevel (by decide)] at hlength hcall
    obtain ⟨v', hread⟩ := hg.assign_behind_in hg.within he hb (hr.mono (by decide)) hlength hcall hin
    exact expression_of_assignment (g := g.within) hread (more_of_stop (hr.comma (by decide)))

/-! ## The heads of loops -/

theorem callExpr_refused (hg : g.Faithful n) (h : Barren s) : g.callExpr s = none := by
  have hbase : g.base s = none := by
    simp [Grammar.base, oneOf_cons, oneOf_nil, hg.ordinary s (h.keyword "new" (by simp)), h.primary]
  simp [Grammar.callExpr, suffixed, hbase]

/-- No expression begins like a declaration. -/
theorem keyword_var_of_opening (h : Opening r s) (hb : Blank b) : keyword "var" (b ++ s) = none := by
  rw [keyword_blank_append hb]
  have hvar : IsWord "var" := isWord_of_mem _ (by decide)
  have hsign : ∀ {c : Char} {t : List Char}, (c ∈ ['(', '[', '"', '\x7b'] ∨ c.isDigit = true ∨
      c ∈ ['+', '-', '!', '~']) → keyword "var" (c :: t) = none := by
    intro c t hc
    obtain ⟨hlead, hname⟩ := leads_of_opening_sign hc t
    exact keyword_of_leads hlead hname hvar
  have hword : ∀ {w : String} {t : List Char}, IsWord w → endsBefore isNameChar t = true → w ≠ "var" →
      keyword "var" (w.toList ++ t) = none := by
    intro w t hw ht hne
    have hopens : Opens w (w.toList ++ t) t := Opens.of_word (b := []) hw blank_nil ht
    rw [hopens.keyword hvar.all, if_neg (Ne.symm hne)]
  cases h with
  | operand h =>
      cases h with
      | sign h => exact hsign (h.elim .inl (fun h => .inr (.inl h)))
      | word word apart h => exact hword word apart (by rintro rfl; simp at h)
      | name name apart h => exact hword name.1 apart (by rintro rfl; exact name.2 (by decide))
  | sign h => exact hsign (.inr (.inr h))
  | word word apart h => exact hword word apart (by rintro rfl; simp at h)

theorem forTarget_of_expr (h : keyword "var" s = none) : g.forTarget s =
    (g.callExpr s).map fun found => ((do return .expr (← found.1)), found.2) := by
  simp only [Grammar.forTarget, oneOf_cons, oneOf_nil, h, Option.bind_eq_bind, Option.bind_none,
    Option.none_or, Option.or_none]
  cases g.callExpr s <;> rfl

/-- What a loop over keys would have to find in the head of another loop. -/
def ReadsHead (g : Grammar) (s : List Char) : Prop :=
  ∃ left s₁ s₂ right s₃ s₄, g.forTarget s = some (left, s₁) ∧ keyword "in" s₁ = some s₂ ∧
    g.expression s₂ = some (right, s₃) ∧ mark ")" s₃ = some s₄

theorem forInStmt_refused {s s' : List Char} (hfor : keyword "for" s = some s')
    (h : ∀ t, mark "(" s' = some t → ¬ g.ReadsHead t) : g.forInStmt s = none := by
  rw [Grammar.forInStmt, hfor]
  simp only [Option.bind_eq_bind, Option.bind_some]
  cases hparen : mark "(" s' with
  | none => rfl
  | some t =>
      rw [Option.bind_some]
      cases htarget : g.forTarget t with
      | none => rfl
      | some found =>
          obtain ⟨left, s₁⟩ := found
          rw [Option.bind_some]
          cases hin : keyword "in" s₁ with
          | none => rfl
          | some s₂ =>
              cases hright : g.expression s₂ with
              | none => simp [hright]
              | some found =>
                  obtain ⟨right, s₃⟩ := found
                  cases hclose : mark ")" s₃ with
                  | none => simp [hright, hclose]
                  | some s₄ => exact absurd ⟨left, s₁, s₂, right, s₃, s₄, htarget, hin, hright, hclose⟩ (h t hparen)

theorem mark_close_semicolon (r : List Char) : mark ")" (';' :: r) = none :=
  (leads_cons (c := ';') rfl (by decide)).mark (by simp) (by simp)

/-- The head of a loop with semicolons is not the head of a loop over keys. -/
theorem Faithful.not_readsHead (hg : g.Faithful n) {init : ForInit} {test update : Option Expr} {body : Stmt}
    (hs : (Node.stmt (.forLoop init test update body)).AllPrintable) {r : List Char}
    (hlength : init.print.toList.length + r.length + 1 ≤ n + 1) :
    ¬ g.within.ReadsHead (init.print.toList ++ ';' :: r) := by
  rintro ⟨left, s₁, s₂, right, s₃, s₄, htarget, hin, hright, hclose⟩
  cases init with
  | absent =>
      have hlead : Leads ';' (';' :: r) := leads_cons rfl (by decide)
      change g.within.forTarget (';' :: r) = _ at htarget
      rw [forTarget_of_expr (keyword_of_leads hlead (by decide) (isWord_of_mem _ (by decide))),
        callExpr_refused hg.within (barren_semicolon r)] at htarget
      cases htarget
  | vars decls =>
      cases decls with
      | nil => exact absurd rfl hs.formed
      | cons d decls =>
          have hd : (Node.declarator d).AllPrintable :=
            hs.child (by simp [Node.children, Node.childrenOfStmt])
          have hname : IsName d.name := hd.formed
          obtain ⟨tail, htail, hhead⟩ : ∃ tail, (ForInit.print (.vars (d :: decls))).toList ++ ';' :: r =
              "var".toList ++ ([' '] ++ (d.name.toList ++ tail)) ∧ endsBefore isNameChar tail = true ∧
                keyword "in" tail = none := by
            have hprint : ∃ value, d.print.toList = d.name.toList ++ value ∧
                (value = [] ∨ ∃ t, value = ' ' :: '=' :: t) := by
              obtain ⟨name, init⟩ := d
              cases init with
              | none => exact ⟨[], by simp [Declarator.print], .inl rfl⟩
              | some init =>
                  refine ⟨' ' :: '=' :: ' ' :: (init.print 2).toList, ?_, .inr ⟨_, rfl⟩⟩
                  simp only [Declarator.print, String.toList_append, List.append_assoc]
                  rfl
            obtain ⟨value, hvalue, hform⟩ := hprint
            refine ⟨value ++ ((decls.map fun d => d.print.toList).flatMap (fun t => ',' :: ' ' :: t) ++
              ';' :: r), ?_, ?_⟩
            · change ("var " ++ commas (printDecls (d :: decls)) : String).toList ++ _ = _
              rw [String.toList_append, printDecls_eq, toList_commas, List.map_cons, List.map_cons,
                commaText, hvalue, List.map_map]
              simp only [List.append_assoc]
              rfl
            · have hnone : ∀ {c : Char} {t : List Char}, c ∈ [',', ';', '='] →
                  keyword "in" (c :: t) = none := by
                intro c t hc
                have hmem : c = ',' ∨ c = ';' ∨ c = '=' := by simpa using hc
                rcases hmem with rfl | rfl | rfl <;>
                  exact (leads_cons rfl (by decide)).keyword (by simp) (by simp)
              rcases hform with rfl | ⟨t, rfl⟩
              · cases decls with
                | nil => exact ⟨rfl, hnone (by simp)⟩
                | cons d' decls => exact ⟨rfl, hnone (by simp)⟩
              · refine ⟨rfl, (keyword_blank_append blank_space _ _).trans (hnone (by simp))⟩
          obtain ⟨hapart, hnone⟩ := hhead
          have hvar : keyword "var" ("var".toList ++ ([' '] ++ (d.name.toList ++ tail))) =
              some ([' '] ++ (d.name.toList ++ tail)) :=
            keyword_clause (b := []) (by decide) blank_nil rfl
          have hread : identifier ([' '] ++ (d.name.toList ++ tail)) = some (d.name, tail) :=
            identifier_name hname blank_space hapart
          rw [htail, Grammar.forTarget, oneOf_cons, hvar] at htarget
          simp only [Option.bind_eq_bind, Option.bind_some, hread] at htarget
          obtain ⟨-, rfl⟩ := Prod.mk.inj (Option.some.inj htarget)
          rw [hnone] at hin
          cases hin
  | expr e =>
      have he : (Node.expr e).AllPrintable := hs.child (by simp [Node.children, Node.childrenOfStmt])
      change g.within.forTarget ((e.print 0).toList ++ ';' :: r) = _ at htarget
      have hvar := keyword_var_of_opening (b := []) (opening_print e he (Nat.zero_le 18)
        (r := ';' :: r) rfl) blank_nil
      rw [List.nil_append] at hvar
      rw [forTarget_of_expr hvar] at htarget
      obtain ⟨⟨v, s⟩, hcall, hpair⟩ := Option.map_eq_some_iff.1 htarget
      obtain ⟨-, rfl⟩ := Prod.mk.inj hpair
      obtain ⟨v', hread⟩ := hg.expression_behind_in he (b := []) blank_nil (follow_semicolon r)
        (by
          have hsize : (ForInit.print (.expr e)).toList.length = (e.print 0).toList.length := rfl
          simp only [List.length_nil, List.length_cons]
          omega) hcall hin
      obtain ⟨-, rfl⟩ := Prod.mk.inj (Option.some.inj (hright.symm.trans hread))
      rw [mark_close_semicolon] at hclose
      cases hclose

theorem Faithful.forInit (hg : g.Faithful n) {init : ForInit} {test update : Option Expr} {body : Stmt}
    (hs : (Node.stmt (.forLoop init test update body)).AllPrintable)
    (hlength : init.print.toList.length + r.length + 1 ≤ n) :
    ∃ found, optional g.forInit (init.print.toList ++ ';' :: r) = (found, ';' :: r) ∧
      found.getD (.ok .absent) = .ok init := by
  have hvar : IsWord "var" := isWord_of_mem _ (by decide)
  cases init with
  | absent =>
      have hlead : Leads ';' (';' :: r) := leads_cons rfl (by decide)
      have hnone : g.forInit (';' :: r) = none := by
        simp [Grammar.forInit, oneOf_cons, oneOf_nil, Grammar.declarators,
          keyword_of_leads hlead (by decide) hvar, hg.expression_refused (barren_semicolon r)]
      exact ⟨none, optional_none hnone, rfl⟩
  | vars decls =>
      have hdecls : ∀ d ∈ decls, (Node.declarator d).AllPrintable := fun d hd => hs.child (by
        simp [Node.children, Node.childrenOfStmt, hd])
      have hprint : (ForInit.print (.vars decls)).toList =
          "var ".toList ++ commaText (decls.map fun d => d.print.toList) := by
        change ("var " ++ commas (printDecls decls) : String).toList = _
        rw [String.toList_append, toList_commas, printDecls_eq, List.map_map]
        rfl
      rw [hprint] at hlength ⊢
      have hread := hg.declarators hs.formed hdecls [] (';' :: r) blank_nil (follow_semicolon r)
        (by simp only [List.length_nil, List.length_cons]; omega)
      refine ⟨some (.ok (.vars decls)), optional_some ?_, rfl⟩
      rw [List.nil_append] at hread
      rw [Grammar.forInit, oneOf_cons, hread]
      rfl
  | expr e =>
      have he : (Node.expr e).AllPrintable := hs.child (by simp [Node.children, Node.childrenOfStmt])
      have hsize : (ForInit.print (.expr e)).toList.length = (e.print 0).toList.length := rfl
      have hread := hg.expression e he [] (';' :: r) blank_nil (follow_semicolon r)
        (by simp only [List.length_nil, List.length_cons]; omega)
      have hnone := keyword_var_of_opening (b := []) (opening_print e he (Nat.zero_le 18)
        (r := ';' :: r) rfl) blank_nil
      rw [List.nil_append] at hread hnone
      refine ⟨some (.ok (.expr e)), optional_some ?_, rfl⟩
      change g.forInit ((e.print 0).toList ++ ';' :: r) = _
      rw [Grammar.forInit, oneOf_cons, oneOf_cons, Grammar.declarators, hnone, hread]
      rfl

/-- An expression that may be missing, in front of a closing mark. -/
theorem Faithful.optional_expression (hg : g.Faithful n) {e : Option Expr}
    (he : ∀ x ∈ e, (Node.expr x).AllPrintable) (hc : c ∈ [')', ';'])
    (hlength : (printExpr? e).toList.length + r.length + 2 ≤ n) :
    ∃ b, Blank b ∧ optional g.expression (' ' :: ((printExpr? e).toList ++ c :: r)) =
      (e.map .ok, b ++ c :: r) := by
  have hmem : c ∈ [')', ']', '}', ';', ':'] := by
    have : c = ')' ∨ c = ';' := by simpa using hc
    rcases this with rfl | rfl <;> simp
  cases e with
  | none =>
      have hchar : isBlank c = false ∧ c ≠ '/' ∧ c ∈ [')', ']', '\x7d', ';', ':', ',', '?'] := by
        have : c = ')' ∨ c = ';' := by simpa using hc
        rcases this with rfl | rfl <;> decide
      have hlead : Leads c (' ' :: c :: r) := leads_of_solid blank_space (solid_cons hchar.1 hchar.2.1)
      exact ⟨[' '], blank_space, optional_none (hg.expression_refused (Barren.of_leads hlead hchar.2.2))⟩
  | some e =>
      have hread := hg.expression e (he e rfl) [' '] (c :: r) blank_space
        (Follow.close (b := []) blank_nil hmem r) (by
          have hsize : (printExpr? (some e)).toList.length = (e.print 0).toList.length := rfl
          simp only [List.length_cons, List.length_nil]
          omega)
      exact ⟨[], blank_nil, optional_some hread⟩

theorem forStmt_eq (s : List Char) : g.forStmt s = do
    let s ← keyword "for" s
    let s ← mark "(" s
    let (init, s) := optional g.forInit s
    let s ← mark ";" s
    let (test, s) := optional g.expression s
    let s ← mark ";" s
    let (update, s) := optional g.expression s
    let s ← mark ")" s
    let (body, s) ← g.statement s
    let built : Built Stmt := do
      let i ← init.getD (.ok .absent)
      let t ← Built.option test
      let u ← Built.option update
      return .forLoop i t u (← body)
    return (built, s) := rfl

theorem Faithful.forStmt (hg : g.Faithful n) {init : ForInit} {test update : Option Expr} {body : Stmt}
    (hs : (Node.stmt (.forLoop init test update body)).AllPrintable) :
    Reads (oneOf [g.within.forInStmt, g.within.forStmt]) (n + 1) (Stmt.forLoop init test update body).Stops
      ((Stmt.forLoop init test update body).text flat i) (.ok (.forLoop init test update body)) := by
  intro b r hb hr hlength
  have hbody : (Node.stmt body).AllPrintable :=
    hs.child (by simp [Node.children, Node.childrenOfStmt])
  obtain ⟨b', j, hb', -, htext⟩ := text_forLoop (i := i) (lined body hbody flat) hs
  have hhead : "for (".toList = "for".toList ++ [' ', '('] := rfl
  have hsemicolon : "; ".toList = [';', ' '] := rfl
  have hsize : ("for".toList).length = 3 := rfl
  rw [htext, hhead, hsemicolon] at hlength ⊢
  simp only [List.length_append, List.length_cons, List.length_nil] at hlength
  obtain ⟨rest, hrest⟩ : ∃ rest, rest = ' ' :: ((printExpr? test).toList ++ ';' :: ' ' ::
    ((printExpr? update).toList ++ ')' :: (b' ++ (body.text flat j ++ r)))) := ⟨_, rfl⟩
  have hrestLength : rest.length = (printExpr? test).toList.length + (printExpr? update).toList.length +
      b'.length + (body.text flat j).length + r.length + 4 := by
    simp only [hrest, List.length_append, List.length_cons]
    omega
  have hfor : keyword "for" (b ++ ("for".toList ++ (' ' :: '(' :: (init.print.toList ++ ';' :: rest)))) =
      some (' ' :: '(' :: (init.print.toList ++ ';' :: rest)) := keyword_clause (by decide) hb rfl
  have hparen : mark "(" (' ' :: '(' :: (init.print.toList ++ ';' :: rest)) =
      some (init.print.toList ++ ';' :: rest) := by
    rw [mark_space, mark_head (c := '(') "(" rfl rfl (by decide)]
  have hnot := hg.not_readsHead hs (r := rest) (by omega)
  have hrefused := forInStmt_refused hfor (g := g.within) fun t ht => by
    obtain rfl := Option.some.inj (hparen.symm.trans ht)
    exact hnot
  obtain ⟨found, hinit, hfound⟩ := hg.within.forInit hs (r := rest) (by omega)
  obtain ⟨b₁, hb₁, htest⟩ := hg.within.optional_expression (e := test) (c := ';')
    (r := ' ' :: ((printExpr? update).toList ++ ')' :: (b' ++ (body.text flat j ++ r))))
    (fun x hx => hs.child (by simp [Node.children, Node.childrenOfStmt, Node.ofExpr?, Option.mem_def.1 hx]))
    (by simp) (by simp only [List.length_append, List.length_cons]; omega)
  obtain ⟨b₂, hb₂, hupdate⟩ := hg.within.optional_expression (e := update) (c := ')')
    (r := b' ++ (body.text flat j ++ r))
    (fun x hx => hs.child (by simp [Node.children, Node.childrenOfStmt, Node.ofExpr?, Option.mem_def.1 hx]))
    (by simp) (by simp only [List.length_append]; omega)
  have hread := hg.within.statement body hbody flat j b' r hb' ⟨hr.otherwise, hr.finish⟩ (by omega)
  rw [← hrest] at htest
  simp only [List.append_assoc, List.cons_append, List.nil_append, ← hrest]
  rw [oneOf_cons, oneOf_cons, oneOf_nil, Option.or_none, hrefused, Option.none_or, forStmt_eq, hfor]
  simp only [Option.bind_eq_bind, Option.bind_some, hparen, hinit,
    mark_head (c := ';') ";" rfl rfl (by decide), htest, mark_blank_append hb₁, hupdate,
    mark_blank_append hb₂, mark_head (c := ')') ")" rfl rfl (by decide), hread, hfound, built_option]
  rfl

theorem Faithful.forInStmt (hg : g.Faithful n) {left : ForTarget} {right : Expr} {body : Stmt}
    (hs : (Node.stmt (.forIn left right body)).AllPrintable) :
    Reads g.forInStmt (n + 1) (Stmt.forIn left right body).Stops
      ((Stmt.forIn left right body).text flat i) (.ok (.forIn left right body)) := by
  intro b r hb hr hlength
  have hbody : (Node.stmt body).AllPrintable :=
    hs.child (by cases left <;> simp [Node.children, Node.childrenOfStmt])
  have hright : (Node.expr right).AllPrintable :=
    hs.child (by cases left <;> simp [Node.children, Node.childrenOfStmt])
  obtain ⟨b', j, hb', -, htext⟩ := text_forIn (i := i) (lined body hbody flat) hs
  have hhead : "for (".toList = "for".toList ++ [' ', '('] := rfl
  have hin : " in ".toList = ' ' :: ((Infix.binary .isIn).symbol.toList ++ [' ']) := rfl
  have hsize : ("for".toList).length = 3 := rfl
  have hinSize : (Infix.binary .isIn).symbol.toList.length = 2 := rfl
  rw [htext, hhead, hin] at hlength ⊢
  simp only [List.length_append, List.length_cons, List.length_nil] at hlength
  obtain ⟨rest, hrest⟩ : ∃ rest, rest = (right.print 0).toList ++ ')' :: (b' ++ (body.text flat j ++ r)) :=
    ⟨_, rfl⟩
  have hfor : ∀ t, keyword "for" (b ++ ("for".toList ++ (' ' :: t))) = some (' ' :: t) :=
    fun t => keyword_clause (by decide) hb rfl
  have htarget : g.forTarget (left.print.toList ++ (' ' :: ((Infix.binary .isIn).symbol.toList ++
      ' ' :: rest))) = some (.ok left, ' ' :: ((Infix.binary .isIn).symbol.toList ++ ' ' :: rest)) := by
    cases left with
    | var name =>
        have hname : IsName name := hs.formed
        have hprint : (ForTarget.print (.var name)).toList = "var".toList ++ ([' '] ++ name.toList) := by
          simp only [ForTarget.print, String.toList_append]
          rfl
        have hvar : ∀ t, keyword "var" ("var".toList ++ ([' '] ++ t)) = some ([' '] ++ t) :=
          fun t => keyword_clause (b := []) (by decide) blank_nil rfl
        have hread := identifier_name (r := ' ' :: ((Infix.binary .isIn).symbol.toList ++ ' ' :: rest))
          hname blank_space rfl
        rw [hprint, List.append_assoc, List.append_assoc, Grammar.forTarget, oneOf_cons, hvar]
        simp only [Option.bind_eq_bind, Option.bind_some, hread]
        rfl
    | expr e =>
        have he : (Node.expr e).AllPrintable := hs.child (by simp [Node.children, Node.childrenOfStmt])
        have hprint : (ForTarget.print (.expr e)).toList.length = (e.print 17).toList.length := rfl
        have hnone := keyword_var_of_opening (b := []) (opening_print e he (l := 17) (by decide)
          (r := ' ' :: ((Infix.binary .isIn).symbol.toList ++ ' ' :: rest)) rfl) blank_nil
        have hread := hg.callExpr e he (l := 17) (by decide) (by decide) []
          (' ' :: ((Infix.binary .isIn).symbol.toList ++ ' ' :: rest)) blank_nil
          (Follow.symbol (.binary .isIn) rest).bare (by
            rw [hrest]
            simp only [List.length_append, List.length_cons, List.length_nil]
            omega)
        rw [List.nil_append] at hnone hread
        change g.forTarget ((e.print 17).toList ++ _) = _
        rw [forTarget_of_expr hnone, hread]
        rfl
  have hexpr := hg.expression right hright [' '] (')' :: (b' ++ (body.text flat j ++ r))) blank_space
    (Follow.close (b := []) blank_nil (by simp) _)
    (by simp only [List.length_append, List.length_cons, List.length_nil]; omega)
  have hread := hg.statement body hbody flat j b' r hb' ⟨hr.otherwise, hr.finish⟩ (by omega)
  simp only [List.append_assoc, List.cons_append, List.nil_append, ← hrest] at hexpr ⊢
  rw [Grammar.forInStmt, hfor]
  simp only [Option.bind_eq_bind, Option.bind_some, mark_space,
    mark_head (c := '(') "(" rfl rfl (by decide), htarget, keyword_in_symbol, if_true, hexpr,
    mark_head (c := ')') ")" rfl rfl (by decide), hread]
  rfl

end Grammar

end Resumption.Script
