import Resumption.Proofs.Reading.Follow
import Resumption.Proofs.Reading.Layout

/-!
# The beginning of a printed expression

Which rule reads a text is settled by its first character or word.  An expression that holds
together tightly begins like an operand; any other may begin with an operator as well.  None begins
with a word of a statement, and a name at its beginning is never taken for a label, because no
colon comes right behind it.
-/

namespace Resumption.Script

open Lexeme Rule

/-! ## Texts without an expression -/

/-- No expression begins here. -/
structure Barren (s : List Char) : Prop where
  keyword (k : String) : k ∈ ["new", "function", "this", "null", "true", "false", "typeof", "void",
    "delete"] → keyword k s = none
  mark (m : String) : m ∈ ["[", "\x7b", "(", "++", "--", "!", "-", "+", "~"] → mark m s = none
  number : number s = none
  string : string s = none
  identifier : identifier s = none

namespace Barren

variable {g : Grammar} {b s t r : List Char} {c : Char}

theorem leadOp (h : Barren s) : leadOp s = none := by
  have hkeyword := h.keyword
  have hmark := h.mark
  simp only [List.forall_mem_cons] at hkeyword hmark
  simp [Script.leadOp, oneOf_cons, oneOf_nil, hkeyword, hmark]

theorem primary (h : Barren s) : g.primary s = none := by
  have hkeyword := h.keyword
  have hmark := h.mark
  simp only [List.forall_mem_cons] at hkeyword hmark
  simp [Grammar.primary, oneOf_cons, oneOf_nil, Grammar.functionExpr, Grammar.arrayLiteral,
    Grammar.objectLiteral, parenthesized, between, hkeyword, hmark, h.number, h.string, h.identifier]

/-- Wherever no `new` is read, nothing is. -/
theorem unary (h : Barren s) (hnew : g.construction s = none) : g.unary s = none := by
  have hmany : many Script.leadOp g.bound s = ([], s) := by
    cases g.bound with
    | zero => rfl
    | succ n => rw [many, h.leadOp]
  have hbase : g.base s = none := by simp [Grammar.base, oneOf_cons, oneOf_nil, hnew, h.primary]
  simp [Grammar.unary, hmany, Grammar.updated, Grammar.callExpr, Grammar.suffixed, hbase]

theorem assign (h : Barren s) (hnew : g.construction s = none) : g.assign s = none := by
  simp [Grammar.assign, Grammar.conditional, Grammar.binary, h.unary hnew]

theorem of_leads (hs : Leads c s) (hc : c ∈ [')', ']', '}', ';', ':', ',', '?']) : Barren s := by
  have hmem : c = ')' ∨ c = ']' ∨ c = '}' ∨ c = ';' ∨ c = ':' ∨ c = ',' ∨ c = '?' := by
    simpa using hc
  have hheads : ∀ k ∈ ["new", "function", "this", "null", "true", "false", "typeof", "void",
      "delete"] ++ ["[", "\x7b", "(", "++", "--", "!", "-", "+", "~"],
      k.toList ≠ [] ∧ k.toList.head? ≠ some c := by
    rcases hmem with rfl | rfl | rfl | rfl | rfl | rfl | rfl <;> decide
  have hchar : isNameStart c = false ∧ c.isDigit = false ∧ c ≠ '.' ∧ c ≠ '"' ∧ c ≠ '\x27' := by
    rcases hmem with rfl | rfl | rfl | rfl | rfl | rfl | rfl <;> decide
  obtain ⟨hname, hdigit, hpoint, hdouble, hsingle⟩ := hchar
  refine ⟨fun k hk => ?_, fun m hm => ?_, hs.number hdigit hpoint, hs.string hdouble hsingle,
    hs.identifier hname⟩
  · have := hheads k (List.mem_append_left _ hk)
    exact hs.keyword this.1 this.2
  · have := hheads m (List.mem_append_right _ hm)
    exact hs.mark this.1 this.2

/-- Nothing begins at the end of the text. -/
theorem of_skip_nil (hs : skip s = []) : Barren s := by
  have hmark : ∀ m : String, m.toList ≠ [] → Lexeme.mark m s = none :=
    fun m hm => mark_of_skip_nil hs hm
  have hnil : ∀ k ∈ ["new", "function", "this", "null", "true", "false", "typeof", "void",
      "delete"] ++ ["[", "\x7b", "(", "++", "--", "!", "-", "+", "~"], k.toList ≠ [] := by
    decide
  refine ⟨fun k hk => ?_, fun m hm => hmark m (hnil m (List.mem_append_right _ hm)), ?_, ?_, ?_⟩
  · rw [Lexeme.keyword, markBefore, hmark k (hnil k (List.mem_append_left _ hk))]
    rfl
  · rw [Lexeme.number, hs]
    rfl
  · rw [Lexeme.string, hs]
  · rw [Lexeme.identifier, Lexeme.propertyName, hs]
    rfl

end Barren

namespace Lexeme

variable {b s t r : List Char} {c : Char}

theorem leads_word {w : String} (h : Opens w s r) : ∃ c, Leads c s ∧ isNameStart c = true := by
  obtain ⟨c, t, heq, hc, -⟩ := h.word
  exact ⟨c, ⟨t ++ r, by rw [h.skipped, heq]; rfl⟩, hc⟩

theorem not_isDigit_of_isNameStart (h : isNameStart c = true) :
    c.isDigit = false ∧ c ≠ '.' ∧ c ≠ '"' ∧ c ≠ '\x27' := by
  refine ⟨?_, ?_, ?_, ?_⟩
  · rw [Bool.eq_false_iff]
    intro hd
    simp only [isNameStart, isAlpha_iff, isUpper_iff_toNat, isLower_iff_toNat, Char.isDigit_iff_toNat,
      Char.reduceToNat, Bool.or_eq_true, beq_iff_eq] at h hd
    rcases h with ((h | h) | rfl) | rfl
    · omega
    · omega
    · simp at hd
    · simp at hd
  all_goals
    rintro rfl
    exact absurd h (by decide)

theorem Opens.number {w : String} (h : Opens w s r) : number s = none := by
  obtain ⟨c, hlead, hc⟩ := leads_word h
  obtain ⟨hd, hp, -, -⟩ := not_isDigit_of_isNameStart hc
  exact hlead.number hd hp

theorem Opens.string {w : String} (h : Opens w s r) : string s = none := by
  obtain ⟨c, hlead, hc⟩ := leads_word h
  obtain ⟨-, -, hq, hq'⟩ := not_isDigit_of_isNameStart hc
  exact hlead.string hq hq'

end Lexeme

/-- No expression begins with a word of a statement. -/
theorem Barren.of_opens {s r : List Char} {w : String} (h : Opens w s r)
    (hw : w ∈ ["case", "default", "else", "catch", "finally", "while", "in"]) : Barren s := by
  have hmem : w = "case" ∨ w = "default" ∨ w = "else" ∨ w = "catch" ∨ w = "finally" ∨
      w = "while" ∨ w = "in" := by simpa using hw
  have hkeys : ∀ k ∈ ["new", "function", "this", "null", "true", "false", "typeof", "void",
      "delete"], k.toList.all isNameChar = true ∧ k ≠ w := by
    rcases hmem with rfl | rfl | rfl | rfl | rfl | rfl | rfl <;> decide
  have hmarks : ∀ m ∈ ["[", "\x7b", "(", "++", "--", "!", "-", "+", "~"],
      m.toList.head?.map isNameChar = some false := by
    decide
  have hreserved : w ∈ reserved := by
    rcases hmem with rfl | rfl | rfl | rfl | rfl | rfl | rfl <;> decide
  refine ⟨fun k hk => ?_, fun m hm => h.mark (hmarks m hm), h.number, h.string, ?_⟩
  · rw [h.keyword (hkeys k hk).1, if_neg (hkeys k hk).2]
  · rw [h.identifier, if_pos hreserved]

/-! ## Texts that begin with an expression -/

/-- The text begins like an operand, and `r` is what stands behind the expression: with a mark or a
digit, or with a word.  A name is either the whole expression or has no colon behind it. -/
inductive Operand (r : List Char) : List Char → Prop
  | sign {c : Char} {t : List Char} (h : c ∈ ['(', '[', '"', '\x7b'] ∨ c.isDigit = true) :
    Operand r (c :: t)
  | word {w : String} {t : List Char} (word : IsWord w) (apart : endsBefore isNameChar t = true)
      (h : w ∈ ["this", "null", "true", "false", "new", "function"]) : Operand r (w.toList ++ t)
  | name {w : String} {t : List Char} (name : IsName w) (apart : endsBefore isNameChar t = true)
      (h : t = r ∨ mark ":" t = none) : Operand r (w.toList ++ t)

/-- The text begins like an expression. -/
inductive Opening (r : List Char) : List Char → Prop
  | operand {s : List Char} (h : Operand r s) : Opening r s
  | sign {c : Char} {t : List Char} (h : c ∈ ['+', '-', '!', '~']) : Opening r (c :: t)
  | word {w : String} {t : List Char} (word : IsWord w) (apart : endsBefore isNameChar t = true)
      (h : w ∈ ["typeof", "void", "delete"]) : Opening r (w.toList ++ t)

theorem Operand.extend {r r' s : List Char} (h : Operand r' s) (hr : mark ":" r' = none) :
    Operand r s := by
  cases h with
  | sign h => exact .sign h
  | word word apart h => exact .word word apart h
  | name name apart h =>
      refine .name name apart (.inr ?_)
      rcases h with rfl | h
      · exact hr
      · exact h

theorem Opening.extend {r r' s : List Char} (h : Opening r' s) (hr : mark ":" r' = none) :
    Opening r s := by
  cases h with
  | operand h => exact .operand (h.extend hr)
  | sign h => exact .sign h
  | word word apart h => exact .word word apart h

/-- A text in parentheses is an operand. -/
theorem operand_paren {r t : List Char} : Operand r ('(' :: t) := .sign (.inl (by decide))

theorem operand_word {w : String} (hw : w ∈ ["this", "null", "true", "false", "new", "function"])
    {r t : List Char} (ht : endsBefore isNameChar t = true) : Operand r (w.toList ++ t) := by
  have hwords : ∀ w ∈ ["this", "null", "true", "false", "new", "function"], IsWord w := by
    decide
  exact .word (hwords w hw) ht hw

theorem mark_colon_of_leads {c : Char} {s : List Char} (hs : Leads c s) (hc : c ≠ ':') :
    mark ":" s = none :=
  hs.mark (by simp) (by simpa using Ne.symm hc)

theorem mark_colon_cons {c : Char} (hblank : isBlank c = false) (hslash : c ≠ '/') (hc : c ≠ ':')
    (t : List Char) : mark ":" (c :: t) = none :=
  mark_colon_of_leads (leads_cons hblank hslash) hc

/-- An expression that holds together like an operand begins like one. -/
theorem operand_print (e : Expr) (he : (Node.expr e).AllPrintable) {l : Nat}
    (hl : 16 ≤ l ∨ 16 ≤ e.level) (hl' : l ≤ 18) {r : List Char}
    (hr : endsBefore isNameChar r = true) : Operand r ((e.print l).toList ++ r) := by
  by_cases hlevel : e.level < l
  · rw [Expr.print_of_level_lt hlevel hl']
    exact operand_paren
  rw [Expr.print_of_le_level (Nat.not_lt.1 hlevel) hl']
  have hhigh : 16 ≤ e.level := by omega
  have hhead : ∀ base : Expr, Node.expr base ∈ (Node.expr e).children → sizeOf base < sizeOf e →
      ∀ (shield : Bool) l, 16 ≤ l → l ≤ 18 → ∀ t : List Char, endsBefore isNameChar t = true →
      mark ":" t = none →
      Operand r ((if shield then "(" ++ base.print 0 ++ ")" else base.print l).toList ++ t) := by
    intro base hmem hsize shield l hl hl' t ht hcolon
    cases shield with
    | true =>
        simp only [if_true, String.toList_append, List.append_assoc]
        exact operand_paren
    | false => exact (operand_print base (he.child hmem) (.inl hl) hl' ht).extend hcolon
  have hformed := he.formed
  cases e with
  | num v =>
      obtain ⟨whole, hne, hdigits, hform⟩ := he.literal.1
      cases whole with
      | nil => exact absurd rfl hne
      | cons d whole =>
          simp only [List.all_cons, Bool.and_eq_true] at hdigits
          rw [Expr.print]
          rcases hform with hform | ⟨fraction, -, hform⟩ <;> rw [hform] <;> exact .sign (.inr hdigits.1)
  | str v =>
      rw [Expr.print, Text.quote, String.toList_ofList]
      exact .sign (c := '"') (.inl (by decide))
  | bool v =>
      cases v
      · exact operand_word (w := "false") (by simp) hr
      · exact operand_word (w := "true") (by simp) hr
  | null => exact operand_word (w := "null") (by simp) hr
  | ident name => exact .name hformed hr (.inl rfl)
  | this => exact operand_word (w := "this") (by simp) hr
  | array elements =>
      simp only [Expr.print, String.toList_append, List.append_assoc]
      exact .sign (c := '[') (.inl (by decide))
  | object props =>
      cases props <;> simp only [Expr.print, String.toList_append, List.append_assoc] <;>
        exact .sign (c := '\x7b') (.inl (by decide))
  | function f =>
      change Operand r ((Printer.fold (f.print 0)).toList ++ r)
      rw [fold_print_func hformed, List.append_assoc]
      refine operand_word (by simp) ?_
      cases f.name <;> rfl
  | update op before arg =>
      cases before with
      | true => simp [Expr.level] at hhigh
      | false =>
          have harg := operand_print arg (he.child (by simp [Node.children, Node.childrenOfExpr]))
            (.inl (by decide)) (by decide) (l := 17) (r := op.symbol.toList ++ r)
            (by cases op <;> rfl)
          change Operand r ((arg.print 17 ++ op.symbol).toList ++ r)
          rw [String.toList_append, List.append_assoc]
          exact harg.extend (by cases op <;> exact mark_colon_cons rfl (by decide) (by decide) _)
  | call callee args =>
      simp only [Expr.print, String.toList_append, List.append_assoc]
      exact hhead callee List.mem_cons_self (by simp; omega) false 17 (by decide) (by decide) _ rfl
        (mark_colon_cons rfl (by decide) (by decide) _)
  | construct callee args =>
      simp only [Expr.print, String.toList_append, List.append_assoc]
      exact operand_word (w := "new") (by simp) rfl
  | member base property =>
      simp only [Expr.print, String.toList_append, List.append_assoc]
      exact hhead base List.mem_cons_self (by simp; omega) _ 17 (by decide) (by decide) _ rfl
        (mark_colon_cons rfl (by decide) (by decide) _)
  | index base key =>
      simp only [Expr.print, String.toList_append, List.append_assoc]
      exact hhead base List.mem_cons_self (by simp; omega) _ 17 (by decide) (by decide) _ rfl
        (mark_colon_cons rfl (by decide) (by decide) _)
  | binary op left right => cases op <;> simp [Expr.level, BinaryOp.level] at hhigh
  | logical op left right => cases op <;> simp [Expr.level, LogicalOp.level] at hhigh
  | _ => simp [Expr.level] at hhigh
termination_by sizeOf e

/-- A printed expression begins like one. -/
theorem opening_print (e : Expr) (he : (Node.expr e).AllPrintable) {l : Nat} (hl : l ≤ 18)
    {r : List Char} (hr : endsBefore isNameChar r = true) : Opening r ((e.print l).toList ++ r) := by
  by_cases hlevel : e.level < l
  · rw [Expr.print_of_level_lt hlevel hl]
    exact .operand operand_paren
  rw [Expr.print_of_le_level (Nat.not_lt.1 hlevel) hl]
  by_cases hhigh : 16 ≤ e.level
  · exact .operand (operand_print e he (.inr hhigh) (Nat.zero_le _) hr)
  have hchild : ∀ e' : Expr, Node.expr e' ∈ (Node.expr e).children → sizeOf e' < sizeOf e → ∀ l,
      l ≤ 18 → ∀ t : List Char, endsBefore isNameChar t = true → mark ":" t = none →
      Opening r ((e'.print l).toList ++ t) :=
    fun e' hmem hsize l hl t ht hcolon => (opening_print e' (he.child hmem) hl ht).extend hcolon
  have hinfix : ∀ (op : Infix) (left right : Expr) (l l' : Nat), l ≤ 18 →
      Node.expr left ∈ (Node.expr e).children → sizeOf left < sizeOf e →
      Opening r ((left.print l ++ " " ++ op.symbol ++ " " ++ right.print l').toList ++ r) := by
    intro op left right l l' hl hmem hsize
    simp only [String.toList_append, List.append_assoc]
    refine hchild left hmem hsize _ hl _ rfl ((mark_symbol op.solid_symbol ":" _).trans ?_)
    cases op with
    | logical op => cases op <;> rfl
    | binary op => cases op <;> rfl
  cases e with
  | unary op arg =>
      change Opening r ((op.symbol ++ _ ++ _ : String).toList ++ r)
      simp only [String.toList_append, List.append_assoc]
      have hspace : ∀ t : List Char, endsBefore isNameChar (" ".toList ++ t) = true := fun t => rfl
      cases op
      case typeOf => exact .word (w := "typeof") (by decide) (hspace _) (by simp)
      case void => exact .word (w := "void") (by decide) (hspace _) (by simp)
      case delete => exact .word (w := "delete") (by decide) (hspace _) (by simp)
      case neg => exact .sign (c := '-') (by decide)
      case plus => exact .sign (c := '+') (by decide)
      case not => exact .sign (c := '!') (by decide)
      case bitNot => exact .sign (c := '~') (by decide)
  | update op before arg =>
      cases before with
      | false => simp [Expr.level] at hhigh
      | true =>
          change Opening r ((op.symbol ++ _ : String).toList ++ r)
          simp only [String.toList_append, List.append_assoc]
          cases op
          · exact .sign (c := '+') (by decide)
          · exact .sign (c := '-') (by decide)
  | binary op left right =>
      exact hinfix (.binary op) left right op.level (op.level + 1) (by cases op <;> decide)
        (by simp [Node.children, Node.childrenOfExpr]) (by simp; omega)
  | logical op left right =>
      exact hinfix (.logical op) left right op.level (op.level + 1) (by cases op <;> decide)
        (by simp [Node.children, Node.childrenOfExpr]) (by simp; omega)
  | assign op target value =>
      change Opening r ((target.print 17 ++ " " ++ Grammar.assignText op ++ " " ++ _ : String).toList ++ r)
      simp only [String.toList_append, List.append_assoc]
      refine hchild target (by simp [Node.children, Node.childrenOfExpr]) (by simp; omega) _
        (by decide) _ rfl ((mark_symbol (solid_assignText op) ":" _).trans ?_)
      cases op with
      | none => rfl
      | some op => cases op <;> rfl
  | conditional test cons alt =>
      change Opening r ((test.print 4 ++ " ? " ++ _ ++ _ ++ _ : String).toList ++ r)
      simp only [String.toList_append, List.append_assoc]
      exact hchild test (by simp [Node.children, Node.childrenOfExpr]) (by simp; omega) _
        (by decide) _ rfl (mark_colon_of_leads
          (leads_of_solid (c := '?') blank_space (solid_cons rfl (by decide))) (by decide))
  | sequence exprs =>
      change Opening r ((Printer.commas (printExprs exprs)).toList ++ r)
      have hformed := he.formed
      match exprs, hformed with
      | e₁ :: e₂ :: es, _ =>
          rw [printExprs_eq, toList_commas]
          simp only [List.map_cons, commaText, List.flatMap_cons, List.append_assoc, List.cons_append]
          exact hchild e₁ (by simp [Node.children, Node.childrenOfExpr, Node.ofExprs])
            (by simp; omega) _ (by decide) _ rfl (mark_colon_cons rfl (by decide) (by decide) _)
  | _ => simp [Expr.level] at hhigh
termination_by sizeOf e

end Resumption.Script
