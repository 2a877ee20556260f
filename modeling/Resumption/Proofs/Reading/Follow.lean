import Resumption.Proofs.Reading.Formed
import Resumption.Proofs.Reading.Rule

/-!
# What may follow, what may come first

An expression ends where no rule finds anything to add to it.  How much has to be ruled out depends
on how loosely the expression may hold together, so `Follow` counts by the printer's levels.
`Barren` is the other side: a text at which no expression can begin.
-/

namespace Resumption.Script

open Lexeme Rule

/-! ## The first character -/

namespace Lexeme

/-- The first character behind the blanks. -/
def Leads (c : Char) (s : List Char) : Prop := ∃ t, skip s = c :: t

variable {b s t r : List Char} {c : Char}

theorem leads_of_solid (hb : Blank b) (hs : Solid (c :: s)) : Leads c (b ++ c :: s) :=
  ⟨s, hs.skip hb⟩

theorem leads_cons (hc : isBlank c = false) (hslash : c ≠ '/') : Leads c (c :: s) :=
  ⟨s, solid_cons hc hslash⟩

theorem Leads.mark (h : Leads c s) {text : String} (hne : text.toList ≠ [])
    (hc : text.toList.head? ≠ some c) : mark text s = none := by
  obtain ⟨t, ht⟩ := h
  rw [Lexeme.mark, ht]
  cases hlist : text.toList with
  | nil => exact absurd hlist hne
  | cons k ks =>
      have hk : k ≠ c := by
        rintro rfl
        simp [hlist] at hc
      simp [after?, hk]

theorem Leads.markBefore (h : Leads c s) {text : String} {barred : Char → Bool}
    (hne : text.toList ≠ []) (hc : text.toList.head? ≠ some c) : markBefore text barred s = none := by
  rw [Lexeme.markBefore, h.mark hne hc]
  rfl

theorem Leads.keyword (h : Leads c s) {word : String} (hne : word.toList ≠ [])
    (hc : word.toList.head? ≠ some c) : keyword word s = none :=
  h.markBefore hne hc

theorem Leads.propertyName (h : Leads c s) (hc : isNameStart c = false) : propertyName s = none := by
  obtain ⟨t, ht⟩ := h
  simp [Lexeme.propertyName, ht, hc]

theorem Leads.identifier (h : Leads c s) (hc : isNameStart c = false) : identifier s = none := by
  rw [Lexeme.identifier, h.propertyName hc]
  rfl

theorem Leads.number (h : Leads c s) (hc : c.isDigit = false) (hpoint : c ≠ '.') :
    number s = none := by
  obtain ⟨t, ht⟩ := h
  have hzero : c ≠ '0' := by
    rintro rfl
    cases hc
  have hrun : run Char.isDigit (c :: t) = none := by
    rw [run, List.span_eq_takeWhile_dropWhile, List.takeWhile_cons_of_neg (by simp [hc])]
  have hhex : hexNumber (c :: t) = none := by
    unfold hexNumber
    split
    · rename_i heq
      exact absurd (List.cons.inj heq).1 hzero
    · rfl
  have hdecimal : decimalNumber (c :: t) = none := by
    unfold decimalNumber
    rw [hrun]
    split
    · simp_all
    · simp_all
    · split
      · rename_i heq
        exact absurd (List.cons.inj heq).1 hpoint
      · rfl
  rw [Lexeme.number, ht]
  simp [hhex, hdecimal]

theorem Leads.string (h : Leads c s) (hdouble : c ≠ '"') (hsingle : c ≠ '\x27') :
    string s = none := by
  obtain ⟨t, ht⟩ := h
  simp [Lexeme.string, ht, hdouble, hsingle]

/-- The text is over but for blanks. -/
theorem mark_of_skip_nil (h : skip s = []) {text : String} (hne : text.toList ≠ []) :
    mark text s = none := by
  rw [Lexeme.mark, h]
  cases hlist : text.toList with
  | nil => exact absurd hlist hne
  | cons k ks => rfl

end Lexeme

/-! ## Operators -/

/-- The operators between operands. -/
def infixTexts : List String :=
  ["||", "&&", "===", "!==", "==", "!=", "<=", ">=", ">>>", "<<", ">>", "<", ">", "instanceof",
   "in", "+", "-", "*", "/", "%", "&", "|", "^"]

theorem infixOp_eq_none {s : List Char} (h : ∀ text ∈ infixTexts, mark text s = none) :
    infixOp s = none := by
  simp only [infixTexts, List.forall_mem_cons] at h
  simp [infixOp, oneOf_cons, oneOf_nil, keyword, markBefore, h]

/-- The marks of assignments. -/
def assignTexts : List String :=
  ["=", ">>>=", ">>=", "<<=", "+=", "-=", "*=", "/=", "%=", "&=", "|=", "^="]

theorem assignMark_eq_none {s : List Char} (h : ∀ text ∈ assignTexts, mark text s = none) :
    Grammar.assignMark s = none := by
  simp only [assignTexts, List.forall_mem_cons] at h
  simp [Grammar.assignMark, oneOf_cons, oneOf_nil, markBefore, h]

/-! ## Behind an expression -/

/-- No rule can add anything to an expression of this level. -/
structure Follow (k : Nat) (r : List Char) : Prop where
  apart : endsBefore isNameChar r = true
  call : mark "(" r = none
  member : mark "." r = none
  index : mark "[" r = none
  increment : mark "++" r = none
  decrement : mark "--" r = none
  operator : k ≤ 13 → infixOp r = none
  branch : k ≤ 3 → mark "?" r = none
  assign : k ≤ 2 → Grammar.assignMark r = none
  comma : k ≤ 1 → mark "," r = none

namespace Follow

variable {k l : Nat} {b r t : List Char} {c : Char}

theorem mono (h : Follow k r) (hkl : k ≤ l) : Follow l r :=
  { h with
    operator := fun hl => h.operator (Nat.le_trans hkl hl)
    branch := fun hl => h.branch (Nat.le_trans hkl hl)
    assign := fun hl => h.assign (Nat.le_trans hkl hl)
    comma := fun hl => h.comma (Nat.le_trans hkl hl) }

/-- A point would have been taken for a property access. -/
theorem point (h : Follow k r) : endsBefore (· == '.') r = true := by
  cases r with
  | nil => rfl
  | cons c r =>
      rw [endsBefore, Bool.not_eq_true', beq_eq_false_iff_ne]
      rintro rfl
      have hmember := h.member
      rw [mark_solid (solid_cons rfl (by decide))] at hmember
      cases hmember

theorem endsBefore_of_blank (hb : Blank b) (hne : b ≠ []) (t : List Char) :
    endsBefore isNameChar (b ++ t) = true := by
  cases b with
  | nil => exact absurd rfl hne
  | cons d b =>
      have hd := (blank_cons.1 hb).1
      simp only [List.cons_append, endsBefore, Bool.not_eq_true']
      cases hname : isNameChar d with
      | false => rfl
      | true => simp [isBlank_of_isNameChar hname] at hd

theorem apart_of_blank (hb : Blank b) (hc : isNameChar c = false) :
    endsBefore isNameChar (b ++ c :: t) = true := by
  cases b with
  | nil => simpa [endsBefore] using hc
  | cons d b => exact endsBefore_of_blank hb (by simp) _

/-- The characters that an operator, a suffix or a comma may begin with. -/
def continuing : List Char :=
  ['(', '.', '[', '+', '-', '?', ',', '|', '&', '=', '!', '<', '>', 'i', '*', '/', '%', '^']

theorem exists_head_of_all {texts : List String}
    (h : texts.all (fun text => text.toList.head?.any continuing.contains) = true) :
    ∀ text ∈ texts, ∃ c ∈ continuing, text.toList.head? = some c := by
  intro text htext
  have hany := List.all_eq_true.1 h text htext
  cases hhead : text.toList.head? with
  | none =>
      rw [hhead] at hany
      cases hany
  | some c =>
      rw [hhead] at hany
      exact ⟨c, List.contains_iff_mem.1 hany, rfl⟩

theorem infixTexts_head : ∀ text ∈ infixTexts, ∃ c ∈ continuing, text.toList.head? = some c :=
  exists_head_of_all (by decide)

theorem assignTexts_head : ∀ text ∈ assignTexts, ∃ c ∈ continuing, text.toList.head? = some c :=
  exists_head_of_all (by decide)

theorem mark_of_not_continuing {s : List Char} (hs : Leads c s) (hc : c ∉ continuing)
    (text : String) (htext : ∃ d ∈ continuing, text.toList.head? = some d) : mark text s = none := by
  obtain ⟨d, hd, hhead⟩ := htext
  refine hs.mark ?_ ?_
  · rintro hnil
    simp [hnil] at hhead
  · rw [hhead]
    rintro ⟨rfl⟩
    exact hc hd

/-- A text that begins with none of these ends every expression. -/
theorem of_leads {s : List Char} (hs : Leads c s) (hc : c ∉ continuing)
    (hapart : endsBefore isNameChar s = true) : Follow k s := by
  have hmark := fun text : String => mark_of_not_continuing hs hc text
  refine ⟨hapart, ?_, ?_, ?_, ?_, ?_, fun _ => ?_, fun _ => ?_, fun _ => ?_, fun _ => ?_⟩
  · exact hmark "(" ⟨'(', by decide, by simp⟩
  · exact hmark "." ⟨'.', by decide, by simp⟩
  · exact hmark "[" ⟨'[', by decide, by simp⟩
  · exact hmark "++" ⟨'+', by decide, by simp⟩
  · exact hmark "--" ⟨'-', by decide, by simp⟩
  · exact infixOp_eq_none fun text htext => hmark text (infixTexts_head text htext)
  · exact hmark "?" ⟨'?', by decide, by simp⟩
  · exact assignMark_eq_none fun text htext => hmark text (assignTexts_head text htext)
  · exact hmark "," ⟨',', by decide, by simp⟩

/-- A closing mark ends every expression. -/
theorem close (hb : Blank b) (hc : c ∈ [')', ']', '}', ';', ':']) (t : List Char) :
    Follow k (b ++ c :: t) := by
  have hmem : c = ')' ∨ c = ']' ∨ c = '}' ∨ c = ';' ∨ c = ':' := by simpa using hc
  have hchar : isBlank c = false ∧ c ≠ '/' ∧ isNameChar c = false ∧ c ∉ continuing := by
    rcases hmem with rfl | rfl | rfl | rfl | rfl <;> decide
  exact of_leads (leads_of_solid hb (solid_cons hchar.1 hchar.2.1)) hchar.2.2.2
    (apart_of_blank hb hchar.2.2.1)

/-- A comma ends an item of a list. -/
theorem comma_cons (t : List Char) : Follow 2 (',' :: t) := by
  have hs : Leads ',' (',' :: t) := leads_cons rfl (by decide)
  have hmark : ∀ text ∈ "(" :: "." :: "[" :: "++" :: "--" :: "?" :: infixTexts ++ assignTexts,
      mark text (',' :: t) = none := by
    have hheads : ∀ text ∈ "(" :: "." :: "[" :: "++" :: "--" :: "?" :: infixTexts ++ assignTexts,
        text.toList ≠ [] ∧ text.toList.head? ≠ some ',' := by decide
    exact fun text htext => hs.mark (hheads text htext).1 (hheads text htext).2
  refine ⟨rfl, hmark _ (by simp), hmark _ (by simp), hmark _ (by simp), hmark _ (by simp),
    hmark _ (by simp), fun _ => infixOp_eq_none fun text htext => hmark text (by simp [htext]),
    fun _ => hmark _ (by simp),
    fun _ => assignMark_eq_none fun text htext => hmark text (by simp [htext]), fun h => ?_⟩
  omega

/-- A question mark ends the test of a conditional. -/
theorem question (t : List Char) : Follow 4 (' ' :: '?' :: t) := by
  have hs : Leads '?' (' ' :: '?' :: t) := leads_of_solid blank_space (solid_cons rfl (by decide))
  have hmark : ∀ text ∈ "(" :: "." :: "[" :: "++" :: "--" :: infixTexts,
      mark text (' ' :: '?' :: t) = none := by
    have hheads : ∀ text ∈ "(" :: "." :: "[" :: "++" :: "--" :: infixTexts,
        text.toList ≠ [] ∧ text.toList.head? ≠ some '?' := by decide
    exact fun text htext => hs.mark (hheads text htext).1 (hheads text htext).2
  refine ⟨rfl, hmark _ (by simp), hmark _ (by simp), hmark _ (by simp), hmark _ (by simp),
    hmark _ (by simp), fun _ => infixOp_eq_none fun text htext => hmark text (by simp [htext]),
    fun h => ?_, fun h => ?_, fun h => ?_⟩ <;> omega

end Follow

/-! ## Operators as they are printed -/

/-- The operator as it is written. -/
def Infix.symbol : Infix → String
  | .logical op => op.symbol
  | .binary op => op.symbol

/-- A symbol between blanks is compared with every mark character by character. -/
theorem mark_symbol {symbol : List Char} (hsolid : ∀ t, Solid (symbol ++ ' ' :: t)) (text : String)
    (t : List Char) :
    mark text (' ' :: (symbol ++ ' ' :: t)) = after? text.toList (symbol ++ ' ' :: t) := by
  rw [mark_space, mark_solid (hsolid t)]

theorem Infix.solid_symbol (op : Infix) (t : List Char) : Solid (op.symbol.toList ++ ' ' :: t) := by
  cases op with
  | logical op => cases op <;> exact solid_cons rfl (by decide)
  | binary op =>
      cases op
      case div => exact solid_slash (by decide) (by decide)
      all_goals exact solid_cons rfl (by decide)

/-- An operator between blanks is read as itself. -/
theorem infixOp_symbol (op : Infix) (t : List Char) :
    infixOp (' ' :: (op.symbol.toList ++ ' ' :: t)) = some (op, ' ' :: t) := by
  simp only [infixOp, oneOf_cons, oneOf_nil, keyword, markBefore, mark_symbol op.solid_symbol]
  cases op with
  | logical op => cases op <;> simp [Infix.symbol, LogicalOp.symbol, after?]
  | binary op =>
      cases op <;> simp [Infix.symbol, BinaryOp.symbol, after?, endsBefore, oneOfChars, isNameChar,
        Char.isAlphanum]

/-- An operator between blanks ends its left operand. -/
theorem Follow.symbol (op : Infix) (t : List Char) :
    Follow 14 (' ' :: (op.symbol.toList ++ ' ' :: t)) := by
  have hmark := mark_symbol op.solid_symbol
  have hnone : ∀ text ∈ ["(", ".", "[", "++", "--"],
      mark text (' ' :: (op.symbol.toList ++ ' ' :: t)) = none := by
    simp only [List.forall_mem_cons, hmark]
    cases op with
    | logical op => cases op <;> simp [Infix.symbol, LogicalOp.symbol, after?]
    | binary op => cases op <;> simp [Infix.symbol, BinaryOp.symbol, after?]
  refine ⟨rfl, hnone _ (by simp), hnone _ (by simp), hnone _ (by simp), hnone _ (by simp),
    hnone _ (by simp), fun h => ?_, fun h => ?_, fun h => ?_, fun h => ?_⟩ <;> omega

theorem solid_assignText (op : Option BinaryOp) (t : List Char) :
    Solid ((Grammar.assignText op).toList ++ ' ' :: t) := by
  cases op with
  | none => exact solid_cons rfl (by decide)
  | some op =>
      cases op
      case div => exact solid_slash (by decide) (by decide)
      all_goals exact solid_cons rfl (by decide)

/-- An assignment mark between blanks is read as itself. -/
theorem assignMark_assignText {op : Option BinaryOp} (hop : ∀ o ∈ op, o ∈ BinaryOp.compound)
    (t : List Char) :
    Grammar.assignMark (' ' :: ((Grammar.assignText op).toList ++ ' ' :: t)) =
      some (op, ' ' :: t) := by
  simp only [Grammar.assignMark, oneOf_cons, oneOf_nil, markBefore,
    mark_symbol (solid_assignText op)]
  cases op with
  | none => simp [Grammar.assignText, after?, endsBefore]
  | some op =>
      have hmem := hop op rfl
      cases op <;> first
        | exact absurd hmem (by decide)
        | simp [Grammar.assignText, BinaryOp.symbol, after?]

/-- An assignment mark between blanks ends the target. -/
theorem Follow.assignText {op : Option BinaryOp} (hop : ∀ o ∈ op, o ∈ BinaryOp.compound)
    (t : List Char) : Follow 3 (' ' :: ((Grammar.assignText op).toList ++ ' ' :: t)) := by
  have hmark := mark_symbol (solid_assignText op)
  have hnone : ∀ text ∈ ["(", ".", "[", "++", "--", "?"],
      mark text (' ' :: ((Grammar.assignText op).toList ++ ' ' :: t)) = none := by
    simp only [List.forall_mem_cons, hmark]
    cases op with
    | none => simp [Grammar.assignText, after?]
    | some op => cases op <;> simp [Grammar.assignText, BinaryOp.symbol, after?]
  have hoperator : infixOp (' ' :: ((Grammar.assignText op).toList ++ ' ' :: t)) = none := by
    simp only [infixOp, oneOf_cons, oneOf_nil, keyword, markBefore, hmark]
    cases op with
    | none => simp [Grammar.assignText, after?]
    | some op =>
        have hmem := hop op rfl
        cases op <;> first
          | exact absurd hmem (by decide)
          | simp [Grammar.assignText, BinaryOp.symbol, after?, endsBefore, oneOfChars]
  refine ⟨rfl, hnone _ (by simp), hnone _ (by simp), hnone _ (by simp), hnone _ (by simp),
    hnone _ (by simp), fun _ => hoperator, fun _ => hnone _ (by simp), fun h => ?_, fun h => ?_⟩ <;>
    omega

end Resumption.Script
