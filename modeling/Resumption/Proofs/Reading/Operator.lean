import Resumption.Proofs.Reading.Expression

/-!
# Printed operators

Operators in front of an operand are read off one by one and applied from the inside out.  A chain of
operands is printed without the parentheses that its operators make superfluous; `climb` finds the
tree again because the operators that wait always bind more loosely than the chain they wait for.
-/

namespace Resumption.Script

open Lexeme Rule Printer

variable {g : Grammar} {n m : Nat} {b r s t : List Char} {c : Char}

/-! ## In front of an operand -/

/-- A word in front of an operand is one of three. -/
theorem leadOp_of_opens {w : String} (h : Opens w s r) : leadOp s =
    if w = "typeof" then some (.unary .typeOf, r) else if w = "void" then some (.unary .void, r)
    else if w = "delete" then some (.unary .delete, r) else none := by
  have hkeywords : ∀ k ∈ ["typeof", "void", "delete"], keyword k s = if k = w then some r else none := by
    have hall : ∀ k ∈ ["typeof", "void", "delete"], k.toList.all isNameChar = true := by
      decide
    exact fun k hk => h.keyword (hall k hk)
  have hmarks : ∀ m ∈ ["++", "--", "!", "-", "+", "~"], mark m s = none := by
    have hheads : ∀ m ∈ ["++", "--", "!", "-", "+", "~"],
        m.toList.head?.map isNameChar = some false := by decide
    exact fun m hm => h.mark (hheads m hm)
  simp only [List.forall_mem_cons] at hkeywords hmarks
  simp only [leadOp, oneOf_cons, oneOf_nil, hkeywords, hmarks, @eq_comm String w]
  split_ifs <;> rfl

/-- No operator stands in front of what begins like an operand. -/
theorem leadOp_of_operand (h : Operand r s) (hb : Blank b) : leadOp (b ++ s) = none := by
  cases h with
  | @sign c t h =>
      obtain ⟨⟨t', ht'⟩, hname⟩ := leads_of_opening_sign (h.elim .inl (fun h => .inr (.inl h))) t
      have hlead : Leads c (b ++ c :: t) := ⟨t', (skip_blank_append hb _).trans ht'⟩
      have hhead : ∀ m ∈ ["++", "--", "!", "-", "+", "~", "typeof", "void", "delete"],
          m.toList ≠ [] ∧ m.toList.head? ≠ some c := by
        rcases h with h | h
        · have hmem : c = '(' ∨ c = '[' ∨ c = '"' ∨ c = '\x7b' := by simpa using h
          rcases hmem with rfl | rfl | rfl | rfl <;> decide
        · have hheads : ∀ m ∈ ["++", "--", "!", "-", "+", "~", "typeof", "void", "delete"],
              m.toList ≠ [] ∧ m.toList.head?.map Char.isDigit = some false := by decide
          refine fun m hm => ⟨(hheads m hm).1, fun heq => ?_⟩
          have := (hheads m hm).2
          simp [heq, h] at this
      have hmarks : ∀ m ∈ ["++", "--", "!", "-", "+", "~", "typeof", "void", "delete"],
          mark m (b ++ c :: t) = none := fun m hm => hlead.mark (hhead m hm).1 (hhead m hm).2
      simp only [List.forall_mem_cons] at hmarks
      simp [leadOp, oneOf_cons, oneOf_nil, keyword, markBefore, hmarks]
  | word word apart h =>
      rw [leadOp_of_opens (Opens.of_word word hb apart)]
      simp only [List.mem_cons, List.not_mem_nil, or_false] at h
      rcases h with rfl | rfl | rfl | rfl | rfl | rfl <;> rfl
  | @name w t name apart h =>
      have hne : ∀ k ∈ reserved, w ≠ k := fun k hk heq => name.2 (heq ▸ hk)
      rw [leadOp_of_opens (Opens.of_word name.1 hb apart), if_neg (hne _ (by decide)),
        if_neg (hne _ (by decide)), if_neg (hne _ (by decide))]

theorem head_of_operand (h : Operand r s) : ∀ c ∈ s.head?, c ≠ '+' ∧ c ≠ '-' := by
  have hword : ∀ {w : String} {t : List Char}, IsWord w → ∀ c ∈ (w.toList ++ t).head?, c ≠ '+' ∧ c ≠ '-' := by
    rintro w t ⟨d, t', heq, hd, -⟩ c hc
    obtain rfl : d = c := by simpa [heq] using hc
    constructor <;>
      · rintro rfl
        exact absurd hd (by decide)
  cases h with
  | @sign d t h =>
      rintro c ⟨rfl⟩
      rcases h with h | h
      · have hmem : d = '(' ∨ d = '[' ∨ d = '"' ∨ d = '\x7b' := by simpa using h
        rcases hmem with rfl | rfl | rfl | rfl <;> decide
      · constructor <;>
          · rintro rfl
            exact absurd h (by decide)
  | word word apart h => exact hword word
  | name name apart h => exact hword name.1

/-- A sign is compared with every mark character by character. -/
theorem mark_sign (hb : Blank b) (s : List Char) : ∀ c ∈ ['-', '+', '!', '~'], ∀ m : String,
    mark m (b ++ c :: s) = after? m.toList (c :: s) := by
  intro c hc m
  have hmem : c = '-' ∨ c = '+' ∨ c = '!' ∨ c = '~' := by simpa using hc
  have hchar : isBlank c = false ∧ c ≠ '/' := by
    rcases hmem with rfl | rfl | rfl | rfl <;> decide
  rw [mark_blank_append hb, mark_solid (solid_cons hchar.1 hchar.2)]

theorem leadOp_unary (op : UnaryOp) (hb : Blank b)
    (hword : op.isWord = true → endsBefore isNameChar s = true)
    (hsign : op.isWord = false → ∀ c ∈ s.head?, c ≠ '+' ∧ c ≠ '-') :
    leadOp (b ++ (op.symbol.toList ++ s)) = some (.unary op, s) := by
  cases hop : op.isWord with
  | true =>
      have hisWord : IsWord op.symbol := by
        cases op <;> first
          | exact absurd hop (by decide)
          | decide
      rw [leadOp_of_opens (Opens.of_word hisWord hb (hword hop))]
      cases op <;> first
        | exact absurd hop (by decide)
        | rfl
  | false =>
      have hnext := hsign hop
      have hmark : ∀ c ∈ ['-', '+', '!', '~'], ∀ m : String,
          mark m (b ++ c :: s) = after? m.toList (c :: s) := mark_sign hb s
      cases op <;> first
        | exact absurd hop (by decide)
        | (cases s with
          | nil => simp [leadOp, oneOf_cons, UnaryOp.symbol, hmark, after?]
          | cons d s =>
              obtain ⟨hplus, hminus⟩ := hnext d rfl
              simp [leadOp, oneOf_cons, UnaryOp.symbol, hmark, after?, Ne.symm hplus, Ne.symm hminus])

theorem leadOp_update (op : UpdateOp) (hb : Blank b) (s : List Char) :
    leadOp (b ++ (op.symbol.toList ++ s)) = some (.update op, s) := by
  cases op <;> simp [leadOp, oneOf_cons, UpdateOp.symbol, mark_sign hb, after?]

namespace Grammar

/-- The operators in front of an operand and the operand behind them. -/
theorem Faithful.leads (hg : g.Faithful n) (e : Expr) (he : (Node.expr e).AllPrintable) {b r : List Char}
    (hb : Blank b) (hr : Follow 14 r) (hlength : b.length + (e.print 15).toList.length + r.length ≤ n + 1) :
    ∃ leads s' o, Repeats leadOp (b ++ ((e.print 15).toList ++ r)) leads s' ∧
      g.updated s' = some (.ok o, r) ∧ r.length < s'.length ∧
      leads.foldr Lead.apply (.ok o) = .ok e := by
  have hplain : ∀ (e : Expr) (b : List Char), (Node.expr e).AllPrintable → Blank b →
      b.length + (e.print 16).toList.length + r.length ≤ n + 1 →
      Repeats leadOp (b ++ ((e.print 16).toList ++ r)) [] (b ++ ((e.print 16).toList ++ r)) ∧
        g.updated (b ++ ((e.print 16).toList ++ r)) = some (.ok e, r) ∧
        r.length < (b ++ ((e.print 16).toList ++ r)).length := by
    intro e b he hb hlength
    refine ⟨.stop (leadOp_of_operand (operand_print e he (.inl (by decide)) (by decide) hr.apart) hb),
      hg.updated e he b r hb hr hlength, ?_⟩
    have := length_print_pos he (l := 16) (by decide)
    simp only [List.length_append]
    omega
  have hmore : ∀ {lead : Lead} {s' t : List Char}, leadOp s' = some (lead, t) → t.length < s'.length →
      (∃ leads t' o, Repeats leadOp t leads t' ∧ g.updated t' = some (.ok o, r) ∧ r.length < t'.length ∧
        lead.apply (leads.foldr Lead.apply (.ok o)) = .ok e) →
      ∃ leads t' o, Repeats leadOp s' leads t' ∧ g.updated t' = some (.ok o, r) ∧
        r.length < t'.length ∧ leads.foldr Lead.apply (.ok o) = .ok e := by
    rintro lead s' t hlead hshorter ⟨leads, t', o, hrepeats, hupdated, hshort, hfold⟩
    exact ⟨lead :: leads, t', o, .turn hlead hshorter hrepeats, hupdated, hshort, hfold⟩
  by_cases hlevel : e.level = 15
  · cases e with
    | unary op arg =>
        have harg : (Node.expr arg).AllPrintable := he.child List.mem_cons_self
        obtain ⟨gap, hgap, hblank⟩ : ∃ gap : String,
            gap = (if op.isWord || arg.startsWithOperator then " " else "") ∧ Blank gap.toList :=
          ⟨_, rfl, by split_ifs <;> rfl⟩
        have hprint : ((Expr.unary op arg).print 15).toList =
            op.symbol.toList ++ (gap.toList ++ (arg.print 15).toList) := by
          rw [hgap, ← List.append_assoc, ← String.toList_append, ← String.toList_append]
          rfl
        rw [hprint] at hlength ⊢
        simp only [List.length_append] at hlength
        have hsymbol : 0 < op.symbol.toList.length := by cases op <;> decide
        have hoperator : leadOp (b ++ (op.symbol.toList ++ (gap.toList ++ ((arg.print 15).toList ++ r)))) =
            some (.unary op, gap.toList ++ ((arg.print 15).toList ++ r)) := by
          refine leadOp_unary op hb (fun hword => ?_) (fun hword => ?_)
          · simp [hgap, hword, endsBefore, isNameChar, Char.isAlphanum]
          · cases hstarts : arg.startsWithOperator with
            | true =>
                rw [hgap, hstarts, Bool.or_true, if_pos rfl]
                rintro c ⟨rfl⟩
                decide
            | false =>
                have hlow : arg.level ≠ 15 := by
                  intro hlow
                  cases arg with
                  | unary op' arg' => simp [Expr.startsWithOperator] at hstarts
                  | update op' before arg' => cases before <;> simp [Expr.level, Expr.startsWithOperator] at hlow hstarts
                  | binary op' left right => cases op' <;> simp [Expr.level, BinaryOp.level] at hlow
                  | logical op' left right => cases op' <;> simp [Expr.level, LogicalOp.level] at hlow
                  | _ => simp [Expr.level] at hlow
                rw [hgap, hstarts, hword, ← print_succ hlow (by decide)]
                exact head_of_operand (operand_print arg harg (.inl (by decide)) (by decide) hr.apart)
        obtain ⟨leads, t', o, hrepeats, hupdated, hshort, hfold⟩ :=
          hg.leads arg harg (b := gap.toList) hblank hr (by omega)
        simp only [List.append_assoc]
        refine hmore hoperator (by simp only [List.length_append]; omega)
          ⟨leads, t', o, hrepeats, hupdated, hshort, ?_⟩
        rw [hfold]
        rfl
    | update op before arg =>
        cases before with
        | false => simp [Expr.level] at hlevel
        | true =>
            have harg : (Node.expr arg).AllPrintable := he.child List.mem_cons_self
            have hreference : arg.isReference = true := he.formed
            have hprint : ((Expr.update op true arg).print 15).toList =
                op.symbol.toList ++ (arg.print 16).toList := String.toList_append
            rw [hprint] at hlength ⊢
            simp only [List.length_append] at hlength
            have hsymbol : 0 < op.symbol.toList.length := by cases op <;> decide
            obtain ⟨hrepeats, hupdated, hshort⟩ := hplain arg [] harg blank_nil
              (by simp only [List.length_nil]; omega)
            simp only [List.append_assoc]
            refine hmore (leadOp_update op hb _) (by simp only [List.length_append]; omega)
              ⟨[], _, arg, hrepeats, hupdated, hshort, ?_⟩
            change updateOf op true arg = _
            rw [updateOf, if_pos hreference]
    | binary op left right => cases op <;> simp [Expr.level, BinaryOp.level] at hlevel
    | logical op left right => cases op <;> simp [Expr.level, LogicalOp.level] at hlevel
    | _ => simp [Expr.level] at hlevel
  · rw [← print_succ hlevel (by decide)] at hlength ⊢
    obtain ⟨hrepeats, hupdated, hshort⟩ := hplain e b he hb hlength
    exact ⟨[], _, e, hrepeats, hupdated, hshort, rfl⟩
termination_by sizeOf e

theorem Faithful.unary (hg : g.Faithful n) (e : Expr) (he : (Node.expr e).AllPrintable) :
    Reads g.unary (n + 1) (Follow 14) (e.print 14).toList (.ok e) := by
  intro b r hb hr hlength
  have hprint : e.print 14 = e.print 15 := (print_succ (level_ne_fourteen e) (by decide)).symm
  rw [hprint] at hlength ⊢
  obtain ⟨leads, s', o, hrepeats, hupdated, hshort, hfold⟩ := hg.leads e he hb hr hlength
  have hmany := hrepeats.many (n := g.bound) (by
    have hall := hrepeats.length_le
    have := hg.bound
    simp only [List.length_append] at hall
    omega)
  simp [Grammar.unary, hmany, hupdated, hfold]

end Grammar

/-! ## Chains of operands -/

namespace Expr

/-- The operator and the operands of an expression that stands between operands. -/
def infixed? : Expr → Option (Infix × Expr × Expr)
  | .binary op left right => some (.binary op, left, right)
  | .logical op left right => some (.logical op, left, right)
  | _ => none

variable {e left right : Expr} {op : Infix} {l : Nat}

theorem eq_of_infixed? (h : e.infixed? = some (op, left, right)) :
    Infix.apply op (.ok left) (.ok right) = .ok e ∧ e.level = op.level ∧
      (e.print 0).toList = (left.print op.level).toList ++
        (' ' :: (op.symbol.toList ++ ' ' :: (right.print (op.level + 1)).toList)) ∧
      Node.expr left ∈ (Node.expr e).children ∧ Node.expr right ∈ (Node.expr e).children ∧
      sizeOf left < sizeOf e ∧ sizeOf right < sizeOf e := by
  cases e with
  | binary op left right =>
      cases h
      refine ⟨rfl, rfl, ?_, List.mem_cons_self, List.mem_cons_of_mem _ List.mem_cons_self,
        by rw [Expr.binary.sizeOf_spec]; omega,
        by rw [Expr.binary.sizeOf_spec]; omega⟩
      change (left.print op.level ++ " " ++ op.symbol ++ " " ++ right.print (op.level + 1)).toList = _
      simp only [String.toList_append, List.append_assoc]
      rfl
  | logical op left right =>
      cases h
      refine ⟨rfl, rfl, ?_, List.mem_cons_self, List.mem_cons_of_mem _ List.mem_cons_self,
        by rw [Expr.logical.sizeOf_spec]; omega,
        by rw [Expr.logical.sizeOf_spec]; omega⟩
      change (left.print op.level ++ " " ++ op.symbol ++ " " ++ right.print (op.level + 1)).toList = _
      simp only [String.toList_append, List.append_assoc]
      rfl
  | _ => cases h

theorem level_of_infixed? (h : e.infixed? = none) : e.level < 4 ∨ 14 < e.level := by
  cases e with
  | update op before arg => cases before <;> simp [level]
  | binary op left right => cases h
  | logical op left right => cases h
  | _ => simp [level]

end Expr

theorem Infix.level_bounds (op : Infix) : 4 ≤ op.level ∧ op.level ≤ 13 := by
  cases op with
  | logical op => cases op <;> decide
  | binary op => cases op <;> decide

/-- Behind an operand, the operators with the operands that follow them. -/
structure Chain where
  first : Expr
  rest : List (Infix × Expr)

namespace Chain

def text (c : Chain) : List Char :=
  (c.first.print 14).toList ++
    c.rest.flatMap fun p => ' ' :: (p.1.symbol.toList ++ ' ' :: (p.2.print 14).toList)

def operands (c : Chain) : List Expr := c.first :: c.rest.map Prod.snd

/-- Two chains with an operator between them. -/
def join (left : Chain) (op : Infix) (right : Chain) : Chain :=
  ⟨left.first, left.rest ++ (op, right.first) :: right.rest⟩

theorem text_join (left right : Chain) (op : Infix) : (left.join op right).text =
    left.text ++ (' ' :: (op.symbol.toList ++ ' ' :: right.text)) := by
  simp [text, join]

/-- No operator at the front of what comes next binds more tightly. -/
def Loose (l : Nat) (more : List (Infix × Built Expr)) : Prop := ∀ p ∈ more.head?, p.1.level ≤ l

/-- Reading a chain amounts to reading its tree, whatever waits in front of it and comes behind. -/
def Builds (c : Chain) (l : Nat) (e : Expr) : Prop :=
  ∀ waiting more, (∀ w ∈ waiting, w.2.level < l) → Loose l more →
    climb waiting (.ok c.first) (c.rest.map (fun p => (p.1, .ok p.2)) ++ more) =
      climb waiting (.ok e) more

theorem reduce_of_lt {l : Nat} {waiting : List (Built Expr × Infix)} (h : ∀ w ∈ waiting, w.2.level < l)
    (e : Built Expr) : reduce l waiting e = (waiting, e) := by
  cases waiting with
  | nil => rfl
  | cons w waiting =>
      have := h w List.mem_cons_self
      rw [reduce, if_neg (by omega)]

theorem climb_reduced {op : Infix} {waiting : List (Built Expr × Infix)} {left right : Built Expr}
    {more : List (Infix × Built Expr)} (h : Loose op.level more) :
    climb ((left, op) :: waiting) right more = climb waiting (op.apply left right) more := by
  cases more with
  | nil => simp [climb, reduce]
  | cons p more =>
      have hp := h p rfl
      rw [climb, climb, reduce, if_pos hp]

theorem Builds.join {left right : Chain} {op : Infix} {a b e : Expr} {l : Nat}
    (hleft : left.Builds op.level a) (hright : right.Builds (op.level + 1) b) (hl : l ≤ op.level)
    (happly : op.apply (.ok a) (.ok b) = .ok e) : (left.join op right).Builds l e := by
  intro waiting more hwaiting hmore
  have hlower : ∀ w ∈ waiting, w.2.level < op.level :=
    fun w hw => Nat.lt_of_lt_of_le (hwaiting w hw) hl
  have hbelow : ∀ w ∈ (Except.ok a, op) :: waiting, w.2.level < op.level + 1 := by
    rintro w hw
    rcases List.mem_cons.1 hw with rfl | hw
    · exact Nat.lt_succ_self _
    · exact Nat.lt_succ_of_lt (hlower w hw)
  have hloose : Loose op.level more := fun p hp => Nat.le_trans (hmore p hp) hl
  calc climb waiting (.ok (left.join op right).first)
        ((left.join op right).rest.map (fun p => (p.1, .ok p.2)) ++ more)
      = climb waiting (.ok left.first) (left.rest.map (fun p => (p.1, .ok p.2)) ++
          ((op, .ok right.first) :: (right.rest.map (fun p => (p.1, .ok p.2)) ++ more))) := by
        simp [Chain.join]
    _ = climb waiting (.ok a)
          ((op, .ok right.first) :: (right.rest.map (fun p => (p.1, .ok p.2)) ++ more)) :=
        hleft waiting _ hlower (by rintro p ⟨rfl⟩; exact Nat.le_refl _)
    _ = climb ((.ok a, op) :: waiting) (.ok right.first)
          (right.rest.map (fun p => (p.1, .ok p.2)) ++ more) := by
        rw [climb, reduce_of_lt hlower]
    _ = climb ((.ok a, op) :: waiting) (.ok b) more :=
        hright _ more hbelow fun p hp => Nat.le_succ_of_le (hloose p hp)
    _ = climb waiting (op.apply (.ok a) (.ok b)) more := climb_reduced hloose
    _ = climb waiting (.ok e) more := by rw [happly]

end Chain

theorem infixOp_blank_append (hb : Blank b) (s : List Char) : infixOp (b ++ s) = infixOp s := by
  simp only [infixOp, oneOf_cons, oneOf_nil, mark_blank_append hb, markBefore_blank_append hb,
    keyword_blank_append hb]

/-- An expression is printed as a chain that is read back as the expression. -/
theorem chain_print (e : Expr) (he : (Node.expr e).AllPrintable) {l : Nat} (hl : 4 ≤ l) (hl' : l ≤ 14) :
    ∃ c : Chain, (e.print l).toList = c.text ∧ c.Builds l e ∧
      ∀ x ∈ c.operands, (Node.expr x).AllPrintable := by
  have hsingle : e.print l = e.print 14 → ∃ c : Chain, (e.print l).toList = c.text ∧ c.Builds l e ∧
      ∀ x ∈ c.operands, (Node.expr x).AllPrintable := by
    intro heq
    refine ⟨⟨e, []⟩, by simp [Chain.text, heq], fun _ _ _ _ => rfl, ?_⟩
    simpa [Chain.operands] using he
  by_cases hlevel : e.level < l
  · refine hsingle (String.toList_inj.1 ?_)
    rw [Expr.print_of_level_lt hlevel (by omega),
      Expr.print_of_level_lt (l := 14) (by omega) (by decide)]
  cases hinfixed : e.infixed? with
  | none =>
      have := Expr.level_of_infixed? hinfixed
      refine hsingle ?_
      rw [Expr.print_of_le_level (l := l) (by omega) (by omega),
        Expr.print_of_le_level (l := 14) (by omega) (by decide)]
  | some parts =>
      obtain ⟨op, left, right⟩ := parts
      obtain ⟨happly, heq, hprint, hleft, hright, hsize, hsize'⟩ := Expr.eq_of_infixed? hinfixed
      have hbounds := op.level_bounds
      obtain ⟨c, htext, hbuilds, hall⟩ :=
        chain_print left (he.child hleft) (l := op.level) hbounds.1 (by omega)
      obtain ⟨c', htext', hbuilds', hall'⟩ :=
        chain_print right (he.child hright) (l := op.level + 1) (by omega) (by omega)
      refine ⟨c.join op c', ?_, hbuilds.join hbuilds' (by omega) happly, ?_⟩
      · rw [Expr.print_of_le_level (l := l) (by omega) (by omega), hprint, htext, htext', Chain.text_join]
      · intro x hx
        simp only [Chain.operands, Chain.join, List.map_append, List.map_cons, List.mem_cons,
          List.mem_append] at hx hall hall'
        rcases hx with hx | hx | hx | hx
        · exact hall x (.inl hx)
        · exact hall x (.inr hx)
        · exact hall' x (.inl hx)
        · exact hall' x (.inr hx)
termination_by sizeOf e

namespace Grammar

/-- An operator and the operand behind it. -/
def infixed (g : Grammar) : Rule (Infix × Built Expr) := fun s => do
  let (op, s) ← infixOp s
  let (operand, s) ← g.unary s
  return ((op, operand), s)

theorem binary_eq (s : List Char) : g.binary s = do
    let (first, s) ← g.unary s
    let (rest, s) := Rule.many g.infixed g.bound s
    return (climb [] first rest, s) := rfl

theorem Faithful.infixed (hg : g.Faithful n) (op : Infix) {e : Expr} (he : (Node.expr e).AllPrintable) :
    Reads g.infixed (n + 1) (Follow 14) (' ' :: (op.symbol.toList ++ ' ' :: (e.print 14).toList))
      (op, .ok e) := by
  intro b r hb hr hlength
  simp only [List.length_cons, List.length_append] at hlength
  have hoperand := hg.unary e he [' '] r blank_space hr
    (by simp only [List.length_cons, List.length_nil]; omega)
  have hop := infixOp_symbol op ((e.print 14).toList ++ r)
  rw [← infixOp_blank_append hb] at hop
  simp only [List.cons_append, List.append_assoc, List.nil_append] at hoperand hop ⊢
  simp only [Grammar.infixed, hop, hoperand, Option.bind_eq_bind, Option.bind_some]
  rfl

/-- A chain is read whether or not it is the chain of a printed expression. -/
theorem Faithful.chain (hg : g.Faithful n) {c : Chain} (hall : ∀ x ∈ c.operands, (Node.expr x).AllPrintable) :
    Reads g.binary (n + 1) (Follow 4) c.text
      (climb [] (.ok c.first) (c.rest.map fun p => (p.1, .ok p.2))) := by
  intro b r hb hr hlength
  have hstop : g.infixed r = none := by simp [Grammar.infixed, hr.operator (by decide)]
  rw [Chain.text] at hlength ⊢
  simp only [List.length_append] at hlength
  have hpos := length_print_pos (hall c.first List.mem_cons_self) (l := 14) (by decide)
  have hrest : Repeats g.infixed
      (c.rest.flatMap (fun p => ' ' :: (p.1.symbol.toList ++ ' ' :: (p.2.print 14).toList)) ++ r)
      (c.rest.map fun p => (p.1, .ok p.2)) r := repeats_of_reads (F := Follow 14) hstop c.rest
    (fun p hp => hg.infixed p.1 (hall p.2 (List.mem_cons_of_mem _ (List.mem_map.2 ⟨p, hp, rfl⟩))))
    (by simp) (hr.mono (by decide))
    (fun p _ t => by simpa using Follow.symbol p.1 ((p.2.print 14).toList ++ t)) (by omega)
  have hfirst := hg.unary c.first (hall c.first List.mem_cons_self) b
    (c.rest.flatMap (fun p => ' ' :: (p.1.symbol.toList ++ ' ' :: (p.2.print 14).toList)) ++ r) hb (by
      cases hc : c.rest with
      | nil => exact hr.mono (by decide)
      | cons p rest => simpa using Follow.symbol p.1 _) (by simp only [List.length_append]; omega)
  have hmany := hrest.many (n := g.bound) (by
    have hall := hrest.length_le
    have := hg.bound
    simp only [List.length_append] at hall
    omega)
  rw [List.append_assoc, binary_eq, hfirst]
  simp only [Option.bind_eq_bind, Option.bind_some, hmany]
  rfl

theorem Faithful.binary (hg : g.Faithful n) (e : Expr) (he : (Node.expr e).AllPrintable) :
    Reads g.binary (n + 1) (Follow 4) (e.print 4).toList (.ok e) := by
  intro b r hb hr hlength
  obtain ⟨c, htext, hbuilds, hall⟩ := chain_print e he (l := 4) (by decide) (by decide)
  have hclimb := hbuilds [] [] (by simp) (by simp [Chain.Loose])
  rw [List.append_nil] at hclimb
  rw [htext] at hlength ⊢
  rw [hg.chain hall b r hb hr hlength, hclimb]
  rfl

/-! ## Conditionals and assignments -/

/-- The branches of a conditional behind its test. -/
def branches (g : Grammar) : Rule (Built Expr × Built Expr) := fun s => do
  let s ← mark "?" s
  let (cons, s) ← g.assignment s
  let s ← mark ":" s
  let (alt, s) ← g.assignment s
  return ((cons, alt), s)

theorem conditional_eq (s : List Char) : g.conditional s = do
    let (test, s) ← g.binary s
    let (found, s) := optional g.branches s
    match found with
    | none => return (test, s)
    | some (cons, alt) =>
      let built : Built Expr := do
        let t ← test
        let c ← cons
        return .conditional t c (← alt)
      return (built, s) := rfl

theorem conditional_of_plain {e : Built Expr} {s r : List Char} (h : g.binary s = some (e, r))
    (hr : mark "?" r = none) : g.conditional s = some (e, r) := by
  have hstop : g.branches r = none := by simp [branches, hr]
  rw [conditional_eq, h]
  simp only [Option.bind_eq_bind, Option.bind_some, optional_none hstop]
  rfl

theorem conditional_of_branches {t : Built Expr} {c a : Built Expr} {s s' r : List Char}
    (h : g.binary s = some (t, s')) (hr : g.branches s' = some ((c, a), r)) :
    g.conditional s = some ((do
      let t ← t
      let c ← c
      return .conditional t c (← a)), r) := by
  rw [conditional_eq, h]
  simp only [Option.bind_eq_bind, Option.bind_some, optional_some hr]
  rfl

/-- The value of an assignment behind its target. -/
def assigned (g : Grammar) : Rule (Option BinaryOp × Built Expr) := fun s => do
  let (op, s) ← assignMark s
  let (value, s) ← g.assignment s
  return ((op, value), s)

theorem assign_eq (s : List Char) : g.assign s = do
    let (target, s) ← g.conditional s
    let (tail, s) := optional g.assigned s
    match tail with
    | none => return (target, s)
    | some (op, value) => return (assignOf op target value, s) := rfl

theorem assign_of_plain {e : Built Expr} {s r : List Char} (h : g.conditional s = some (e, r))
    (hr : assignMark r = none) : g.assign s = some (e, r) := by
  have hstop : g.assigned r = none := by simp [assigned, hr]
  rw [assign_eq, h]
  simp only [Option.bind_eq_bind, Option.bind_some, optional_none hstop]
  rfl

theorem assign_of_assigned {op : Option BinaryOp} {t v : Expr} {s s' r : List Char}
    (h : g.conditional s = some (.ok t, s')) (hr : g.assigned s' = some ((op, .ok v), r))
    (hreference : t.isReference = true) : g.assign s = some (.ok (.assign op t v), r) := by
  have hvalue : assignOf op (.ok t) (.ok v) = .ok (.assign op t v) := by
    change (if t.isReference = true then _ else _) = _
    rw [if_pos hreference]
    rfl
  rw [assign_eq, h]
  simp only [Option.bind_eq_bind, Option.bind_some, optional_some hr, hvalue]
  rfl

theorem Faithful.plain (hg : g.Faithful n) (e : Expr) (he : (Node.expr e).AllPrintable) :
    Reads g.conditional (n + 1) (Follow 3) (e.print 4).toList (.ok e) :=
  fun b r hb hr hlength => conditional_of_plain
    (hg.binary e he b r hb (hr.mono (by decide)) hlength) (hr.branch (by decide))

theorem Faithful.branches (hg : g.Faithful n) {cons alt : Expr} (hcons : (Node.expr cons).AllPrintable)
    (halt : (Node.expr alt).AllPrintable) (hr : Follow 2 r)
    (hlength : (cons.print 2).toList.length + (alt.print 2).toList.length + r.length + 6 ≤ n + 1) :
    g.branches (' ' :: '?' :: ' ' :: ((cons.print 2).toList ++
      (' ' :: ':' :: ' ' :: ((alt.print 2).toList ++ r)))) = some ((.ok cons, .ok alt), r) := by
  have hfirst := hg.assignment cons hcons [' '] (' ' :: ':' :: ' ' :: ((alt.print 2).toList ++ r))
    blank_space (Follow.close (b := [' ']) blank_space (by simp) _)
    (by simp only [List.length_append, List.length_cons, List.length_nil]; omega)
  have hsecond := hg.assignment alt halt [' '] r blank_space hr
    (by simp only [List.length_cons, List.length_nil]; omega)
  simp only [List.cons_append, List.nil_append] at hfirst hsecond
  simp [Grammar.branches, mark_space, mark_head (c := '?') "?" rfl rfl (by decide), hfirst,
    mark_head (c := ':') ":" rfl rfl (by decide), hsecond]

/-- A conditional as it is written. -/
theorem toList_conditional (test cons alt : Expr) :
    ((Expr.conditional test cons alt).print 2).toList = (test.print 4).toList ++
      (' ' :: '?' :: ' ' :: ((cons.print 2).toList ++ (' ' :: ':' :: ' ' :: (alt.print 2).toList))) := by
  rw [Expr.print, fit, if_neg (by decide)]
  simp only [String.toList_append, List.append_assoc]
  rfl

/-- An assignment as it is written. -/
theorem toList_assign (op : Option BinaryOp) (target value : Expr) :
    ((Expr.assign op target value).print 2).toList = (target.print 17).toList ++
      (' ' :: ((assignText op).toList ++ ' ' :: (value.print 2).toList)) := by
  rw [Expr.print, fit, if_neg (by decide)]
  simp only [String.toList_append, List.append_assoc]
  rfl

theorem Faithful.conditional (hg : g.Faithful n) {test cons alt : Expr}
    (he : (Node.expr (.conditional test cons alt)).AllPrintable) :
    Reads g.conditional (n + 1) (Follow 2) ((Expr.conditional test cons alt).print 2).toList
      (.ok (.conditional test cons alt)) := by
  intro b r hb hr hlength
  rw [toList_conditional] at hlength ⊢
  simp only [List.length_append, List.length_cons] at hlength
  have htest := hg.binary test (he.child (by simp [Node.children, Node.childrenOfExpr])) b
    (' ' :: '?' :: ' ' :: ((cons.print 2).toList ++ (' ' :: ':' :: ' ' :: ((alt.print 2).toList ++ r))))
    hb (Follow.question _) (by simp only [List.length_append, List.length_cons]; omega)
  have hbranches := hg.branches (he.child (c := .expr cons) (by simp [Node.children, Node.childrenOfExpr]))
    (he.child (c := .expr alt) (by simp [Node.children, Node.childrenOfExpr])) hr (by omega)
  simp only [List.append_assoc, List.cons_append] at htest hbranches ⊢
  exact conditional_of_branches htest hbranches

theorem isReference_level {e : Expr} (h : e.isReference = true) : e.level = 18 := by
  cases e <;> first
    | rfl
    | cases h

theorem Faithful.assign (hg : g.Faithful n) (e : Expr) (he : (Node.expr e).AllPrintable) :
    Reads g.assign (n + 1) (Follow 2) (e.print 2).toList (.ok e) := by
  intro b r hb hr hlength
  have hstop : assignMark r = none := hr.assign (by decide)
  have hplain : e.print 2 = e.print 4 → g.assign (b ++ ((e.print 2).toList ++ r)) = some (.ok e, r) := by
    intro heq
    rw [heq] at hlength ⊢
    exact assign_of_plain (hg.plain e he b r hb (hr.mono (by decide)) hlength) hstop
  by_cases htwo : e.level = 2
  · cases e with
    | assign op target value =>
        obtain ⟨hreference, hop⟩ : target.isReference = true ∧ ∀ o ∈ op, o ∈ BinaryOp.compound :=
          he.formed
        have hlevel := isReference_level hreference
        have hprint : target.print 17 = target.print 4 := by
          rw [Expr.print_of_le_level (l := 4) (by omega) (by decide),
            Expr.print_of_le_level (l := 17) (by omega) (by decide)]
        rw [toList_assign, hprint] at hlength ⊢
        simp only [List.length_append, List.length_cons] at hlength
        have htarget := hg.plain target (he.child (by simp [Node.children, Node.childrenOfExpr])) b
          (' ' :: ((assignText op).toList ++ ' ' :: ((value.print 2).toList ++ r))) hb
          (Follow.assignText hop _) (by simp only [List.length_append, List.length_cons]; omega)
        have hvalue := hg.assignment value (he.child (by simp [Node.children, Node.childrenOfExpr]))
          [' '] r blank_space hr (by simp only [List.length_cons, List.length_nil]; omega)
        simp only [List.append_assoc, List.cons_append, List.nil_append] at htarget hvalue ⊢
        refine assign_of_assigned htarget ?_ hreference
        simp [assigned, assignMark_assignText hop, hvalue]
    | update op before arg => cases before <;> simp [Expr.level] at htwo
    | binary op left right => cases op <;> simp [Expr.level, BinaryOp.level] at htwo
    | logical op left right => cases op <;> simp [Expr.level, LogicalOp.level] at htwo
    | _ => simp [Expr.level] at htwo
  · by_cases hthree : e.level = 3
    · cases e with
      | conditional test cons alt =>
          exact assign_of_plain (hg.conditional he b r hb hr hlength) hstop
      | update op before arg => cases before <;> simp [Expr.level] at hthree
      | binary op left right => cases op <;> simp [Expr.level, BinaryOp.level] at hthree
      | logical op left right => cases op <;> simp [Expr.level, LogicalOp.level] at hthree
      | _ => simp [Expr.level] at hthree
    · exact hplain ((print_succ (l := 2) htwo (by decide)).symm.trans
        (print_succ (l := 3) hthree (by decide)).symm)

/-- Nothing is assigned where no expression begins. -/
theorem Faithful.assign_barren (hg : g.Faithful n) (h : Barren s) : g.assign s = none :=
  h.assign (hg.ordinary s (h.keyword "new" (by simp)))

theorem newExpr_ordinary (h : keyword "new" s = none) : g.newExpr s = none := by
  rw [Grammar.newExpr, h]
  rfl

end Grammar

end Resumption.Script
