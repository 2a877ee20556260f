import Resumption.Proofs.Reading.Primary

/-!
# Printed expressions

The rules for expressions take an expression apart along three spines: the suffixes behind an
operand, the operators in front of it, and the chain of operators between operands.  Each spine is
printed without parentheses and read by a repetition; what the repetition finds is folded back into
the tree it came from.
-/

namespace Resumption.Script

open Lexeme Rule Printer

variable {g : Grammar} {n m : Nat} {b r s t : List Char} {c : Char}

/-- The expression is read in one piece and needs no parentheses in front of a suffix. -/
def Expr.isAtom : Expr → Bool
  | .num _ | .str _ | .bool _ | .null | .ident _ | .this | .array _ | .object _ | .function _
  | .construct _ _ => true
  | _ => false

/-- No expression is printed as nothing. -/
theorem length_print_pos {e : Expr} (he : (Node.expr e).AllPrintable) {l : Nat} (hl : l ≤ 18) :
    0 < (e.print l).toList.length := by
  have hne : ∀ {s : List Char}, Opening [] s → s ≠ [] := by
    have hword : ∀ {w : String}, IsWord w → ∀ t, w.toList ++ t ≠ [] := by
      rintro w ⟨c, t, heq, -⟩ t'
      simp [heq]
    rintro s h
    cases h with
    | operand h =>
        cases h with
        | sign h => exact List.cons_ne_nil _ _
        | word word apart h => exact hword word _
        | name name apart h => exact hword name.1 _
    | sign h => exact List.cons_ne_nil _ _
    | word word apart h => exact hword word _
  have hopening := opening_print e he hl (r := []) rfl
  rw [List.append_nil] at hopening
  exact List.length_pos_iff.2 (hne hopening)

/-- What an expression without suffixes of its own has behind it. -/
structure Bare (r : List Char) : Prop where
  apart : endsBefore isNameChar r = true
  call : mark "(" r = none
  member : mark "." r = none
  index : mark "[" r = none

theorem Follow.bare {k : Nat} (h : Follow k r) : Bare r := ⟨h.apart, h.call, h.member, h.index⟩

namespace Grammar

/-! ## Bases -/

theorem Faithful.base_of_ordinary (hg : g.Faithful n) (h : keyword "new" s = none) :
    g.base s = g.primary s := by
  simp [base, oneOf_cons, oneOf_nil, hg.ordinary s h]

theorem Faithful.base_paren (hg : g.Faithful n) {e : Expr} (he : (Node.expr e).AllPrintable) :
    Reads g.base (n + 1) (fun _ => True) ('(' :: ((e.print 0).toList ++ [')'])) (.ok e) := by
  intro b r hb hr hlength
  have hlead : Leads '(' (b ++ ('(' :: ((e.print 0).toList ++ [')']) ++ r)) :=
    leads_of_solid hb (solid_cons rfl (by decide))
  rw [hg.base_of_ordinary (keyword_of_leads hlead (by decide) primaryWords.2.2.2.2.2),
    primary_of_paren hlead]
  exact hg.parenthesized e he b r hb hr hlength

/-- What may stand right behind an atom. -/
def Beside (e : Expr) (r : List Char) : Prop :=
  endsBefore isNameChar r = true ∧ (e.needsShield = true → endsBefore (· == '.') r = true)

theorem Faithful.base_atom (hg : g.Faithful n) {e : Expr} (he : (Node.expr e).AllPrintable)
    (hatom : e.isAtom = true) : Reads g.base (n + 1) (Beside e) (e.print 0).toList (.ok e) := by
  intro b r hb hr hlength
  obtain ⟨hfunction, hthis, hnull, htrue, hfalse, hnew⟩ := primaryWords
  have hsign : ∀ {c : Char} {t : List Char}, isNameStart c = false → isBlank c = false → c ≠ '/' →
      Leads c (b ++ c :: t) ∧ g.base (b ++ c :: t) = g.primary (b ++ c :: t) := by
    intro c t hc hblank hslash
    have hlead := leads_of_solid (s := t) hb (solid_cons hblank hslash)
    exact ⟨hlead, hg.base_of_ordinary (keyword_of_leads hlead hc hnew)⟩
  have hword : ∀ {w : String} {t : List Char}, IsWord w → w ≠ "new" →
      endsBefore isNameChar t = true →
      Opens w (b ++ (w.toList ++ t)) t ∧ g.base (b ++ (w.toList ++ t)) = g.primary (b ++ (w.toList ++ t)) := by
    intro w t hw hne ht
    have hopens := Opens.of_word hw hb ht
    refine ⟨hopens, hg.base_of_ordinary ?_⟩
    rw [hopens.keyword hnew.all, if_neg (Ne.symm hne)]
  cases e with
  | num v =>
      obtain ⟨hnumeral, hreads⟩ := he.literal
      have hread := number_numeral hb hnumeral hr.1 (hr.2 rfl)
      have hvalue := numberValue_numeral hnumeral hreads
      obtain ⟨whole, hne, hdigits, hform⟩ := hnumeral
      have hcons : ∃ d t, d.isDigit = true ∧ (Number.text v).toList = d :: t := by
        cases whole with
        | nil => exact absurd rfl hne
        | cons d whole =>
            rw [List.all_cons, Bool.and_eq_true] at hdigits
            rcases hform with hform | ⟨fraction, -, hform⟩
            · exact ⟨d, whole, hdigits.1, hform⟩
            · exact ⟨d, _, hdigits.1, hform⟩
      obtain ⟨d, t, hd, htext⟩ := hcons
      have hname := isNameChar_of_isDigit hd
      have hstart := (leads_of_opening_sign (.inr (.inl hd)) t).2
      obtain ⟨hlead, hbase⟩ := hsign (t := t ++ r) hstart (isBlank_of_isNameChar hname)
        (ne_slash_of_isNameChar hname)
      rw [Expr.print]
      rw [htext, List.cons_append] at hread ⊢
      rw [hbase, primary_of_sign hlead hstart, hread, ← htext]
      simp [hvalue, Except.map]
  | str v =>
      obtain ⟨body, hstring, hvalue⟩ := string_quote hb v r
      have hlead := leads_of_quote hb v r
      rw [Expr.print, hg.base_of_ordinary (keyword_of_leads hlead (by decide) hnew),
        primary_of_sign hlead (by decide), hlead.number (by decide) (by decide), hstring]
      simp [hvalue, Except.map]
  | bool v =>
      cases v with
      | true =>
          obtain ⟨hopens, hbase⟩ := hword htrue (by decide) hr.1
          exact hbase.trans (primary_of_word hopens)
      | false =>
          obtain ⟨hopens, hbase⟩ := hword hfalse (by decide) hr.1
          exact hbase.trans (primary_of_word hopens)
  | null =>
      obtain ⟨hopens, hbase⟩ := hword hnull (by decide) hr.1
      exact hbase.trans (primary_of_word hopens)
  | this =>
      obtain ⟨hopens, hbase⟩ := hword hthis (by decide) hr.1
      exact hbase.trans (primary_of_word hopens)
  | ident name =>
      have hname : IsName name := he.formed
      have hne : ∀ w ∈ reserved, name ≠ w := fun w hw heq => hname.2 (heq ▸ hw)
      obtain ⟨hopens, hbase⟩ := hword hname.1 (hne _ (by decide)) hr.1
      rw [Expr.print, hbase, primary_of_word hopens, if_neg (hne _ (by decide)),
        if_neg (hne _ (by decide)), if_neg (hne _ (by decide)), if_neg (hne _ (by decide)),
        if_neg (hne _ (by decide)), if_neg hname.2]
  | array elements =>
      have hread := hg.arrayLiteral he b r hb trivial hlength
      have hcons : ((Expr.array elements).print 0).toList =
          '[' :: ((commas (printExprs elements)).toList ++ [']']) := by
        simp [Expr.print]
      rw [hcons, List.cons_append] at hread ⊢
      obtain ⟨hlead, hbase⟩ := hsign (c := '[') (by decide) rfl (by decide)
      rw [hbase, primary_of_bracket hlead, hread]
  | object props =>
      have hread := hg.objectLiteral he b r hb trivial hlength
      have hcons : ∃ t, ((Expr.object props).print 0).toList = '\x7b' :: t := by
        cases props <;> exact ⟨_, by simp only [Expr.print, String.toList_append]; rfl⟩
      obtain ⟨t, hcons⟩ := hcons
      rw [hcons, List.cons_append] at hread ⊢
      obtain ⟨hlead, hbase⟩ := hsign (c := '\x7b') (by decide) rfl (by decide)
      rw [hbase, primary_of_brace hlead, hread]
  | function f =>
      have hread := hg.functionExpr he b r hb trivial hlength
      change g.functionExpr (b ++ ((fold (f.print 0)).toList ++ r)) = _ at hread
      change g.base (b ++ ((fold (f.print 0)).toList ++ r)) = _
      rw [fold_print_func he.formed, List.append_assoc] at hread ⊢
      obtain ⟨hopens, hbase⟩ := hword hfunction (by decide)
        (t := nameText f.name ++ f.tailText true 0 ++ r) (by cases f.name <;> rfl)
      rw [hbase, primary_of_word hopens, if_pos rfl, hread]
  | construct callee args =>
      rw [base, oneOf_cons, hg.construction callee args he b r hb trivial hlength]
      rfl
  | _ => cases hatom

/-! ## Suffixes -/

/-- The suffixes of a call, or those of a callee of `new`. -/
def suffixOf (g : Grammar) (calls : Bool) : Rule Suffix :=
  if calls then oneOf [g.callSuffix, memberSuffix, g.indexSuffix]
  else oneOf [memberSuffix, g.indexSuffix]

theorem suffixOf_refused {calls : Bool} (hcall : calls = true → mark "(" s = none)
    (hmember : mark "." s = none) (hindex : mark "[" s = none) : g.suffixOf calls s = none := by
  cases calls with
  | true =>
      simp [suffixOf, oneOf_cons, oneOf_nil, callSuffix, Grammar.arguments, memberSuffix, indexSuffix,
        between, hcall rfl, hmember, hindex]
  | false =>
      simp [suffixOf, oneOf_cons, oneOf_nil, memberSuffix, indexSuffix, between, hmember, hindex]

theorem suffixOf_member (calls : Bool) {property : String} (hword : IsWord property)
    (hr : endsBefore isNameChar r = true) :
    g.suffixOf calls ('.' :: (property.toList ++ r)) = some (.member property, r) := by
  have hname := (Opens.of_word (b := []) hword blank_nil hr).propertyName
  rw [List.nil_append] at hname
  have hread : memberSuffix ('.' :: (property.toList ++ r)) = some (.member property, r) := by
    simp [memberSuffix, mark_head (c := '.') "." rfl rfl (by decide), hname]
  have hcall : mark "(" ('.' :: (property.toList ++ r)) = none :=
    (leads_cons rfl (by decide)).mark (by simp) (by simp)
  cases calls <;>
    simp [suffixOf, oneOf_cons, callSuffix, Grammar.arguments, hcall, hread]

theorem Faithful.suffixOf_index (hg : g.Faithful n) (calls : Bool) {key : Expr}
    (hkey : (Node.expr key).AllPrintable) (hlength : (key.print 0).toList.length + r.length + 1 ≤ n) :
    g.suffixOf calls ('[' :: ((key.print 0).toList ++ ']' :: r)) = some (.index (.ok key), r) := by
  have hlead : Leads '[' ('[' :: ((key.print 0).toList ++ ']' :: r)) := leads_cons rfl (by decide)
  have hexpr := hg.expression key hkey [] (']' :: r) blank_nil
    (Follow.close (b := []) blank_nil (by simp) r) (by simp; omega)
  rw [List.nil_append] at hexpr
  have hread : g.indexSuffix ('[' :: ((key.print 0).toList ++ ']' :: r)) =
      some (.index (.ok key), r) := by
    simp [indexSuffix, between, mark_head (c := '[') "[" rfl rfl (by decide), hexpr,
      mark_head (c := ']') "]" rfl rfl (by decide)]
  cases calls <;>
    simp [suffixOf, oneOf_cons, callSuffix, Grammar.arguments, memberSuffix,
      (hlead.mark (by simp) (by simp) : mark "(" _ = none), (hlead.mark (by simp) (by simp) : mark "." _ = none), hread]

/-- The arguments of a call in parentheses. -/
def argumentsText (args : List Expr) : List Char :=
  '(' :: (commaText (args.map fun e => (e.print 2).toList) ++ [')'])

theorem toList_arguments (args : List Expr) :
    ("(" ++ commas (printExprs args) ++ ")" : String).toList = argumentsText args := by
  simp only [String.toList_append, toList_commas, printExprs_eq, List.map_map]
  rfl

theorem Faithful.arguments (hg : g.Faithful n) {args : List Expr}
    (hargs : ∀ e ∈ args, (Node.expr e).AllPrintable) :
    Reads g.arguments (n + 1) (fun _ => True) (argumentsText args) (args.map .ok) := by
  intro b r hb _ hlength
  simp only [argumentsText, List.length_cons, List.length_append, List.length_nil] at hlength
  have hlead : Leads ')' (')' :: r) := leads_cons rfl (by decide)
  have hlist := reads_list (r := ')' :: r) (G := fun r => Follow 2 r ∧ mark "," r = none) hg.bound
    (fun e he => hg.assignment e (hargs e he)) Follow.comma_cons (fun _ h => h)
    ⟨Follow.close (b := []) blank_nil (by simp) r, hlead.mark (by simp) (by simp)⟩
    (hg.barren _ (Barren.of_leads hlead (by simp))) (by simp only [List.length_cons]; omega)
  simp only [argumentsText, List.append_assoc, List.cons_append, List.nil_append] at hlist ⊢
  simp only [Grammar.arguments, mark_blank_append hb, mark_head (c := '(') "(" rfl rfl (by decide),
    Option.bind_eq_bind, Option.bind_some, hlist, mark_head (c := ')') ")" rfl rfl (by decide)]
  rfl

theorem Faithful.suffixOf_call (hg : g.Faithful n) {args : List Expr}
    (hargs : ∀ e ∈ args, (Node.expr e).AllPrintable)
    (hlength : (argumentsText args).length + r.length ≤ n + 1) :
    g.suffixOf true (argumentsText args ++ r) = some (.call (args.map .ok), r) := by
  have hread := hg.arguments hargs [] r blank_nil trivial (by simpa using hlength)
  rw [List.nil_append] at hread
  simp [suffixOf, oneOf_cons, callSuffix, hread]

/-! ## An operand and the suffixes behind it -/

/-- Behind the object that the rule for bases finds, the other suffixes bring the expression back,
whatever comes after them. -/
def Spine (g : Grammar) (calls : Bool) (e : Expr) (s r : List Char) : Prop :=
  ∃ (o : Expr) (s' : List Char) (ss : List Suffix), g.base s = some (.ok o, s') ∧
    s'.length < s.length ∧ ss.foldl Suffix.apply (.ok o) = .ok e ∧
    ∀ more r', Repeats (g.suffixOf calls) r more r' → Repeats (g.suffixOf calls) s' (ss ++ more) r'

theorem Spine.of_base {calls : Bool} {e : Expr} (h : g.base s = some (.ok e, r))
    (hlength : r.length < s.length) : Spine g calls e s r :=
  ⟨e, r, [], h, hlength, rfl, fun _ _ hmore => hmore⟩

/-- One more suffix. -/
theorem Spine.snoc {calls : Bool} {e e' : Expr} {suffix : Suffix} {t : List Char}
    (h : Spine g calls e s t) (hsuffix : g.suffixOf calls t = some (suffix, r))
    (hlength : r.length < t.length) (happly : Suffix.apply (.ok e) suffix = .ok e') :
    Spine g calls e' s r := by
  obtain ⟨o, s', ss, hbase, hshort, hfold, hrest⟩ := h
  refine ⟨o, s', ss ++ [suffix], hbase, hshort, ?_, fun more r' hmore => ?_⟩
  · rw [List.foldl_append, hfold]
    exact happly
  · rw [List.append_assoc]
    exact hrest (suffix :: more) r' (.turn hsuffix hlength hmore)

/-- A base with the suffixes of an expression in front of a text that adds none. -/
theorem Spine.suffixed {calls : Bool} {e : Expr} (h : Spine g calls e s r)
    (hstop : g.suffixOf calls r = none) (hlength : s.length ≤ g.bound + 1) :
    g.suffixed (g.suffixOf calls) s = some (.ok e, r) := by
  obtain ⟨o, s', ss, hbase, hshort, hfold, hrest⟩ := h
  have hmany := (hrest [] r (.stop hstop))
  rw [List.append_nil] at hmany
  have hread := hmany.many (n := g.bound) (by
    have := hmany.length_le
    omega)
  simp [Grammar.suffixed, hbase, hread, hfold]

/-- A printed operand with suffixes.  The callee of a `new` must not have a call among them. -/
theorem Faithful.spine (hg : g.Faithful n) (calls : Bool) (e : Expr)
    (he : (Node.expr e).AllPrintable) (hcalls : calls = false → e.chainRoot.isCall = false) {l : Nat}
    (hl : 17 ≤ l) (hl' : l ≤ 18) {b r : List Char} (hb : Blank b) (hr : endsBefore isNameChar r = true)
    (hpoint : e.needsShield = true → endsBefore (· == '.') r = true)
    (hlength : b.length + (e.print l).toList.length + r.length ≤ n + 1) :
    Spine g calls e (b ++ ((e.print l).toList ++ r)) r := by
  have hparen : ∀ (e : Expr) (r : List Char), (Node.expr e).AllPrintable →
      b.length + ('(' :: ((e.print 0).toList ++ [')'])).length + r.length ≤ n + 1 →
      Spine g calls e (b ++ ('(' :: ((e.print 0).toList ++ [')']) ++ r)) r := by
    intro e r he hlength
    refine .of_base (hg.base_paren he b r hb trivial hlength) ?_
    simp only [List.length_append, List.length_cons, List.length_nil]
    omega
  by_cases hlevel : e.level < l
  · rw [Expr.print_of_level_lt hlevel hl'] at hlength ⊢
    exact hparen e r he hlength
  rw [Expr.print_of_le_level (Nat.not_lt.1 hlevel) hl'] at hlength ⊢
  by_cases hatom : e.isAtom = true
  · have hread := hg.base_atom he hatom b r hb ⟨hr, hpoint⟩ hlength
    refine .of_base hread ?_
    have hpos := length_print_pos he (Nat.zero_le 18)
    simp only [List.length_append]
    omega
  have hhead : ∀ (object : Expr) (t : List Char), Node.expr object ∈ (Node.expr e).children →
      sizeOf object < sizeOf e → (calls = false → object.chainRoot.isCall = false) →
      endsBefore isNameChar t = true →
      b.length + (if object.needsShield then "(" ++ object.print 0 ++ ")" else object.print 17).toList.length
        + t.length ≤ n + 1 →
      Spine g calls object (b ++
        ((if object.needsShield then "(" ++ object.print 0 ++ ")" else object.print 17).toList ++ t)) t := by
    intro object t hmem hsize hroot ht hlength
    cases hshield : object.needsShield with
    | true =>
        simp only [hshield, if_true, String.toList_append, List.append_assoc] at hlength ⊢
        have := hparen object t (he.child hmem)
        simp only [List.append_assoc, List.cons_append] at this
        exact this (by simpa using hlength)
    | false =>
        simp only [hshield] at hlength
        exact hg.spine calls object (he.child hmem) hroot (by decide) (by decide) hb ht
          (fun h => absurd (hshield ▸ h) (by decide)) hlength
  have hargs : ∀ args : List Expr, (∀ x ∈ args, Node.expr x ∈ (Node.expr e).children) →
      ∀ x ∈ args, (Node.expr x).AllPrintable := fun args hmem x hx => he.child (hmem x hx)
  cases e with
  | call callee args =>
      have hroot : calls = true := by
        cases calls with
        | true => rfl
        | false => simp [Expr.chainRoot, Expr.isCall] at hcalls
      subst hroot
      have hprint : ((Expr.call callee args).print 0).toList =
          (callee.print 17).toList ++ argumentsText args := by
        rw [Expr.print, ← toList_arguments]
        simp only [String.toList_append, List.append_assoc]
      rw [hprint, List.length_append] at hlength
      rw [hprint, List.append_assoc]
      have hobject := hg.spine true callee (he.child List.mem_cons_self) (by simp)
        (l := 17) (by decide) (by decide) hb (r := argumentsText args ++ r) rfl (fun _ => rfl)
        (by simp only [List.length_append]; omega)
      refine hobject.snoc (hg.suffixOf_call (hargs args fun x hx =>
        List.mem_cons_of_mem _ (List.mem_map.2 ⟨x, hx, rfl⟩)) (by omega)) ?_ ?_
      · simp [argumentsText]
        omega
      · simp [Suffix.apply, Built.all_ok]
        rfl
  | member object property =>
      have hword : IsWord property := he.formed
      simp only [Expr.print, String.toList_append, List.length_append, List.append_assoc] at hlength ⊢
      have hobject := hhead object ('.' :: (property.toList ++ r)) List.mem_cons_self (by simp; omega)
        hcalls rfl (by simp only [List.length_cons, List.length_append]; simp at hlength <;> omega)
      refine hobject.snoc (suffixOf_member calls hword hr) (by rw [List.length_cons, List.length_append]; omega) rfl
  | index object key =>
      have hkey := he.child (c := .expr key) (by simp [Node.children, Node.childrenOfExpr])
      simp only [Expr.print, String.toList_append, List.length_append, List.append_assoc] at hlength ⊢
      have hobject := hhead object ('[' :: ((key.print 0).toList ++ ']' :: r)) List.mem_cons_self
        (by simp; omega) hcalls rfl
        (by simp only [List.length_cons, List.length_append]; simp at hlength; omega)
      refine hobject.snoc (hg.suffixOf_index calls hkey (by simp at hlength; omega)) (by simp; omega) rfl
  | binary op left right => cases op <;> simp [Expr.level, BinaryOp.level] at hlevel <;> omega
  | logical op left right => cases op <;> simp [Expr.level, LogicalOp.level] at hlevel <;> omega
  | update op before arg => cases before <;> simp [Expr.level] at hlevel <;> omega
  | _ => first
    | exact absurd rfl hatom
    | (simp [Expr.level] at hlevel; omega)
termination_by sizeOf e

/-! ## Calls and constructions -/

theorem Faithful.callExpr (hg : g.Faithful n) (e : Expr) (he : (Node.expr e).AllPrintable) {l : Nat}
    (hl : 17 ≤ l) (hl' : l ≤ 18) : Reads g.callExpr (n + 1) Bare (e.print l).toList (.ok e) := by
  intro b r hb hr hlength
  have hpoint : endsBefore (· == '.') r = true := by
    cases r with
    | nil => rfl
    | cons c r =>
        rw [endsBefore, Bool.not_eq_true', beq_eq_false_iff_ne]
        rintro rfl
        have hmember := hr.member
        rw [mark_head (c := '.') "." rfl rfl (by decide)] at hmember
        cases hmember
  have hspine := hg.spine true e he (by simp) hl hl' hb hr.apart (fun _ => hpoint) hlength
  refine hspine.suffixed (suffixOf_refused (fun _ => hr.call) hr.member hr.index) ?_
  have := hg.bound
  simp only [List.length_append]
  omega

theorem Faithful.newExpr (hg : g.Faithful n) (callee : Expr) (args : List Expr)
    (he : (Node.expr (.construct callee args)).AllPrintable) :
    Reads g.newExpr (n + 2) (fun _ => True) ((Expr.construct callee args).print 0).toList
      (.ok (.construct callee args)) := by
  intro b r hb _ hlength
  have hcallee : (Node.expr callee).AllPrintable := he.child List.mem_cons_self
  have hargs : ∀ x ∈ args, (Node.expr x).AllPrintable := fun x hx =>
    he.child (List.mem_cons_of_mem _ (List.mem_map.2 ⟨x, hx, rfl⟩))
  have hroot : callee.isCall = false → callee.chainRoot.isCall = false := by
    intro hcall
    have hchain := he.constructor
    cases callee <;> simp_all [Expr.isChainOverCall, Expr.isProperty, Expr.chainRoot]
  have hprint : ((Expr.construct callee args).print 0).toList = "new".toList ++ ([' '] ++
      ((if callee.isCall then "(" ++ callee.print 0 ++ ")" else callee.print 18).toList ++
        argumentsText args)) := by
    rw [Expr.print, ← toList_arguments]
    simp only [String.toList_append, List.append_assoc]
    rfl
  have hnew : ("new".toList).length = 3 := rfl
  rw [hprint] at hlength ⊢
  simp only [List.length_append, List.length_cons, List.length_nil, hnew] at hlength
  have hspine : Spine g false callee ([' '] ++
      ((if callee.isCall then "(" ++ callee.print 0 ++ ")" else callee.print 18).toList ++
        (argumentsText args ++ r))) (argumentsText args ++ r) := by
    cases hcall : callee.isCall with
    | true =>
        simp only [hcall, if_true, String.toList_append, List.append_assoc] at hlength ⊢
        have hread := hg.base_paren hcallee [' '] (argumentsText args ++ r) blank_space trivial
          (by simp at hlength ⊢; omega)
        simp only [List.append_assoc, List.cons_append] at hread
        exact .of_base hread (by simp; omega)
    | false =>
        simp only [hcall] at hlength ⊢
        exact hg.spine false callee hcallee (fun _ => hroot hcall) (by decide) (by decide)
          blank_space rfl (fun _ => rfl)
          (by simp at hlength ⊢; omega)
  have hlead : Leads '(' (argumentsText args ++ r) := leads_cons rfl (by decide)
  have hread := hspine.suffixed (suffixOf_refused (by simp) (hlead.mark (by simp) (by simp))
    (hlead.mark (by simp) (by simp))) (by
      have := hg.bound
      simp only [List.length_append, List.length_cons, List.length_nil] at hlength ⊢
      omega)
  have harguments := hg.arguments hargs [] r blank_nil trivial
    (by simp only [List.length_nil]; omega)
  have hkeyword : ∀ t, endsBefore isNameChar t = true →
      keyword "new" (b ++ ("new".toList ++ t)) = some t :=
    fun t ht => keyword_word primaryWords.2.2.2.2.2 hb ht
  have hsuffixes : g.suffixOf false = oneOf [memberSuffix, g.indexSuffix] := rfl
  rw [hsuffixes] at hread
  simp only [List.append_assoc, List.nil_append] at hread harguments ⊢
  rw [Grammar.newExpr, hkeyword _ rfl]
  simp only [hread, Option.bind_eq_bind, Option.bind_some, optional_some harguments, Option.getD_some,
    Built.all_ok]
  rfl

/-! ## Operators behind and in front -/

theorem print_succ {e : Expr} {l : Nat} (h : e.level ≠ l) (hl : l < 18) : e.print (l + 1) = e.print l := by
  rw [Expr.print_eq_fit e hl, Expr.print_eq_fit e (Nat.le_of_lt hl)]
  by_cases hlevel : e.level < l
  · rw [if_pos hlevel, if_pos (Nat.lt_succ_of_lt hlevel)]
  · rw [if_neg hlevel, if_neg (by omega)]

theorem level_ne_fourteen (e : Expr) : e.level ≠ 14 := by
  cases e with
  | update op before arg => cases before <;> simp [Expr.level]
  | binary op left right => cases op <;> simp [Expr.level, BinaryOp.level]
  | logical op left right => cases op <;> simp [Expr.level, LogicalOp.level]
  | _ => simp [Expr.level]

theorem eq_update_of_level {e : Expr} (h : e.level = 16) : ∃ op arg, e = .update op false arg := by
  cases e with
  | update op before arg =>
      cases before with
      | true => simp [Expr.level] at h
      | false => exact ⟨op, arg, rfl⟩
  | binary op left right => cases op <;> simp [Expr.level, BinaryOp.level] at h
  | logical op left right => cases op <;> simp [Expr.level, LogicalOp.level] at h
  | _ => simp [Expr.level] at h

theorem updateMark_refused {k : Nat} (h : Follow k r) : updateMark r = none := by
  simp [updateMark, oneOf_cons, oneOf_nil, h.increment, h.decrement]

theorem updateMark_symbol (op : UpdateOp) (r : List Char) :
    updateMark (op.symbol.toList ++ r) = some (op, r) ∧ Bare (op.symbol.toList ++ r) := by
  have hplus : ∀ t, Solid ('+' :: t) := fun t => solid_cons rfl (by decide)
  have hminus : ∀ t, Solid ('-' :: t) := fun t => solid_cons rfl (by decide)
  cases op with
  | increment =>
      have hlead : Leads '+' (UpdateOp.increment.symbol.toList ++ r) := ⟨_, hplus _⟩
      refine ⟨?_, rfl, hlead.mark (by simp) (by simp), hlead.mark (by simp) (by simp),
        hlead.mark (by simp) (by simp)⟩
      simp [updateMark, oneOf_cons, UpdateOp.symbol, mark_solid (hplus _), after?]
  | decrement =>
      have hlead : Leads '-' (UpdateOp.decrement.symbol.toList ++ r) := ⟨_, hminus _⟩
      refine ⟨?_, rfl, hlead.mark (by simp) (by simp), hlead.mark (by simp) (by simp),
        hlead.mark (by simp) (by simp)⟩
      simp [updateMark, oneOf_cons, UpdateOp.symbol, mark_solid (hminus _), after?]

theorem Faithful.updated (hg : g.Faithful n) (e : Expr) (he : (Node.expr e).AllPrintable) :
    Reads g.updated (n + 1) (Follow 14) (e.print 16).toList (.ok e) := by
  intro b r hb hr hlength
  by_cases hlevel : e.level = 16
  · obtain ⟨op, arg, rfl⟩ := eq_update_of_level hlevel
    have harg : (Node.expr arg).AllPrintable := he.child List.mem_cons_self
    have hreference : arg.isReference = true := he.formed
    have hprint : ((Expr.update op false arg).print 16).toList =
        (arg.print 17).toList ++ op.symbol.toList := String.toList_append
    obtain ⟨hmark, hbare⟩ := updateMark_symbol op r
    rw [hprint, List.length_append] at hlength
    rw [hprint, List.append_assoc, Grammar.updated, hg.callExpr arg harg (by decide) (by decide) b
      (op.symbol.toList ++ r) hb hbare (by simp only [List.length_append]; omega)]
    simp only [Option.bind_eq_bind, Option.bind_some, optional_some hmark]
    change some (updateOf op false arg, r) = _
    rw [updateOf, if_pos hreference]
  · rw [← print_succ hlevel (by decide)] at hlength ⊢
    rw [Grammar.updated, hg.callExpr e he (by decide) (by decide) b r hb hr.bare hlength]
    simp only [Option.bind_eq_bind, Option.bind_some, optional_none (updateMark_refused hr)]
    rfl

end Grammar

end Resumption.Script
