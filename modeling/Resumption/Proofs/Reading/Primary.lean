import Resumption.Proofs.Reading.Operand

/-!
# Printed literals

Everything that needs no operator: numbers, strings, names, arrays, objects and functions.  The one
knot is a property whose key begins like the word of an accessor; it is undone because a key, cut
anywhere, is never followed by parameters.
-/

namespace Resumption.Script

open Lexeme Rule Printer

variable {g : Grammar} {n m : Nat} {b r s t : List Char} {c : Char}

/-! ## Numbers are cut off as they stand -/

/-- The characters a number may consist of. -/
def isNumberChar (c : Char) : Bool := isNameChar c || c == '.' || c == '+' || c == '-'

namespace Lexeme

theorem run_eq_some {test : Char → Bool} {ds : List Char} (h : run test s = some (ds, r)) :
    s = ds ++ r ∧ ds.all test = true := by
  unfold run at h
  rw [List.span_eq_takeWhile_dropWhile] at h
  split at h
  · cases h
  · cases h
    exact ⟨(List.takeWhile_append_dropWhile).symm, by simp [List.all_takeWhile]⟩

theorem isNumberChar_of_isDigit (h : c.isDigit = true) : isNumberChar c = true := by
  simp [isNumberChar, isNameChar_of_isDigit h]

theorem all_isNumberChar_of_digits {ds : List Char} (h : ds.all Char.isDigit = true) :
    ds.all isNumberChar = true := by
  simp only [List.all_eq_true] at h ⊢
  exact fun c hc => isNumberChar_of_isDigit (h c hc)

theorem isNameChar_of_isHexDigit (h : isHexDigit c = true) : isNameChar c = true := by
  unfold isHexDigit Number.digit? at h
  dsimp only at h
  split_ifs at h with h₁ h₂ h₃
  · refine isNameChar_of_isDigit ?_
    simp only [Char.isDigit, Bool.and_eq_true, decide_eq_true_eq]
    exact h₁
  · have halpha : c.isAlpha = true := isAlpha_iff.2 (.inr (isLower_iff_toNat.2 h₂))
    simp [isNameChar, Char.isAlphanum, halpha]
  · have halpha : c.isAlpha = true := isAlpha_iff.2 (.inl (isUpper_iff_toNat.2 h₃))
    simp [isNameChar, Char.isAlphanum, halpha]
  · cases h

/-- The part of an exponent behind its letter and sign. -/
theorem exponentDigits_spec {e : Char} (he : isNumberChar e = true) (sign : List Char)
    {more rest : List Char} (hsign : sign.all isNumberChar = true) (hrest : rest = sign ++ more) {part : List Char × List Char}
    (hpart : (match run Char.isDigit more with
      | some (digits, rest) => (e :: sign ++ digits, rest)
      | none => ([], e :: rest)) = part) :
    e :: rest = part.1 ++ part.2 ∧ part.1.all isNumberChar = true := by
  subst hrest hpart
  split
  · rename_i digits rest' hrun
    obtain ⟨rfl, hdigits⟩ := run_eq_some hrun
    refine ⟨by simp, ?_⟩
    rw [List.cons_append, List.all_cons, List.all_append, he, hsign,
      all_isNumberChar_of_digits hdigits]
    rfl
  · exact ⟨rfl, rfl⟩

theorem exponent_spec (s : List Char) :
    s = (exponent s).1 ++ (exponent s).2 ∧ (exponent s).1.all isNumberChar = true := by
  unfold exponent
  split
  · exact ⟨rfl, rfl⟩
  · rename_i e rest
    split_ifs with he
    · have hchar : isNumberChar e = true := by
        simp only [Bool.or_eq_true, beq_iff_eq] at he
        rcases he with rfl | rfl <;> decide
      cases rest with
      | nil => exact exponentDigits_spec hchar [] rfl rfl rfl
      | cons c more =>
          dsimp only
          split_ifs with hsign
          · refine exponentDigits_spec hchar [c] ?_ rfl rfl
            simp only [Bool.or_eq_true, beq_iff_eq] at hsign
            rcases hsign with rfl | rfl <;> decide
          · exact exponentDigits_spec hchar [] rfl rfl rfl
    · exact ⟨rfl, rfl⟩

/-- A number consists of the first characters of the text and of none that is not part of one. -/
theorem number_spec {ds : List Char} (h : number s = some (ds, r)) :
    skip s = ds ++ r ∧ ds.all isNumberChar = true := by
  unfold number at h
  dsimp only at h
  rw [Option.or_eq_some_iff] at h
  rcases h with h | ⟨-, h⟩
  · unfold hexNumber at h
    split at h
    · rename_i x rest heq
      split_ifs at h with hx
      · obtain ⟨⟨digits, rest'⟩, hrun, hpair⟩ := Option.map_eq_some_iff.1 h
        cases hpair
        obtain ⟨rfl, hdigits⟩ := run_eq_some hrun
        refine ⟨heq, ?_⟩
        have hchar : isNumberChar x = true := by
          simp only [Bool.or_eq_true, beq_iff_eq] at hx
          rcases hx with rfl | rfl <;> decide
        have hall : digits.all isNumberChar = true := by
          simp only [List.all_eq_true] at hdigits ⊢
          exact fun c hc => by simp [isNumberChar, isNameChar_of_isHexDigit (hdigits c hc)]
        rw [List.all_cons, List.all_cons, hchar, hall]
        rfl
    · cases h
  · unfold decimalNumber at h
    dsimp only at h
    obtain ⟨⟨body, rest⟩, hbody, hpair⟩ := Option.map_eq_some_iff.1 h
    cases hpair
    have hexponent := exponent_spec rest
    suffices hmain : skip s = body ++ rest ∧ body.all isNumberChar = true by
      refine ⟨?_, ?_⟩
      · rw [List.append_assoc, ← hexponent.1]
        exact hmain.1
      · rw [List.all_append, hmain.2, hexponent.2]
        rfl
    split at hbody
    · rename_i whole rest' hrun
      obtain ⟨hskip, hwhole⟩ := run_eq_some hrun
      cases hbody
      rw [List.span_eq_takeWhile_dropWhile]
      refine ⟨by rw [hskip]; simp [List.takeWhile_append_dropWhile], ?_⟩
      have hfraction : (rest'.takeWhile Char.isDigit).all isNumberChar = true :=
        all_isNumberChar_of_digits (by simp [List.all_takeWhile])
      rw [List.all_append, all_isNumberChar_of_digits hwhole, List.all_cons, hfraction]
      rfl
    · rename_i found hrun
      cases hbody
      obtain ⟨hskip, hall⟩ := run_eq_some hrun
      exact ⟨hskip, all_isNumberChar_of_digits hall⟩
    · split at hbody
      · rename_i rest' heq
        obtain ⟨⟨digits, rest''⟩, hrun, hpair⟩ := Option.map_eq_some_iff.1 hbody
        cases hpair
        obtain ⟨rfl, hdigits⟩ := run_eq_some hrun
        refine ⟨heq, ?_⟩
        rw [List.all_cons, all_isNumberChar_of_digits hdigits]
        rfl
      · cases hbody

end Lexeme

/-! ## Properties -/

theorem leads_of_quote (hb : Blank b) (text : String) (r : List Char) :
    Leads '"' (b ++ ((Text.quote text).toList ++ r)) := by
  rw [Text.quote, String.toList_ofList]
  exact leads_of_solid hb (solid_cons rfl (by decide))

/-- A printed key is a word or a quotation. -/
theorem key_cases (name : String) :
    (IsWord name ∧ key name = name) ∨ key name = Text.quote name := by
  unfold key
  split
  · exact .inr rfl
  · rename_i c rest heq
    split_ifs with hname
    · rw [Bool.and_eq_true] at hname
      exact .inl ⟨⟨c, rest, heq, hname⟩, rfl⟩
    · exact .inr rfl

namespace Grammar

theorem propertyKey_key (name : String) (hb : Blank b) (hr : endsBefore isNameChar r = true) :
    propertyKey (b ++ ((key name).toList ++ r)) = some (.ok name, r) := by
  rcases key_cases name with ⟨hname, hkey⟩ | hkey
  · rw [hkey, propertyKey, oneOf_cons, (Opens.of_word hname hb hr).propertyName]
    rfl
  · obtain ⟨body, hstring, hvalue⟩ := string_quote hb name r
    rw [hkey, propertyKey, oneOf_cons, oneOf_cons, hstring,
      (leads_of_quote hb name r).propertyName (by decide)]
    simp [hvalue]

/-- Wherever a key ends inside of a name and a colon, no parameters follow. -/
theorem mark_paren_of_suffix {w : List Char} (hw : w.all isNameChar = true) (t : List Char) :
    mark "(" (w ++ ':' :: t) = none := by
  cases w with
  | nil => exact (leads_cons (c := ':') rfl (by decide)).mark (by simp) (by simp)
  | cons d w =>
      rw [List.all_cons, Bool.and_eq_true] at hw
      refine (leads_cons (isBlank_of_isNameChar hw.1) (ne_slash_of_isNameChar hw.1)).mark (by simp) ?_
      rintro hhead
      obtain rfl : '(' = d := by simpa using hhead
      exact absurd hw.1 (by decide)

theorem propertyKey_of_suffix {w : List Char} (hw : w.all isNameChar = true) {t rest : List Char}
    {k : Built String} (h : propertyKey (w ++ ':' :: t) = some (k, rest)) : mark "(" rest = none := by
  have hsolid : Solid (w ++ ':' :: t) := by
    cases w with
    | nil => exact solid_cons rfl (by decide)
    | cons d w =>
        rw [List.all_cons, Bool.and_eq_true] at hw
        exact solid_cons (isBlank_of_isNameChar hw.1) (ne_slash_of_isNameChar hw.1)
  rw [propertyKey, oneOf_cons, oneOf_cons, oneOf_cons, oneOf_nil, Option.or_none] at h
  rcases Option.or_eq_some_iff.1 h with h | ⟨-, h⟩
  · obtain ⟨⟨name, rest'⟩, hname, hpair⟩ := Option.map_eq_some_iff.1 h
    cases hpair
    rw [propertyName, hsolid] at hname
    cases w with
    | nil => simp [show isNameStart ':' = false by decide] at hname
    | cons d w =>
        rw [List.all_cons, Bool.and_eq_true] at hw
        have hrun := Opens.takeWhile_run (r := ':' :: t) hw.2 rfl
        simp only [List.cons_append] at hname
        split_ifs at hname
        cases hname
        rw [hrun.2]
        exact mark_paren_of_suffix (w := []) rfl t
  · rcases Option.or_eq_some_iff.1 h with h | ⟨-, h⟩
    · obtain ⟨⟨body, rest'⟩, hstring, hpair⟩ := Option.map_eq_some_iff.1 h
      cases hpair
      rw [string, hsolid] at hstring
      cases w with
      | nil => simp at hstring
      | cons d w =>
          rw [List.all_cons, Bool.and_eq_true] at hw
          have hquote : (d == '"' || d == '\x27') = false := by
            rw [Bool.eq_false_iff]
            intro hd
            simp only [Bool.or_eq_true, beq_iff_eq] at hd
            rcases hd with rfl | rfl <;> exact absurd hw.1 (by decide)
          simp [hquote] at hstring
    · obtain ⟨⟨digits, rest'⟩, hnumber, hpair⟩ := Option.map_eq_some_iff.1 h
      cases hpair
      obtain ⟨hskip, hall⟩ := number_spec hnumber
      rw [hsolid] at hskip
      rcases List.append_eq_append_iff.1 hskip with ⟨c', hdigits, hrest⟩ | ⟨c', hw', rfl⟩
      · cases c' with
        | nil =>
            rw [List.nil_append] at hrest
            rw [← hrest]
            exact mark_paren_of_suffix (w := []) rfl t
        | cons d c' =>
            obtain ⟨rfl, -⟩ := List.cons.inj hrest
            rw [hdigits, List.all_append, List.all_cons, Bool.and_eq_true, Bool.and_eq_true] at hall
            exact absurd hall.2.1 (by decide)
      · rw [hw', List.all_append, Bool.and_eq_true] at hw
        exact mark_paren_of_suffix hw.2 t

/-- A plain property is not mistaken for an accessor, whatever its key begins with. -/
theorem accessor_of_plain {word : String} (hword : word.toList.all isNameChar = true)
    (hne : word.toList ≠ []) (kind : PropKind) (params : Rule (List String)) (hb : Blank b)
    (name : String) (t : List Char) :
    g.accessor word kind params (b ++ ((key name).toList ++ ':' :: t)) = none := by
  have hrefused : ∀ {w : List Char}, w.all isNameChar = true →
      mark word (b ++ ((key name).toList ++ ':' :: t)) = some (w ++ ':' :: t) →
      g.accessor word kind params (b ++ ((key name).toList ++ ':' :: t)) = none := by
    intro w hw hmark
    rw [accessor, hmark]
    cases hk : propertyKey (w ++ ':' :: t) with
    | none => simp [hk]
    | some found =>
        obtain ⟨k, rest⟩ := found
        simp [hk, parenthesized, between, propertyKey_of_suffix hw hk]
  rcases key_cases name with ⟨hname, hkey⟩ | hkey
  · cases hmark : mark word (b ++ ((key name).toList ++ ':' :: t)) with
    | none =>
        rw [accessor, hmark]
        rfl
    | some rest =>
        have hsplit := hmark
        rw [mark, hkey, (hname.solid (':' :: t)).skip hb] at hsplit
        rcases List.append_eq_append_iff.1 (after?_eq_some hsplit) with ⟨c', hword', hrest⟩ | ⟨w, hw, rfl⟩
        · cases c' with
          | nil =>
              rw [List.nil_append] at hrest
              exact hrefused (w := []) rfl (hmark.trans (by rw [← hrest]; rfl))
          | cons d c' =>
              obtain ⟨rfl, -⟩ := List.cons.inj hrest
              rw [hword', List.all_append, List.all_cons, Bool.and_eq_true, Bool.and_eq_true] at hword
              exact absurd hword.2.1 (by decide)
        · have hall := hname.all
          rw [hw, List.all_append, Bool.and_eq_true] at hall
          exact hrefused hall.2 hmark
  · rw [accessor, hkey, (leads_of_quote hb name _).mark hne]
    · rfl
    · intro hhead
      cases hlist : word.toList with
      | nil => exact hne hlist
      | cons k ks =>
          rw [hlist] at hword hhead
          obtain rfl : k = '"' := by simpa using hhead
          rw [List.all_cons, Bool.and_eq_true] at hword
          exact absurd hword.1 (by decide)

/-- One half of an accessor, read from its word on. -/
theorem Faithful.accessor (hg : g.Faithful n) {word : String} (hword : IsWord word) (kind : PropKind)
    (rule : Rule (List String)) (params : List String) (body : List Stmt)
    (hbody : ∀ s ∈ body, (Node.stmt s).AllPrintable)
    (hparams : ∀ t, Rule.parenthesized rule ('(' :: (commaText (params.map String.toList) ++ ')' :: t)) =
      some (params, t)) (name : String) (hb : Blank b)
    (hlength : ((⟨none, params, body⟩ : Func).tailText true 0).length + r.length ≤ n) :
    g.accessor word kind rule (b ++ (word.toList ++ (' ' :: ((key name).toList ++
      ((⟨none, params, body⟩ : Func).tailText true 0 ++ r))))) =
      some (.ok ⟨name, kind, .function ⟨none, params, body⟩⟩, r) := by
  rw [Func.tailText_eq] at hlength ⊢
  simp only [List.length_cons, List.length_append] at hlength
  have hmark : ∀ t, mark word (b ++ (word.toList ++ t)) = some t := fun t => by
    rw [mark, (hword.solid t).skip hb, after?_append]
  have hkey : ∀ t, propertyKey (' ' :: ((key name).toList ++ '(' :: t)) = some (.ok name, '(' :: t) :=
    fun t => propertyKey_key (b := [' ']) name blank_space rfl
  have hbraced := hg.braced hbody true 0 [' '] r blank_space trivial
    (by simp only [List.length_cons, List.length_nil]; omega)
  simp only [List.cons_append, List.append_assoc, List.nil_append] at hbraced ⊢
  simp only [Grammar.accessor, hmark, hkey, hparams, hbraced, Option.bind_eq_bind, Option.bind_some]
  rfl

theorem Faithful.setter (hg : g.Faithful n) {param : String} (hparam : IsName param) (body : List Stmt)
    (hbody : ∀ s ∈ body, (Node.stmt s).AllPrintable) (name : String) (hb : Blank b)
    (hlength : ((⟨none, [param], body⟩ : Func).tailText true 0).length + r.length ≤ n) :
    g.accessor "set" .setter (fun s => (identifier s).map (fun (name, s) => ([name], s)))
      (b ++ ("set".toList ++ (' ' :: ((key name).toList ++
        ((⟨none, [param], body⟩ : Func).tailText true 0 ++ r))))) =
      some (.ok ⟨name, .setter, .function ⟨none, [param], body⟩⟩, r) := by
  have hname : ∀ t, identifier (param.toList ++ ')' :: t) = some (param, ')' :: t) :=
    fun t => identifier_name (b := []) hparam blank_nil rfl
  refine hg.accessor (show IsWord "set" by decide) .setter _ [param] body hbody (fun t => ?_) name hb
    hlength
  simp [Rule.parenthesized, between, commaText, mark_head (c := '(') "(" rfl rfl (by decide),
    mark_head (c := ')') ")" rfl rfl (by decide), hname]

/-- A printed property reads back, be it plain or one half of an accessor. -/
theorem Faithful.property (hg : g.Faithful n) {p : Property} (hp : (Node.property p).AllPrintable) :
    Reads g.property n (Follow 2) p.print.toList (.ok p) := by
  intro b r hb hr hlength
  obtain ⟨name, kind, value⟩ := p
  have hvalue : (Node.expr value).AllPrintable := hp.child List.mem_cons_self
  have hformed := hp.formed
  cases kind with
  | init =>
      have hprint : (Property.mk name .init value).print.toList =
          (key name).toList ++ (':' :: ' ' :: (value.print 2).toList) := by
        simp [Property.print]
      rw [hprint] at hlength ⊢
      simp only [List.length_append, List.length_cons] at hlength
      have hrest := hg.assignment value hvalue [' '] r blank_space hr
        (by simp only [List.length_cons, List.length_nil]; omega)
      have hkey := propertyKey_key (r := ':' :: ' ' :: ((value.print 2).toList ++ r)) name hb rfl
      simp only [List.append_assoc, List.cons_append, List.nil_append] at hrest ⊢
      rw [Grammar.property, oneOf_cons, oneOf_cons, oneOf_cons, oneOf_nil,
        accessor_of_plain (by decide) (by simp) _ _ hb,
        accessor_of_plain (by decide) (by simp) _ _ hb]
      simp only [Option.none_or, Option.or_none, plainProperty, hkey, Option.bind_eq_bind,
        Option.bind_some, mark_head (c := ':') ":" rfl rfl (by decide), hrest]
      rfl
  | getter =>
      obtain ⟨body, rfl⟩ := hformed
      have hprint : (Property.mk name .getter (.function ⟨none, [], body⟩)).print.toList =
          "get".toList ++ (' ' :: ((key name).toList ++ (⟨none, [], body⟩ : Func).tailText true 0)) := by
        rw [Property.print, String.toList_append, String.toList_append,
          dropFunction_fold hvalue.formed rfl]
        simp
      rw [hprint] at hlength ⊢
      simp only [List.length_append, List.length_cons] at hlength
      have hget := hg.accessor (show IsWord "get" by decide) .getter (fun s => some ([], s)) [] body
        (fun s hs => hvalue.child (List.mem_map.2 ⟨s, hs, rfl⟩))
        (fun t => by
          simp [Rule.parenthesized, between, commaText, mark_head (c := '(') "(" rfl rfl (by decide),
            mark_head (c := ')') ")" rfl rfl (by decide)]) name hb (r := r) (by omega)
      simp only [List.append_assoc, List.cons_append] at hget ⊢
      rw [Grammar.property, oneOf_cons, hget]
      rfl
  | setter =>
      obtain ⟨param, body, rfl⟩ := hformed
      have hparam : IsName param := hvalue.formed.2 param List.mem_cons_self
      have hprint : (Property.mk name .setter (.function ⟨none, [param], body⟩)).print.toList =
          "set".toList ++ (' ' :: ((key name).toList ++
            (⟨none, [param], body⟩ : Func).tailText true 0)) := by
        rw [Property.print, String.toList_append, String.toList_append,
          dropFunction_fold hvalue.formed rfl]
        simp
      rw [hprint] at hlength ⊢
      simp only [List.length_append, List.length_cons] at hlength
      have hset := hg.setter hparam body (fun s hs => hvalue.child (List.mem_map.2 ⟨s, hs, rfl⟩)) name
        hb (r := r) (by omega)
      have hword : ∀ t, mark "get" (b ++ ("set".toList ++ t)) = none := fun t => by
        rw [mark_blank_append hb]
        exact (leads_cons (c := 's') rfl (by decide)).mark (by simp) (by simp)
      simp only [List.append_assoc, List.cons_append] at hset ⊢
      rw [Grammar.property, oneOf_cons, oneOf_cons, hset, Grammar.accessor, hword]
      rfl

/-! ## Literals -/

theorem list_trailing {list : List Char} (h : mark "," list = none) : (mark "," list).getD list = list := by
  rw [h]
  rfl

theorem Faithful.arrayLiteral (hg : g.Faithful n) {elements : List Expr}
    (h : (Node.expr (.array elements)).AllPrintable) :
    Reads g.arrayLiteral (n + 1) (fun _ => True) ((Expr.array elements).print 0).toList
      (.ok (.array elements)) := by
  intro b r hb _ hlength
  have hprint : ((Expr.array elements).print 0).toList =
      '[' :: (commaText (elements.map fun e => (e.print 2).toList) ++ [']']) := by
    simp only [Expr.print, String.toList_append, toList_commas, printExprs_eq, List.map_map]
    rfl
  rw [hprint] at hlength ⊢
  simp only [List.length_append, List.length_cons, List.length_nil] at hlength
  have hlead : Leads ']' (']' :: r) := leads_cons rfl (by decide)
  have hlist := reads_list (r := ']' :: r) (G := fun r => Follow 2 r ∧ mark "," r = none) hg.bound
    (fun e he => hg.assignment e (h.child (List.mem_map.2 ⟨e, he, rfl⟩))) Follow.comma_cons
    (fun _ h => h) ⟨Follow.close (b := []) blank_nil (by simp) r, hlead.mark (by simp) (by simp)⟩
    (hg.barren _ (Barren.of_leads hlead (by simp))) (by simp only [List.length_cons]; omega)
  simp only [List.append_assoc, List.cons_append, List.nil_append] at hlist ⊢
  simp only [Grammar.arrayLiteral, mark_blank_append hb, mark_head (c := '[') "[" rfl rfl (by decide),
    Option.bind_eq_bind, Option.bind_some, hlist, list_trailing (hlead.mark (by simp) (by simp)),
    mark_head (c := ']') "]" rfl rfl (by decide), Built.all_ok]
  rfl

theorem property_refused {s : List Char} (h : Leads '\x7d' s) : g.property s = none := by
  have hkey : propertyKey s = none := by
    rw [propertyKey, oneOf_cons, oneOf_cons, oneOf_cons, oneOf_nil, h.propertyName (by decide),
      h.string (by decide) (by decide), h.number (by decide) (by decide)]
    rfl
  simp [Grammar.property, oneOf_cons, oneOf_nil, Grammar.accessor, plainProperty, hkey,
    (h.mark (by simp) (by simp) : mark "get" _ = none), (h.mark (by simp) (by simp) : mark "set" _ = none)]

theorem Faithful.objectLiteral (hg : g.Faithful n) {props : List Property}
    (h : (Node.expr (.object props)).AllPrintable) :
    Reads g.objectLiteral (n + 1) (fun _ => True) ((Expr.object props).print 0).toList
      (.ok (.object props)) := by
  intro b r hb _ hlength
  cases props with
  | nil =>
      have hlead : Leads '\x7d' ('\x7d' :: r) := leads_cons rfl (by decide)
      change g.objectLiteral (b ++ '\x7b' :: '\x7d' :: r) = _
      simp only [Grammar.objectLiteral, mark_blank_append hb,
        mark_head (c := '\x7b') "\x7b" rfl rfl (by decide), Option.bind_eq_bind, Option.bind_some,
        list_of_refused (property_refused hlead), list_trailing (hlead.mark (by simp) (by simp)),
        mark_head (c := '\x7d') "\x7d" rfl rfl (by decide)]
      rfl
  | cons p props =>
      have hprint : ((Expr.object (p :: props)).print 0).toList = '\x7b' :: ([' '] ++
          (commaText ((p :: props).map fun p => p.print.toList) ++ ([' '] ++ ['\x7d']))) := by
        simp only [Expr.print, String.toList_append, toList_commas, printProps_eq, List.map_map]
        simp [Function.comp_def]
      rw [hprint] at hlength ⊢
      simp only [List.length_append, List.length_cons, List.length_nil] at hlength
      have hlead : Leads '\x7d' ([' '] ++ '\x7d' :: r) :=
        leads_of_solid blank_space (solid_cons rfl (by decide))
      have hitems := reads_separated (G := fun r => Follow 2 r ∧ mark "," r = none) hg.bound
        (fun p' hp' => hg.property (h.child (List.mem_map.2 ⟨p', hp', rfl⟩))) Follow.comma_cons
        (fun _ h => h) [' '] ([' '] ++ '\x7d' :: r) blank_space
        ⟨Follow.close blank_space (by simp) r, hlead.mark (by simp) (by simp)⟩
        (by simp only [List.length_cons, List.length_append, List.length_nil]; omega)
      simp only [List.append_assoc, List.cons_append, List.nil_append] at hitems hlead ⊢
      have hclose : mark "\x7d" (' ' :: '\x7d' :: r) = some r :=
        (mark_space _ _).trans (mark_head "\x7d" rfl rfl (by decide) r)
      simp only [Grammar.objectLiteral, mark_blank_append hb,
        mark_head (c := '\x7b') "\x7b" rfl rfl (by decide), Option.bind_eq_bind, Option.bind_some,
        list_of_separated hitems, list_trailing (hlead.mark (by simp) (by simp)), hclose, Built.all_ok]
      rfl

/-- A function inside an expression. -/
theorem Faithful.functionExpr (hg : g.Faithful n) {f : Func} (h : (Node.expr (.function f)).AllPrintable) :
    Reads g.functionExpr (n + 1) (fun _ => True) ((Expr.function f).print 0).toList
      (.ok (.function f)) := by
  intro b r hb _ hlength
  have hnamed : f.Named := h.formed
  change b.length + (fold (f.print 0)).toList.length + r.length ≤ n + 1 at hlength
  change g.functionExpr (b ++ ((fold (f.print 0)).toList ++ r)) = _
  rw [fold_print_func hnamed] at hlength ⊢
  have hword : ("function".toList).length = 8 := rfl
  simp only [List.length_append, hword] at hlength
  have hfunction : ∀ t, endsBefore isNameChar t = true →
      keyword "function" (b ++ ("function".toList ++ t)) = some t :=
    fun t ht => keyword_word (by decide) hb ht
  have hbody : ∀ s ∈ f.body, (Node.stmt s).AllPrintable :=
    fun s hs => h.child (List.mem_map.2 ⟨s, hs, rfl⟩)
  have htail := hg.functionTail hnamed.2 hbody true 0 [] r blank_nil trivial
    (by simp only [List.length_nil]; omega)
  rw [List.nil_append] at htail
  cases hname : f.name with
  | none =>
      rw [hname] at htail
      have hstop : identifier (f.tailText true 0 ++ r) = none :=
        Leads.identifier (c := '(') (leads_cons rfl (by decide)) (by decide)
      simp only [nameText, List.nil_append, List.append_assoc]
      rw [Grammar.functionExpr, hfunction _ rfl]
      simp only [Option.bind_eq_bind, Option.bind_some, optional_none hstop, htail]
      rfl
  | some name =>
      rw [hname] at htail
      have hread : identifier ([' '] ++ (name.toList ++ (f.tailText true 0 ++ r))) =
          some (name, f.tailText true 0 ++ r) :=
        identifier_name (hnamed.1 name (by simp [hname])) blank_space rfl
      simp only [nameText, List.cons_append, List.nil_append, List.append_assoc] at hread ⊢
      rw [Grammar.functionExpr, hfunction _ rfl]
      simp only [Option.bind_eq_bind, Option.bind_some, optional_some hread, htail]
      rfl

/-! ## Which alternative reads a primary expression -/

variable {w : String}

theorem keyword_of_leads (h : Leads c s) (hc : isNameStart c = false) {k : String} (hk : IsWord k) :
    keyword k s = none := by
  obtain ⟨d, t, heq, hd, -⟩ := hk
  refine h.keyword (by simp [heq]) ?_
  rw [heq, List.head?_cons]
  rintro ⟨rfl⟩
  rw [hd] at hc
  cases hc

/-- The words that begin a primary expression. -/
theorem primaryWords : IsWord "function" ∧ IsWord "this" ∧ IsWord "null" ∧ IsWord "true" ∧
    IsWord "false" ∧ IsWord "new" := by decide

theorem primary_of_sign (h : Leads c s) (hc : isNameStart c = false) :
    g.primary s = ((number s).map (fun (text, s) => ((numberValue text).map Expr.num, s))).or
      (((string s).map (fun (body, s) => ((stringValue body).map Expr.str, s))).or
        ((g.arrayLiteral s).or ((g.objectLiteral s).or (Rule.parenthesized g.expression s)))) := by
  obtain ⟨hfunction, hthis, hnull, htrue, hfalse, -⟩ := primaryWords
  simp [Grammar.primary, oneOf_cons, oneOf_nil, Grammar.functionExpr,
    keyword_of_leads h hc hfunction, keyword_of_leads h hc hthis, keyword_of_leads h hc hnull,
    keyword_of_leads h hc htrue, keyword_of_leads h hc hfalse, h.identifier hc]

theorem primary_of_paren (h : Leads '(' s) : g.primary s = Rule.parenthesized g.expression s := by
  rw [primary_of_sign h (by decide), h.number (by decide) (by decide),
    h.string (by decide) (by decide)]
  simp [Grammar.arrayLiteral, Grammar.objectLiteral, (h.mark (by simp) (by simp) : mark "[" _ = none),
    (h.mark (by simp) (by simp) : mark "\x7b" _ = none)]

theorem primary_of_bracket (h : Leads '[' s) : g.primary s = g.arrayLiteral s := by
  rw [primary_of_sign h (by decide), h.number (by decide) (by decide),
    h.string (by decide) (by decide)]
  simp [Grammar.objectLiteral, Rule.parenthesized, between, (h.mark (by simp) (by simp) : mark "(" _ = none),
    (h.mark (by simp) (by simp) : mark "\x7b" _ = none)]

theorem primary_of_brace (h : Leads '\x7b' s) : g.primary s = g.objectLiteral s := by
  rw [primary_of_sign h (by decide), h.number (by decide) (by decide),
    h.string (by decide) (by decide)]
  simp [Grammar.arrayLiteral, Rule.parenthesized, between, (h.mark (by simp) (by simp) : mark "(" _ = none),
    (h.mark (by simp) (by simp) : mark "[" _ = none)]

/-- A word is read as a function, as a literal or as a name. -/
theorem primary_of_word (h : Opens w s r) : g.primary s =
    if w = "function" then g.functionExpr s else if w = "this" then some (.ok .this, r)
    else if w = "null" then some (.ok .null, r) else if w = "true" then some (.ok (.bool true), r)
    else if w = "false" then some (.ok (.bool false), r)
    else if w ∈ reserved then none else some (.ok (.ident w), r) := by
  obtain ⟨hfunction, hthis, hnull, htrue, hfalse, -⟩ := primaryWords
  have hmarks : mark "[" s = none ∧ mark "\x7b" s = none ∧ mark "(" s = none :=
    ⟨h.mark (by simp; decide), h.mark (by simp; decide), h.mark (by simp; decide)⟩
  have hfunctionExpr : w ≠ "function" → g.functionExpr s = none := fun hw => by
    rw [Grammar.functionExpr, h.keyword hfunction.all, if_neg (Ne.symm hw)]
    rfl
  by_cases hw : w = "function"
  · subst hw
    rw [if_pos rfl, Grammar.primary, oneOf_cons]
    cases hread : g.functionExpr s with
    | some found => rfl
    | none =>
        simp [oneOf_cons, oneOf_nil, h.keyword hthis.all, h.keyword hnull.all, h.keyword htrue.all,
          h.keyword hfalse.all, h.number, h.string, h.identifier, Grammar.arrayLiteral,
          Grammar.objectLiteral, Rule.parenthesized, between, hmarks, reserved]
  · rw [if_neg hw]
    simp only [Grammar.primary, oneOf_cons, oneOf_nil, hfunctionExpr hw, h.keyword hthis.all,
      h.keyword hnull.all, h.keyword htrue.all, h.keyword hfalse.all, h.number, h.string,
      h.identifier, Grammar.arrayLiteral, Grammar.objectLiteral, Rule.parenthesized, between, hmarks,
      @eq_comm String w]
    split_ifs <;> rfl

end Grammar

end Resumption.Script
