import Mathlib.Data.List.TakeDrop
import Resumption.Script.Printer

/-!
# Lexemes of printed text

What the smallest rules do with a text whose beginning is known.  Blanks in front never matter; a
text that begins with a mark, a word, a number or a quotation is cut exactly behind it, provided
that what follows cannot be taken for more of the same.
-/

namespace Resumption.Script

namespace Lexeme

/-- Nothing but blanks. -/
def Blank (b : List Char) : Prop := b.all isBlank = true

/-- The text begins with neither a blank nor a comment. -/
def Solid (s : List Char) : Prop := skip s = s

variable {b s t r : List Char} {c : Char}

@[simp] theorem blank_nil : Blank [] := rfl

theorem blank_cons : Blank (c :: b) ↔ isBlank c = true ∧ Blank b := by simp [Blank]

theorem blank_append : Blank (b ++ t) ↔ Blank b ∧ Blank t := by simp [Blank]

theorem blank_replicate (n : Nat) : Blank (List.replicate n ' ') := by
  simp only [Blank, List.all_replicate]
  split
  · rfl
  · decide

@[simp] theorem blank_space : Blank [' '] := rfl

theorem skip_eq (s : List Char) :
    skip s = match comment? (s.dropWhile isBlank) with
      | none => s.dropWhile isBlank
      | some rest => skip rest := by
  rw [skip]
  split <;> rename_i h <;> rw [h]

theorem skip_blank_append (hb : Blank b) (s : List Char) : skip (b ++ s) = skip s := by
  rw [skip_eq, skip_eq s, List.dropWhile_append_of_pos]
  simpa [Blank] using hb

theorem solid_of_comment?_eq_none (hc : isBlank c = false) (hs : comment? (c :: s) = none) :
    Solid (c :: s) := by
  rw [Solid, skip_eq, List.dropWhile_cons_of_neg (by simp [hc]), hs]

theorem comment?_cons_of_ne (hc : c ≠ '/') : comment? (c :: s) = none := by
  unfold comment?
  split <;> simp_all

theorem solid_cons (hc : isBlank c = false) (hslash : c ≠ '/') : Solid (c :: s) :=
  solid_of_comment?_eq_none hc (comment?_cons_of_ne hslash)

/-- A single slash begins no comment. -/
theorem solid_slash (hc : c ≠ '/') (hstar : c ≠ '*') : Solid ('/' :: c :: s) := by
  refine solid_of_comment?_eq_none rfl ?_
  unfold comment?
  split <;> simp_all

theorem Solid.skip (h : Solid s) (hb : Blank b) : Lexeme.skip (b ++ s) = s := by
  rw [skip_blank_append hb, h]

@[simp] theorem solid_nil : Solid [] := by
  rw [Solid, skip_eq]
  rfl

/-! ## Marks -/

theorem mark_blank_append (hb : Blank b) (text : String) (s : List Char) :
    mark text (b ++ s) = mark text s := by
  rw [mark, mark, skip_blank_append hb]

theorem mark_solid (h : Solid s) (text : String) : mark text s = after? text.toList s := by
  rw [mark, h]

theorem mark_space (text : String) (s : List Char) : mark text (' ' :: s) = mark text s :=
  mark_blank_append (b := [' ']) rfl text s

theorem keyword_blank_append (hb : Blank b) (word : String) (s : List Char) :
    keyword word (b ++ s) = keyword word s := by
  rw [keyword, keyword, markBefore, markBefore, mark_blank_append hb]

theorem markBefore_blank_append (hb : Blank b) (text : String) (barred : Char → Bool)
    (s : List Char) : markBefore text barred (b ++ s) = markBefore text barred s := by
  rw [markBefore, markBefore, mark_blank_append hb]

theorem propertyName_blank_append (hb : Blank b) (s : List Char) :
    propertyName (b ++ s) = propertyName s := by
  rw [propertyName, propertyName, skip_blank_append hb]

theorem identifier_blank_append (hb : Blank b) (s : List Char) :
    identifier (b ++ s) = identifier s := by
  rw [identifier, identifier, propertyName_blank_append hb]

theorem number_blank_append (hb : Blank b) (s : List Char) : number (b ++ s) = number s := by
  rw [number, number, skip_blank_append hb]

theorem string_blank_append (hb : Blank b) (s : List Char) : string (b ++ s) = string s := by
  rw [string, string, skip_blank_append hb]

/-! ## Words -/

/-- A run of characters that a name may consist of. -/
def IsWord (w : String) : Prop :=
  ∃ c t, w.toList = c :: t ∧ isNameStart c = true ∧ t.all isNameChar = true

instance (w : String) : Decidable (IsWord w) :=
  match h : w.toList with
  | [] => isFalse (by rintro ⟨c, t, heq, -⟩; simp [h] at heq)
  | c :: t => decidable_of_iff (isNameStart c = true ∧ t.all isNameChar = true) (by
      constructor
      · rintro ⟨hc, ht⟩
        exact ⟨c, t, h, hc, ht⟩
      · rintro ⟨c', t', heq, hc, ht⟩
        obtain ⟨rfl, rfl⟩ := List.cons.inj (h.symm.trans heq)
        exact ⟨hc, ht⟩)

/-- A name that is no word of the language. -/
def IsName (w : String) : Prop := IsWord w ∧ w ∉ reserved

theorem isUpper_iff_toNat : c.isUpper = true ↔ 'A'.toNat ≤ c.toNat ∧ c.toNat ≤ 'Z'.toNat :=
  decide_eq_true_iff

theorem isLower_iff_toNat : c.isLower = true ↔ 'a'.toNat ≤ c.toNat ∧ c.toNat ≤ 'z'.toNat := by
  change (decide _ && decide _) = true ↔ _
  rw [Bool.and_eq_true, decide_eq_true_iff, decide_eq_true_iff]
  rfl

theorem isAlpha_iff : c.isAlpha = true ↔ c.isUpper = true ∨ c.isLower = true := by
  change (c.isUpper || c.isLower) = true ↔ _
  rw [Bool.or_eq_true]

theorem isNameChar_of_isNameStart (h : isNameStart c = true) : isNameChar c = true := by
  simp only [isNameStart, isNameChar, Char.isAlphanum, Bool.or_eq_true] at h ⊢
  grind

theorem isBlank_of_isNameChar (h : isNameChar c = true) : isBlank c = false := by
  rw [Bool.eq_false_iff]
  intro hblank
  simp only [isBlank, Bool.or_eq_true, beq_iff_eq] at hblank
  rcases hblank with ((rfl | rfl) | rfl) | rfl <;> exact absurd h (by decide)

theorem ne_slash_of_isNameChar (h : isNameChar c = true) : c ≠ '/' := by
  rintro rfl
  exact absurd h (by decide)

theorem IsWord.solid {w : String} (hw : IsWord w) (r : List Char) : Solid (w.toList ++ r) := by
  obtain ⟨c, t, heq, hc, -⟩ := hw
  have hchar := isNameChar_of_isNameStart hc
  rw [heq]
  exact solid_cons (isBlank_of_isNameChar hchar) (ne_slash_of_isNameChar hchar)

theorem IsWord.all {w : String} (hw : IsWord w) : w.toList.all isNameChar = true := by
  obtain ⟨c, t, heq, hc, ht⟩ := hw
  rw [heq, List.all_cons, isNameChar_of_isNameStart hc, ht]
  rfl

/-- Two runs of name characters are told apart by what follows the second. -/
theorem filter_after?_run {ks ws : List Char} (hk : ks.all isNameChar = true)
    (hw : ws.all isNameChar = true) (hr : endsBefore isNameChar r = true) :
    (after? ks (ws ++ r)).filter (endsBefore isNameChar) = if ks = ws then some r else none := by
  induction ks generalizing ws with
  | nil =>
      cases ws with
      | nil => simp [after?, hr]
      | cons c ws => simp_all [after?, endsBefore]
  | cons k ks ih =>
      simp only [List.all_cons, Bool.and_eq_true] at hk
      cases ws with
      | nil =>
          cases r with
          | nil => simp [after?]
          | cons c r =>
              have hne : k ≠ c := by
                rintro rfl
                simp [endsBefore, hk.1] at hr
              simp [after?, hne]
      | cons c ws =>
          simp only [List.all_cons, Bool.and_eq_true] at hw
          by_cases hkc : k = c
          · simp [after?, hkc, ih hk.2 hw.2]
          · simp [after?, hkc]

/-- What the rules see of a text that begins with a word. -/
structure Opens (w : String) (s r : List Char) : Prop where
  word : IsWord w
  skipped : skip s = w.toList ++ r
  apart : endsBefore isNameChar r = true

theorem after?_eq_some {ks : List Char} (h : after? ks s = some r) : s = ks ++ r := by
  induction ks generalizing s with
  | nil => simpa [after?] using h
  | cons k ks ih =>
      cases s with
      | nil => simp [after?] at h
      | cons c s =>
          simp only [after?] at h
          split_ifs at h with hkc
          rw [ih h, ← eq_of_beq hkc]
          rfl

namespace Opens

variable {w : String}

/-- What a keyword was read from begins with the word. -/
theorem of_keyword (hw : IsWord w) (h : keyword w s = some r) : Opens w s r := by
  rw [Lexeme.keyword, markBefore, Option.filter_eq_some_iff] at h
  exact ⟨hw, after?_eq_some h.1, h.2⟩

theorem of_word (hw : IsWord w) (hb : Blank b) (hr : endsBefore isNameChar r = true) :
    Opens w (b ++ (w.toList ++ r)) r :=
  ⟨hw, (hw.solid r).skip hb, hr⟩

theorem keyword (h : Opens w s r) {k : String} (hk : k.toList.all isNameChar = true) :
    keyword k s = if k = w then some r else none := by
  rw [Lexeme.keyword, markBefore, Lexeme.mark, h.skipped, filter_after?_run hk h.word.all h.apart]
  simp only [String.toList_inj]

/-- A mark that no name begins with is not there. -/
theorem mark (h : Opens w s r) {text : String} (htext : text.toList.head?.map isNameChar = some false) :
    mark text s = none := by
  obtain ⟨c, t, heq, hc, -⟩ := h.word
  rw [Lexeme.mark, h.skipped, heq]
  cases hlist : text.toList with
  | nil => simp [hlist] at htext
  | cons k ks =>
      have hne : k ≠ c := by
        rintro rfl
        simp [hlist, isNameChar_of_isNameStart hc] at htext
      simp [after?, hne]

theorem takeWhile_run {ws : List Char} (hw : ws.all isNameChar = true)
    (hr : endsBefore isNameChar r = true) :
    (ws ++ r).takeWhile isNameChar = ws ∧ (ws ++ r).dropWhile isNameChar = r := by
  have hstop : r.takeWhile isNameChar = [] ∧ r.dropWhile isNameChar = r := by
    cases r with
    | nil => exact ⟨rfl, rfl⟩
    | cons c r => simp_all [endsBefore]
  have hall : ∀ c ∈ ws, isNameChar c = true := by simpa using hw
  rw [List.takeWhile_append_of_pos hall, List.dropWhile_append_of_pos hall, hstop.1, hstop.2]
  simp

theorem propertyName (h : Opens w s r) : propertyName s = some (w, r) := by
  obtain ⟨c, t, heq, hc, ht⟩ := h.word
  have hrun := takeWhile_run ht h.apart
  have hback : String.ofList (c :: t) = w := by rw [← heq, String.ofList_toList]
  simp [Lexeme.propertyName, h.skipped, heq, hc, hrun.1, hrun.2, hback]

theorem identifier (h : Opens w s r) :
    identifier s = if w ∈ reserved then none else some (w, r) := by
  rw [Lexeme.identifier, h.propertyName]
  by_cases hw : w ∈ reserved <;> simp [Option.filter, hw]

end Opens

/-! ## Numbers -/

/-- Decimal digits, with a point among them or not. -/
def IsNumeral (t : List Char) : Prop :=
  ∃ whole, whole ≠ [] ∧ whole.all Char.isDigit = true ∧
    (t = whole ∨ ∃ fraction, fraction.all Char.isDigit = true ∧ t = whole ++ '.' :: fraction)

theorem isNameChar_of_isDigit (h : c.isDigit = true) : isNameChar c = true := by
  simp [isNameChar, Char.isAlphanum, h]

theorem span_run {test : Char → Bool} {ws : List Char} (hw : ws.all test = true)
    (hr : endsBefore test r = true) : (ws ++ r).span test = (ws, r) := by
  have hall : ∀ c ∈ ws, test c = true := by simpa using hw
  have hstop : r.takeWhile test = [] ∧ r.dropWhile test = r := by
    cases r with
    | nil => exact ⟨rfl, rfl⟩
    | cons c r => simp_all [endsBefore]
  rw [List.span_eq_takeWhile_dropWhile, List.takeWhile_append_of_pos hall,
    List.dropWhile_append_of_pos hall, hstop.1, hstop.2, List.append_nil]

theorem run_run {test : Char → Bool} {ws : List Char} (hne : ws ≠ []) (hw : ws.all test = true)
    (hr : endsBefore test r = true) : run test (ws ++ r) = some (ws, r) := by
  rw [run, span_run hw hr]
  cases ws with
  | nil => exact absurd rfl hne
  | cons c ws => rfl

theorem endsBefore_isDigit (hr : endsBefore isNameChar r = true) :
    endsBefore Char.isDigit r = true := by
  cases r with
  | nil => rfl
  | cons c r =>
      simp only [endsBefore, Bool.not_eq_true'] at hr ⊢
      rw [Bool.eq_false_iff] at hr ⊢
      exact fun h => hr (isNameChar_of_isDigit h)

theorem exponent_apart (hr : endsBefore isNameChar r = true) : exponent r = ([], r) := by
  cases r with
  | nil => rfl
  | cons c r =>
      have hne : (c == 'e' || c == 'E') = false := by
        rw [Bool.eq_false_iff]
        intro h
        simp only [Bool.or_eq_true, beq_iff_eq] at h
        rcases h with rfl | rfl <;> exact absurd hr (by simp [endsBefore]; decide)
      simp [exponent, hne]

/-- A numeral does not announce hexadecimal digits. -/
theorem not_hexadecimal {t rest : List Char} {x : Char} (ht : IsNumeral t)
    (hr : endsBefore isNameChar r = true) (heq : t ++ r = '0' :: x :: rest) :
    (x == 'x' || x == 'X') = false := by
  have hx : isNameChar x = false ∨ x.isDigit = true ∨ x = '.' := by
    obtain ⟨whole, hne, hdigits, hform⟩ := ht
    cases whole with
    | nil => exact absurd rfl hne
    | cons d whole =>
        simp only [List.all_cons, Bool.and_eq_true] at hdigits
        cases whole with
        | cons d' whole =>
            simp only [List.all_cons, Bool.and_eq_true] at hdigits
            rcases hform with rfl | ⟨fraction, -, rfl⟩ <;> simp_all
        | nil =>
            rcases hform with rfl | ⟨fraction, -, rfl⟩
            · cases r with
              | nil => simp at heq
              | cons c r => simp_all [endsBefore]
            · simp only [List.cons_append, List.nil_append, List.cons.injEq] at heq
              exact .inr (.inr heq.2.1.symm)
  rw [Bool.eq_false_iff]
  intro h
  simp only [Bool.or_eq_true, beq_iff_eq] at h
  rcases h with rfl | rfl <;> exact absurd hx (by decide)

theorem hexNumber_numeral {t : List Char} (ht : IsNumeral t)
    (hr : endsBefore isNameChar r = true) : hexNumber (t ++ r) = none := by
  unfold hexNumber
  split
  · rename_i x rest heq
    rw [not_hexadecimal ht hr heq]
    rfl
  · rfl

theorem numberValue_numeral {t : List Char} (ht : IsNumeral t) {v : Float}
    (hv : Number.decimal? t = some v) : numberValue t = .ok v := by
  have hnone : ∀ x digits, t = '0' :: x :: digits → (x == 'x' || x == 'X') = false := by
    intro x digits heq
    exact not_hexadecimal (r := []) ht rfl ((List.append_nil t).trans heq)
  unfold numberValue
  split
  · rename_i x digits
    rw [hnone x digits rfl]
    simp [hv]
  · simp [hv]

theorem number_numeral (hb : Blank b) {t : List Char} (ht : IsNumeral t)
    (hr : endsBefore isNameChar r = true) (hpoint : endsBefore (· == '.') r = true) :
    number (b ++ (t ++ r)) = some (t, r) := by
  have hdigit := endsBefore_isDigit hr
  have hsolid : Solid (t ++ r) := by
    obtain ⟨whole, hne, hdigits, hform⟩ := ht
    cases whole with
    | nil => exact absurd rfl hne
    | cons d whole =>
        simp only [List.all_cons, Bool.and_eq_true] at hdigits
        have hname := isNameChar_of_isDigit hdigits.1
        rcases hform with rfl | ⟨fraction, -, rfl⟩ <;>
          exact solid_cons (isBlank_of_isNameChar hname) (ne_slash_of_isNameChar hname)
  have hdecimal : decimalNumber (t ++ r) = some (t, r) := by
    obtain ⟨whole, hne, hdigits, rfl | ⟨fraction, hfraction, rfl⟩⟩ := ht
    · unfold decimalNumber
      rw [run_run hne hdigits hdigit]
      split
      · simp_all [endsBefore]
      · rename_i found _ heq
        obtain rfl : (t, r) = found := by simpa using heq
        simp [exponent_apart hr]
      · simp_all
    · unfold decimalNumber
      rw [List.append_assoc, List.cons_append, run_run hne hdigits (by rfl)]
      simp only [span_run hfraction hdigit, exponent_apart hr, Option.map_some, List.append_nil]
  simp [number, hsolid.skip hb, hexNumber_numeral ht hr, hdecimal]

/-! ## Quotations -/

/-- A character that stands for itself between double quotes. -/
def isPlain (c : Char) : Bool := !(c == '"' || c == '\\' || c == '\n')

theorem quotedBody_plain (hc : isPlain c = true) (s : List Char) :
    quotedBody '"' (c :: s) = (quotedBody '"' s).map (fun (body, rest) => (c :: body, rest)) := by
  simp only [isPlain, Bool.not_eq_true', Bool.or_eq_false_iff, beq_eq_false_iff_ne] at hc
  rw [quotedBody]
  · simp [hc]
  · intro d rest heq
    exact absurd heq hc.1.2

theorem quotedBody_plains {cs : List Char} (hcs : cs.all isPlain = true) (s : List Char) :
    quotedBody '"' (cs ++ s) = (quotedBody '"' s).map (fun (body, rest) => (cs ++ body, rest)) := by
  induction cs with
  | nil => simp
  | cons c cs ih =>
      simp only [List.all_cons, Bool.and_eq_true] at hcs
      rw [List.cons_append, quotedBody_plain hcs.1, ih hcs.2, Option.map_map]
      rfl

/-- Four digits for a control character. -/
theorem hexadecimal_four : ∀ n < 0x20, (Text.hexadecimal 4 n).length = 4 ∧
    (Text.hexadecimal 4 n).all isPlain = true ∧
    Text.codePoint? (Text.hexadecimal 4 n) = some (Char.ofNat n) := by
  decide

theorem quotedBody_escape (c : Char) (s : List Char) :
    quotedBody '"' (Text.escape c ++ s) =
      (quotedBody '"' s).map (fun (body, rest) => (Text.escape c ++ body, rest)) := by
  have hpair : ∀ d : Char, quotedBody '"' ('\\' :: d :: s) =
      (quotedBody '"' s).map (fun (body, rest) => ('\\' :: d :: body, rest)) := fun d => by
    rw [quotedBody]
  unfold Text.escape
  split_ifs with h₁ h₂ h₃ h₄ h₅ h₆ h₇
  iterate 6 exact hpair _
  · obtain ⟨-, hplain, -⟩ := hexadecimal_four c.toNat h₇
    rw [List.cons_append, List.cons_append, quotedBody, quotedBody_plains hplain, Option.map_map]
    rfl
  · exact quotedBody_plain (by simp_all [isPlain]) s

theorem unquote_escape (c : Char) (s : List Char) :
    Text.unquote (Text.escape c ++ s) = (Text.unquote s).map (c :: ·) := by
  have hpair : ∀ d : Char, d ≠ 'u' → Text.unescape d = c →
      Text.unquote ('\\' :: d :: s) = (Text.unquote s).map (c :: ·) := by
    intro d hd hc
    rw [Text.unquote, hc]
    · cases Text.unquote s <;> rfl
    · exact hd
  unfold Text.escape
  split_ifs with h₁ h₂ h₃ h₄ h₅ h₆ h₇
  iterate 5 exact hpair _ (by decide) (by simp_all; decide)
  · have hzero : c = '\x00' := by rw [← Char.ofNat_toNat c, eq_of_beq h₆]
    exact hpair _ (by decide) (by rw [hzero]; decide)
  · obtain ⟨hlength, -, hpoint⟩ := hexadecimal_four c.toNat h₇
    rw [List.cons_append, List.cons_append, Text.unquote, List.take_left' hlength,
      List.drop_left' hlength, hpoint, Char.ofNat_toNat]
    cases Text.unquote s <;> rfl
  · simp only [beq_iff_eq] at h₂
    rw [List.singleton_append, Text.unquote]
    · cases Text.unquote s <;> rfl
    · simp [h₂]
    · simp [h₂]
    · simp [h₂]

theorem unquote_flatMap_escape (cs : List Char) :
    Text.unquote (cs.flatMap Text.escape) = .ok cs := by
  induction cs with
  | nil => rw [List.flatMap_nil, Text.unquote]
  | cons c cs ih => rw [List.flatMap_cons, unquote_escape, ih]; rfl

theorem quotedBody_flatMap_escape (cs r : List Char) :
    quotedBody '"' (cs.flatMap Text.escape ++ '"' :: r) = some (cs.flatMap Text.escape, r) := by
  induction cs with
  | nil => simp [quotedBody]
  | cons c cs ih => rw [List.flatMap_cons, List.append_assoc, quotedBody_escape, ih]; rfl

theorem string_quoteChars (hb : Blank b) (cs r : List Char) :
    string (b ++ (Text.quoteChars cs ++ r)) = some (cs.flatMap Text.escape, r) := by
  have hsolid : ∀ s : List Char, Solid ('"' :: s) := fun s => solid_cons rfl (by decide)
  rw [Text.quoteChars, string, List.cons_append, List.cons_append, (hsolid _).skip hb,
    List.append_assoc]
  exact quotedBody_flatMap_escape cs r

theorem stringValue_flatMap_escape (text : String) :
    stringValue (text.toList.flatMap Text.escape) = .ok text := by
  rw [stringValue, unquote_flatMap_escape]
  simp

/-- A printed quotation reads back as the text it quotes. -/
theorem string_quote (hb : Blank b) (text : String) (r : List Char) :
    ∃ body, string (b ++ ((Text.quote text).toList ++ r)) = some (body, r) ∧
      stringValue body = .ok text := by
  refine ⟨text.toList.flatMap Text.escape, ?_, stringValue_flatMap_escape text⟩
  rw [Text.quote, String.toList_ofList]
  exact string_quoteChars hb text.toList r

/-- The four digits of a control character are none themselves. -/
theorem hexadecimal_four_printable :
    ∀ n < 0x20, (Text.hexadecimal 4 n).all (fun d => 0x20 ≤ d.toNat) = true := by
  decide

theorem escape_printable (c : Char) :
    (Text.escape c).all (fun d => 0x20 ≤ d.toNat) = true := by
  unfold Text.escape
  split_ifs with h₁ h₂ h₃ h₄ h₅ h₆ h₇
  iterate 6 rfl
  · rw [List.all_cons, List.all_cons, hexadecimal_four_printable c.toNat h₇]
    rfl
  · simpa using h₇

theorem quoteChars_printable (cs : List Char) : ∀ d ∈ Text.quoteChars cs, 0x20 ≤ d.toNat := by
  intro d hd
  obtain rfl | ⟨c, -, hd⟩ : d = '"' ∨ ∃ c ∈ cs, d ∈ Text.escape c := by
    simpa [Text.quoteChars, or_comm] using hd
  · decide
  · exact of_decide_eq_true (List.all_eq_true.mp (escape_printable c) d hd)

/-- A quotation is delimited by itself.  Whatever follows it, the lexeme at the front is the
quotation up to its last quote; it stands for the quoted text; and no control character stands in
it as it is. -/
theorem string_quote_append (text : String) (t : List Char) :
    (∃ body, (Text.quote text).toList = '"' :: body ++ ['"'] ∧
      string ((Text.quote text).toList ++ t) = some (body, t) ∧ stringValue body = .ok text) ∧
    ∀ c ∈ (Text.quote text).toList, 0x20 ≤ c.toNat := by
  rw [Text.quote, String.toList_ofList]
  exact ⟨⟨text.toList.flatMap Text.escape, rfl, string_quoteChars blank_nil text.toList t,
    stringValue_flatMap_escape text⟩, quoteChars_printable text.toList⟩

end Lexeme

end Resumption.Script
