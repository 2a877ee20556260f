import Resumption.Proofs.Reading.Formed
import Resumption.Proofs.Reading.Rule

/-!
# The layout of printed text

Statements stand on lines of their own, and a function inside an expression has its lines joined.
Both kinds of text come from the same printer, so what is said about statements is said for either
kind of separator: `respace true` turns line breaks into blanks, `respace false` leaves them alone.
-/

namespace Resumption.Script

open Lexeme Printer

/-- The text with its lines joined, or as it is. -/
def respace (flat : Bool) (c : Char) : Char := if flat && c == '\n' then ' ' else c

/-- What is left of a line break. -/
def gap (flat : Bool) : Char := respace flat '\n'

/-- The text as it stands, or joined. -/
def spaced (flat : Bool) (s : String) : List Char := s.toList.map (respace flat)

/-- The blanks in front of a line. -/
def margin (i : Nat) : List Char := List.replicate (2 * i) ' '

/-- The text has no line break. -/
def Unbroken (cs : List Char) : Prop := '\n' ∉ cs

instance (cs : List Char) : Decidable (Unbroken cs) := inferInstanceAs (Decidable ('\n' ∉ cs))

variable {flat : Bool} {s t : String} {cs ds : List Char} {i : Nat}

theorem isBlank_gap (flat : Bool) : isBlank (gap flat) = true := by cases flat <;> rfl

theorem blank_gap (flat : Bool) : Blank [gap flat] := by cases flat <;> rfl

theorem blank_margin (i : Nat) : Blank (margin i) := blank_replicate _

theorem blank_gap_margin (flat : Bool) (i : Nat) : Blank (gap flat :: margin i) := by
  rw [blank_cons]
  exact ⟨isBlank_gap flat, blank_margin i⟩

theorem respace_of_ne {c : Char} (h : c ≠ '\n') : respace flat c = c := by
  simp [respace, h]

theorem map_respace_of_unbroken (h : Unbroken cs) : cs.map (respace flat) = cs := by
  refine (List.map_congr_left fun c hc => respace_of_ne ?_).trans (List.map_id cs)
  rintro rfl
  exact h hc

theorem unbroken_append : Unbroken (cs ++ ds) ↔ Unbroken cs ∧ Unbroken ds := by simp [Unbroken]

theorem unbroken_cons {c : Char} : Unbroken (c :: cs) ↔ c ≠ '\n' ∧ Unbroken cs := by
  simp [Unbroken, eq_comm]

theorem unbroken_nil : Unbroken [] := by simp [Unbroken]

theorem unbroken_of_all {p : Char → Bool} (hall : cs.all p = true) (hp : p '\n' = false) :
    Unbroken cs := by
  intro hmem
  have := List.all_eq_true.1 hall _ hmem
  simp [hp] at this

theorem unbroken_margin (i : Nat) : Unbroken (margin i) := by simp [Unbroken, margin]

theorem spaced_append : spaced flat (s ++ t) = spaced flat s ++ spaced flat t := by
  simp [spaced]

theorem spaced_of_unbroken (h : Unbroken s.toList) : spaced flat s = s.toList :=
  map_respace_of_unbroken h

theorem toList_pushn (n : Nat) : ("".pushn ' ' n).toList = List.replicate n ' ' := by
  rw [String.pushn_eq_repeat_push]
  induction n with
  | zero => rfl
  | succ n ih => rw [Nat.repeat, String.toList_push, ih, List.replicate_succ']

theorem spaced_line (h : Unbroken s.toList) :
    spaced flat (line i s) = margin i ++ (s.toList ++ [gap flat]) := by
  rw [line, spaced_append, spaced_append, spaced_of_unbroken h,
    spaced_of_unbroken (s := "".pushn ' ' (2 * i)), toList_pushn, margin, List.append_assoc]
  · rfl
  · rw [toList_pushn]
    exact unbroken_margin i

theorem unbroken_word {w : String} (h : IsWord w) : Unbroken w.toList :=
  unbroken_of_all h.all (by decide)

theorem unbroken_numeral (h : IsNumeral cs) : Unbroken cs := by
  obtain ⟨whole, -, hwhole, rfl | ⟨fraction, hfraction, rfl⟩⟩ := h
  · exact unbroken_of_all hwhole rfl
  · rw [unbroken_append, unbroken_cons]
    exact ⟨unbroken_of_all hwhole rfl, by decide, unbroken_of_all hfraction rfl⟩

theorem unbroken_escape (c : Char) : Unbroken (Text.escape c) := by
  unfold Text.escape
  split_ifs with h₁ h₂ h₃ h₄ h₅ h₆ h₇
  iterate 6 decide
  · obtain ⟨-, hplain, -⟩ := hexadecimal_four c.toNat h₇
    rw [unbroken_cons, unbroken_cons]
    exact ⟨by decide, by decide, unbroken_of_all hplain rfl⟩
  · simp only [beq_iff_eq] at h₃
    rw [unbroken_cons]
    exact ⟨h₃, unbroken_nil⟩

theorem unbroken_quote (s : String) : Unbroken (Text.quote s).toList := by
  rw [Text.quote, String.toList_ofList, Text.quoteChars, unbroken_append, unbroken_cons]
  refine ⟨⟨by decide, ?_⟩, by decide⟩
  rw [Unbroken, List.mem_flatMap]
  rintro ⟨c, -, hc⟩
  exact unbroken_escape c hc

theorem unbroken_key (s : String) : Unbroken (key s).toList := by
  unfold key
  split
  · exact unbroken_quote s
  · rename_i c rest heq
    split_ifs with hname
    · rw [heq]
      simp only [Bool.and_eq_true] at hname
      refine unbroken_of_all (p := isNameChar) ?_ (by decide)
      rw [List.all_cons, isNameChar_of_isNameStart hname.1, hname.2]
      rfl
    · exact unbroken_quote s

theorem unbroken_commaText {texts : List (List Char)} (h : ∀ t ∈ texts, Unbroken t) :
    Unbroken (Rule.commaText texts) := by
  cases texts with
  | nil => exact unbroken_nil
  | cons t rest =>
      rw [Rule.commaText, unbroken_append]
      refine ⟨h t List.mem_cons_self, ?_⟩
      rw [Unbroken, List.mem_flatMap]
      rintro ⟨u, hu, hmem⟩
      simp only [List.mem_cons, Char.reduceEq, false_or] at hmem
      exact h u (List.mem_cons_of_mem _ hu) hmem

theorem unbroken_commas {items : List String} (h : ∀ s ∈ items, Unbroken s.toList) :
    Unbroken (commas items).toList := by
  rw [Rule.toList_commas]
  refine unbroken_commaText fun t ht => ?_
  obtain ⟨s, hs, rfl⟩ := List.mem_map.1 ht
  exact h s hs

theorem unbroken_fold (s : String) : Unbroken (fold s).toList := by
  rw [fold, String.toList_ofList, Unbroken, List.mem_map]
  rintro ⟨c, -, hc⟩
  split at hc
  · cases hc
  · simp_all

theorem unbroken_dropFunction {s : String} (h : Unbroken s.toList) :
    Unbroken (dropFunction s).toList := by
  unfold dropFunction
  split_ifs
  · rw [String.toList_ofList]
    exact fun hmem => h (List.mem_of_mem_drop hmem)
  · exact h

/-! ## Functions -/

/-- The name of a function with the blank in front of it. -/
def nameText (name : Option String) : List Char :=
  match name with
  | none => []
  | some n => ' ' :: n.toList

/-- A function from its parameters on. -/
def Func.tailText (flat : Bool) (i : Nat) (f : Func) : List Char :=
  '(' :: (Rule.commaText (f.params.map String.toList) ++ (')' :: ' ' :: '\x7b' :: gap flat ::
    (spaced flat (printStmts (i + 1) f.body) ++ (margin i ++ ['\x7d']))))

theorem IsWord.ne_empty {w : String} (h : IsWord w) : w.isEmpty = false := by
  obtain ⟨c, t, heq, -⟩ := h
  rw [Bool.eq_false_iff]
  intro hempty
  rw [String.isEmpty_iff] at hempty
  simp [hempty] at heq

theorem toList_functionHead {f : Func} (hf : f.Named) :
    (functionHead f.name f.params).toList =
      "function".toList ++ (nameText f.name ++
        ('(' :: (Rule.commaText (f.params.map String.toList) ++ [')']))) := by
  unfold functionHead
  cases hname : f.name with
  | none => simp [nameText, Rule.toList_commas, String.isEmpty]
  | some n =>
      have hn := IsWord.ne_empty (hf.1 n (by simp [hname])).1
      simp [nameText, Rule.toList_commas, hn]

theorem Func.Named.unbroken {f : Func} (hf : f.Named) :
    Unbroken (functionHead f.name f.params ++ " \x7b").toList := by
  rw [String.toList_append, toList_functionHead hf]
  simp only [unbroken_append, unbroken_cons]
  refine ⟨⟨by decide, ?_, by decide, ?_, by decide⟩, by decide⟩
  · cases hname : f.name with
    | none => exact unbroken_nil
    | some n =>
        rw [nameText, unbroken_cons]
        exact ⟨by decide, unbroken_word (hf.1 n (by simp [hname])).1⟩
  · refine unbroken_commaText fun t ht => ?_
    obtain ⟨p, hp, rfl⟩ := List.mem_map.1 ht
    exact unbroken_word (hf.2 p hp).1

/-- A printed function, its last line break apart. -/
theorem spaced_print_func {f : Func} (hf : f.Named) (flat : Bool) (i : Nat) :
    spaced flat (f.print i) =
      margin i ++ ("function".toList ++ (nameText f.name ++ (f.tailText flat i ++ [gap flat]))) := by
  obtain ⟨name, params, body⟩ := f
  rw [Func.print, spaced_append, spaced_append, spaced_line hf.unbroken,
    spaced_line (s := "\x7d") (by decide), String.toList_append, toList_functionHead hf]
  simp [Func.tailText]

theorem fold_eq {s : String} {t : List Char} {c : Char} (h : s.toList = t ++ [c, '\n'])
    (hc : Text.isBlank c = false) : (fold s).toList = (t ++ [c]).map (respace true) := by
  have htrim : Text.trimEnd s.toList = t ++ [c] := by
    rw [Text.trimEnd, h, List.reverse_append]
    change (List.dropWhile _ ('\n' :: c :: t.reverse)).reverse = _
    rw [List.dropWhile_cons_of_pos (by decide), List.dropWhile_cons_of_neg (by simp [hc])]
    simp
  rw [fold, String.toList_ofList, htrim]
  rfl

theorem fold_print_func {f : Func} (hf : f.Named) :
    (fold (f.print 0)).toList = "function".toList ++ (nameText f.name ++ f.tailText true 0) := by
  have hplain : ∀ s : String, spaced false s = s.toList := fun s => List.map_id s.toList
  have hjoin : ∀ s : String, s.toList.map (respace true) = spaced true s := fun s => rfl
  have hlines := spaced_print_func hf false 0
  rw [hplain] at hlines
  have hlast : (f.print 0).toList = (margin 0 ++ ("function".toList ++ (nameText f.name ++
      ('(' :: (Rule.commaText (f.params.map String.toList) ++ (')' :: ' ' :: '\x7b' :: '\n' ::
        (printStmts (0 + 1) f.body).toList)))))) ++ ['\x7d', '\n'] := by
    rw [hlines, Func.tailText, hplain]
    simp [margin, gap, respace]
  have hspaced := spaced_print_func hf true 0
  rw [← hjoin, hlast] at hspaced
  rw [fold_eq hlast (by decide)]
  have hcut : ∀ {l m : List Char} {c : Char}, l ++ [c] = m ++ [c] → l = m :=
    fun h => List.append_cancel_right h
  refine hcut (c := gap true) ?_
  simp only [List.map_append, List.map_cons, List.map_nil] at hspaced ⊢
  simp only [margin, gap] at hspaced ⊢
  simpa using hspaced

theorem dropFunction_fold {f : Func} (hf : f.Named) (hname : f.name = none) :
    (dropFunction (fold (f.print 0))).toList = f.tailText true 0 := by
  have hfold := fold_print_func hf
  rw [hname, nameText, List.nil_append] at hfold
  unfold dropFunction startsWith
  rw [if_pos]
  · rw [String.toList_ofList, hfold]
    rfl
  · rw [hfold]
    simp

/-! ## Expressions stand on one line -/

theorem printExprs_eq (es : List Expr) : printExprs es = es.map (Expr.print 2) := by
  induction es with
  | nil => rfl
  | cons e es ih => rw [printExprs, ih, List.map_cons]

theorem printProps_eq (ps : List Property) : printProps ps = ps.map Property.print := by
  induction ps with
  | nil => rfl
  | cons p ps ih => rw [printProps, ih, List.map_cons]

theorem printDecls_eq (ds : List Declarator) : printDecls ds = ds.map Declarator.print := by
  induction ds with
  | nil => rfl
  | cons d ds ih => rw [printDecls, ih, List.map_cons]

theorem unbroken_fit {l least : Nat} (h : Unbroken s.toList) : Unbroken (fit l least s).toList := by
  unfold fit
  split_ifs
  · simp only [String.toList_append, unbroken_append]
    exact ⟨⟨by decide, h⟩, by decide⟩
  · exact h

/-- The printed form of an expression has no line break of its own. -/
theorem unbroken_print (e : Expr) (he : (Node.expr e).AllPrintable) (l : Nat) :
    Unbroken (e.print l).toList := by
  have hchild : ∀ e' : Expr, Node.expr e' ∈ (Node.expr e).children → ∀ l,
      Unbroken (e'.print l).toList := fun e' hmem l =>
    have := Node.weight_lt_of_mem_children hmem
    unbroken_print e' (he.child hmem) l
  have hlist : ∀ es : List Expr, (∀ e' ∈ es, Node.expr e' ∈ (Node.expr e).children) →
      Unbroken (commas (printExprs es)).toList := by
    intro es hmem
    rw [printExprs_eq]
    refine unbroken_commas fun s hs => ?_
    obtain ⟨e', he', rfl⟩ := List.mem_map.1 hs
    exact hchild e' (hmem e' he') 2
  have hhead : ∀ base : Expr, Node.expr base ∈ (Node.expr e).children → ∀ (shield : Bool) l,
      Unbroken (if shield then "(" ++ base.print 0 ++ ")" else base.print l).toList := by
    intro base hmem shield l
    cases shield with
    | false => exact hchild base hmem l
    | true =>
        simp only [if_true, String.toList_append, unbroken_append]
        exact ⟨⟨by decide, hchild base hmem 0⟩, by decide⟩
  have hformed := he.formed
  cases e with
  | num v => exact unbroken_numeral he.literal.1
  | str v => exact unbroken_quote v
  | bool v =>
      rw [Expr.print]
      cases v <;> decide
  | null =>
      rw [Expr.print]
      decide
  | ident name => exact unbroken_word hformed.1
  | this =>
      rw [Expr.print]
      decide
  | array elements =>
      simp only [Expr.print, String.toList_append, unbroken_append]
      exact ⟨⟨by decide, hlist elements (fun e' he' => List.mem_map.2 ⟨e', he', rfl⟩)⟩, by decide⟩
  | object props =>
      have hprops : Unbroken (commas (printProps props)).toList := by
        rw [printProps_eq]
        refine unbroken_commas fun s hs => ?_
        obtain ⟨p, hp, rfl⟩ := List.mem_map.1 hs
        have hmem : Node.property p ∈ (Node.expr (.object props)).children :=
          List.mem_map.2 ⟨p, hp, rfl⟩
        have hvalue : Unbroken (p.value.print 2).toList := by
          have hchild : Node.expr p.value ∈ (Node.property p).children := List.mem_singleton.2 rfl
          have := Node.weight_lt_of_mem_children hmem
          have := Node.weight_lt_of_mem_children hchild
          exact unbroken_print p.value ((he.child hmem).child hchild) 2
        unfold Property.print
        split
        · simp only [String.toList_append, unbroken_append]
          exact ⟨⟨by decide, unbroken_key _⟩, unbroken_dropFunction (unbroken_fold _)⟩
        · simp only [String.toList_append, unbroken_append]
          exact ⟨⟨by decide, unbroken_key _⟩, unbroken_dropFunction (unbroken_fold _)⟩
        · simp only [String.toList_append, unbroken_append]
          exact ⟨⟨unbroken_key _, by decide⟩, hvalue⟩
      cases props with
      | nil =>
          rw [Expr.print]
          decide
      | cons p props =>
          simp only [Expr.print, String.toList_append, unbroken_append]
          exact ⟨⟨by decide, hprops⟩, by decide⟩
  | function f => exact unbroken_fit (unbroken_fold _)
  | unary op arg =>
      refine unbroken_fit ?_
      simp only [String.toList_append, unbroken_append]
      refine ⟨⟨by cases op <;> decide, ?_⟩, hchild arg (by simp [Node.children, Node.childrenOfExpr]) 15⟩
      split <;> decide
  | update op before arg =>
      have harg := hchild arg (by simp [Node.children, Node.childrenOfExpr])
      cases before with
      | true =>
          refine unbroken_fit ?_
          simp only [String.toList_append, unbroken_append]
          exact ⟨by cases op <;> decide, harg 16⟩
      | false =>
          refine unbroken_fit ?_
          simp only [String.toList_append, unbroken_append]
          exact ⟨harg 17, by cases op <;> decide⟩
  | binary op left right =>
      refine unbroken_fit ?_
      simp only [String.toList_append, unbroken_append]
      exact ⟨⟨⟨⟨hchild left (by simp [Node.children, Node.childrenOfExpr]) _, by decide⟩,
        by cases op <;> decide⟩, by decide⟩,
        hchild right (by simp [Node.children, Node.childrenOfExpr]) _⟩
  | logical op left right =>
      refine unbroken_fit ?_
      simp only [String.toList_append, unbroken_append]
      exact ⟨⟨⟨⟨hchild left (by simp [Node.children, Node.childrenOfExpr]) _, by decide⟩,
        by cases op <;> decide⟩, by decide⟩,
        hchild right (by simp [Node.children, Node.childrenOfExpr]) _⟩
  | assign op target value =>
      refine unbroken_fit ?_
      simp only [String.toList_append, unbroken_append]
      refine ⟨⟨⟨⟨hchild target (by simp [Node.children, Node.childrenOfExpr]) _, by decide⟩, ?_⟩,
        by decide⟩, hchild value (by simp [Node.children, Node.childrenOfExpr]) _⟩
      cases op with
      | none => decide
      | some op => cases op <;> decide
  | conditional test cons alt =>
      refine unbroken_fit ?_
      simp only [String.toList_append, unbroken_append]
      exact ⟨⟨⟨⟨hchild test (by simp [Node.children, Node.childrenOfExpr]) _, by decide⟩,
        hchild cons (by simp [Node.children, Node.childrenOfExpr]) _⟩, by decide⟩,
        hchild alt (by simp [Node.children, Node.childrenOfExpr]) _⟩
  | call callee args =>
      simp only [Expr.print, String.toList_append, unbroken_append]
      exact ⟨⟨⟨hchild callee List.mem_cons_self _, by decide⟩, hlist args fun e' he' =>
        List.mem_cons_of_mem _ (List.mem_map.2 ⟨e', he', rfl⟩)⟩, by decide⟩
  | construct callee args =>
      simp only [Expr.print, String.toList_append, unbroken_append]
      exact ⟨⟨⟨⟨by decide, hhead callee List.mem_cons_self _ _⟩, by decide⟩, hlist args fun e' he' =>
        List.mem_cons_of_mem _ (List.mem_map.2 ⟨e', he', rfl⟩)⟩, by decide⟩
  | member base property =>
      simp only [Expr.print, String.toList_append, unbroken_append]
      exact ⟨⟨hhead base List.mem_cons_self _ _, by decide⟩, unbroken_word hformed⟩
  | index base key =>
      simp only [Expr.print, String.toList_append, unbroken_append]
      exact ⟨⟨⟨hhead base List.mem_cons_self _ _, by decide⟩,
        hchild key (by simp [Node.children, Node.childrenOfExpr]) _⟩, by decide⟩
  | sequence exprs =>
      exact unbroken_fit (hlist exprs (fun e' he' => List.mem_map.2 ⟨e', he', rfl⟩))
termination_by (Node.expr e).weight

end Resumption.Script
