import Resumption.Proofs.Reading.Lexeme

/-!
# Rules on printed text

`Reads rule n F t v` says that the rule cuts the text `t` off whatever follows it and makes `v` of
it, as long as the rest passes the test `F` and the whole is no longer than `n`.  The combinators of
the grammar keep this property; a repetition reads one item after another until its rule refuses.
-/

namespace Resumption.Script

open Lexeme

namespace Rule

variable {α β γ : Type}

/-- The rule reads the text, behind blanks and in front of a fitting rest. -/
def Reads (rule : Rule β) (n : Nat) (F : List Char → Prop) (t : List Char) (v : β) : Prop :=
  ∀ b r, Blank b → F r → b.length + t.length + r.length ≤ n → rule (b ++ (t ++ r)) = some (v, r)

theorem Reads.mono {rule : Rule β} {n m : Nat} {F G : List Char → Prop} {t : List Char} {v : β}
    (h : Reads rule n F t v) (hm : m ≤ n) (hG : ∀ r, G r → F r) : Reads rule m G t v :=
  fun b r hb hr hlength => h b r hb (hG r hr) (Nat.le_trans hlength hm)

/-! ## Choices -/

theorem oneOf_nil (s : List Char) : oneOf (α := α) [] s = none := rfl

theorem oneOf_cons (rule : Rule α) (rules : List (Rule α)) (s : List Char) :
    oneOf (rule :: rules) s = (rule s).or (oneOf rules s) := by
  rw [oneOf, oneOf, List.findSome?_cons]
  cases rule s <;> rfl

theorem optional_some {rule : Rule α} {s r : List Char} {a : α} (h : rule s = some (a, r)) :
    optional rule s = (some a, r) := by
  rw [optional, h]

theorem optional_none {rule : Rule α} {s : List Char} (h : rule s = none) :
    optional rule s = (none, s) := by
  rw [optional, h]

/-! ## Repetitions -/

/-- The rule reads these items one after another and then refuses. -/
inductive Repeats (rule : Rule α) : List Char → List α → List Char → Prop
  | stop {s : List Char} (refused : rule s = none) : Repeats rule s [] s
  | turn {s s' r : List Char} {a : α} {as : List α} (first : rule s = some (a, s'))
      (shorter : s'.length < s.length) (rest : Repeats rule s' as r) : Repeats rule s (a :: as) r

theorem Repeats.length_le {rule : Rule α} {s r : List Char} {as : List α} (h : Repeats rule s as r) :
    as.length + r.length ≤ s.length := by
  induction h with
  | stop refused => simp
  | turn first shorter rest ih =>
      rw [List.length_cons]
      omega

/-- Enough turns are allowed as soon as there is one for every item. -/
theorem Repeats.many {rule : Rule α} {s r : List Char} {as : List α} (h : Repeats rule s as r) :
    ∀ {n}, as.length ≤ n → many rule n s = (as, r) := by
  induction h with
  | stop refused =>
      intro n hn
      cases n with
      | zero => rfl
      | succ n => rw [Rule.many, refused]
  | turn first shorter rest ih =>
      intro n hn
      rw [List.length_cons] at hn
      cases n with
      | zero => omega
      | succ n =>
          rw [Rule.many, first]
          dsimp only
          rw [ih (by omega)]

/-- Texts one after another, each behind blanks of its own. -/
theorem repeats_of_reads {rule : Rule β} {n : Nat} {F : List Char → Prop} {text : γ → List Char}
    {value : γ → β} {r : List Char} (hr : rule r = none) :
    ∀ items : List γ, (∀ a ∈ items, Reads rule n F (text a) (value a)) →
      (∀ a ∈ items, text a ≠ []) → F r → (∀ a ∈ items, ∀ t, F (text a ++ t)) →
      (items.flatMap text).length + r.length ≤ n →
      Repeats rule (items.flatMap text ++ r) (items.map value) r
  | [], _, _, _, _, _ => .stop hr
  | a :: items, hall, hne, hF, hnext, hlength => by
      rw [List.flatMap_cons, List.length_append] at hlength
      have hrest := repeats_of_reads hr items (fun a ha => hall a (List.mem_cons_of_mem _ ha))
        (fun a ha => hne a (List.mem_cons_of_mem _ ha)) hF
        (fun a ha => hnext a (List.mem_cons_of_mem _ ha)) (by omega)
      have hfollow : F (items.flatMap text ++ r) := by
        cases items with
        | nil => exact hF
        | cons a' items =>
            rw [List.flatMap_cons, List.append_assoc]
            exact hnext a' (by simp) _
      have hfirst := hall a List.mem_cons_self [] (items.flatMap text ++ r) blank_nil hfollow
        (by simp only [List.length_nil, List.length_append]; omega)
      rw [List.flatMap_cons, List.append_assoc]
      refine .turn hfirst ?_ hrest
      have := List.length_pos_iff.2 (hne a List.mem_cons_self)
      simp only [List.length_append]
      omega

/-! ## Lists -/

/-- Items with commas between them. -/
def commaText (texts : List (List Char)) : List Char :=
  match texts with
  | [] => []
  | t :: rest => t ++ rest.flatMap (fun t => ',' :: ' ' :: t)

theorem toList_commas (items : List String) :
    (Printer.commas items).toList = commaText (items.map String.toList) := by
  induction items with
  | nil => rfl
  | cons a items ih =>
      cases items with
      | nil => simp [Printer.commas, commaText]
      | cons a' items =>
          rw [Printer.commas, String.intercalate_cons_cons, String.toList_append,
            String.toList_append]
          change a.toList ++ _ ++ (Printer.commas (a' :: items)).toList = _
          rw [ih]
          simp [commaText]

theorem length_commaText_cons (t : List Char) (rest : List (List Char)) :
    (commaText (t :: rest)).length =
      t.length + (rest.flatMap (fun t => ',' :: ' ' :: t)).length := by
  simp [commaText]

/-- Items read one by one are read as a list. -/
theorem reads_separated {rule : Rule β} {n bound : Nat} {F G : List Char → Prop}
    {text : γ → List Char} {value : γ → β} {a : γ} {items : List γ} (hbound : n ≤ bound)
    (hall : ∀ x ∈ a :: items, Reads rule n F (text x) (value x)) (hcomma : ∀ t, F (',' :: t))
    (hG : ∀ r, G r → F r ∧ mark "," r = none) :
    Reads (separated bound rule) n G (commaText ((a :: items).map text))
      ((a :: items).map value) := by
  intro b r hb hr hlength
  obtain ⟨hF, hstop⟩ := hG r hr
  have htail : ∀ rest : List γ, (∀ x ∈ rest, x ∈ a :: items) →
      (rest.flatMap (fun x => ',' :: ' ' :: text x)).length + r.length ≤ n →
      Repeats (behind (mark ",") rule)
        (rest.flatMap (fun x => ',' :: ' ' :: text x) ++ r) (rest.map value) r := by
    intro rest hrest hlength
    refine repeats_of_reads (F := F) (by rw [behind, hstop]; rfl) rest ?_ (by simp) hF ?_ hlength
    · intro x hx b r hb hr hlength
      have hitem := hall x (hrest x hx) [' '] r blank_space hr
        (by simp only [List.length_cons, List.length_nil] at hlength ⊢; omega)
      rw [behind, mark_blank_append hb, List.cons_append, mark_solid (solid_cons rfl (by decide))]
      exact hitem
    · exact fun x hx t => hcomma _
  have hfirst : ∀ t, F t → b.length + (text a).length + t.length ≤ n →
      rule (b ++ (text a ++ t)) = some (value a, t) :=
    fun t ht hlength => hall a List.mem_cons_self b t hb ht hlength
  have hmap : (items.map text).flatMap (fun t => ',' :: ' ' :: t) =
      items.flatMap (fun x => ',' :: ' ' :: text x) := by
    rw [List.flatMap_map]
  simp only [List.map_cons, commaText, hmap, List.length_append] at hlength ⊢
  have hrest := htail items (fun x hx => List.mem_cons_of_mem _ hx) (by omega)
  have hmany := hrest.many (n := bound) (by
    have := hrest.length_le
    rw [List.length_append] at this
    omega)
  have hfollow : F (items.flatMap (fun x => ',' :: ' ' :: text x) ++ r) := by
    cases items with
    | nil => exact hF
    | cons a' items => exact hcomma _
  rw [List.append_assoc, separated,
    hfirst _ hfollow (by simp only [List.length_append]; omega)]
  change some (value a :: (Rule.many _ _ _).1, (Rule.many _ _ _).2) = _
  rw [hmany]

theorem list_of_refused {rule : Rule α} {bound : Nat} {s : List Char} (h : rule s = none) :
    list bound rule s = ([], s) := by
  rw [list, optional_none]
  · rfl
  · rw [separated, h]
    rfl

theorem list_of_separated {rule : Rule α} {bound : Nat} {s r : List Char} {as : List α}
    (h : separated bound rule s = some (as, r)) : list bound rule s = (as, r) := by
  rw [list, optional_some h]
  rfl

/-- A list between marks, empty or not. -/
theorem reads_list {rule : Rule β} {n bound : Nat} {F G : List Char → Prop}
    {text : γ → List Char} {value : γ → β} {items : List γ} (hbound : n ≤ bound)
    (hall : ∀ x ∈ items, Reads rule n F (text x) (value x)) (hcomma : ∀ t, F (',' :: t))
    (hG : ∀ r, G r → F r ∧ mark "," r = none) {r : List Char} (hr : G r) (hstop : rule r = none)
    (hlength : (commaText (items.map text)).length + r.length ≤ n) :
    list bound rule (commaText (items.map text) ++ r) = (items.map value, r) := by
  cases items with
  | nil => exact list_of_refused hstop
  | cons a items =>
      exact list_of_separated
        (reads_separated hbound hall hcomma hG [] r blank_nil hr (by simpa using hlength))

end Rule

/-! ## Trees that are carried along -/

theorem Built.all_ok {α : Type} (as : List α) : Built.all (as.map .ok) = .ok as := by
  induction as with
  | nil => rfl
  | cons a as ih =>
      rw [List.map_cons, Built.all, ih]
      rfl

theorem Built.all_eq_ok {α : Type} {xs : List (Built α)} {as : List α} (h : Built.all xs = .ok as) :
    xs = as.map .ok := by
  induction xs generalizing as with
  | nil =>
      cases h
      rfl
  | cons x xs ih =>
      cases x with
      | error fault => cases h
      | ok a =>
          cases hrest : Built.all xs with
          | error fault =>
              rw [Built.all, hrest] at h
              cases h
          | ok rest =>
              rw [Built.all, hrest] at h
              cases h
              rw [ih hrest]
              rfl

end Resumption.Script
