import Resumption.Proofs.Reading.Primary

/-!
# What a rule makes and leaves

`Agreed m P x y` compares what a rule does on two levels of the grammar: the outcomes are the same, less
than `m` characters are left, and what was found passes the test `P`, which may also look at what is left.
Rules are built from steps of this kind, so one walk through a rule shows all three at once.
-/

namespace Resumption.Script

open Lexeme Rule

variable {α β γ : Type} {k l m n : Nat} {b r s t : List Char} {c : Char}

/-- The tree, if it is one, passes the test. -/
def Built.Holds (P : α → Prop) (x : Built α) : Prop := ∀ a, x = .ok a → P a

namespace Built.Holds

variable {P : α → Prop} {Q : β → Prop} {x : Built α}

theorem ok {a : α} (h : P a) : Holds P (.ok a) := by
  rintro _ ⟨rfl⟩
  exact h

theorem error (fault : Fault) : Holds P (.error fault) := by
  rintro _ ⟨⟩

theorem bind (hx : x.Holds P) {f : α → Built β} (hf : ∀ a, P a → (f a).Holds Q) : Holds Q (x >>= f) := by
  cases x with
  | error fault => exact error fault
  | ok a => exact hf a (hx a rfl)

theorem map (hx : x.Holds P) {f : α → β} (hf : ∀ a, P a → Q (f a)) : Holds Q (x.map f) := by
  cases x with
  | error fault => exact error fault
  | ok a => exact ok (hf a (hx a rfl))

theorem imp {R : α → Prop} (hx : x.Holds P) (h : ∀ a, P a → R a) : x.Holds R := fun a ha => h a (hx a ha)

theorem all {xs : List (Built α)} (h : ∀ x ∈ xs, x.Holds P) :
    Holds (fun as => as.length = xs.length ∧ ∀ a ∈ as, P a) (Built.all xs) := by
  intro as has
  have heq := Built.all_eq_ok has
  subst heq
  refine ⟨by simp, fun a ha => h (.ok a) (List.mem_map.2 ⟨a, ha, rfl⟩) a rfl⟩

theorem option {x : Option (Built α)} (h : ∀ b ∈ x, b.Holds P) :
    Holds (fun a => a.isSome = x.isSome ∧ ∀ b ∈ a, P b) (Built.option x) := by
  cases x with
  | none => exact ok ⟨rfl, by simp⟩
  | some x => exact (h x rfl).bind fun a ha => ok ⟨rfl, by rintro b ⟨rfl⟩; exact ha⟩

end Built.Holds

/-- The outcomes of a rule on two levels are the same; what was found passes the test, and less than
`m` characters are left. -/
def Agreed (m : Nat) (P : α → List Char → Prop) (x y : Option (α × List Char)) : Prop :=
  x = y ∧ ∀ a r, x = some (a, r) → r.length < m ∧ P a r

namespace Agreed

variable {P : α → List Char → Prop} {Q : β → List Char → Prop} {x y : Option (α × List Char)}

theorem none : Agreed m P Option.none Option.none := ⟨rfl, by simp⟩

theorem found {a : α} (hlength : r.length < m) (h : P a r) : Agreed m P (some (a, r)) (some (a, r)) :=
  ⟨rfl, by rintro _ _ ⟨⟩; exact ⟨hlength, h⟩⟩

theorem of_eq (h : ∀ a r, x = some (a, r) → r.length < m ∧ P a r) : Agreed m P x x := ⟨rfl, h⟩

theorem mono {P' : α → List Char → Prop} (h : Agreed l P x y) (hl : l ≤ m) (hP : ∀ a r, P a r → P' a r) :
    Agreed m P' x y :=
  ⟨h.1, fun a r heq => ⟨Nat.lt_of_lt_of_le (h.2 a r heq).1 hl, hP a r (h.2 a r heq).2⟩⟩

theorem bind (h : Agreed l P x y) {f f' : α × List Char → Option (β × List Char)}
    (hf : ∀ a r, r.length < l → P a r → Agreed m Q (f (a, r)) (f' (a, r))) :
    Agreed m Q (x >>= f) (y >>= f') := by
  obtain ⟨rfl, h⟩ := h
  cases x with
  | none => exact none
  | some p => exact hf p.1 p.2 (h p.1 p.2 rfl).1 (h p.1 p.2 rfl).2

/-- A step that does not look at the level. -/
theorem step {x : Option γ} {f f' : γ → Option (β × List Char)} (h : ∀ a, x = some a → Agreed m Q (f a) (f' a)) :
    Agreed m Q (x >>= f) (x >>= f') := by
  cases x with
  | none => exact none
  | some a => exact h a rfl

theorem map (h : Agreed m P x y) {f : α × List Char → β × List Char}
    (hf : ∀ a r, P a r → ∃ b, f (a, r) = (b, r) ∧ Q b r) : Agreed m Q (x.map f) (y.map f) := by
  obtain ⟨rfl, h⟩ := h
  cases x with
  | none => exact none
  | some p =>
      obtain ⟨a, r⟩ := p
      obtain ⟨hlength, hP⟩ := h a r rfl
      obtain ⟨b, heq, hQ⟩ := hf a r hP
      rw [Option.map_some, heq]
      exact found hlength hQ

theorem or {u v : Option (α × List Char)} (h : Agreed m P x y) (h' : Agreed m P u v) :
    Agreed m P (x.or u) (y.or v) := by
  obtain ⟨rfl, h⟩ := h
  obtain ⟨rfl, h'⟩ := h'
  cases x with
  | none => exact ⟨rfl, h'⟩
  | some p => exact ⟨rfl, h⟩

theorem oneOf_nil : Agreed m P (oneOf [] s) (oneOf [] s) := none

theorem oneOf_cons {rule rule' : Rule α} {rules rules' : List (Rule α)} (h : Agreed m P (rule s) (rule' s))
    (hrest : Agreed m P (oneOf rules s) (oneOf rules' s)) :
    Agreed m P (oneOf (rule :: rules) s) (oneOf (rule' :: rules') s) := by
  rw [Rule.oneOf_cons, Rule.oneOf_cons]
  exact h.or hrest

end Agreed

/-! ## Lexemes use up text -/

theorem length_skip_le (s : List Char) : (skip s).length ≤ s.length := by
  fun_induction skip s with
  | case1 s h => exact length_dropWhile_le isBlank s
  | case2 s rest h ih =>
      have := length_comment? h
      have := length_dropWhile_le isBlank s
      omega

theorem length_mark {text : String} (h : mark text s = some r) (hne : text.toList ≠ []) :
    r.length < s.length := by
  have hskip := length_skip_le s
  rw [after?_eq_some h, List.length_append] at hskip
  have := List.length_pos_iff.2 hne
  omega

theorem length_markBefore {text : String} {barred : Char → Bool} (h : markBefore text barred s = some r)
    (hne : text.toList ≠ []) : r.length < s.length :=
  length_mark (Option.filter_eq_some_iff.1 h).1 hne

theorem length_keyword {word : String} (h : keyword word s = some r) (hne : word.toList ≠ []) :
    r.length < s.length :=
  length_markBefore h hne

theorem propertyName_spec {w : String} (h : propertyName s = some (w, r)) :
    IsWord w ∧ r.length < s.length := by
  have hskip := length_skip_le s
  unfold propertyName at h
  split at h
  · cases h
  · rename_i c rest heq
    split_ifs at h with hc
    cases h
    refine ⟨⟨c, rest.takeWhile isNameChar, String.toList_ofList, hc, by simp [List.all_takeWhile]⟩, ?_⟩
    rw [heq, List.length_cons] at hskip
    have := length_dropWhile_le isNameChar rest
    omega

theorem identifier_spec {w : String} (h : identifier s = some (w, r)) : IsName w ∧ r.length < s.length := by
  obtain ⟨hname, hfree⟩ := Option.filter_eq_some_iff.1 h
  obtain ⟨hword, hlength⟩ := propertyName_spec hname
  exact ⟨⟨hword, by simpa using hfree⟩, hlength⟩

theorem length_quotedBody (q : Char) (s : List Char) : ∀ body r, quotedBody q s = some (body, r) →
    r.length < s.length := by
  fun_induction quotedBody q s with
  | case1 => intro body r h; cases h
  | case2 c rest ih =>
      intro body r h
      obtain ⟨⟨body', r'⟩, hrest, hpair⟩ := Option.map_eq_some_iff.1 h
      cases hpair
      have := ih body' r hrest
      simp only [List.length_cons]
      omega
  | case3 => 
      intro body r h
      cases h
      simp
  | case4 => intro body r h; cases h
  | case5 =>
      rename_i ih
      intro body r h
      obtain ⟨⟨body', r'⟩, hrest, hpair⟩ := Option.map_eq_some_iff.1 h
      cases hpair
      have := ih body' r hrest
      simp only [List.length_cons]
      omega

theorem length_string {body : List Char} (h : string s = some (body, r)) : r.length < s.length := by
  have hskip := length_skip_le s
  unfold string at h
  split at h
  · rename_i c rest heq
    split_ifs at h
    have := length_quotedBody c rest body r h
    rw [heq, List.length_cons] at hskip
    omega
  · cases h

/-- A number begins with a digit or a point. -/
theorem number_head {ds : List Char} (h : number s = some (ds, r)) :
    ∃ d t, ds = d :: t ∧ d ≠ '-' ∧ d ≠ '+' := by
  have hdigits : ∀ {ds r : List Char} {s : List Char}, run Char.isDigit s = some (ds, r) →
      ∃ d t, ds = d :: t ∧ d ≠ '-' ∧ d ≠ '+' := by
    intro ds r s h
    have hne : ds ≠ [] := by
      rintro rfl
      unfold run at h
      split at h
      · cases h
      · rename_i hnot
        exact hnot r (Option.some.inj h)
    obtain ⟨-, hall⟩ := run_eq_some h
    cases ds with
    | nil => exact absurd rfl hne
    | cons d t =>
        rw [List.all_cons, Bool.and_eq_true] at hall
        refine ⟨d, t, rfl, ?_, ?_⟩ <;>
          · rintro rfl
            exact absurd hall.1 (by decide)
  unfold number at h
  dsimp only at h
  rw [Option.or_eq_some_iff] at h
  rcases h with h | ⟨-, h⟩
  · unfold hexNumber at h
    split at h
    · split_ifs at h
      obtain ⟨⟨digits, rest⟩, -, hpair⟩ := Option.map_eq_some_iff.1 h
      cases hpair
      exact ⟨'0', _, rfl, by decide, by decide⟩
    · cases h
  · unfold decimalNumber at h
    dsimp only at h
    obtain ⟨⟨body, rest⟩, hbody, hpair⟩ := Option.map_eq_some_iff.1 h
    cases hpair
    have hcons : ∃ d t, body = d :: t ∧ d ≠ '-' ∧ d ≠ '+' := by
      split at hbody
      · rename_i whole rest' hrun
        obtain ⟨d, t, rfl, hd⟩ := hdigits hrun
        cases hbody
        exact ⟨d, _, rfl, hd⟩
      · rename_i found hrun
        cases hbody
        exact hdigits hrun
      · split at hbody
        · obtain ⟨⟨digits, rest'⟩, -, hpair⟩ := Option.map_eq_some_iff.1 hbody
          cases hpair
          exact ⟨'.', _, rfl, by decide, by decide⟩
        · cases hbody
    obtain ⟨d, t, rfl, hd⟩ := hcons
    exact ⟨d, _, rfl, hd⟩

theorem length_number {ds : List Char} (h : number s = some (ds, r)) : r.length < s.length := by
  have hskip := length_skip_le s
  obtain ⟨d, t, rfl, -⟩ := number_head h
  rw [(number_spec h).1, List.length_append, List.length_cons] at hskip
  omega

/-- A literal is a number without a sign. -/
theorem numberValue_holds {ds : List Char} (h : number s = some (ds, r)) :
    (numberValue ds).Holds Number.Plain := by
  obtain ⟨d, t, rfl, hminus, hplus⟩ := number_head h
  have hdecimal : ∀ x, Number.decimal? (d :: t) = some x → Number.Plain x := by
    intro x hx
    have hunsigned : Number.decimal? (d :: t) = Number.unsigned? (d :: t) := by
      unfold Number.decimal?
      split
      · rename_i heq
        exact absurd (List.cons.inj heq).1 hminus
      · rename_i heq
        exact absurd (List.cons.inj heq).1 hplus
      · rfl
    exact Number.plain_of_unsigned? (hunsigned ▸ hx)
  intro v hv
  unfold numberValue at hv
  dsimp only at hv
  split at hv
  · rename_i x hx
    cases hv
    split at hx
    · split_ifs at hx
      · obtain ⟨n, -, rfl⟩ := Option.map_eq_some_iff.1 hx
        exact Number.plain_ofScientific _ _ _
      · rename_i heq _
        exact hdecimal v (heq ▸ hx)
    · exact hdecimal v hx
  · cases hv

/-! ## Repetitions on two levels -/

section Combinators

variable {P : α → List Char → Prop} {rule rule' : Rule α}

theorem Agreed.optional (h : Agreed s.length P (rule s) (rule' s)) :
    ∃ found r, optional rule s = (found, r) ∧ optional rule' s = (found, r) ∧ r.length ≤ s.length ∧
      (∀ a ∈ found, P a r) ∧ (found = Option.none → r = s ∧ rule s = Option.none) := by
  obtain ⟨heq, h⟩ := h
  cases hrule : rule s with
  | none =>
      exact ⟨Option.none, s, optional_none hrule, optional_none (heq ▸ hrule), Nat.le_refl _, by simp,
        fun _ => ⟨rfl, rfl⟩⟩
  | some p =>
      obtain ⟨a, r⟩ := p
      obtain ⟨hlength, hP⟩ := h a r hrule
      refine ⟨some a, r, optional_some hrule, optional_some (heq ▸ hrule), Nat.le_of_lt hlength, ?_,
        by simp⟩
      rintro b ⟨rfl⟩
      exact hP

/-- The levels do the same as long as the text is short enough for both. -/
def AgreedBelow (k : Nat) (P : α → List Char → Prop) (rule rule' : Rule α) : Prop :=
  ∀ s : List Char, s.length < k → Agreed s.length P (rule s) (rule' s)

theorem AgreedBelow.mono (h : AgreedBelow k P rule rule') (hl : l ≤ k) : AgreedBelow l P rule rule' :=
  fun s hs => h s (Nat.lt_of_lt_of_le hs hl)

theorem AgreedBelow.many (h : AgreedBelow k P rule rule') :
    ∀ n n' (s : List Char), s.length < k → s.length ≤ n → s.length ≤ n' →
      ∃ found r, many rule n s = (found, r) ∧ many rule' n' s = (found, r) ∧ r.length ≤ s.length ∧
        ∀ a ∈ found, ∃ t, P a t
  | 0, 0, s, _, _, _ => ⟨[], s, rfl, rfl, Nat.le_refl _, by simp⟩
  | 0, n' + 1, s, hs, hn, _ => by
      obtain ⟨heq, h⟩ := h s hs
      have hnone : rule' s = Option.none := by
        rw [← heq]
        cases hrule : rule s with
        | none => rfl
        | some p =>
            have := (h p.1 p.2 hrule).1
            omega
      refine ⟨[], s, rfl, ?_, Nat.le_refl _, by simp⟩
      rw [Rule.many, hnone]
  | n + 1, 0, s, hs, _, hn' => by
      obtain ⟨heq, h⟩ := h s hs
      have hnone : rule s = Option.none := by
        cases hrule : rule s with
        | none => rfl
        | some p =>
            have := (h p.1 p.2 hrule).1
            omega
      refine ⟨[], s, ?_, rfl, Nat.le_refl _, by simp⟩
      rw [Rule.many, hnone]
  | n + 1, n' + 1, s, hs, hn, hn' => by
      obtain ⟨heq, hrule⟩ := h s hs
      cases hfirst : rule s with
      | none =>
          refine ⟨[], s, ?_, ?_, Nat.le_refl _, by simp⟩
          · rw [Rule.many, hfirst]
          · rw [Rule.many, ← heq, hfirst]
      | some p =>
          obtain ⟨a, t⟩ := p
          obtain ⟨hlength, hP⟩ := hrule a t hfirst
          obtain ⟨found, r, hmany, hmany', hle, hall⟩ :=
            AgreedBelow.many h n n' t (by omega) (by omega) (by omega)
          refine ⟨a :: found, r, ?_, ?_, by omega, ?_⟩
          · rw [Rule.many, hfirst]
            dsimp only
            rw [hmany]
          · rw [Rule.many, ← heq, hfirst]
            dsimp only
            rw [hmany']
          · rintro b hb
            rcases List.mem_cons.1 hb with rfl | hb
            · exact ⟨t, hP⟩
            · exact hall b hb

theorem AgreedBelow.behind (h : AgreedBelow k P rule rule') {lead : List Char → Option (List Char)}
    (hlead : ∀ s r, lead s = some r → r.length < s.length) :
    AgreedBelow (k + 1) P (behind lead rule) (behind lead rule') := by
  intro s hs
  unfold Rule.behind
  refine .step fun s₁ h₁ => ?_
  have := hlead s s₁ h₁
  exact (h s₁ (by omega)).mono (by omega) fun _ _ h => h

theorem AgreedBelow.separated (h : AgreedBelow k P rule rule') (hn : k ≤ n) (hm : k ≤ m) :
    AgreedBelow k (fun as _ => as ≠ [] ∧ ∀ a ∈ as, ∃ t, P a t) (separated n rule) (separated m rule') := by
  intro s hs
  unfold Rule.separated
  refine .bind (h s hs) fun a s₁ h₁ ha => ?_
  obtain ⟨found, s₂, hmany, hmany', hle, hall⟩ := ((h.behind fun _ _ h => length_mark h (by decide : ",".toList ≠ [])).mono
    (Nat.le_succ k)).many n m s₁ (by omega) (by omega) (by omega)
  simp only [hmany, hmany']
  refine .found (by omega) ⟨by simp, fun x hx => ?_⟩
  rcases List.mem_cons.1 hx with rfl | hx
  · exact ⟨s₁, ha⟩
  · exact hall x hx

theorem AgreedBelow.list (h : AgreedBelow k P rule rule') (hn : k ≤ n) (hm : k ≤ m) (hs : s.length < k) :
    ∃ found r, list n rule s = (found, r) ∧ list m rule' s = (found, r) ∧ r.length ≤ s.length ∧
      ∀ a ∈ found, ∃ t, P a t := by
  obtain ⟨found, r, hfound, hfound', hle, hall, -⟩ := ((h.separated hn hm) s hs).optional
  refine ⟨found.getD [], r, by rw [Rule.list, hfound], by rw [Rule.list, hfound'], hle, fun a ha => ?_⟩
  cases found with
  | none => simp at ha
  | some as => exact (hall as rfl).2 a ha

end Combinators

end Resumption.Script
