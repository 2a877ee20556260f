import Resumption.Proofs.Reading.Operator
import Resumption.Proofs.Reading.Outcome

/-!
# Levels that are deep enough

Below a certain length of the text it makes no difference on which of two levels an expression is read,
and what is read is well-formed.  Every rule hands that on from the rules of the level below, because it
uses up a character before it goes down; only `new`, which stands at the front, gets one more.
-/

namespace Resumption.Script

open Lexeme Rule

/-- Every node of the tree is such as reading makes it. -/
abbrev Node.AllFormed (n : Node) : Prop := n.Every Node.Formed

theorem Node.allFormed_iff {n : Node} : n.AllFormed ↔ n.Formed ∧ ∀ c ∈ n.children, c.AllFormed :=
  Node.every_iff

/-- A tree for an expression. -/
abbrev ExprMade (x : Built Expr) (_ : List Char) : Prop := x.Holds fun e => (Node.expr e).AllFormed

namespace Grammar

/-- A tree for a statement.  An open `if` at its end has no `else` to come, unless no statement follows
there. -/
abbrev StmtMade (g : Grammar) (x : Built Stmt) (r : List Char) : Prop :=
  x.Holds fun s => (Node.stmt s).AllFormed ∧
    (s.endsInOpenIf = true → ∀ t, keyword "else" r = some t → g.statement t = none)

/-- Two levels do the same with texts of less than `k` characters. -/
structure Steady (k : Nat) (g g' : Grammar) : Prop where
  bound : k ≤ g.bound
  bound' : k ≤ g'.bound
  statement : AgreedBelow k g.StmtMade g.statement g'.statement
  assignment : AgreedBelow k ExprMade g.assignment g'.assignment
  construction : AgreedBelow (k + 1) ExprMade g.construction g'.construction

variable {g g' : Grammar} {k : Nat}

theorem length_getD_mark (s : List Char) : ((mark "," s).getD s).length ≤ s.length := by
  cases h : mark "," s with
  | none => exact Nat.le_refl _
  | some r => exact Nat.le_of_lt (length_mark h (by decide))

/-! ## Functions -/

theorem agreed_identifier : AgreedBelow k (fun w _ => IsName w) identifier identifier :=
  fun _ _ => .of_eq fun _ _ h => ⟨(identifier_spec h).2, (identifier_spec h).1⟩

theorem Steady.braced (h : Steady k g g') : AgreedBelow (k + 1)
    (fun x _ => x.Holds fun body => ∀ s ∈ body, (Node.stmt s).AllFormed) g.braced g'.braced := by
  intro s hs
  unfold Grammar.braced
  refine .step fun s₁ h₁ => ?_
  have := length_mark h₁ (by decide)
  have := h.bound
  have := h.bound'
  obtain ⟨found, s₂, hmany, hmany', hle, hall⟩ :=
    h.statement.many g.bound g'.bound s₁ (by omega) (by omega) (by omega)
  simp only [hmany, hmany']
  refine .step fun s₃ h₃ => ?_
  have := length_mark h₃ (by decide)
  refine .found (by omega) ((Built.Holds.all (P := fun s => (Node.stmt s).AllFormed) fun x hx => ?_).imp
    fun as h => h.2)
  obtain ⟨t, ht⟩ := hall x hx
  exact ht.imp fun s hs => hs.1

theorem Steady.parameters (h : Steady k g g') : AgreedBelow (k + 1)
    (fun names _ => ∀ p ∈ names, IsName p) g.parameters g'.parameters := by
  intro s hs
  unfold Grammar.parameters
  refine .step fun s₁ h₁ => ?_
  have := length_mark h₁ (by decide)
  obtain ⟨names, s₂, hlist, hlist', hle, hall⟩ := agreed_identifier.list h.bound h.bound' (s := s₁) (by omega)
  simp only [hlist, hlist']
  refine .step fun s₃ h₃ => ?_
  have := length_mark h₃ (by decide)
  exact .found (by omega) fun p hp => (hall p hp).elim fun _ h => h

theorem Steady.functionTail (h : Steady k g g') (name : Option String) (hname : ∀ n ∈ name, IsName n) :
    AgreedBelow (k + 1) (fun x _ => x.Holds fun f => f.name = name ∧ f.Named ∧
      ∀ s ∈ f.body, (Node.stmt s).AllFormed) (g.functionTail name) (g'.functionTail name) := by
  intro s hs
  unfold Grammar.functionTail
  refine .bind (h.parameters s hs) fun params s₁ h₁ hparams => ?_
  refine .bind (h.braced s₁ (by omega)) fun body s₂ h₂ hbody => ?_
  exact .found (by omega) (hbody.bind fun body hbody => .ok ⟨rfl, ⟨hname, hparams⟩, hbody⟩)

/-! ## Expressions between marks -/

theorem expression_agreed {m : Nat} (hbound : m ≤ g.bound) (hbound' : m ≤ g'.bound)
    (hassign : AgreedBelow m ExprMade g.assignment g'.assignment) :
    AgreedBelow m ExprMade g.expression g'.expression := by
  intro s hs
  unfold Grammar.expression
  refine .bind (hassign.separated hbound hbound' s hs) fun exprs s₁ h₁ hexprs => ?_
  refine .found h₁ ((Built.Holds.all (P := fun e => (Node.expr e).AllFormed) fun x hx =>
    (hexprs.2 x hx).elim fun _ h => h).bind fun es hes => ?_)
  obtain ⟨hlength, hall⟩ := hes
  split
  · exact .ok (hall _ (by simp))
  · rename_i hmany
    refine .ok (Node.allFormed_iff.2 ⟨?_, fun c hc => ?_⟩)
    · change 2 ≤ es.length
      have hne := List.length_pos_iff.2 hexprs.1
      match es, hmany with
      | [], _ => simp at hlength; omega
      | [e], hmany => exact absurd rfl (hmany e)
      | e₁ :: e₂ :: es, _ => simp
    · obtain ⟨e, he, rfl⟩ := List.mem_map.1 hc
      exact hall e he

theorem Steady.expression (h : Steady k g g') : AgreedBelow k ExprMade g.expression g'.expression :=
  expression_agreed h.bound h.bound' h.assignment

theorem AgreedBelow.parenthesized {α : Type} {P : α → List Char → Prop} {rule rule' : Rule α}
    (h : AgreedBelow k P rule rule') : AgreedBelow (k + 1) (fun a _ => ∃ t, P a t)
      (Rule.parenthesized rule) (Rule.parenthesized rule') := by
  intro s hs
  unfold Rule.parenthesized Rule.between
  refine .step fun s₁ h₁ => ?_
  have := length_mark h₁ (by decide)
  refine .bind (h s₁ (by omega)) fun a s₂ h₂ ha => ?_
  refine .step fun s₃ h₃ => ?_
  have := length_mark h₃ (by decide)
  exact .found (by omega) ⟨s₂, ha⟩

theorem Steady.parenthesized (h : Steady k g g') : AgreedBelow (k + 1) ExprMade
    (Rule.parenthesized g.expression) (Rule.parenthesized g'.expression) :=
  fun s hs => (AgreedBelow.parenthesized h.expression s hs).mono (Nat.le_refl _) fun _ _ ⟨_, h⟩ => h

theorem Steady.functionExpr (h : Steady k g g') :
    AgreedBelow (k + 1) ExprMade g.functionExpr g'.functionExpr := by
  intro s hs
  unfold Grammar.functionExpr
  refine .step fun s₁ h₁ => ?_
  have := length_keyword h₁ (by decide)
  obtain ⟨name, s₂, hname, hname', hle, hword, -⟩ :=
    ((agreed_identifier (k := k)) s₁ (by omega)).optional
  simp only [hname]
  refine .bind (h.functionTail name hword s₂ (by omega)) fun f s₃ h₃ hf => ?_
  dsimp only
  refine .found (by omega) (hf.bind fun f hf => .ok (Node.allFormed_iff.2 ⟨hf.2.1, fun c hc => ?_⟩))
  obtain ⟨s, hs, rfl⟩ := List.mem_map.1 hc
  exact hf.2.2 s hs

theorem Steady.arrayLiteral (h : Steady k g g') :
    AgreedBelow (k + 1) ExprMade g.arrayLiteral g'.arrayLiteral := by
  intro s hs
  unfold Grammar.arrayLiteral
  refine .step fun s₁ h₁ => ?_
  have := length_mark h₁ (by decide)
  obtain ⟨elements, s₂, hlist, hlist', hle, hall⟩ := h.assignment.list h.bound h.bound' (s := s₁) (by omega)
  simp only [hlist, hlist']
  have hcomma : ((mark "," s₂).getD s₂).length ≤ s₂.length := length_getD_mark s₂
  refine .step fun s₃ h₃ => ?_
  have := length_mark h₃ (by decide)
  refine .found (by omega) ((Built.Holds.all (P := fun e => (Node.expr e).AllFormed) fun x hx =>
    (hall x hx).elim fun _ h => h).bind fun es hes => .ok (Node.allFormed_iff.2 ⟨trivial, fun c hc => ?_⟩))
  obtain ⟨e, he, rfl⟩ := List.mem_map.1 hc
  exact hes.2 e he

/-! ## Properties -/

theorem agreed_propertyKey : AgreedBelow k (fun _ _ => True) propertyKey propertyKey := by
  refine fun s _ => .oneOf_cons ?_ (.oneOf_cons ?_ (.oneOf_cons ?_ .oneOf_nil))
  · exact .map (P := fun _ _ => True) (.of_eq fun w r h => ⟨(propertyName_spec h).2, trivial⟩)
      fun w r _ => ⟨_, rfl, trivial⟩
  · exact .map (P := fun _ _ => True) (.of_eq fun body r h => ⟨length_string h, trivial⟩)
      fun body r _ => ⟨_, rfl, trivial⟩
  · exact .map (P := fun _ _ => True) (.of_eq fun ds r h => ⟨length_number h, trivial⟩)
      fun ds r _ => ⟨_, rfl, trivial⟩

/-- A tree for a property. -/
abbrev PropertyMade (x : Built Property) (_ : List Char) : Prop :=
  x.Holds fun p => (Node.property p).AllFormed

theorem Steady.accessor (h : Steady k g g') {word : String} (hword : word.toList ≠ []) {kind : PropKind}
    {params : Rule (List String)} {F : List String → Prop}
    (hparams : ∀ s names r, params s = some (names, r) → r.length ≤ s.length ∧ F names)
    (hformed : ∀ key names body, F names → (Node.property ⟨key, kind, .function ⟨none, names, body⟩⟩).Formed ∧
      ∀ n ∈ names, IsName n) :
    AgreedBelow (k + 1) PropertyMade (g.accessor word kind params) (g'.accessor word kind params) := by
  intro s hs
  unfold Grammar.accessor
  refine .step fun s₁ h₁ => ?_
  have := length_mark h₁ hword
  refine .bind ((agreed_propertyKey (k := k)) s₁ (by omega)) fun key s₂ h₂ _ => ?_
  refine .step fun found hfound => ?_
  obtain ⟨names, s₃⟩ := found
  have hnames : s₃.length < s₂.length ∧ F names := by
    unfold Rule.parenthesized Rule.between at hfound
    simp only [Option.bind_eq_bind, Option.bind_eq_some_iff] at hfound
    obtain ⟨t₁, ht₁, ⟨names', t₂⟩, ht₂, t₃, ht₃, heq⟩ := hfound
    cases heq
    have := length_mark ht₁ (by decide)
    have hclose := length_mark ht₃ (by decide)
    obtain ⟨hle, hF⟩ := hparams t₁ names' t₂ ht₂
    dsimp only at hclose
    exact ⟨by omega, hF⟩
  obtain ⟨hlength, hF⟩ := hnames
  refine .bind (h.braced s₃ (by omega)) fun body s₄ h₄ hbody => ?_
  refine .found (by omega) ((Built.Holds.bind (P := fun _ => True) (fun _ _ => trivial) fun key _ =>
    hbody.bind fun body hbody => .ok (Node.allFormed_iff.2 ⟨(hformed key names body hF).1, fun c hc => ?_⟩)))
  obtain rfl : c = .expr (.function ⟨none, names, body⟩) := by simpa [Node.children] using hc
  refine Node.allFormed_iff.2 ⟨⟨by simp, (hformed key names body hF).2⟩, fun c hc => ?_⟩
  obtain ⟨s, hs, rfl⟩ := List.mem_map.1 hc
  exact hbody s hs

theorem Steady.plainProperty (h : Steady k g g') :
    AgreedBelow k PropertyMade g.plainProperty g'.plainProperty := by
  intro s hs
  unfold Grammar.plainProperty
  refine .bind ((agreed_propertyKey (k := k)) s hs) fun key s₁ h₁ _ => ?_
  refine .step fun s₂ h₂ => ?_
  have := length_mark h₂ (by decide)
  refine .bind (h.assignment s₂ (by omega)) fun value s₃ h₃ hvalue => ?_
  refine .found (by omega) (Built.Holds.bind (P := fun _ => True) (fun _ _ => trivial) fun key _ =>
    Built.Holds.bind hvalue fun value hvalue => .ok (Node.allFormed_iff.2 ⟨trivial, fun c hc => ?_⟩))
  obtain rfl : c = .expr value := by simpa [Node.children] using hc
  exact hvalue

theorem Steady.property (h : Steady k g g') : AgreedBelow k PropertyMade g.property g'.property := by
  intro s hs
  refine .oneOf_cons ?_ (.oneOf_cons ?_ (.oneOf_cons (h.plainProperty s hs) .oneOf_nil))
  · refine h.accessor (by decide) (F := fun names => names = []) (fun s names r h => ?_)
      (fun key names body h => ?_) s (Nat.lt_succ_of_lt hs)
    · cases h
      exact ⟨Nat.le_refl _, rfl⟩
    · subst h
      exact ⟨⟨body, rfl⟩, by simp⟩
  · refine h.accessor (by decide) (F := fun names => ∃ p, names = [p] ∧ IsName p) (fun s names r h => ?_)
      (fun key names body h => ?_) s (Nat.lt_succ_of_lt hs)
    · obtain ⟨⟨p, r'⟩, hp, heq⟩ := Option.map_eq_some_iff.1 h
      cases heq
      exact ⟨Nat.le_of_lt (identifier_spec hp).2, p, rfl, (identifier_spec hp).1⟩
    · obtain ⟨p, rfl, hp⟩ := h
      exact ⟨⟨p, body, rfl⟩, by simpa using hp⟩

theorem Steady.objectLiteral (h : Steady k g g') :
    AgreedBelow (k + 1) ExprMade g.objectLiteral g'.objectLiteral := by
  intro s hs
  unfold Grammar.objectLiteral
  refine .step fun s₁ h₁ => ?_
  have := length_mark h₁ (by decide)
  obtain ⟨props, s₂, hlist, hlist', hle, hall⟩ := h.property.list h.bound h.bound' (s := s₁) (by omega)
  simp only [hlist, hlist']
  have hcomma : ((mark "," s₂).getD s₂).length ≤ s₂.length := length_getD_mark s₂
  refine .step fun s₃ h₃ => ?_
  have := length_mark h₃ (by decide)
  refine .found (by omega) ((Built.Holds.all (P := fun p => (Node.property p).AllFormed) fun x hx =>
    (hall x hx).elim fun _ h => h).bind fun ps hps => .ok (Node.allFormed_iff.2 ⟨trivial, fun c hc => ?_⟩))
  obtain ⟨p, hp, rfl⟩ := List.mem_map.1 hc
  exact hps.2 p hp

/-! ## Operands -/

theorem exprMade (e : Expr) (hformed : e.Formed) (hchildren : ∀ c ∈ Node.childrenOfExpr e, c.AllFormed) :
    Built.Holds (fun e => (Node.expr e).AllFormed) (.ok e) :=
  .ok (Node.allFormed_iff.2 ⟨hformed, hchildren⟩)

theorem agreed_word {word : String} (hne : word.toList ≠ []) (e : Expr) (he : e.Formed)
    (hchildren : Node.childrenOfExpr e = []) (s : List Char) :
    Agreed s.length ExprMade ((keyword word s).map (fun s => (.ok e, s)))
      ((keyword word s).map (fun s => (.ok e, s))) := by
  refine .of_eq fun a r h => ?_
  obtain ⟨r', hr', heq⟩ := Option.map_eq_some_iff.1 h
  cases heq
  exact ⟨length_keyword hr' hne, exprMade e he (by simp [hchildren])⟩

theorem Steady.primary (h : Steady k g g') : AgreedBelow (k + 1) ExprMade g.primary g'.primary := by
  intro s hs
  refine .oneOf_cons (h.functionExpr s hs) (.oneOf_cons (agreed_word (by decide) .this trivial rfl s)
    (.oneOf_cons (agreed_word (by decide) .null trivial rfl s)
    (.oneOf_cons (agreed_word (by decide) (.bool true) trivial rfl s)
    (.oneOf_cons (agreed_word (by decide) (.bool false) trivial rfl s) (.oneOf_cons ?_ (.oneOf_cons ?_
    (.oneOf_cons (h.arrayLiteral s hs) (.oneOf_cons (h.objectLiteral s hs) (.oneOf_cons ?_
    (.oneOf_cons (h.parenthesized s hs) .oneOf_nil))))))))))
  · refine .of_eq fun a r h => ?_
    obtain ⟨⟨ds, r'⟩, hr', heq⟩ := Option.map_eq_some_iff.1 h
    cases heq
    exact ⟨length_number hr', (numberValue_holds hr').map fun v hv =>
      Node.allFormed_iff.2 ⟨hv, by simp [Node.children, Node.childrenOfExpr]⟩⟩
  · refine .of_eq fun a r h => ?_
    obtain ⟨⟨body, r'⟩, hr', heq⟩ := Option.map_eq_some_iff.1 h
    cases heq
    exact ⟨length_string hr', Built.Holds.map (P := fun _ => True) (fun _ _ => trivial) fun v _ =>
      Node.allFormed_iff.2 ⟨trivial, by simp [Node.children, Node.childrenOfExpr]⟩⟩
  · refine .of_eq fun a r h => ?_
    obtain ⟨⟨w, r'⟩, hr', heq⟩ := Option.map_eq_some_iff.1 h
    cases heq
    obtain ⟨hname, hlength⟩ := identifier_spec hr'
    exact ⟨hlength, exprMade (.ident w) hname (by simp [Node.childrenOfExpr])⟩

theorem Steady.arguments (h : Steady k g g') : AgreedBelow (k + 1)
    (fun args _ => ∀ a ∈ args, ∃ t, ExprMade a t) g.arguments g'.arguments := by
  intro s hs
  unfold Grammar.arguments
  refine .step fun s₁ h₁ => ?_
  have := length_mark h₁ (by decide)
  obtain ⟨args, s₂, hlist, hlist', hle, hall⟩ := h.assignment.list h.bound h.bound' (s := s₁) (by omega)
  simp only [hlist, hlist']
  refine .step fun s₃ h₃ => ?_
  have := length_mark h₃ (by decide)
  exact .found (by omega) hall

/-- The parts of a suffix are made. -/
def SuffixMade (x : Suffix) (r : List Char) : Prop :=
  match x with
  | .call args => ∀ a ∈ args, ∃ t, ExprMade a t
  | .member name => IsWord name
  | .index key => ExprMade key r

theorem Steady.callSuffix (h : Steady k g g') :
    AgreedBelow (k + 1) SuffixMade g.callSuffix g'.callSuffix := by
  intro s hs
  unfold Grammar.callSuffix
  exact .bind (h.arguments s hs) fun args s₁ h₁ hargs => .found h₁ hargs

theorem agreed_memberSuffix : AgreedBelow (k + 1) SuffixMade memberSuffix memberSuffix := by
  intro s hs
  unfold Grammar.memberSuffix
  refine .step fun s₁ h₁ => .step fun found hfound => ?_
  have := length_mark h₁ (by decide)
  obtain ⟨name, s₂⟩ := found
  obtain ⟨hword, hlength⟩ := propertyName_spec hfound
  exact .found (by omega) hword

theorem Steady.indexSuffix (h : Steady k g g') :
    AgreedBelow (k + 1) SuffixMade g.indexSuffix g'.indexSuffix := by
  intro s hs
  unfold Grammar.indexSuffix
  have hbetween : Agreed s.length ExprMade (Rule.between "[" "]" g.expression s)
      (Rule.between "[" "]" g'.expression s) := by
    unfold Rule.between
    refine .step fun s₁ h₁ => ?_
    have := length_mark h₁ (by decide)
    refine .bind (h.expression s₁ (by omega)) fun key s₂ h₂ hkey => .step fun s₃ h₃ => ?_
    have := length_mark h₃ (by decide)
    exact .found (by omega) hkey
  exact .bind hbetween fun key s₁ h₁ hkey => .found h₁ hkey

theorem suffixMade_apply {x : Built Expr} {suffix : Suffix} {r t : List Char} (hx : ExprMade x r)
    (hsuffix : SuffixMade suffix t) : ExprMade (Suffix.apply x suffix) r := by
  cases suffix with
  | call args =>
      refine Built.Holds.bind hx fun o ho => ?_
      refine (Built.Holds.all (P := fun e => (Node.expr e).AllFormed) fun a ha =>
        (hsuffix a ha).elim fun _ h => h).bind fun as has => exprMade (.call o as) trivial fun c hc => ?_
      rcases List.mem_cons.1 hc with rfl | hc
      · exact ho
      · obtain ⟨e, he, rfl⟩ := List.mem_map.1 hc
        exact has.2 e he
  | member name =>
      refine Built.Holds.bind hx fun o ho => ?_
      exact exprMade (.member o name) hsuffix (by simpa [Node.childrenOfExpr] using ho)
  | index key =>
      refine Built.Holds.bind hx fun o ho => Built.Holds.bind hsuffix fun e he => ?_
      refine exprMade (.index o e) trivial fun c hc => ?_
      simp only [Node.childrenOfExpr, List.mem_cons, List.not_mem_nil, or_false] at hc
      rcases hc with rfl | rfl
      · exact ho
      · exact he

theorem suffixMade_foldl {x : Built Expr} {r : List Char} (hx : ExprMade x r) : ∀ suffixes : List Suffix,
    (∀ f ∈ suffixes, ∃ t, SuffixMade f t) → ExprMade (suffixes.foldl Suffix.apply x) r
  | [], _ => hx
  | f :: suffixes, h => by
      obtain ⟨t, ht⟩ := h f List.mem_cons_self
      exact suffixMade_foldl (suffixMade_apply hx ht) suffixes fun f hf => h f (List.mem_cons_of_mem _ hf)

theorem Steady.base (h : Steady k g g') : AgreedBelow (k + 1) ExprMade g.base g'.base :=
  fun s hs => .oneOf_cons (h.construction s hs) (.oneOf_cons (h.primary s hs) .oneOf_nil)

theorem Steady.suffixed (h : Steady k g g') {suffix suffix' : Rule Suffix}
    (hsuffix : AgreedBelow (k + 1) SuffixMade suffix suffix') :
    AgreedBelow (k + 1) ExprMade (g.suffixed suffix) (g'.suffixed suffix') := by
  intro s hs
  unfold Grammar.suffixed
  refine .bind (h.base s hs) fun object s₁ h₁ hobject => ?_
  have := h.bound
  have := h.bound'
  obtain ⟨found, s₂, hmany, hmany', hle, hall⟩ :=
    hsuffix.many g.bound g'.bound s₁ (by omega) (by omega) (by omega)
  simp only [hmany, hmany']
  exact .found (by omega) (suffixMade_foldl (r := s₂) hobject found hall)

theorem Steady.callExpr (h : Steady k g g') : AgreedBelow (k + 1) ExprMade g.callExpr g'.callExpr :=
  h.suffixed fun s hs => .oneOf_cons (h.callSuffix s hs)
    (.oneOf_cons (agreed_memberSuffix s hs) (.oneOf_cons (h.indexSuffix s hs) .oneOf_nil))

theorem Steady.newExpr (h : Steady k g g') : AgreedBelow (k + 2) ExprMade g.newExpr g'.newExpr := by
  intro s hs
  unfold Grammar.newExpr
  refine .step fun s₁ h₁ => ?_
  have := length_keyword h₁ (by decide)
  refine .bind (h.suffixed (fun s hs => .oneOf_cons (agreed_memberSuffix s hs)
    (.oneOf_cons (h.indexSuffix s hs) .oneOf_nil)) s₁ (by omega)) fun callee s₂ h₂ hcallee => ?_
  obtain ⟨args, s₃, hargs, hargs', hle, hall, -⟩ := (h.arguments s₂ (by omega)).optional
  simp only [hargs, hargs']
  refine .found (by omega) (Built.Holds.bind hcallee fun callee hcallee => ?_)
  refine (Built.Holds.all (P := fun e => (Node.expr e).AllFormed) fun a ha => ?_).bind fun as has =>
    exprMade (.construct callee as) trivial fun c hc => ?_
  · cases args with
    | none => simp at ha
    | some args => exact (hall args rfl a ha).elim fun _ h => h
  · rcases List.mem_cons.1 hc with rfl | hc
    · exact hcallee
    · obtain ⟨e, he, rfl⟩ := List.mem_map.1 hc
      exact has.2 e he

/-! ## Operators -/

theorem updateOf_made (op : UpdateOp) (before : Bool) {e : Expr} (he : (Node.expr e).AllFormed)
    {r : List Char} : ExprMade (updateOf op before e) r := by
  unfold updateOf
  split_ifs with hreference
  · exact exprMade (.update op before e) hreference (by simpa [Node.childrenOfExpr] using he)
  · exact .error _

theorem agreed_updateMark : AgreedBelow k (fun _ _ => True) updateMark updateMark := by
  refine fun s _ => .of_eq fun op r h => ⟨?_, trivial⟩
  rw [updateMark, oneOf_cons, oneOf_cons, oneOf_nil, Option.or_none, Option.or_eq_some_iff] at h
  rcases h with h | ⟨-, h⟩ <;>
    · obtain ⟨r', hr', heq⟩ := Option.map_eq_some_iff.1 h
      cases heq
      exact length_mark hr' (by decide)

theorem Steady.updated (h : Steady k g g') : AgreedBelow (k + 1) ExprMade g.updated g'.updated := by
  intro s hs
  unfold Grammar.updated
  refine .bind (h.callExpr s hs) fun e s₁ h₁ he => ?_
  obtain ⟨op, s₂, hop, -, hle, -, -⟩ := ((agreed_updateMark (k := k)) s₁ (by omega)).optional
  simp only [hop]
  cases op with
  | none => exact .found (by omega) he
  | some op =>
      exact .found (by omega) (Built.Holds.bind he fun e he => updateOf_made op false he (r := s₂))

theorem agreed_leadOp : AgreedBelow k (fun _ _ => True) leadOp leadOp := by
  have hmark : ∀ {text : String} {s r : List Char} {x y : Lead}, text.toList ≠ [] →
      (mark text s).map (fun s => (x, s)) = some (y, r) → r.length < s.length := by
    intro text s r x y hne h
    obtain ⟨r', hr', heq⟩ := Option.map_eq_some_iff.1 h
    cases heq
    exact length_mark hr' hne
  have hkeyword : ∀ {text : String} {s r : List Char} {x y : Lead}, text.toList ≠ [] →
      (keyword text s).map (fun s => (x, s)) = some (y, r) → r.length < s.length := by
    intro text s r x y hne h
    obtain ⟨r', hr', heq⟩ := Option.map_eq_some_iff.1 h
    cases heq
    exact length_keyword hr' hne
  refine fun s _ => .of_eq fun op r h => ⟨?_, trivial⟩
  obtain ⟨rule, hrule, hfound⟩ := List.exists_of_findSome?_eq_some h
  simp only [List.mem_cons, List.not_mem_nil, or_false] at hrule
  rcases hrule with rfl | rfl | rfl | rfl | rfl | rfl | rfl | rfl | rfl <;> first
    | exact hmark (by decide) hfound
    | exact hkeyword (by decide) hfound

theorem leadMade_foldr {x : Built Expr} {r : List Char} (hx : ExprMade x r) :
    ∀ leads : List Lead, ExprMade (leads.foldr Lead.apply x) r
  | [] => hx
  | lead :: leads => by
      refine Built.Holds.bind (leadMade_foldr hx leads) fun e he => ?_
      cases lead with
      | update op => exact updateOf_made op true he (r := r)
      | unary op => exact exprMade (.unary op e) trivial (by simpa [Node.childrenOfExpr] using he)

theorem Steady.unary (h : Steady k g g') : AgreedBelow (k + 1) ExprMade g.unary g'.unary := by
  intro s hs
  unfold Grammar.unary
  have := h.bound
  have := h.bound'
  obtain ⟨leads, s₁, hmany, hmany', hle, -⟩ :=
    (agreed_leadOp (k := k + 1)).many g.bound g'.bound s (by omega) (by omega) (by omega)
  simp only [hmany, hmany']
  refine .bind (h.updated s₁ (by omega)) fun e s₂ h₂ he => ?_
  dsimp only
  exact .found (by omega) (leadMade_foldr he leads (r := s₂))

theorem infixMade_apply (op : Infix) {x y : Built Expr} {r : List Char} (hx : ExprMade x r)
    (hy : ExprMade y r) : ExprMade (op.apply x y) r := by
  refine Built.Holds.bind hx fun left hleft => Built.Holds.bind hy fun right hright => ?_
  have hchildren : ∀ c ∈ [Node.expr left, .expr right], c.AllFormed := by
    simpa using And.intro hleft hright
  cases op with
  | logical op => exact exprMade (.logical op left right) trivial hchildren
  | binary op => exact exprMade (.binary op left right) trivial hchildren

theorem reduce_made {r : List Char} (level : Nat) : ∀ (waiting : List (Built Expr × Infix)) {x : Built Expr},
    (∀ p ∈ waiting, ExprMade p.1 r) → ExprMade x r →
      (∀ p ∈ (reduce level waiting x).1, ExprMade p.1 r) ∧ ExprMade (reduce level waiting x).2 r
  | [], _, hwaiting, hx => ⟨hwaiting, hx⟩
  | (left, op) :: waiting, x, hwaiting, hx => by
      rw [reduce]
      split_ifs
      · exact reduce_made level waiting (fun p hp => hwaiting p (List.mem_cons_of_mem _ hp))
          (infixMade_apply op (hwaiting _ List.mem_cons_self) hx)
      · exact ⟨hwaiting, hx⟩

theorem climb_made {r : List Char} : ∀ (rest : List (Infix × Built Expr))
    {waiting : List (Built Expr × Infix)} {x : Built Expr}, (∀ p ∈ waiting, ExprMade p.1 r) →
      ExprMade x r → (∀ p ∈ rest, ExprMade p.2 r) → ExprMade (climb waiting x rest) r
  | [], waiting, _, hwaiting, hx, _ => (reduce_made 0 waiting hwaiting hx).2
  | (op, next) :: rest, waiting, x, hwaiting, hx, hrest => by
      obtain ⟨hwaiting', hleft⟩ := reduce_made op.level waiting hwaiting hx
      rw [climb]
      refine climb_made rest (fun p hp => ?_) (hrest _ List.mem_cons_self)
        fun p hp => hrest p (List.mem_cons_of_mem _ hp)
      rcases List.mem_cons.1 hp with rfl | hp
      · exact hleft
      · exact hwaiting' p hp

/-- A rule whose alternatives are marks uses up the mark. -/
theorem length_infixOp {op : Infix} {s r : List Char} (h : infixOp s = some (op, r)) :
    r.length < s.length := by
  have hmark : ∀ {text : String} {x y : Infix}, text.toList ≠ [] →
      (mark text s).map (fun s => (x, s)) = some (y, r) → r.length < s.length := by
    intro text x y hne h
    obtain ⟨r', hr', heq⟩ := Option.map_eq_some_iff.1 h
    cases heq
    exact length_mark hr' hne
  have hbefore : ∀ {text : String} {barred : Char → Bool} {x y : Infix}, text.toList ≠ [] →
      (markBefore text barred s).map (fun s => (x, s)) = some (y, r) → r.length < s.length := by
    intro text barred x y hne h
    obtain ⟨r', hr', heq⟩ := Option.map_eq_some_iff.1 h
    cases heq
    exact length_markBefore hr' hne
  obtain ⟨rule, hrule, hfound⟩ := List.exists_of_findSome?_eq_some h
  simp only [List.mem_cons, List.not_mem_nil, or_false] at hrule
  rcases hrule with rfl | rfl | rfl | rfl | rfl | rfl | rfl | rfl | rfl | rfl | rfl | rfl | rfl | rfl |
    rfl | rfl | rfl | rfl | rfl | rfl | rfl | rfl | rfl <;> first
    | exact hmark (by decide) hfound
    | exact hbefore (by decide) hfound

theorem Steady.infixed (h : Steady k g g') :
    AgreedBelow (k + 1) (fun p r => ExprMade p.2 r) g.infixed g'.infixed := by
  intro s hs
  unfold Grammar.infixed
  refine .step fun found hfound => ?_
  have := length_infixOp hfound
  exact .bind (h.unary found.2 (by omega)) fun e s₂ h₂ he => .found (by omega) he

theorem Steady.binary (h : Steady k g g') : AgreedBelow (k + 1) ExprMade g.binary g'.binary := by
  intro s hs
  rw [binary_eq, binary_eq]
  refine .bind (h.unary s hs) fun first s₁ h₁ hfirst => ?_
  have := h.bound
  have := h.bound'
  obtain ⟨rest, s₂, hmany, hmany', hle, hall⟩ :=
    h.infixed.many g.bound g'.bound s₁ (by omega) (by omega) (by omega)
  simp only [hmany, hmany']
  refine .found (by omega) (climb_made (r := s₂) rest (by simp) hfirst fun p hp => ?_)
  exact (hall p hp).elim fun _ h => h

theorem Steady.branches (h : Steady k g g') :
    AgreedBelow (k + 1) (fun p r => ExprMade p.1 r ∧ ExprMade p.2 r) g.branches g'.branches := by
  intro s hs
  unfold Grammar.branches
  refine .step fun s₁ h₁ => ?_
  have := length_mark h₁ (by decide)
  refine .bind (h.assignment s₁ (by omega)) fun cons s₂ h₂ hcons => .step fun s₃ h₃ => ?_
  have := length_mark h₃ (by decide)
  exact .bind (h.assignment s₃ (by omega)) fun alt s₄ h₄ halt => .found (by omega) ⟨hcons, halt⟩

theorem Steady.conditional (h : Steady k g g') :
    AgreedBelow (k + 1) ExprMade g.conditional g'.conditional := by
  intro s hs
  rw [conditional_eq, conditional_eq]
  refine .bind (h.binary s hs) fun test s₁ h₁ htest => ?_
  obtain ⟨found, s₂, hfound, hfound', hle, hall, -⟩ := (h.branches s₁ (by omega)).optional
  simp only [hfound, hfound']
  cases found with
  | none => exact .found (by omega) htest
  | some p =>
      obtain ⟨hcons, halt⟩ := hall p rfl
      refine .found (by omega) (Built.Holds.bind htest fun t ht => Built.Holds.bind hcons fun c hc =>
        Built.Holds.bind halt fun a ha => exprMade (.conditional t c a) trivial ?_)
      simpa [Node.childrenOfExpr] using ⟨ht, hc, ha⟩

theorem assignMark_spec {op : Option BinaryOp} {s r : List Char} (h : assignMark s = some (op, r)) :
    (∀ o ∈ op, o ∈ BinaryOp.compound) ∧ r.length < s.length := by
  have hmark : ∀ {text : String} {o : BinaryOp} {op : Option BinaryOp}, text.toList ≠ [] →
      o ∈ BinaryOp.compound → (mark text s).map (fun s => (some o, s)) = some (op, r) →
        (∀ o ∈ op, o ∈ BinaryOp.compound) ∧ r.length < s.length := by
    intro text o op hne ho h
    obtain ⟨r', hr', heq⟩ := Option.map_eq_some_iff.1 h
    cases heq
    exact ⟨by rintro _ ⟨⟩; exact ho, length_mark hr' hne⟩
  obtain ⟨rule, hrule, hfound⟩ := List.exists_of_findSome?_eq_some h
  simp only [List.mem_cons, List.not_mem_nil, or_false] at hrule
  rcases hrule with rfl | rfl | rfl | rfl | rfl | rfl | rfl | rfl | rfl | rfl | rfl | rfl
  · obtain ⟨r', hr', heq⟩ := Option.map_eq_some_iff.1 hfound
    cases heq
    exact ⟨by rintro _ ⟨⟩, length_markBefore hr' (by decide)⟩
  all_goals exact hmark (by decide) (by decide) hfound

theorem Steady.assigned (h : Steady k g g') : AgreedBelow (k + 1)
    (fun p r => (∀ o ∈ p.1, o ∈ BinaryOp.compound) ∧ ExprMade p.2 r) g.assigned g'.assigned := by
  intro s hs
  unfold Grammar.assigned
  refine .step fun found hfound => ?_
  obtain ⟨op, s₁⟩ := found
  obtain ⟨hop, hlength⟩ := assignMark_spec hfound
  exact .bind (h.assignment s₁ (by omega)) fun value s₂ h₂ hvalue => .found (by omega) ⟨hop, hvalue⟩

theorem Steady.assign (h : Steady k g g') : AgreedBelow (k + 1) ExprMade g.assign g'.assign := by
  intro s hs
  rw [assign_eq, assign_eq]
  refine .bind (h.conditional s hs) fun target s₁ h₁ htarget => ?_
  obtain ⟨found, s₂, hfound, hfound', hle, hall, -⟩ := (h.assigned s₁ (by omega)).optional
  simp only [hfound, hfound']
  cases found with
  | none => exact .found (by omega) htarget
  | some p =>
      obtain ⟨hop, hvalue⟩ := hall p rfl
      refine .found (by omega) (Built.Holds.bind htarget fun t ht => ?_)
      split_ifs with hreference
      · refine Built.Holds.bind hvalue fun v hv => exprMade (.assign p.1 t v) ⟨hreference, hop⟩ ?_
        simpa [Node.childrenOfExpr] using ⟨ht, hv⟩
      · exact .error _

end Grammar

end Resumption.Script
