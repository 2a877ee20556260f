import Resumption.Engine.Activation
import Resumption.Proofs.Code.Positions
import Resumption.Proofs.Sound.Realm

/-!
# Ways to a statement

A statement that is under way stands inside of others: in the arm of a branch, in the body of a loop
or of a scope, in a part of a `try`.  The way from the outermost of them to the innermost is a matter
of the tree alone, but for a loop over keys: its body is only found again if its queue of keys is
among the results.  The scopes on the way are counted; each of them is a link of the chain.
-/

namespace Resumption

open Script

variable {w w' : Realm}

/-! ## Ways -/

namespace IndexedTree

section

variable (t : IndexedTree) (cache : Cache) (p : Nat) (target : Stmt)

mutual

/-- The target at `p` is the statement at the position or inside of it, and so many scopes are
entered on the way. -/
inductive Within : Nat → Stmt → Nat → Prop
  | here : Within p target 0
  | block {i n : Nat} {body : List Stmt} (way : WithinList (i + 1) body n) :
      Within i (.block body) n
  | cons {i n : Nat} {test : Expr} {cons : Stmt} {alt : Option Stmt}
      (way : Within (t.after (i + 1)) cons n) : Within i (.branch test cons alt) n
  | alt {i n : Nat} {test : Expr} {cons alt : Stmt}
      (way : Within (t.after (t.after (i + 1))) alt n) : Within i (.branch test cons (some alt)) n
  | forBody {i j k l n : Nat} {init : ForInit} {test update : Option Expr} {body : Stmt}
      (test_at : j = t.afterMany init.count (i + 1))
      (update_at : k = if test.isSome then t.after j else j)
      (body_at : l = if update.isSome then t.after k else k) (way : Within l body n) :
      Within i (.forLoop init test update body) n
  | keyBody {i j n : Nat} {left : ForTarget} {right : Expr} {body : Stmt}
      (right_at : j = if left.isExpr then t.after (i + 1) else i + 1)
      (keys : cache.contains j = true) (way : Within (t.after j) body n) :
      Within i (.forIn left right body) n
  | whileBody {i n : Nat} {test : Expr} {body : Stmt} (way : Within (t.after (i + 1)) body n) :
      Within i (.whileLoop test body) n
  | doBody {i n : Nat} {body : Stmt} {test : Expr} (way : Within (i + 1) body n) :
      Within i (.doLoop body test) n
  | tryBlock {i n : Nat} {block : List Stmt} {handler : Option Handler}
      {finalizer : Option (List Stmt)} (way : WithinList (i + 1) block n) :
      Within i (.attempt block handler finalizer) n
  | handler {i n : Nat} {block body : List Stmt} {param : String}
      {finalizer : Option (List Stmt)}
      (way : WithinList (t.afterMany block.length (i + 1) + 1) body n) :
      Within i (.attempt block (some ⟨param, body⟩) finalizer) (n + 1)
  | finalizer {i j n : Nat} {block body : List Stmt} {handler : Option Handler}
      (finally_at : j = if handler.isSome then t.after (t.afterMany block.length (i + 1))
        else t.afterMany block.length (i + 1))
      (way : WithinList j body n) : Within i (.attempt block handler (some body)) n
  | arm {i n : Nat} {discriminant : Expr} {cases : List Case}
      (way : WithinCases (t.after (i + 1)) cases n) : Within i (.switch discriminant cases) n
  | scope {i n : Nat} {object : Expr} {body : Stmt} (way : Within (t.after (i + 1)) body n) :
      Within i (.withScope object body) (n + 1)

/-- The target is one of consecutive statements or inside of one. -/
inductive WithinList : Nat → List Stmt → Nat → Prop
  | head {i n : Nat} {s : Stmt} {rest : List Stmt} (way : Within i s n) : WithinList i (s :: rest) n
  | tail {i n : Nat} {s : Stmt} {rest : List Stmt} (way : WithinList (t.after i) rest n) :
      WithinList i (s :: rest) n

/-- The target is in the body of one of consecutive cases. -/
inductive WithinCases : Nat → List Case → Nat → Prop
  | head {i n : Nat} {test : Option Expr} {body : List Stmt} {rest : List Case}
      (way : WithinList (if test.isSome then t.after (i + 1) else i + 1) body n) :
      WithinCases i (⟨test, body⟩ :: rest) n
  | tail {i n : Nat} {c : Case} {rest : List Case} (way : WithinCases (t.after i) rest n) :
      WithinCases i (c :: rest) n

end

end

variable {t : IndexedTree} {cache cache' : Cache} {p : Nat} {target : Stmt}

mutual

/-- More results do no harm. -/
theorem Within.mono (hcache : ∀ k, cache.contains k = true → cache'.contains k = true) :
    ∀ {i s n}, t.Within cache p target i s n → t.Within cache' p target i s n
  | _, _, _, .here => .here
  | _, _, _, .block way => .block (way.mono hcache)
  | _, _, _, .cons way => .cons (way.mono hcache)
  | _, _, _, .alt way => .alt (way.mono hcache)
  | _, _, _, .forBody htest hupdate hbody way => .forBody htest hupdate hbody (way.mono hcache)
  | _, _, _, .keyBody hright hkeys way => .keyBody hright (hcache _ hkeys) (way.mono hcache)
  | _, _, _, .whileBody way => .whileBody (way.mono hcache)
  | _, _, _, .doBody way => .doBody (way.mono hcache)
  | _, _, _, .tryBlock way => .tryBlock (way.mono hcache)
  | _, _, _, .handler way => .handler (way.mono hcache)
  | _, _, _, .finalizer hfinally way => .finalizer hfinally (way.mono hcache)
  | _, _, _, .arm way => .arm (way.mono hcache)
  | _, _, _, .scope way => .scope (way.mono hcache)

theorem WithinList.mono (hcache : ∀ k, cache.contains k = true → cache'.contains k = true) :
    ∀ {i l n}, t.WithinList cache p target i l n → t.WithinList cache' p target i l n
  | _, _, _, .head way => .head (way.mono hcache)
  | _, _, _, .tail way => .tail (way.mono hcache)

theorem WithinCases.mono (hcache : ∀ k, cache.contains k = true → cache'.contains k = true) :
    ∀ {i l n}, t.WithinCases cache p target i l n → t.WithinCases cache' p target i l n
  | _, _, _, .head way => .head (way.mono hcache)
  | _, _, _, .tail way => .tail (way.mono hcache)

end

/-! ## The parts of statements -/

variable {i j k l : Nat} {P : Nat → Node → Prop}

theorem atAll_iff_along {l : List Node} : t.AtAll i l ↔ t.Along t.At i l := by
  induction l generalizing i with
  | nil => exact Iff.rfl
  | cons n l ih => exact and_congr_right fun _ => ih

theorem along_forLoop {init : ForInit} {test update : Option Expr} {body : Stmt}
    (h : t.Along P (i + 1) (Node.stmt (.forLoop init test update body)).children)
    (hj : j = t.afterMany init.count (i + 1)) (hk : k = if test.isSome then t.after j else j)
    (hl : l = if update.isSome then t.after k else k) :
    t.Along P (i + 1) init.nodes ∧ t.Along P j (Node.ofExpr? test) ∧
      t.Along P k (Node.ofExpr? update) ∧ P l (.stmt body) := by
  rw [Node.children_forLoop] at h
  simp only [along_append, init.length_nodes, Node.ofExpr?, List.length_map, t.afterMany_toList,
    ← hj, ← hk, ← hl] at h
  obtain ⟨hinit, htest, hupdate, hbody, -⟩ := h
  exact ⟨hinit, htest, hupdate, hbody⟩

/-- The body of a `for` is its last part. -/
theorem At.forLoop {init : ForInit} {test update : Option Expr} {body : Stmt}
    (hat : t.At i (.stmt (.forLoop init test update body)))
    (hj : j = t.afterMany init.count (i + 1)) (hk : k = if test.isSome then t.after j else j)
    (hl : l = if update.isSome then t.after k else k) :
    t.At l (.stmt body) ∧ i < l ∧ t.after l = t.after i := by
  have hafter := hat.after_eq
  rw [Node.children_forLoop] at hafter
  simp only [List.length_append, afterMany_add, init.length_nodes, Node.ofExpr?, List.length_map,
    t.afterMany_toList, ← hj, ← hk, ← hl] at hafter
  refine ⟨(along_forLoop (atAll_iff_along.1 hat.children) hj hk hl).2.2.2, ?_, hafter.symm⟩
  have hj' := t.le_afterMany init.count (i + 1)
  have hk' := t.le_after? (Nat.le_refl j) test
  have hl' := t.le_after? (Nat.le_refl k) update
  omega

theorem along_forIn {left : ForTarget} {right : Expr} {body : Stmt}
    (h : t.Along P (i + 1) (Node.stmt (.forIn left right body)).children)
    (hj : j = if left.isExpr then t.after (i + 1) else i + 1) :
    (∀ e, left = .expr e → P (i + 1) (.expr e)) ∧ P j (.expr right) ∧ P (t.after j) (.stmt body) := by
  cases left with
  | var name =>
      rw [ForTarget.isExpr, if_neg Bool.false_ne_true] at hj
      subst hj
      obtain ⟨hright, hbody, -⟩ := h
      exact ⟨nofun, hright, hbody⟩
  | expr e =>
      rw [ForTarget.isExpr, if_pos rfl] at hj
      subst hj
      obtain ⟨he, hright, hbody, -⟩ := h
      exact ⟨fun _ h => by cases h; exact he, hright, hbody⟩

theorem At.forIn {left : ForTarget} {right : Expr} {body : Stmt}
    (hat : t.At i (.stmt (.forIn left right body)))
    (hj : j = if left.isExpr then t.after (i + 1) else i + 1) :
    t.At (t.after j) (.stmt body) ∧ i < j ∧ j < t.after j ∧ t.after (t.after j) = t.after i := by
  have hafter := hat.after_eq
  have hlt := t.lt_after (i + 1)
  refine ⟨(along_forIn (atAll_iff_along.1 hat.children) hj).2.2, ?_, t.lt_after j, ?_⟩
  · cases left with
    | var name => exact hj ▸ Nat.lt_succ_self i
    | expr e => exact hj ▸ Nat.lt_trans (Nat.lt_succ_self i) hlt
  · cases left with
    | var name => exact hj ▸ hafter.symm
    | expr e => exact hj ▸ hafter.symm

theorem along_attempt {block : List Stmt} {handler : Option Handler} {finalizer : Option (List Stmt)}
    (h : t.Along P (i + 1) (Node.stmt (.attempt block handler finalizer)).children)
    (hj : j = t.afterMany block.length (i + 1)) (hk : k = if handler.isSome then t.after j else j) :
    t.Along P (i + 1) (Node.ofStmts block) ∧ t.Along P j (handler.toList.map .handler) ∧
      t.Along P k (Node.ofStmts (finalizer.getD [])) := by
  rw [Node.children, Node.childrenOfStmt] at h
  simp only [along_append, List.length_append, afterMany_add, Node.ofStmts, List.length_map,
    t.afterMany_toList, ← hj, ← hk] at h
  exact ⟨h.1.1, h.1.2, h.2⟩

theorem At.attempt {block : List Stmt} {handler : Option Handler} {finalizer : Option (List Stmt)}
    (hat : t.At i (.stmt (.attempt block handler finalizer)))
    (hj : j = t.afterMany block.length (i + 1)) (hk : k = if handler.isSome then t.after j else j) :
    i < j ∧ j ≤ k ∧ k ≤ t.after i ∧ t.afterMany (finalizer.getD []).length k = t.after i := by
  have hafter := hat.after_eq
  rw [Node.children, Node.childrenOfStmt] at hafter
  simp only [List.length_append, afterMany_add, Node.ofStmts, List.length_map, t.afterMany_toList,
    ← hj, ← hk] at hafter
  have hj' := t.le_afterMany block.length (i + 1)
  have hk' := t.le_after? (Nat.le_refl j) handler
  have hend := t.le_afterMany (finalizer.getD []).length k
  exact ⟨by omega, hk ▸ hk', by omega, hafter.symm⟩

theorem along_case {test : Option Expr} {body : List Stmt}
    (h : t.Along P (i + 1) (Node.case ⟨test, body⟩).children)
    (hj : j = if test.isSome then t.after (i + 1) else i + 1) :
    t.Along P (i + 1) (Node.ofExpr? test) ∧ t.Along P j (Node.ofStmts body) := by
  rw [Node.children] at h
  simp only [along_append, Node.ofStmts, Node.ofExpr?, List.length_map, t.afterMany_toList, ← hj] at h
  exact h

theorem At.case {test : Option Expr} {body : List Stmt} (hat : t.At i (.case ⟨test, body⟩))
    (hj : j = if test.isSome then t.after (i + 1) else i + 1) :
    i < j ∧ t.afterMany body.length j = t.after i := by
  have hafter := hat.after_eq
  rw [Node.children] at hafter
  simp only [List.length_append, afterMany_add, Node.ofStmts, Node.ofExpr?, List.length_map,
    t.afterMany_toList, ← hj] at hafter
  have hle := t.le_after? (Nat.le_refl (i + 1)) test
  exact ⟨by omega, hafter.symm⟩

/-! ## Where a way ends -/

mutual

/-- The target is where it is said to be, inside of every statement on the way. -/
theorem Within.inside : ∀ {i s n}, t.Within cache p target i s n → t.At i (.stmt s) →
    t.contains i p = true ∧ t.At p (.stmt target)
  | _, _, _, .here, hat => ⟨contains_iff.2 ⟨Nat.le_refl _, t.lt_after _⟩, hat⟩
  | i, _, _, .block way, hat => by
      obtain ⟨hle, hlt, hp⟩ := way.inside hat.children
      have hafter := hat.after_eq
      simp only [Node.children, Node.childrenOfStmt, Node.ofStmts, List.length_map] at hafter
      exact ⟨contains_iff.2 (by omega), hp⟩
  | i, _, _, .cons way, hat => by
      obtain ⟨htest, hcons, -⟩ := hat.children
      obtain ⟨hin, hp⟩ := way.inside hcons
      exact ⟨hat.contains_trans (hat.contains_child (List.mem_cons_of_mem _ List.mem_cons_self)).2 hin, hp⟩
  | i, _, _, .alt way, hat => by
      obtain ⟨htest, hcons, halt, -⟩ := hat.children
      obtain ⟨hin, hp⟩ := way.inside halt
      exact ⟨hat.contains_trans (hat.contains_child
        (List.mem_cons_of_mem _ (List.mem_cons_of_mem _ List.mem_cons_self))).2 hin, hp⟩
  | i, _, _, .forBody htest hupdate hbody way, hat => by
      obtain ⟨hbodyAt, hlt, hafter⟩ := hat.forLoop htest hupdate hbody
      obtain ⟨hin, hp⟩ := way.inside hbodyAt
      have := contains_iff.1 hin
      exact ⟨contains_iff.2 (by omega), hp⟩
  | i, _, _, .keyBody hright _ way, hat => by
      obtain ⟨hbodyAt, hlt, hlt', hafter⟩ := hat.forIn hright
      obtain ⟨hin, hp⟩ := way.inside hbodyAt
      have := contains_iff.1 hin
      exact ⟨contains_iff.2 (by omega), hp⟩
  | i, _, _, .whileBody way, hat => by
      obtain ⟨htest, hbody, -⟩ := hat.children
      obtain ⟨hin, hp⟩ := way.inside hbody
      exact ⟨hat.contains_trans (hat.contains_child (List.mem_cons_of_mem _ List.mem_cons_self)).2 hin, hp⟩
  | i, _, _, .doBody way, hat => by
      obtain ⟨hbody, -⟩ := hat.children
      obtain ⟨hin, hp⟩ := way.inside hbody
      exact ⟨hat.contains_trans (hat.contains_child List.mem_cons_self).2 hin, hp⟩
  | i, _, _, .tryBlock way, hat => by
      obtain ⟨hblock, -⟩ := along_attempt (atAll_iff_along.1 hat.children) rfl rfl
      obtain ⟨hlt, hle, hend, -⟩ := hat.attempt rfl rfl
      obtain ⟨hfrom, hto, hp⟩ := way.inside (atAll_iff_along.2 hblock)
      exact ⟨contains_iff.2 (by omega), hp⟩
  | i, _, _, .handler way, hat => by
      obtain ⟨-, ⟨hhandler, -⟩, -⟩ := along_attempt (atAll_iff_along.1 hat.children) rfl rfl
      obtain ⟨hlt, hle, hend, -⟩ := hat.attempt rfl rfl
      obtain ⟨hfrom, hto, hp⟩ := way.inside hhandler.children
      have hafter := hhandler.after_eq
      rw [Node.children, Node.ofStmts, List.length_map] at hafter
      rw [Option.isSome_some, if_pos rfl] at hend
      dsimp only at hafter
      exact ⟨contains_iff.2 (by omega), hp⟩
  | i, _, _, .finalizer hfinally way, hat => by
      obtain ⟨-, -, hbody⟩ := along_attempt (atAll_iff_along.1 hat.children) rfl hfinally
      obtain ⟨hlt, hle, -, hafter⟩ := hat.attempt rfl hfinally
      obtain ⟨hfrom, hto, hp⟩ := way.inside (atAll_iff_along.2 hbody)
      rw [Option.getD_some] at hafter
      exact ⟨contains_iff.2 (by omega), hp⟩
  | i, .switch _ cases, _, .arm way, hat => by
      obtain ⟨-, hcases⟩ := hat.children
      obtain ⟨hfrom, hto, hp⟩ := way.inside hcases
      have hafter : t.after i = t.afterMany (cases.map Node.case).length (t.after (i + 1)) := hat.after_eq
      have hlt := t.lt_after (i + 1)
      rw [List.length_map] at hafter
      exact ⟨contains_iff.2 (by omega), hp⟩
  | i, _, _, .scope way, hat => by
      obtain ⟨hobject, hbody, -⟩ := hat.children
      obtain ⟨hin, hp⟩ := way.inside hbody
      exact ⟨hat.contains_trans (hat.contains_child (List.mem_cons_of_mem _ List.mem_cons_self)).2 hin, hp⟩

theorem WithinList.inside : ∀ {i l n}, t.WithinList cache p target i l n →
    t.AtAll i (Node.ofStmts l) → i ≤ p ∧ p < t.afterMany l.length i ∧ t.At p (.stmt target)
  | i, _, _, .head way, hat => by
      obtain ⟨hin, hp⟩ := way.inside hat.1
      obtain ⟨hle, hlt⟩ := contains_iff.1 hin
      exact ⟨hle, Nat.lt_of_lt_of_le hlt (t.le_afterMany _ _), hp⟩
  | i, _, _, .tail way, hat => by
      obtain ⟨hle, hlt, hp⟩ := way.inside hat.2
      exact ⟨Nat.le_trans (Nat.le_of_lt (t.lt_after i)) hle, hlt, hp⟩

theorem WithinCases.inside : ∀ {i l n}, t.WithinCases cache p target i l n →
    t.AtAll i (l.map .case) → i ≤ p ∧ p < t.afterMany l.length i ∧ t.At p (.stmt target)
  | i, _, _, .head way, hat => by
      obtain ⟨hlt, hafter⟩ := hat.1.case rfl
      have hbody := (along_case (atAll_iff_along.1 hat.1.children) rfl).2
      obtain ⟨hle, hp, hat'⟩ := way.inside (atAll_iff_along.2 hbody)
      rw [hafter] at hp
      exact ⟨by omega, Nat.lt_of_lt_of_le hp (t.le_afterMany _ _), hat'⟩
  | i, _, _, .tail way, hat => by
      obtain ⟨hle, hlt, hp⟩ := way.inside hat.2
      exact ⟨Nat.le_trans (Nat.le_of_lt (t.lt_after i)) hle, hlt, hp⟩

end

end IndexedTree

end Resumption
