import Resumption.Code.Lowering
import Resumption.Machine.Basic
import Resumption.Proofs.Index.Position
import Resumption.Proofs.Match.World

/-!
# Terms of a comparison

Two runs of one script are compared.  The one on the right walks source trees and is not paused by
itself; the one on the left runs instrumented code, walks source trees, or does one after the other,
and it may take pauses.  What the script must not do for the comparison to hold depends on the terms,
and on the manner of the function: code that is walked without books on both sides may do anything.
-/

namespace Resumption

open Script

/-- Where pauses are taken. -/
inductive Pauses where
  | nowhere
  | left
  /-- On both sides at once, and both keep the same books. -/
  | together
deriving DecidableEq

/-- A hook, by its states, and the positions at which it is not expected to halt. -/
structure Sparing where
  hooks : Hook → Prop
  asked : ∀ {hook : Hook}, hooks hook → ∀ moment, hooks (hook.ask moment).2
  quiet : Nat → Prop

/-- The hook halts at the position in one of its states, and was not expected to. -/
def Sparing.Breaks (s : Sparing) (i : Nat) : Prop :=
  s.quiet i ∧ ∃ hook moment, s.hooks hook ∧ moment.index = i ∧ (hook.ask moment).1 = true

/-- The terms on which two runs are compared. -/
structure Terms where
  /-- How functions are walked on the right, those without books apart. -/
  mode : Mode
  pauses : Pauses
  /-- Every call stands alone, so pauses may be taken in every function. -/
  solo : Bool
  /-- The registries on the left. -/
  registries : Array Registry
  /-- What is known of the hook on the left, if there may be one. -/
  spared : Option Sparing

/-- Pauses cost fuel, so more of it is given on the left where they are taken, and nothing is said if
it runs out on the right. -/
def Terms.loose (T : Terms) : Bool := T.pauses == .left

/-- A pause where the hook was not expected to halt.  Notes may have been left since. -/
def Terms.Strays (T : Terms) (u : Unwind) : Prop :=
  ∃ sparing, T.spared = some sparing ∧
    ∃ i infos, u = { Unwind.ofSignal (.pause i) with infos } ∧ sparing.Breaks i

theorem Terms.Strays.isPause {T : Terms} {u : Unwind} (h : T.Strays u) : u.isPause = true := by
  obtain ⟨-, -, i, infos, rfl, -⟩ := h
  rfl

theorem Terms.not_strays {T : Terms} (h : T.spared = none) (u : Unwind) : ¬ T.Strays u := by
  rintro ⟨sparing, hspared, -⟩
  rw [h] at hspared
  cases hspared

/-- The tree is found by each of its positions. -/
def Terms.Registered (T : Terms) (t : IndexedTree) (registry : Nat) : Prop :=
  ∀ i, t.owns i = true → (T.registries.getD registry default).tree t.ns i = .ok t

/-- In what manner a function takes part in the comparison. -/
inductive Manner where
  /-- It is walked without books on both sides. -/
  | free
  | script
  /-- It may ask for its arguments, and makes no functions and no scopes. -/
  | own
  /-- It makes no functions and no scopes either, and it may be paused. -/
  | apart
  /-- It is the outermost one, in which pauses may be taken. -/
  | top
deriving DecidableEq

/-- Functions and scopes may be made.  Where they are not, nobody else gets hold of the variables. -/
def Manner.opens : Manner → Bool
  | .own | .apart => false
  | _ => true

/-! ## Calls that stand alone -/

namespace Script

/-- The variable with which functions count whose variables are their own: nothing but numbers are
written to it. -/
def counterName : String := "i"

/-- A call, or a construction. -/
def Expr.isInvocation : Expr → Bool
  | .call _ _ | .construct _ _ => true
  | _ => false

def Expr.isConstruct : Expr → Bool
  | .construct _ _ => true
  | _ => false

/-- Nothing but variables and properties are read. -/
def Expr.isRead : Expr → Bool
  | .ident _ | .member (.ident _) _ | .index (.ident _) (.ident _) => true
  | _ => false

/-- A call that is made up of what is read. -/
def Expr.callsRead : Expr → Bool
  | .call callee args => callee.isRead && args.all isRead
  | _ => false

/-- A call whose result is written to something that is found without a call. -/
def Expr.keepsCall : Expr → Bool
  | .assign none (.ident _) value => value.isInvocation
  | .assign none (.index (.ident _) (.ident _)) value => value.isInvocation
  | _ => false

/-- The name that an expression starts with. -/
def Expr.root? : Expr → Option String
  | .ident name => some name
  | .member e _ | .index e _ => e.root?
  | _ => none

namespace Node

/-- The node is a call, or does nothing but keep the result of one. -/
def calls : Node → Bool
  | .expr e => e.isInvocation || e.keepsCall
  | _ => false

/-- A call may be a part of the node. -/
def seatsCall (s : Manner) : Node → Bool
  | .stmt (.expr _) | .stmt (.ret _) | .declarator _ => true
  | .stmt (.branch _ _ _) => s == .apart
  | .stmt (.throwing _) => s == .own || s == .apart
  | .expr (.assign none (.ident _) _) => true
  | .expr (.assign none (.index (.ident _) (.ident _)) _) => s == .apart
  | _ => false

/-- A construction may be a part of the node. -/
def seatsConstruct : Node → Bool
  | .stmt (.throwing _) => true
  | _ => false

/-- What keeps the result of a call may be a part of the node. -/
def seatsKept : Node → Bool
  | .stmt (.expr _) => true
  | _ => false

/-- The parts of the node are no calls, or the node is a place for them. -/
def seats (s : Manner) (n : Node) : Node → Bool
  | .expr e => (!e.isInvocation || n.seatsCall s) && (!e.isConstruct || n.seatsConstruct) &&
    (!e.keepsCall || n.seatsKept)
  | _ => true

/-- The node introduces a function that runs without books. -/
def isEscaped (n : Node) : Bool := n.func?.any Func.isEscaped

end Node

end Script

/-! ## Fairness -/

namespace Terms

/-- The arguments of the function may be read, but neither written to nor called. -/
def Spares (s : Manner) (e : Expr) : Prop := s = .own → e.root? ≠ some argumentsName

/-- A count is a number that stands there as such. -/
def KeepsCount (s : Manner) (target : Expr) (op : Option BinaryOp) (value : Expr) : Prop :=
  s.opens = false → target = .ident counterName → op = none ∧ ∃ x, value = .num x

/-- The element that a call is written to is found by the count, and it is found again. -/
def Finds (s : Manner) (target value : Expr) : Prop :=
  s = .apart → ∀ object key, target = .index object key → value.isInvocation = true →
    key = .ident counterName ∧ value.callsRead = true

/-- What the node is by itself does not stand in the way of the comparison. -/
def Admits (T : Terms) (s : Manner) : Node → Prop
  | .expr (.ident name) => name = argumentsName → s = .own
  | .expr (.assign op target value) => Spares s target ∧ KeepsCount s target op value ∧ Finds s target value
  | .expr (.update _ _ target) => Spares s target
  | .expr (.call callee _) => Spares s callee ∧ (T.solo = true → s ≠ .own)
  | .expr (.function f) => s.opens = true ∧ (T.solo = true → f.isEscaped = false)
  | .stmt (.function f) => s.opens = true ∧ (T.solo = true → f.isEscaped = false)
  | .expr (.construct callee _) => (T.solo = true → s.opens = false) ∧ Spares s callee
  | .property p => T.solo = true → p.kind = .init
  | .declarator d => ∀ init, d.init = some init → KeepsCount s (.ident d.name) none init
  | .stmt .debugger => T.pauses = .left → T.solo = true ∧ s.opens = true ∨ s = .top
  | .stmt (.withScope _ _) | .stmt (.attempt _ _ _) => s.opens = true
  | .stmt (.forIn _ _ _) | .stmt (.switch _ _) => s.opens = true
  | _ => True

/-- The node and its parts do not stand in the way. -/
def Allows (T : Terms) (s : Manner) (n : Node) : Prop :=
  T.Admits s n ∧ (T.solo = true → ∀ c ∈ n.children, n.seats s c = true)

end Terms

/-- The manner of the parts of a node. -/
def Manner.below (s : Manner) : Node → Manner
  | .stmt (.function _) | .expr (.function _) => if s = .free then .free else .script
  | _ => s

/-- Nothing at the node or below it stands in the way.  Functions without books are not looked
into. -/
inductive Terms.Fair (T : Terms) : Manner → Node → Prop
  | free (n : Node) : Fair T .free n
  | intro {s : Manner} {n : Node} (allows : T.Allows s n)
      (below : n.isEscaped = false → ∀ c ∈ n.children, Fair T (s.below n) c) : Fair T s n

/-- Nothing in the body of a function stands in the way.  Where calls stand alone, a function that may
ask for its arguments calls others only after it has done so. -/
inductive Terms.FairBody (T : Terms) : Manner → List Stmt → Prop
  | whole {s : Manner} {body : List Stmt} (hs : s = .own → T.solo = false)
      (h : ∀ b ∈ Node.ofStmts body, T.Fair s b) : FairBody T s body
  | parted {front back : List Stmt} (hsolo : T.solo = true)
      (hfront : ∀ b ∈ Node.ofStmts front, T.Fair .own b)
      (hback : ∀ b ∈ Node.ofStmts back, T.Fair .apart b) : FairBody T .own (front ++ back)

/-- Calls stand alone, and the node is none; or they may stand anywhere. -/
def Terms.Calm (T : Terms) (s : Manner) (n : Node) : Prop :=
  T.solo = true → s ≠ .free ∧ n.calls = false

namespace Terms

variable {T : Terms} {s : Manner} {n c : Node}

theorem Fair.admits (h : T.Fair s n) : s = .free ∨ T.Admits s n := by
  cases h with
  | free => exact .inl rfl
  | intro allows below => exact .inr allows.1

/-- In code that may do anything scopes are shared. -/
theorem Fair.keepsCount {op : Option BinaryOp} {target value : Expr}
    (h : T.Fair s (.expr (.assign op target value))) : KeepsCount s target op value := by
  rcases h.admits with rfl | h
  · exact nofun
  · exact h.2.1

/-- What only scopes are made for is admitted only where they may be made. -/
theorem Fair.opens (h : T.Fair s n) (hn : T.Admits s n → s.opens = true) : s.opens = true := by
  rcases h.admits with rfl | h
  · rfl
  · exact hn h

theorem Fair.declares {d : Declarator} (h : T.Fair s (.declarator d)) {init : Expr}
    (hinit : d.init = some init) : KeepsCount s (.ident d.name) none init := by
  rcases h.admits with rfl | h
  · exact nofun
  · exact h init hinit

theorem FairBody.fair {body : List Stmt} (h : T.FairBody s body) (hs : s = .own → T.solo = false) :
    ∀ b ∈ Node.ofStmts body, T.Fair s b := by
  cases h with
  | whole _ h => exact h
  | parted hsolo =>
      rw [hs rfl] at hsolo
      cases hsolo

theorem Fair.part (h : T.Fair s n) (hn : n.isEscaped = false) (hc : c ∈ n.children) :
    T.Fair (s.below n) c := by
  cases h with
  | free =>
      have hbelow : Manner.free.below n = .free := by
        unfold Manner.below
        split <;> rfl
      rw [hbelow]
      exact .free c
  | intro allows below => exact below hn c hc

/-- A node that introduces no function hands its manner down. -/
theorem below_of_func? (hn : n.func? = none) : s.below n = s := by
  unfold Manner.below
  split
  · cases hn
  · cases hn
  · rfl

/-- There are no constructions among the parts of a node that is no place for them. -/
theorem Fair.seldom {e : Expr} (h : T.Fair s n) (hs : T.solo = true → s ≠ .free)
    (hn : n.seatsConstruct = false) (he : .expr e ∈ n.children) :
    T.solo = true → e.isConstruct = false := by
  intro hsolo
  cases h with
  | free => exact absurd rfl (hs hsolo)
  | intro allows below =>
      have hseats := allows.2 hsolo _ he
      simp only [Node.seats, hn, Bool.or_false, Bool.and_eq_true, Bool.not_eq_true'] at hseats
      exact hseats.1.2

/-- Where calls stand alone, constructions are admitted only where no scopes are made. -/
theorem Fair.constructs {e : Expr} (h : T.Fair s (.expr e)) (hs : T.solo = true → s ≠ .free)
    (hopens : T.solo = true → s.opens = true) : T.solo = true → e.isConstruct = false := by
  intro hsolo
  cases e with
  | construct callee args =>
      have hadmits := (h.admits.resolve_left (hs hsolo)).1 hsolo
      rw [hopens hsolo] at hadmits
      cases hadmits
  | _ => rfl

theorem Fair.child (h : T.Fair s n) (hn : n.func? = none) (hc : c ∈ n.children) : T.Fair s c := by
  have hescaped : n.isEscaped = false := by rw [Node.isEscaped, hn]; rfl
  simpa [below_of_func? hn] using h.part hescaped hc

/-- What is no place for calls has none among its parts. -/
theorem Fair.calm (h : T.Fair s n) (hs : T.solo = true → s ≠ .free)
    (hcall : n.seatsCall s = false) (hkept : n.seatsKept = false) (hc : c ∈ n.children) :
    T.Calm s c := by
  intro hsolo
  refine ⟨hs hsolo, ?_⟩
  cases h with
  | free => exact absurd rfl (hs hsolo)
  | intro allows below =>
      have hseats := allows.2 hsolo c hc
      cases c with
      | expr e =>
          simp only [Node.seats, hcall, hkept, Bool.or_false, Bool.and_eq_true,
            Bool.not_eq_true'] at hseats
          simp [Node.calls, hseats]
      | _ => rfl

/-- Only a plain assignment has a place for a call. -/
theorem seatsCall_expr {e : Expr} (h : (Node.expr e).seatsCall s = true) :
    ∃ target value, e = .assign none target value ∧ target.isInvocation = false ∧
      e.keepsCall = value.isInvocation := by
  unfold Node.seatsCall at h
  split at h
  all_goals first | contradiction | skip
  · rename_i name value heq
    cases heq
    exact ⟨.ident name, value, rfl, rfl, rfl⟩
  · rename_i object key value heq
    cases heq
    exact ⟨.index (.ident object) (.ident key), value, rfl, rfl, rfl⟩

/-- An expression without calls has none among its parts. -/
theorem Calm.child {e : Expr} (h : T.Calm s (.expr e)) (hfair : T.Fair s (.expr e))
    (hc : c ∈ (Node.expr e).children) : T.Calm s c := by
  intro hsolo
  obtain ⟨hs, hcalls⟩ := h hsolo
  cases hseats : (Node.expr e).seatsCall s with
  | false => exact hfair.calm (fun _ => hs) hseats rfl hc hsolo
  | true =>
      -- Only an assignment has a seat, and its value would make it one that keeps a call.
      refine ⟨hs, ?_⟩
      cases hfair with
      | free => exact absurd rfl hs
      | intro allows below =>
          have hseat := allows.2 hsolo c hc
          cases c with
          | expr c =>
              simp only [Node.seats, Node.seatsKept, Bool.or_false, Bool.and_eq_true,
                Bool.not_eq_true'] at hseat
              simp only [Node.calls, Bool.or_eq_false_iff] at hcalls ⊢
              refine ⟨?_, hseat.2⟩
              cases hcall : c.isInvocation with
              | false => rfl
              | true =>
                  exfalso
                  obtain ⟨target, value, rfl, htarget, hkeeps⟩ := seatsCall_expr hseats
                  simp only [Node.children, Node.childrenOfExpr, List.mem_cons, List.not_mem_nil,
                    or_false, Node.expr.injEq] at hc
                  rcases hc with rfl | rfl
                  · rw [htarget] at hcall
                    cases hcall
                  · rw [hkeeps, hcall] at hcalls
                    cases hcalls.2
          | _ => rfl

end Terms

end Resumption
