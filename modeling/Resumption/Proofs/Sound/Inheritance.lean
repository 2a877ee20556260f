import Mathlib.Logic.Relation
import Resumption.Proofs.Sound.Host

/-!
# Inheritance ends

An object inherits from one that was made before it, whatever a host and its scripts do.  So nothing
inherits from itself, and the loops that follow inheritance upwards come to an end without a bound of
their own: the search for a slot, the question for an instance, and the enumeration of keys.
-/

namespace Resumption

namespace Heap

variable {h : Heap} {a p : Nat} {β ρ : Type}

/-- The one object inherits from the other. -/
def Inherits (h : Heap) (a p : Address) : Prop := (h.object a).proto = some p

/-- Every object was made after the one it inherits from. -/
def Ordered (h : Heap) : Prop := ∀ a p, h.Inherits a p → p < a

theorem Ordered.lt_of_transGen (hh : h.Ordered) (hp : Relation.TransGen h.Inherits a p) : p < a := by
  induction hp with
  | single hp => exact hh _ _ hp
  | tail _ hp ih => exact Nat.lt_trans (hh _ _ hp) ih

theorem Ordered.proto?_eq (hh : h.Ordered) (a : Address) : h.proto? a = (h.object a).proto := by
  rw [proto?]
  cases hproto : (h.object a).proto with
  | none => rfl
  | some p => exact Option.filter_eq_some_iff.2 ⟨rfl, decide_eq_true (hh a p hproto)⟩

theorem ancestors_of_none (hp : h.proto? a = none) : h.ancestors a = [] := by
  rw [ancestors]
  split
  · rename_i heq
    rw [hp] at heq
    cases heq
  · rfl

theorem ancestors_of_some (hp : h.proto? a = some p) : h.ancestors a = p :: h.ancestors p := by
  rw [ancestors]
  split
  · rename_i heq
    rw [hp] at heq
    cases heq
    rfl
  · rename_i heq
    rw [hp] at heq
    cases heq

/-! ## Loops upwards -/

/-- A loop that goes from an object to the one it inherits from.  A turn has a result or goes on; `top` is
the result where nothing more is inherited from.  There is none if the turns do not suffice. -/
def climb (h : Heap) (turn : β → Address → ρ ⊕ β) (top : β → ρ) : Nat → β → Option Address → Option ρ
  | 0, _, _ => none
  | _ + 1, acc, none => some (top acc)
  | turns + 1, acc, some a =>
    match turn acc a with
    | .inl result => some result
    | .inr acc => climb h turn top turns acc (h.object a).proto

/-- The same along a list. -/
def climbList (turn : β → Address → ρ ⊕ β) (top : β → ρ) : β → List Address → ρ
  | acc, [] => top acc
  | acc, a :: rest =>
    match turn acc a with
    | .inl result => result
    | .inr acc => climbList turn top acc rest

/-- A loop that starts at an object ends when it has seen this one and all that it inherits from. -/
theorem Ordered.climb_eq (hh : h.Ordered) (turn : β → Address → ρ ⊕ β) (top : β → ρ) (acc : β)
    {turns : Nat} (hturns : a + 2 ≤ turns) :
    h.climb turn top turns acc (some a) = some (climbList turn top acc (a :: h.ancestors a)) := by
  induction turns generalizing a acc with
  | zero => omega
  | succ turns ih =>
      rw [climb, climbList]
      cases turn acc a with
      | inl result => rfl
      | inr acc =>
          dsimp only
          have hproto := hh.proto?_eq a
          cases hp : (h.object a).proto with
          | none =>
              rw [ancestors_of_none (hproto.trans hp)]
              obtain ⟨turns, rfl⟩ : ∃ n, turns = n + 1 := ⟨turns - 1, by omega⟩
              rfl
          | some p =>
              rw [ancestors_of_some (hproto.trans hp)]
              exact ih acc (Nat.le_of_succ_le_succ (Nat.le_trans (Nat.add_le_add_right (hh a p hp) 2) hturns))

/-- A loop that starts at what an object inherits from. -/
theorem Ordered.climb_proto_eq (hh : h.Ordered) (turn : β → Address → ρ ⊕ β) (top : β → ρ) (acc : β)
    {turns : Nat} (hturns : a + 2 ≤ turns) :
    h.climb turn top turns acc (h.object a).proto = some (climbList turn top acc (h.ancestors a)) := by
  have hproto := hh.proto?_eq a
  cases hp : (h.object a).proto with
  | none =>
      rw [ancestors_of_none (hproto.trans hp)]
      obtain ⟨turns, rfl⟩ : ∃ n, turns = n + 1 := ⟨turns - 1, by omega⟩
      rfl
  | some p =>
      rw [ancestors_of_some (hproto.trans hp)]
      exact hh.climb_eq turn top acc
        (Nat.le_trans (Nat.add_le_add_right (Nat.le_of_lt (hh a p hp)) 2) hturns)

/-! ### The search for a slot -/

def slotLoop (h : Heap) (key : String) (turns : Nat) (a : Address) : Option (Option Slot) :=
  h.climb (fun _ b => match (h.object b).own? key with
    | some slot => .inl (some slot)
    | none => .inr ()) (fun _ => none) turns () (some a)

theorem find?_eq_findSome? (h : Heap) (key : String) (a : Address) :
    h.find? key a = (a :: h.ancestors a).findSome? fun b => (h.object b).own? key := by
  fun_induction Heap.find? h key a with
  | case1 a slot hown => rw [List.findSome?_cons, hown]
  | case2 a hown p hp ih => rw [List.findSome?_cons, hown, ancestors_of_some hp, ih]
  | case3 a hown hp => rw [List.findSome?_cons, hown, ancestors_of_none hp]; rfl

theorem Ordered.slotLoop_eq (hh : h.Ordered) (key : String) {turns : Nat} (hturns : a + 2 ≤ turns) :
    h.slotLoop key turns a = some (h.find? key a) := by
  rw [slotLoop, hh.climb_eq _ _ _ hturns, find?_eq_findSome?]
  generalize a :: h.ancestors a = l
  congr 1
  induction l with
  | nil => rfl
  | cons b l ih =>
      rw [climbList, List.findSome?_cons]
      cases (h.object b).own? key with
      | none => exact ih
      | some slot => rfl

/-! ### The question for an instance -/

def instanceLoop (h : Heap) (proto : Address) (turns : Nat) (a : Address) : Option Bool :=
  h.climb (fun _ b => if b = proto then .inl true else .inr ()) (fun _ => false) turns ()
    (h.object a).proto

theorem Ordered.instanceLoop_eq (hh : h.Ordered) (proto : Address) {turns : Nat}
    (hturns : a + 2 ≤ turns) :
    h.instanceLoop proto turns a = some ((h.ancestors a).contains proto) := by
  rw [instanceLoop, hh.climb_proto_eq _ _ _ hturns]
  generalize h.ancestors a = l
  congr 1
  induction l with
  | nil => rfl
  | cons b l ih =>
      rw [climbList, List.contains_cons]
      by_cases hb : b = proto
      · rw [if_pos hb, hb, beq_self_eq_true, Bool.true_or]
      · rw [if_neg hb, beq_eq_false_iff_ne.2 (Ne.symm hb), Bool.false_or]
        exact ih

/-! ### The enumeration of keys -/

/-- Adds the keys of an object that are new. -/
def gather (h : Heap) (found : List String) (a : Address) : List String :=
  (h.object a).keys.foldl (fun found key => if found.contains key then found else found ++ [key]) found

def keyLoop (h : Heap) (turns : Nat) (a : Address) : Option (List String) :=
  h.climb (fun found b => if Intrinsic.isPrototype b then .inl found else .inr (h.gather found b)) id
    turns [] (some a)

theorem Ordered.keyLoop_eq (hh : h.Ordered) {turns : Nat} (hturns : a + 2 ≤ turns) :
    h.keyLoop turns a = some (h.enumerate (.object a)) := by
  rw [keyLoop, hh.climb_eq _ _ _ hturns, enumerate]
  generalize a :: h.ancestors a = l
  change _ = some ((l.takeWhile fun b => !Intrinsic.isPrototype b).foldl h.gather [])
  generalize [] = found
  congr 1
  induction l generalizing found with
  | nil => rfl
  | cons b l ih =>
      rw [climbList, List.takeWhile_cons]
      cases Intrinsic.isPrototype b with
      | true => rfl
      | false => exact ih _

end Heap

/-! ## Reached heaps -/

namespace Machine

variable {config : Config} {m : Machine} {ks : List Continuation}

theorem Reached.ordered (h : Reached config m ks) : m.heap.Ordered := h.orderly.sound.heap.older

/-- Whatever a host and its scripts have done: every object was made after the one it inherits from, so
nothing inherits from itself, and each of the loops along inheritance comes to its end at every object,
with what the machine takes for its result. -/
theorem Reached.inheritance_ends (h : Reached config m ks) :
    (∀ a p, m.heap.Inherits a p → p < a) ∧ (∀ a, ¬ Relation.TransGen m.heap.Inherits a a) ∧
      ∀ a turns, a + 2 ≤ turns →
        (∀ key, m.heap.slotLoop key turns a = some (m.heap.find? key a) ∧
          (m.heap.slotLoop key turns a).map Option.isSome = some (m.heap.hasProperty key a)) ∧
        (∀ proto, m.heap.instanceLoop proto turns a = some ((m.heap.ancestors a).contains proto)) ∧
        m.heap.keyLoop turns a = some (m.heap.enumerate (.object a)) := by
  have hordered := h.ordered
  refine ⟨hordered, fun a ha => Nat.lt_irrefl a (hordered.lt_of_transGen ha), fun a turns hturns =>
    ⟨fun key => ?_, fun proto => hordered.instanceLoop_eq proto hturns, hordered.keyLoop_eq hturns⟩⟩
  rw [hordered.slotLoop_eq key hturns]
  exact ⟨rfl, rfl⟩

/-- The program `function P() {} var a = new P(); P.prototype = a; var b = new P();`. -/
def reassigning : Script.Program :=
  ⟨[.function ⟨some "P", [], []⟩, .var [⟨"a", some (.construct (.ident "P") [])⟩],
    .expr (.assign none (.member (.ident "P") "prototype") (.ident "a")),
    .var [⟨"b", some (.construct (.ident "P") [])⟩]]⟩

/-- A host walks this program on a new machine, without instrumented array methods. -/
def walkReassigning : EStateM.Result Stop Machine (Option Continuation) :=
  (Deed.errand (.interpret reassigning ownRegistry .plain)).perform 2
    (.new { Config.default with debugBuiltins := false })

/-- The deed leaves nothing to resume, and a machine that passes a check. -/
def passes (check : Machine → Bool) : EStateM.Result Stop Machine (Option Continuation) → Bool
  | .ok none m => check m
  | _ => false

theorem exists_of_passes {check : Machine → Bool} {r : EStateM.Result Stop Machine (Option Continuation)}
    (h : passes check r = true) : ∃ m, r = .ok none m ∧ check m = true := by
  unfold passes at h
  split at h
  · exact ⟨_, rfl, h⟩
  · cases h

/-- The second instance inherits from the first, which inherits from the prototype that `P` had then. -/
theorem walkReassigning_passes : passes (fun m =>
    (m.heap.object 62).proto == some 60 && (m.heap.object 60).proto == some 59) walkReassigning = true := by
  decide +kernel

theorem Reached.inheritance_ends_reassigning : ∃ m,
    Reached { Config.default with debugBuiltins := false } m [] ∧ m.heap.Inherits 62 60 ∧
      m.heap.Inherits 60 59 ∧ ¬ Relation.TransGen m.heap.Inherits 62 62 ∧
        ∀ key, m.heap.slotLoop key 64 62 = some (m.heap.find? key 62) := by
  obtain ⟨m, hends, hinherits⟩ := exists_of_passes walkReassigning_passes
  rw [Bool.and_eq_true, beq_iff_eq, beq_iff_eq] at hinherits
  have hreached : Reached { Config.default with debugBuiltins := false } m [] :=
    Reached.new.done 2 (.errand (.interpret reassigning ownRegistry .plain)) (Nat.zero_lt_succ 1) hends
  obtain ⟨-, hacyclic, hloops⟩ := inheritance_ends hreached
  exact ⟨m, hreached, hinherits.1, hinherits.2, hacyclic 62, fun key =>
    ((hloops 62 64 (Nat.le_refl _)).1 key).1⟩

end Machine

end Resumption
