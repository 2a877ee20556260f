import Resumption.Proofs.Code.Lowering
import Resumption.Proofs.Match.Placed

/-!
# Twins

Which functions may stand for each other: one and the same built-in function, one and the same
function of a source tree, or instrumented code and the function that it was made from.  Twins are
made in the same scopes.
-/

namespace Resumption

open Script

/-- The name by which the function of a node may know itself. -/
def Script.Node.selfName? : Node → Option String
  | .expr (.function f) => f.name
  | _ => none

/-- The function calls a function that it is given, as often as it likes. -/
def Native.visits : Native → Bool
  | .forEach | .map | .filter | .reduce => true
  | _ => false

/-- The names that a function finds in its own record. -/
def IndexedTree.ownNames (t : IndexedTree) (i : Nat) (n : Node) (f : Func) : List String :=
  let names := (t.declarationsOf f i).names f.params
  names ++ (n.selfName?.filter (fun name => !names.contains name)).toList

/-- Wherever a call is written to an element, the names are among those that find it. -/
def IndexedTree.Seeks (t : IndexedTree) (names : List String) : Prop :=
  ∀ i object key value, t.At i (.expr (.assign none (.index (.ident object) (.ident key)) value)) →
    value.isInvocation = true → object ∈ names ∧ key ∈ names

/-- The closure is of the function `f` of the node `n` and can be called in the given manner. -/
structure SteppedClosure.Ready (T : Terms) (w : World) (s : Manner) (n : Node) (f : Func)
    (c : SteppedClosure) : Prop where
  stands : c.tree.At c.index n
  func : n.func? = some f
  fair : T.FairBody s f.body
  /-- What functions count with that make no scopes is a variable. -/
  counts : s.opens = false → counterName ∉ f.params ∧ n.selfName? ≠ some counterName
  /-- Elements are found by variables of their own, too. -/
  seeks : s.opens = false → c.tree.Seeks (c.tree.ownNames c.index n f)
  chain : Chain.Sound w c.chain
  registered : s ≠ .free → T.Registered c.tree c.registry
  quiet : s = .script → T.Quiet (c.index + 1) (c.tree.after c.index)

/-- How a function is walked that is called in a manner, if it is walked on both sides. -/
def Terms.Walks (T : Terms) : Manner → Mode → Prop
  | .free, mode => mode = .plain ∧ T.solo = false
  | .script, mode => mode = .recording ∧ T.mode = .recording
  | .own, _ | .apart, _ | .top, _ => False

theorem Terms.Walks.opens {T : Terms} {s : Manner} {mode : Mode} (h : T.Walks s mode) :
    s.opens = true := by
  cases s <;> first | rfl | exact h.elim

/-- The manners in which instrumented code is called, by its scopes and by the names in its record. -/
def Terms.Runs (T : Terms) (chain : Chain) (names : List String) : Manner → Prop
  | .script => T.spared = none
  | .own => chain = [] ∧ argumentsName ∉ names
  | .free | .apart | .top => False

inductive Callable.Twin (T : Terms) (w : World) : Callable → Callable → Prop
  | native (g : Native) (h : T.solo = true → g.visits = false) : Twin T w (.native g) (.native g)
  | walked {s : Manner} {n : Node} {f : Func} {c : SteppedClosure} (ready : c.Ready T w s n f)
      (walks : T.Walks s c.mode) : Twin T w (.stepped c) (.stepped c)
  | instrumented {s : Manner} {n : Node} {f : Func} {c : SteppedClosure} {code : Code.Func}
      {scopes : Code.Scopes} (ready : c.Ready T w s n f)
      (runs : T.Runs c.chain (c.tree.ownNames c.index n f) s)
      (lowered : Code.lowerFunc c.tree scopes c.index n.selfName? f = .ok code)
      (fits : Chain.Fits w scopes c.chain) (mode : c.mode = T.mode) :
      Twin T w (.instrumented ⟨code, c.chain, c.registry⟩) (.stepped c)

variable {T : Terms} {w w' : World}

theorem SteppedClosure.Ready.mono {s : Manner} {n : Node} {f : Func} {c : SteppedClosure}
    (hw : w.roles <+: w'.roles) (h : c.Ready T w s n f) : c.Ready T w' s n f :=
  { h with chain := h.chain.mono hw }

theorem SteppedClosure.Ready.func?_eq {s : Manner} {n : Node} {f : Func} {c : SteppedClosure}
    (h : c.Ready T w s n f) : c.tree.func? c.index = some f := by
  rw [h.stands.func?, h.func]

namespace Callable.Twin

variable {f f' : Callable}

theorem mono (hw : w.roles <+: w'.roles) (h : f.Twin T w f') : f.Twin T w' f' := by
  cases h with
  | native g h => exact .native g h
  | walked ready walks => exact .walked (ready.mono hw) walks
  | instrumented ready runs lowered fits mode =>
      exact .instrumented (ready.mono hw) runs lowered (fits.mono hw) mode

theorem alike (h : f.Twin T w f') : f.Alike f' := by
  cases h with
  | native g h => exact .refl _
  | walked ready walks => exact .refl _
  | instrumented ready runs lowered fits mode =>
      obtain ⟨hname, hns, hindex, -⟩ := Code.lowerFunc_eq_ok lowered
      constructor
      · simp only [Callable.origin, hns, hindex]
      · simp [Callable.name, hname, ready.func?_eq]

end Callable.Twin

end Resumption
