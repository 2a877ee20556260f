import Resumption.Proofs.Code.Labels
import Resumption.Proofs.Reading.WellFormed

/-!
# Passes that fail

A tree is registered after the check for labels and before it is lowered.  So a pass that is refused for a
label leaves the registry as it was; but lowering can still meet a target that is no variable and no
property, and then the tree keeps its positions.  Programs that were read from a text have such targets
in the heads of loops over keys only.
-/

namespace Resumption

open Script

/-- In a program that was read from a text, only the head of a loop over keys can be without a target that
can be written to. -/
theorem Script.Program.WellFormed.exists_forIn {p : Program} (h : p.WellFormed) {n : Node}
    (hn : n ∈ p.nodes) (hstrays : ¬ n.HitsReference) :
    ∃ target right body, n = .stmt (.forIn (.expr target) right body) ∧ target.isReference = false := by
  unfold Node.HitsReference at hstrays
  split at hstrays
  · exact absurd (h.update_target _ _ _ hn) hstrays
  · exact absurd (h.assign_target _ _ _ hn) hstrays
  · exact ⟨_, _, _, rfl, by simpa using hstrays⟩
  · exact absurd trivial hstrays

namespace Code

/-- A pass that fails has been refused for a label, and then the registry is what it was, in every name
space and at every position; or something in the tree writes to what is no variable and no property, in a
program that was read from a text the head of a loop over keys, and then the tree has been registered, and
nothing else. -/
theorem instrument_failed (f : Script.Func) (r : Registry) (ns : String) (inherited : List String)
    (isProgram : Bool) {e : LoweringError} (h : (instrument f r ns inherited isProgram).1 = .error e) :
    ((∃ construct i, e = .unsupported construct i) ∧ (instrument f r ns inherited isProgram).2 = r) ∨
      ((∃ i, e = .invalidTarget i) ∧
        (instrument f r ns inherited isProgram).2 = (r.assign f ns isProgram).2 ∧
        (∃ n ∈ (Node.func f).preorder, ¬ n.HitsReference) ∧
        ∀ source p, Program.parse source = .ok p → f = p.toFunc → ∃ target right body,
          .stmt (.forIn (.expr target) right body) ∈ p.nodes ∧ target.isReference = false) := by
  cases hcheck : firstUnsupported (r.next ns) (.func f) with
  | some e' =>
      obtain ⟨construct, k, -, rfl, -⟩ := firstUnsupported_eq_some.1 hcheck
      have heq : instrument f r ns inherited isProgram = (.error (.unsupported construct (r.next ns + k)), r) := by
        rw [instrument, hcheck]
      rw [heq] at h ⊢
      cases h
      exact .inl ⟨⟨_, _, rfl⟩, rfl⟩
  | none =>
      have hyields := lowerFunc_yields_of_check hcheck (r.assign f ns isProgram).1
        (.ofInherited inherited) (r.next ns) none
      rw [instrument_of_supported hcheck] at h ⊢
      dsimp only at h
      rw [h] at hyields
      cases hyields with
      | invalidTarget hstrays i =>
          refine .inr ⟨⟨i, rfl⟩, rfl, hstrays, ?_⟩
          rintro source p hparse rfl
          obtain ⟨n, hn, hn'⟩ := hstrays
          obtain ⟨target, right, body, rfl, htarget⟩ := (wellFormed_of_parse hparse).exists_forIn hn hn'
          exact ⟨target, right, body, hn, htarget⟩

/-- The tree of `for (f() in o) {}`. -/
def callTarget : Program :=
  ⟨[.forIn (.expr (.call (.ident "f") [])) (.ident "o") (.block [])]⟩

theorem parse_callTarget : Program.parse "for (f() in o) {}" = .ok callTarget := by
  with_unfolding_all rfl

theorem instrument_callTarget :
    (instrument callTarget.toFunc Registry.empty "default" [] true).1 = .error (.invalidTarget 2) := by
  with_unfolding_all rfl

theorem instrument_failed_callTarget :
    (instrument callTarget.toFunc Registry.empty "default" [] true).2 =
      (Registry.empty.assign callTarget.toFunc "default" true).2 := by
  rcases instrument_failed callTarget.toFunc Registry.empty "default" [] true instrument_callTarget with
    ⟨⟨construct, i, heq⟩, -⟩ | ⟨-, heq, -⟩
  · cases heq
  · exact heq

/-- The tree has six nodes; the pass fails, and the next tree stands behind it nevertheless. -/
theorem instrument_failed_registered :
    Program.parse "for (f() in o) {}" = .ok callTarget ∧
      (instrument callTarget.toFunc Registry.empty "default" [] true).1 = .error (.invalidTarget 2) ∧
      Registry.empty.next "default" = 0 ∧
      (instrument callTarget.toFunc Registry.empty "default" [] true).2.next "default" = 6 := by
  refine ⟨parse_callTarget, instrument_callTarget, rfl, ?_⟩
  with_unfolding_all rfl

end Code

end Resumption
