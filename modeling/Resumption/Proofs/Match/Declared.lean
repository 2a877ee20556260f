import Resumption.Proofs.Match.Instrumentation

/-!
# Declared functions

The functions that a function declares anywhere in its body are in their places if the body is.
-/

namespace Resumption

open Script

variable {T : Terms} {s : Manner} {t : IndexedTree} {K : Cache → Prop} {i j : Nat} {n : Node}
  {l : List Node} {name : String}

/-- Declared functions are in their places if what they are declared in is. -/
theorem IndexedTree.Along.declared (h : t.Along (Placed T s t K) i l)
    (hmem : .function name j ∈ t.declaredIn i l) :
    ∃ f, f.name = some name ∧ Placed T s t K j (.stmt (.function f)) :=
  h.exists_declared (fun hmay hplaced => hplaced.children (Node.func?_of_mayDeclare hmay)) hmem

end Resumption
