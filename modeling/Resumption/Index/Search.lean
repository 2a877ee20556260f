/-!
# Searching by halves

Where a list has all elements with a property in front of all those without it, the place where they
meet is found by looking at the middle of what is left, over and over.
-/

namespace Resumption

/-- Halves the part of a list from `lo` up to `hi` until nothing is left of it. -/
def boundaryFrom {α : Type} (p : α → Bool) (l : Array α) (lo hi : Nat) : Nat :=
  if lo < hi then
    let mid := lo + (hi - lo) / 2
    if (l[mid]?).any p then boundaryFrom p l (mid + 1) hi else boundaryFrom p l lo mid
  else lo
termination_by hi - lo
decreasing_by all_goals omega

/-- The position of the first element without the property, provided that those with it come first. -/
def boundary {α : Type} (p : α → Bool) (l : Array α) : Nat := boundaryFrom p l 0 l.size

section

variable {α : Type} {p : α → Bool} {l : Array α} {k : Nat}

/-- The place where they meet stays inside of the part that is left. -/
theorem boundaryFrom_eq (hfront : ∀ j < k, (l[j]?).any p = true)
    (hbehind : ∀ j, k ≤ j → (l[j]?).any p = false) {lo hi : Nat} (hlo : lo ≤ k) (hhi : k ≤ hi) :
    boundaryFrom p l lo hi = k := by
  fun_induction boundaryFrom p l lo hi with
  | case1 lo hi hlt mid hmid ih =>
      -- The middle has the property, so it stands in front of the place.
      have hfirst : mid < k := Nat.lt_of_not_le fun hle => by
        rw [hbehind mid hle] at hmid
        cases hmid
      exact ih hfirst hhi
  | case2 lo hi hlt mid hmid ih =>
      exact ih hlo (Nat.le_of_not_lt fun hlt => hmid (hfront mid hlt))
  | case3 lo hi hlt => omega

theorem boundary_eq (hk : k ≤ l.size) (hfront : ∀ j < k, (l[j]?).any p = true)
    (hbehind : ∀ j, k ≤ j → (l[j]?).any p = false) : boundary p l = k :=
  boundaryFrom_eq hfront hbehind (Nat.zero_le k) hk

/-- A list of elements with the property, followed by elements without it. -/
theorem boundary_append {front behind : List α} (hfront : ∀ a ∈ front, p a = true)
    (hbehind : ∀ a ∈ behind, p a = false) :
    boundary p (front ++ behind).toArray = front.length := by
  refine boundary_eq (by simp) (fun j hj => ?_) fun j hj => ?_
  · rw [List.getElem?_toArray, List.getElem?_append_left hj, List.getElem?_eq_getElem hj]
    exact hfront _ (List.getElem_mem hj)
  · rw [List.getElem?_toArray, List.getElem?_append_right hj]
    cases hget : behind[j - front.length]? with
    | none => rfl
    | some a => exact hbehind a (List.mem_of_getElem? hget)

end

end Resumption
