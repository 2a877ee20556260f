import Resumption.Stack.Frame

/-!
# Results by position

What is stored under a position is found there, and nothing else is touched.  The positions stay in
order, so a result that is forgotten is gone.
-/

namespace Resumption.Cache

variable {i j : Nat} {v : Value} {c : Cache}

/-- Every position is behind the ones in front of it. -/
def Sorted (c : Cache) : Prop := c.Pairwise (fun a b => a.1 < b.1)

theorem get?_insert_self (i : Nat) (v : Value) (c : Cache) : get? i (insert i v c) = some v := by
  induction c with
  | nil => simp [insert, get?]
  | cons e rest ih =>
      obtain ⟨k, w⟩ := e
      rw [insert]
      split
      · simp [get?]
      · split
        · simp [get?]
        · rename_i hne
          rw [get?, if_neg hne]
          exact ih

theorem get?_insert_of_ne (h : j ≠ i) (v : Value) (c : Cache) :
    get? j (insert i v c) = get? j c := by
  induction c with
  | nil => simp [insert, get?, h]
  | cons e rest ih =>
      obtain ⟨k, w⟩ := e
      rw [insert]
      split
      · simp [get?, h]
      · split
        · rename_i heq
          have hk : j ≠ k := by
            rintro rfl
            exact h (eq_of_beq heq).symm
          simp [get?, h, hk]
        · rw [get?, get?, ih]

theorem get?_erase_of_ne (h : j ≠ i) (c : Cache) : get? j (erase i c) = get? j c := by
  induction c with
  | nil => rfl
  | cons e rest ih =>
      obtain ⟨k, w⟩ := e
      rw [erase]
      split
      · rename_i heq
        have hk : ¬ (j == k) = true := fun hjk => h ((eq_of_beq hjk).trans (eq_of_beq heq).symm)
        rw [get?, if_neg hk]
      · rw [get?, get?, ih]

theorem mem_insert {e : Nat × Value} (h : e ∈ insert i v c) : e = (i, v) ∨ e ∈ c := by
  induction c with
  | nil => exact .inl (List.mem_singleton.1 h)
  | cons d rest ih =>
      obtain ⟨k, w⟩ := d
      rw [insert] at h
      split at h
      · exact List.mem_cons.1 h
      · split at h
        · exact (List.mem_cons.1 h).imp_right (List.mem_cons_of_mem _)
        · rcases List.mem_cons.1 h with rfl | h
          · exact .inr List.mem_cons_self
          · exact (ih h).imp_right (List.mem_cons_of_mem _)

theorem erase_sublist (i : Nat) (c : Cache) : (erase i c).Sublist c := by
  induction c with
  | nil => exact .slnil
  | cons d rest ih =>
      obtain ⟨k, w⟩ := d
      rw [erase]
      split
      · exact List.sublist_cons_self _ _
      · exact ih.cons_cons _

theorem Sorted.insert (h : c.Sorted) (i : Nat) (v : Value) : (c.insert i v).Sorted := by
  induction c with
  | nil => exact List.pairwise_singleton _ _
  | cons d rest ih =>
      obtain ⟨k, w⟩ := d
      obtain ⟨hk, hrest⟩ := List.pairwise_cons.1 h
      rw [Cache.insert]
      split
      · rename_i hlt
        refine List.pairwise_cons.2 ⟨fun e he => ?_, h⟩
        rcases List.mem_cons.1 he with rfl | he
        · exact hlt
        · exact Nat.lt_trans hlt (hk e he)
      · rename_i hge
        split
        · rename_i heq
          cases eq_of_beq heq
          exact List.pairwise_cons.2 ⟨hk, hrest⟩
        · rename_i hne
          refine List.pairwise_cons.2 ⟨fun e he => ?_, ih hrest⟩
          rcases mem_insert he with rfl | he
          · have : i ≠ k := fun heq => hne (beq_iff_eq.2 heq)
            dsimp only
            omega
          · exact hk e he

theorem Sorted.erase (h : c.Sorted) (i : Nat) : (c.erase i).Sorted := List.Pairwise.sublist (erase_sublist i c) h

theorem get?_eq_none_of_lt (h : ∀ e ∈ c, i < e.1) : get? i c = none := by
  induction c with
  | nil => rfl
  | cons d rest ih =>
      obtain ⟨k, w⟩ := d
      have hk : i < k := h (k, w) List.mem_cons_self
      rw [get?, if_neg (by simpa using Nat.ne_of_lt hk)]
      exact ih fun e he => h e (List.mem_cons_of_mem _ he)

/-- What is forgotten is gone. -/
theorem Sorted.get?_erase_self (h : c.Sorted) (i : Nat) : get? i (c.erase i) = none := by
  induction c with
  | nil => rfl
  | cons d rest ih =>
      obtain ⟨k, w⟩ := d
      obtain ⟨hk, hrest⟩ := List.pairwise_cons.1 h
      rw [Cache.erase]
      split
      · rename_i heq
        cases eq_of_beq heq
        exact get?_eq_none_of_lt hk
      · rename_i hne
        rw [get?, if_neg hne]
        exact ih hrest

end Resumption.Cache
