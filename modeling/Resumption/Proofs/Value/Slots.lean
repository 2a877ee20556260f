import Resumption.Value.Object

/-!
# Lists of slots

What writing a slot and erasing a key do to the slots that are found and to the order of the keys.
An object that is no array is nothing but such a list.
-/

namespace Resumption

namespace Props

variable {key other : String} {slot : Slot} {props : List (String × Slot)}

theorem mem_set {p : String × Slot} (h : p ∈ set key slot props) : p = (key, slot) ∨ p ∈ props := by
  induction props with
  | nil => exact .inl (List.mem_singleton.1 h)
  | cons q props ih =>
      obtain ⟨k, old⟩ := q
      rw [set] at h
      split at h
      · rename_i hk
        rw [eq_of_beq hk] at h
        rcases List.mem_cons.1 h with h | h
        · exact .inl h
        · exact .inr (List.mem_cons_of_mem _ h)
      · rcases List.mem_cons.1 h with h | h
        · exact .inr (h ▸ List.mem_cons_self)
        · exact (ih h).imp_right (List.mem_cons_of_mem _)

theorem mem_of_get? (h : get? key props = some slot) : (key, slot) ∈ props := by
  induction props with
  | nil => cases h
  | cons p props ih =>
      obtain ⟨k, old⟩ := p
      rw [get?] at h
      split at h
      · rename_i hk
        cases h
        rw [eq_of_beq hk]
        exact List.mem_cons_self
      · exact List.mem_cons_of_mem _ (ih h)

/-- Where no key occurs twice, every slot is found. -/
theorem get?_of_mem (hnames : (props.map Prod.fst).Nodup) (h : (key, slot) ∈ props) :
    get? key props = some slot := by
  induction props with
  | nil => cases h
  | cons p props ih =>
      obtain ⟨k, old⟩ := p
      obtain ⟨hk, hnames⟩ := List.nodup_cons.1 hnames
      rw [get?]
      rcases List.mem_cons.1 h with heq | hrest
      · cases heq
        rw [if_pos (beq_self_eq_true _)]
      · have hkey : key ∈ props.map Prod.fst := List.mem_map_of_mem hrest
        rw [if_neg (by simpa using fun heq : k = key => hk (heq ▸ hkey)), ih hnames hrest]

theorem get?_set (key other : String) (slot : Slot) (props : List (String × Slot)) :
    get? other (set key slot props) = if key == other then some slot else get? other props := by
  induction props with
  | nil => rfl
  | cons q props ih =>
      obtain ⟨k, old⟩ := q
      rw [set]
      split
      · rename_i hk
        rw [eq_of_beq hk, get?, get?]
        split <;> rfl
      · rename_i hk
        rw [get?, get?, ih]
        by_cases hother : k == other
        · have hne : key ≠ other := by
            rintro rfl
            exact hk hother
          simp [hother, hne]
        · simp [hother]

theorem get?_erase (key other : String) (props : List (String × Slot)) :
    get? other (erase key props) = if key == other then none else get? other props := by
  induction props with
  | nil => simp [erase, get?]
  | cons q props ih =>
      obtain ⟨k, old⟩ := q
      rw [erase] at ih ⊢
      by_cases hk : k = key
      · subst hk
        rw [List.filter_cons_of_neg (by simp), ih, get?]
        split <;> rfl
      · rw [List.filter_cons_of_pos (by simpa using hk), get?, get?, ih]
        by_cases hother : k == other
        · have hne : key ≠ other := fun h => hk (eq_of_beq hother ▸ h.symm)
          simp [hother, hne]
        · simp [hother]

theorem isSome_get?_iff : (get? key props).isSome = true ↔ key ∈ props.map Prod.fst := by
  induction props with
  | nil => simp [get?]
  | cons p props ih =>
      obtain ⟨k, old⟩ := p
      rw [get?, List.map_cons, List.mem_cons, ← ih]
      by_cases hk : k = key
      · simp [hk]
      · simp [hk, Ne.symm hk]

/-- A key that is there keeps its place. -/
theorem keys_set_of_mem (h : key ∈ props.map Prod.fst) :
    (set key slot props).map Prod.fst = props.map Prod.fst := by
  induction props with
  | nil => cases h
  | cons p props ih =>
      obtain ⟨k, old⟩ := p
      rw [set]
      split
      · rfl
      · rename_i hk
        have hrest : key ∈ props.map Prod.fst :=
          (List.mem_cons.1 h).resolve_left fun heq => hk (beq_iff_eq.2 heq.symm)
        rw [List.map_cons, List.map_cons, ih hrest]

/-- A key that is not there goes to the end. -/
theorem set_of_not_mem (h : key ∉ props.map Prod.fst) : set key slot props = props ++ [(key, slot)] := by
  induction props with
  | nil => rfl
  | cons p props ih =>
      obtain ⟨k, old⟩ := p
      obtain ⟨hk, hrest⟩ := not_or.1 (mt List.mem_cons.2 h)
      rw [set, if_neg (by simpa using Ne.symm hk), ih hrest]
      rfl

theorem keys_set_of_not_mem (h : key ∉ props.map Prod.fst) :
    (set key slot props).map Prod.fst = props.map Prod.fst ++ [key] := by
  rw [set_of_not_mem h, List.map_append, List.map_singleton]

theorem mem_keys_set {k : String} :
    k ∈ (set key slot props).map Prod.fst ↔ k = key ∨ k ∈ props.map Prod.fst := by
  by_cases h : key ∈ props.map Prod.fst
  · rw [keys_set_of_mem h, or_iff_right_of_imp fun heq => heq ▸ h]
  · rw [keys_set_of_not_mem h, List.mem_append, List.mem_singleton, or_comm]

theorem nodup_keys_set (h : (props.map Prod.fst).Nodup) :
    ((set key slot props).map Prod.fst).Nodup := by
  by_cases hmem : key ∈ props.map Prod.fst
  · rw [keys_set_of_mem hmem]
    exact h
  · rw [keys_set_of_not_mem hmem]
    refine List.nodup_append.2 ⟨h, List.pairwise_singleton _ _, fun a ha b hb => ?_⟩
    rw [List.mem_singleton.1 hb]
    rintro rfl
    exact hmem ha

theorem keys_erase (key : String) (props : List (String × Slot)) :
    (erase key props).map Prod.fst = (props.map Prod.fst).filter (· != key) := by
  rw [erase, List.filter_map]
  rfl

theorem nodup_keys_erase (h : (props.map Prod.fst).Nodup) (key : String) :
    ((erase key props).map Prod.fst).Nodup := by
  rw [keys_erase]
  exact h.filter _

theorem length_erase_ne_iff : props.length ≠ (erase key props).length ↔ key ∈ props.map Prod.fst := by
  rw [erase, ne_comm, ne_eq, List.length_filter_eq_length_iff]
  simp

end Props

theorem size_resize (items : Array Value) (n : Nat) : (resize items n).size = n := by
  rw [resize]
  split
  · rename_i hle
    simp [Nat.min_eq_left hle]
  · rename_i hlt
    simp [Nat.add_sub_cancel' (Nat.le_of_not_le hlt)]

theorem setElement_getElem? (items : Array Value) (i : Nat) (v : Value) :
    (Object.setElement items i v)[i]? = some v := by
  have hsize : i < (if items.size ≤ i then resize items (i + 1) else items).size := by
    split
    · rw [size_resize]
      exact Nat.lt_succ_self i
    · rename_i hlt
      exact Nat.not_le.1 hlt
  rw [Object.setElement, Array.getElem?_setIfInBounds_self_of_lt hsize]

namespace Object

theorem isArray_setOwn (o : Object) (key : String) (v : Value) :
    (o.setOwn key v).isArray = o.isArray := by
  obtain ⟨kind, proto, props⟩ := o
  cases kind with
  | array items =>
      rw [setOwn]
      cases arrayIndex? key <;> rfl
  | plain | function _ | error => rfl

theorem isArray_remove (o : Object) (key : String) : (o.remove key).2.isArray = o.isArray := by
  obtain ⟨kind, proto, props⟩ := o
  cases kind with
  | array items =>
      rw [remove]
      cases arrayIndex? key <;> rfl
  | plain | function _ | error => rfl

/-- An object has what it was given, the length of an array aside. -/
theorem own?_setOwn {o : Object} {key : String} (v : Value)
    (hlength : o.isArray = true → key ≠ lengthKey) : (o.setOwn key v).own? key = some (.data v) := by
  obtain ⟨kind, proto, props⟩ := o
  cases kind with
  | array items =>
      have hkey : (key == lengthKey) = false := beq_eq_false_iff_ne.2 (hlength rfl)
      cases hi : arrayIndex? key with
      | some i => simp [Object.setOwn, Object.own?, hi, hkey, setElement_getElem?]
      | none => simp [Object.setOwn, Object.own?, hi, hkey, Props.get?_set]
  | plain | function _ | error => simp [Object.setOwn, Object.own?, Props.get?_set]

variable {o : Object} (h : o.isArray = false) (key : String)

include h

/-! ## Objects that are no arrays -/

theorem own?_of_not_isArray : o.own? key = Props.get? key o.props := by
  obtain ⟨kind, proto, props⟩ := o
  cases kind with
  | array items => cases h
  | plain | function _ | error => rfl

theorem setOwn_of_not_isArray (value : Value) :
    o.setOwn key value = { o with props := Props.set key (.data value) o.props } := by
  obtain ⟨kind, proto, props⟩ := o
  cases kind with
  | array items => cases h
  | plain | function _ | error => rfl

theorem remove_of_not_isArray : o.remove key =
    (o.props.length != (Props.erase key o.props).length, { o with props := Props.erase key o.props }) := by
  obtain ⟨kind, proto, props⟩ := o
  cases kind with
  | array items => cases h
  | plain | function _ | error => rfl

omit key in
theorem keys_of_not_isArray : o.keys = o.props.map Prod.fst := by
  obtain ⟨kind, proto, props⟩ := o
  cases kind with
  | array items => cases h
  | plain | function _ | error => rfl

end Object

end Resumption
