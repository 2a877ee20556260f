import Resumption.Proofs.Value.Slots

/-!
# Objects remember the order of insertion

An object that is no array is a map that keeps its keys in the order in which they came.  What it
holds after any number of changes is read off the history of these changes, latest first: `slot?`
looks for the last change of a key, and puts an accessor together from the halves given since the
key was last written or removed; `since?` is the moment from which on the key has been there.
-/

namespace Resumption

namespace Slot

def getter? : Slot → Option Value
  | .accessor get _ => get
  | .data _ => none

def setter? : Slot → Option Value
  | .accessor _ set => set
  | .data _ => none

end Slot

namespace Object

/-- A change of one slot. -/
inductive Edit where
  | write (key : String) (value : Value)
  | accessor (key : String) (get set : Option Value)
  | remove (key : String)

namespace Edit

def key : Edit → String
  | .write key _ | .accessor key _ _ | .remove key => key

def apply (o : Object) : Edit → Object
  | .write key value => o.setOwn key value
  | .accessor key get set => o.defineAccessor key get set
  | .remove key => (o.remove key).2

/-- Takes the key away. -/
def removes (key : String) : Edit → Bool
  | .remove k => k == key
  | _ => false

/-- Leaves nothing of what an accessor had before. -/
def resets (key : String) : Edit → Bool
  | .write k _ | .remove k => k == key
  | .accessor _ _ _ => false

/-- The getter that is given for the key. -/
def getter? (key : String) : Edit → Option Value
  | .accessor k get _ => if k == key then get else none
  | _ => none

/-- The setter that is given for the key. -/
def setter? (key : String) : Edit → Option Value
  | .accessor k _ set => if k == key then set else none
  | _ => none

end Edit

/-- An object after changes, the latest in front. -/
def after (o : Object) : List Edit → Object
  | [] => o
  | e :: past => e.apply (o.after past)

/-- The last of what is given for the key since it was last written or removed. -/
def lastHalf? (half? : Edit → Option Value) (key : String) (history : List Edit) : Option Value :=
  (history.takeWhile fun e => !e.resets key).findSome? half?

/-- What the key holds: the last change of it decides. -/
def slot? (key : String) (history : List Edit) : Option Slot :=
  match history.find? fun e => e.key == key with
  | some (.write _ value) => some (.data value)
  | some (.accessor _ _ _) =>
    some (.accessor (lastHalf? (Edit.getter? key) key history)
      (lastHalf? (Edit.setter? key) key history))
  | some (.remove _) | none => none

/-- The moment of the oldest insertion since the key was last absent: among the changes after its
last removal, the first that is about the key. -/
def since? (key : String) (history : List Edit) : Option Nat :=
  let recent := history.takeWhile fun e => !e.removes key
  (recent.reverse.findIdx? fun e => e.key == key).map (history.length - recent.length + ·)

/-! ## Histories -/

section History

variable {key : String} {e : Edit} {past : List Edit}

theorem Edit.removes_of_ne (h : e.key ≠ key) : e.removes key = false := by
  cases e with
  | remove k => exact beq_eq_false_iff_ne.2 h
  | write | accessor => rfl

theorem Edit.resets_of_ne (h : e.key ≠ key) : e.resets key = false := by
  cases e with
  | write k _ => exact beq_eq_false_iff_ne.2 h
  | remove k => exact beq_eq_false_iff_ne.2 h
  | accessor => rfl

theorem Edit.getter?_of_ne (h : e.key ≠ key) : e.getter? key = none := by
  cases e with
  | accessor k get set => exact if_neg (mt eq_of_beq h)
  | write | remove => rfl

theorem Edit.setter?_of_ne (h : e.key ≠ key) : e.setter? key = none := by
  cases e with
  | accessor k get set => exact if_neg (mt eq_of_beq h)
  | write | remove => rfl

theorem lastHalf?_cons {half? : Edit → Option Value} (h : e.resets key = false) :
    lastHalf? half? key (e :: past) = (half? e).or (lastHalf? half? key past) := by
  rw [lastHalf?, List.takeWhile_cons_of_pos (by simp [h]), List.findSome?_cons]
  cases half? e <;> rfl

theorem lastHalf?_cons_of_resets {half? : Edit → Option Value} (h : e.resets key = true) :
    lastHalf? half? key (e :: past) = none := by
  rw [lastHalf?, List.takeWhile_cons_of_neg (by simp [h]), List.findSome?_nil]

/-- A change of another key says nothing about this one. -/
theorem slot?_cons_of_ne (h : e.key ≠ key) : slot? key (e :: past) = slot? key past := by
  rw [slot?, List.find?_cons_of_neg (by simpa using h), lastHalf?_cons (Edit.resets_of_ne h),
    lastHalf?_cons (Edit.resets_of_ne h), Edit.getter?_of_ne h, Edit.setter?_of_ne h, Option.none_or,
    Option.none_or, slot?]

theorem slot?_write (key : String) (value : Value) (past : List Edit) :
    slot? key (.write key value :: past) = some (.data value) := by
  simp [slot?, Edit.key]

theorem slot?_remove (key : String) (past : List Edit) :
    slot? key (.remove key :: past) = none := by
  simp [slot?, Edit.key]

theorem slot?_accessor (key : String) (get set : Option Value) (past : List Edit) :
    slot? key (.accessor key get set :: past) = some (.accessor
      (get.or (lastHalf? (Edit.getter? key) key past))
      (set.or (lastHalf? (Edit.setter? key) key past))) := by
  have hresets : (Edit.accessor key get set).resets key = false := rfl
  have hgetter : (Edit.accessor key get set).getter? key = get := if_pos (beq_self_eq_true key)
  have hsetter : (Edit.accessor key get set).setter? key = set := if_pos (beq_self_eq_true key)
  simp [slot?, Edit.key, lastHalf?_cons hresets, hgetter, hsetter]

/-- The halves given for a key are those that it holds, and there are none if it holds no
accessor. -/
theorem lastHalf?_eq_slot? (key : String) (history : List Edit) :
    lastHalf? (Edit.getter? key) key history = (slot? key history).bind Slot.getter? ∧
      lastHalf? (Edit.setter? key) key history = (slot? key history).bind Slot.setter? := by
  induction history with
  | nil => exact ⟨rfl, rfl⟩
  | cons e past ih =>
      by_cases h : e.key = key
      · cases e with
        | write k value =>
            obtain rfl : k = key := h
            have hresets : (Edit.write k value).resets k = true := beq_self_eq_true k
            rw [slot?_write, lastHalf?_cons_of_resets hresets, lastHalf?_cons_of_resets hresets]
            exact ⟨rfl, rfl⟩
        | accessor k get set =>
            obtain rfl : k = key := h
            have hresets : (Edit.accessor k get set).resets k = false := rfl
            rw [slot?_accessor, lastHalf?_cons hresets, lastHalf?_cons hresets]
            exact ⟨congrArg (Option.or · _) (if_pos (beq_self_eq_true k)),
              congrArg (Option.or · _) (if_pos (beq_self_eq_true k))⟩
        | remove k =>
            obtain rfl : k = key := h
            have hresets : (Edit.remove k).resets k = true := beq_self_eq_true k
            rw [slot?_remove, lastHalf?_cons_of_resets hresets, lastHalf?_cons_of_resets hresets]
            exact ⟨rfl, rfl⟩
      · rw [slot?_cons_of_ne h, lastHalf?_cons (Edit.resets_of_ne h),
          lastHalf?_cons (Edit.resets_of_ne h), Edit.getter?_of_ne h, Edit.setter?_of_ne h,
          Option.none_or, Option.none_or]
        exact ih

theorem since?_cons (key : String) (e : Edit) (past : List Edit) :
    since? key (e :: past) =
      if e.removes key = true then none
      else if e.key = key then (since? key past).or (some past.length)
      else since? key past := by
  have hle : (past.takeWhile fun e => !e.removes key).length ≤ past.length :=
    (List.takeWhile_sublist _).length_le
  cases hremoves : e.removes key with
  | true => simp [since?, hremoves]
  | false =>
      simp only [since?, List.takeWhile_cons, hremoves, Bool.not_false, if_true, List.reverse_cons,
        List.findIdx?_append, List.length_cons, Nat.add_sub_add_right, Bool.false_eq_true, if_false]
      cases hfound : (past.takeWhile fun e => !e.removes key).reverse.findIdx? (fun e => e.key == key) with
      | some i => simp
      | none =>
          by_cases h : e.key = key
          · simp [h, List.findIdx?_cons]
            omega
          · simp [h, List.findIdx?_cons]

theorem since?_cons_of_ne (h : e.key ≠ key) : since? key (e :: past) = since? key past := by
  rw [since?_cons, Edit.removes_of_ne h, if_neg Bool.false_ne_true, if_neg h]

theorem since?_lt {history : List Edit} {t : Nat} (h : since? key history = some t) :
    t < history.length := by
  induction history with
  | nil => simp [since?] at h
  | cons e past ih =>
      rw [since?_cons] at h
      rw [List.length_cons]
      split at h
      · cases h
      · split at h
        · rcases Option.or_eq_some_iff.1 h with h | ⟨-, h⟩
          · exact Nat.lt_succ_of_lt (ih h)
          · cases h
            exact Nat.lt_succ_self _
        · exact Nat.lt_succ_of_lt (ih h)

theorem since?_cons_of_slot (h : e.key = key) (hremoves : e.removes key = false) :
    since? key (e :: past) = (since? key past).or (some past.length) := by
  rw [since?_cons, hremoves, if_neg Bool.false_ne_true, if_pos h]

/-- What holds something has been there since some moment. -/
theorem isSome_slot?_iff (key : String) (history : List Edit) :
    (slot? key history).isSome = true ↔ (since? key history).isSome = true := by
  induction history with
  | nil => rfl
  | cons e past ih =>
      by_cases h : e.key = key
      · cases e with
        | write k value =>
            obtain rfl : k = key := h
            have hsince : since? k (.write k value :: past) = _ := since?_cons_of_slot rfl rfl
            simp [slot?_write, hsince]
        | accessor k get set =>
            obtain rfl : k = key := h
            have hsince : since? k (.accessor k get set :: past) = _ := since?_cons_of_slot rfl rfl
            simp [slot?_accessor, hsince]
        | remove k =>
            obtain rfl : k = key := h
            have hremoves : (Edit.remove k).removes k = true := beq_self_eq_true k
            simp [slot?_remove, since?_cons, hremoves]
      · rw [slot?_cons_of_ne h, since?_cons_of_ne h, ih]

/-- A half that is given stays until the key is written or removed, or another is given. -/
theorem lastHalf?_append {half? : Edit → Option Value} {later : List Edit}
    (h : ∀ e ∈ later, e.resets key = false) :
    lastHalf? half? key (later ++ past) = (later.findSome? half?).or (lastHalf? half? key past) := by
  induction later with
  | nil => rfl
  | cons e later ih =>
      have hlater := ih fun d hd => h d (List.mem_cons_of_mem _ hd)
      rw [List.cons_append, lastHalf?_cons (h e List.mem_cons_self), hlater, List.findSome?_cons]
      cases half? e <;> rfl

/-- Two definitions of an accessor, with nothing between them that takes the first one away. -/
theorem slot?_merged {later : List Edit} (h : ∀ e ∈ later, e.resets key = false) (past : List Edit)
    (get get' set set' : Option Value) :
    ∃ oldGet oldSet, slot? key (.accessor key get' set' :: (later ++ .accessor key get set :: past)) =
      some (.accessor (get'.or ((later.findSome? (Edit.getter? key)).or (get.or oldGet)))
        (set'.or ((later.findSome? (Edit.setter? key)).or (set.or oldSet)))) := by
  have hresets : (Edit.accessor key get set).resets key = false := rfl
  have hgetter : (Edit.accessor key get set).getter? key = get := if_pos (beq_self_eq_true key)
  have hsetter : (Edit.accessor key get set).setter? key = set := if_pos (beq_self_eq_true key)
  refine ⟨lastHalf? (Edit.getter? key) key past, lastHalf? (Edit.setter? key) key past, ?_⟩
  rw [slot?_accessor, lastHalf?_append h, lastHalf?_append h, lastHalf?_cons hresets,
    lastHalf?_cons hresets, hgetter, hsetter]

end History

/-! ## One change -/

section Change

variable {o : Object}

theorem isArray_apply (o : Object) (e : Edit) : (e.apply o).isArray = o.isArray := by
  cases e with
  | write key value => exact isArray_setOwn o key value
  | accessor key get set => rfl
  | remove key => exact isArray_remove o key

/-- The slots of other keys stay. -/
theorem own?_apply_of_ne (ho : o.isArray = false) {e : Edit} {key : String} (h : e.key ≠ key) :
    (e.apply o).own? key = o.own? key := by
  have hne : (e.key == key) = false := beq_eq_false_iff_ne.2 h
  rw [own?_of_not_isArray (isArray_apply o e ▸ ho), own?_of_not_isArray ho]
  cases e with
  | write k value =>
      rw [Edit.apply, setOwn_of_not_isArray ho, Props.get?_set]
      exact if_neg (mt eq_of_beq h)
  | accessor k get set =>
      rw [Edit.apply, defineAccessor, Props.get?_set]
      exact if_neg (mt eq_of_beq h)
  | remove k =>
      rw [Edit.apply, remove_of_not_isArray ho, Props.get?_erase]
      exact if_neg (mt eq_of_beq h)

theorem own?_setOwn_self (ho : o.isArray = false) (key : String) (value : Value) :
    (o.setOwn key value).own? key = some (.data value) :=
  own?_setOwn value fun harray => absurd (ho.symm.trans harray) Bool.false_ne_true

theorem own?_defineAccessor_self (ho : o.isArray = false) (key : String) (get set : Option Value) :
    (o.defineAccessor key get set).own? key = some (.accessor
      (get.or ((o.own? key).bind Slot.getter?)) (set.or ((o.own? key).bind Slot.setter?))) := by
  rw [own?_of_not_isArray (show (o.defineAccessor key get set).isArray = false from ho),
    own?_of_not_isArray ho, defineAccessor, Props.get?_set, if_pos (beq_self_eq_true key)]
  cases Props.get? key o.props with
  | none => simp
  | some slot => cases slot <;> simp [Slot.getter?, Slot.setter?]

theorem own?_remove_self (ho : o.isArray = false) (key : String) : (o.remove key).2.own? key = none := by
  rw [own?_of_not_isArray (isArray_remove o key ▸ ho), remove_of_not_isArray ho, Props.get?_erase,
    if_pos (beq_self_eq_true key)]

/-- What it does to the keys. -/
theorem keys_apply (ho : o.isArray = false) (e : Edit) :
    (e.apply o).keys =
      if e.removes e.key = true then o.keys.filter (· != e.key)
      else if e.key ∈ o.keys then o.keys
      else o.keys ++ [e.key] := by
  have hset : ∀ slot, (Props.set e.key slot o.props).map Prod.fst =
      if e.key ∈ o.keys then o.keys else o.keys ++ [e.key] := by
    intro slot
    rw [keys_of_not_isArray ho]
    split
    · rename_i hmem
      exact Props.keys_set_of_mem hmem
    · rename_i hmem
      exact Props.keys_set_of_not_mem hmem
  rw [keys_of_not_isArray (isArray_apply o e ▸ ho)]
  cases e with
  | write k value =>
      simp only [Edit.apply, setOwn_of_not_isArray ho]
      exact hset _
  | accessor k get set => exact hset _
  | remove k =>
      rw [if_pos (by simp [Edit.removes, Edit.key]), keys_of_not_isArray ho]
      simp only [Edit.apply, remove_of_not_isArray ho]
      exact Props.keys_erase k o.props

theorem mem_keys_iff (ho : o.isArray = false) (key : String) :
    key ∈ o.keys ↔ o.hasOwn key = true := by
  rw [keys_of_not_isArray ho, hasOwn, own?_of_not_isArray ho, Props.isSome_get?_iff]

end Change

/-! ## Many changes -/

section Run

variable {o : Object} {history : List Edit}

theorem after_append (o : Object) (later earlier : List Edit) :
    o.after (later ++ earlier) = (o.after earlier).after later := by
  induction later with
  | nil => rfl
  | cons e later ih => rw [List.cons_append, after, ih, after]

theorem isArray_after (o : Object) (history : List Edit) : (o.after history).isArray = o.isArray := by
  induction history with
  | nil => rfl
  | cons e past ih => rw [after, isArray_apply, ih]

variable {kind : ObjectKind} (hkind : ∀ items, kind ≠ .array items) (proto : Option Address)

include hkind

theorem isArray_after_new (history : List Edit) :
    ((Object.new kind proto).after history).isArray = false := by
  rw [isArray_after]
  cases kind with
  | array items => exact absurd rfl (hkind items)
  | plain | function _ | error => rfl

theorem own?_after (history : List Edit) (key : String) :
    ((Object.new kind proto).after history).own? key = slot? key history := by
  induction history with
  | nil => exact own?_of_not_isArray (isArray_after_new hkind proto []) key
  | cons e past ih =>
      have hpast := isArray_after_new hkind proto past
      rw [after]
      by_cases h : e.key = key
      · cases e with
        | write k value =>
            obtain rfl : k = key := h
            exact (own?_setOwn_self hpast k value).trans (slot?_write k value past).symm
        | accessor k get set =>
            obtain rfl : k = key := h
            obtain ⟨hgetter, hsetter⟩ := lastHalf?_eq_slot? k past
            rw [slot?_accessor, hgetter, hsetter, ← ih]
            exact own?_defineAccessor_self hpast k get set
        | remove k =>
            obtain rfl : k = key := h
            exact (own?_remove_self hpast k).trans (slot?_remove k past).symm
      · rw [own?_apply_of_ne hpast h, ih, slot?_cons_of_ne h]

theorem mem_keys_after_iff (history : List Edit) (key : String) :
    key ∈ ((Object.new kind proto).after history).keys ↔ (since? key history).isSome = true := by
  rw [mem_keys_iff (isArray_after_new hkind proto history), hasOwn, own?_after hkind proto,
    isSome_slot?_iff]

theorem nodup_keys_after (history : List Edit) :
    ((Object.new kind proto).after history).keys.Nodup := by
  induction history with
  | nil =>
      rw [keys_of_not_isArray (isArray_after_new hkind proto [])]
      exact List.nodup_nil
  | cons e past ih =>
      have hpast := isArray_after_new hkind proto past
      rw [keys_of_not_isArray hpast] at ih
      rw [keys_of_not_isArray (isArray_after_new hkind proto (e :: past)), after]
      cases e with
      | write key value =>
          rw [Edit.apply, setOwn_of_not_isArray hpast]
          exact Props.nodup_keys_set ih
      | accessor key get set => exact Props.nodup_keys_set ih
      | remove key =>
          rw [Edit.apply, remove_of_not_isArray hpast]
          exact Props.nodup_keys_erase ih key

/-- A key that was there before and is still there has been there since the same moment. -/
theorem since?_cons_of_mem {e : Edit} {past : List Edit} {key : String}
    (hmem : key ∈ ((Object.new kind proto).after past).keys) (hremoves : e.removes key = false) :
    since? key (e :: past) = since? key past := by
  obtain ⟨t, ht⟩ := Option.isSome_iff_exists.1 ((mem_keys_after_iff hkind proto past key).1 hmem)
  rw [since?_cons, hremoves, if_neg Bool.false_ne_true, ht, Option.some_or, ite_self]

/-- The keys stand in the order of the moments since which they have been there. -/
theorem keys_after_ordered (history : List Edit) :
    ((Object.new kind proto).after history).keys.Pairwise fun a b =>
      ∃ s t, since? a history = some s ∧ since? b history = some t ∧ s < t := by
  induction history with
  | nil =>
      rw [keys_of_not_isArray (isArray_after_new hkind proto [])]
      exact List.Pairwise.nil
  | cons e past ih =>
      have hsame : ∀ {key}, key ∈ ((Object.new kind proto).after past).keys → e.removes key = false →
          since? key (e :: past) = since? key past :=
        since?_cons_of_mem hkind proto
      rw [after, keys_apply (isArray_after_new hkind proto past)]
      split
      · -- The other keys keep their moments, and their order with them.
        have hother : ∀ {key}, key ≠ e.key → e.removes key = false := fun hne =>
          Edit.removes_of_ne hne.symm
        refine (ih.filter _).imp_of_mem fun {a b} ha hb hlt => ?_
        obtain ⟨ha, hae⟩ := List.mem_filter.1 ha
        obtain ⟨hb, hbe⟩ := List.mem_filter.1 hb
        rw [hsame ha (hother (bne_iff_ne.1 hae)), hsame hb (hother (bne_iff_ne.1 hbe))]
        exact hlt
      · rename_i hremoves
        have hkept : ∀ key, e.removes key = false := by
          intro key
          by_cases h : e.key = key
          · subst h
            exact Bool.eq_false_iff.2 hremoves
          · exact Edit.removes_of_ne h
        have hold : ((Object.new kind proto).after past).keys.Pairwise fun a b =>
            ∃ s t, since? a (e :: past) = some s ∧ since? b (e :: past) = some t ∧ s < t :=
          ih.imp_of_mem fun {a b} ha hb hlt => by
            rw [hsame ha (hkept a), hsame hb (hkept b)]
            exact hlt
        split
        · exact hold
        · -- The new key comes at the end, and at a later moment than all the others.
          rename_i hnew
          have hnow : since? e.key (e :: past) = some past.length := by
            rw [since?_cons_of_slot rfl (hkept e.key),
              Option.not_isSome_iff_eq_none.1 (mt (mem_keys_after_iff hkind proto past e.key).2 hnew),
              Option.none_or]
          refine List.pairwise_append.2 ⟨hold, List.pairwise_singleton _ _, fun a ha b hb => ?_⟩
          obtain ⟨s, hs⟩ := Option.isSome_iff_exists.1 ((mem_keys_after_iff hkind proto past a).1 ha)
          rw [List.mem_singleton.1 hb, hsame ha (hkept a)]
          exact ⟨s, past.length, hs, hnow, since?_lt hs⟩

end Run

/-! ## The ordered map -/

theorem map_fst_entries (o : Object) :
    o.entries.map Prod.fst = o.keys.filter fun key => (o.getOwn? key).isSome := by
  rw [entries, List.map_filterMap, ← List.filterMap_eq_filter]
  congr 1
  funext key
  cases h : o.getOwn? key <;> simp [Option.guard, h]

theorem getOwn?_eq_some_iff {o : Object} {key : String} {value : Value} :
    o.getOwn? key = some value ↔ o.own? key = some (.data value) := by
  rw [getOwn?]
  constructor
  · intro h
    split at h
    · rename_i hown
      cases h
      exact hown
    · cases h
  · intro h
    rw [h]

theorem mem_entries_iff {o : Object} (ho : o.isArray = false) {key : String} {value : Value} :
    (key, value) ∈ o.entries ↔ o.own? key = some (.data value) := by
  rw [entries, List.mem_filterMap]
  constructor
  · rintro ⟨k, -, h⟩
    obtain ⟨v, hv, heq⟩ := Option.map_eq_some_iff.1 h
    cases heq
    exact getOwn?_eq_some_iff.1 hv
  · intro h
    have hmem : key ∈ o.keys := (mem_keys_iff ho key).2 (by rw [hasOwn, h]; rfl)
    exact ⟨key, hmem, by rw [getOwn?_eq_some_iff.2 h]; rfl⟩

/-- An object that behaves as a map that remembers the order of insertion and has seen these
changes, the latest in front. -/
structure Follows (o : Object) (history : List Edit) : Prop where
  own (key : String) : o.own? key = slot? key history
  mem_keys (key : String) : key ∈ o.keys ↔ o.hasOwn key = true
  isSome_since? (key : String) : (since? key history).isSome = true ↔ key ∈ o.keys
  nodup_keys : o.keys.Nodup
  keys_ordered : o.keys.Pairwise fun a b =>
    ∃ s t, since? a history = some s ∧ since? b history = some t ∧ s < t
  keys_overwrite (e : Edit) (present : e.key ∈ o.keys) (stays : e.removes e.key = false) :
    (e.apply o).keys = o.keys
  /-- A getter, and later a setter. -/
  own_setter_after_getter (key : String) (get set : Value) (later : List Edit)
    (stays : ∀ e ∈ later, e.resets key = false) :
    (((o.defineAccessor key (some get) none).after later).defineAccessor key none (some set)).own? key =
      some (.accessor ((later.findSome? (Edit.getter? key)).or (some get)) (some set))
  /-- A setter, and later a getter. -/
  own_getter_after_setter (key : String) (get set : Value) (later : List Edit)
    (stays : ∀ e ∈ later, e.resets key = false) :
    (((o.defineAccessor key none (some set)).after later).defineAccessor key (some get) none).own? key =
      some (.accessor (some get) ((later.findSome? (Edit.setter? key)).or (some set)))
  own_accessor_after_data (key : String) (value : Value) (get set : Option Value)
    (data : o.own? key = some (.data value)) :
    (o.defineAccessor key get set).own? key = some (.accessor get set)
  remove_fst (key : String) : (o.remove key).1 = true ↔ key ∈ o.keys
  keys_remove (key : String) : (o.remove key).2.keys = o.keys.filter (· != key)
  own_remove (key other : String) :
    (o.remove key).2.own? other = if key = other then none else o.own? other
  keys_entries : o.entries.map Prod.fst = o.keys.filter fun key => (o.getOwn? key).isSome
  mem_entries (key : String) (value : Value) :
    (key, value) ∈ o.entries ↔ slot? key history = some (.data value)

variable {kind : ObjectKind}

/-- Whatever is done to a new object that is no array, it is an ordered map. -/
theorem follows_after_new (hkind : ∀ items, kind ≠ .array items) (proto : Option Address)
    (history : List Edit) : ((Object.new kind proto).after history).Follows history := by
  have ho := isArray_after_new hkind proto history
  have hown := own?_after hkind proto
  constructor
  case own => exact hown history
  case mem_keys => exact mem_keys_iff ho
  case isSome_since? => exact fun key => (mem_keys_after_iff hkind proto history key).symm
  case nodup_keys => exact nodup_keys_after hkind proto history
  case keys_ordered => exact keys_after_ordered hkind proto history
  case keys_overwrite =>
    intro e present stays
    rw [keys_apply ho, stays, if_neg Bool.false_ne_true, if_pos present]
  case own_setter_after_getter =>
    intro key get set later stays
    obtain ⟨oldGet, oldSet, h⟩ := slot?_merged stays history (some get) none none (some set)
    rw [← hown, after, after_append] at h
    refine h.trans ?_
    simp
  case own_getter_after_setter =>
    intro key get set later stays
    obtain ⟨oldGet, oldSet, h⟩ := slot?_merged stays history none (some get) (some set) none
    rw [← hown, after, after_append] at h
    refine h.trans ?_
    simp
  case own_accessor_after_data =>
    intro key value get set data
    rw [own?_defineAccessor_self ho, data]
    simp [Slot.getter?, Slot.setter?]
  case remove_fst =>
    intro key
    rw [remove_of_not_isArray ho, keys_of_not_isArray ho, bne_iff_ne]
    exact Props.length_erase_ne_iff
  case keys_remove =>
    intro key
    exact (keys_apply ho (.remove key)).trans (if_pos (beq_self_eq_true key))
  case own_remove =>
    intro key other
    split
    · rename_i h
      exact h ▸ own?_remove_self ho key
    · rename_i h
      exact own?_apply_of_ne ho (e := .remove key) h
  case keys_entries => exact map_fst_entries _
  case mem_entries =>
    intro key value
    rw [mem_entries_iff ho, hown]

theorem follows_after_new_plain :
    (∀ items, ObjectKind.plain ≠ .array items) ∧
      ((Object.new .plain none).after
        [.accessor "b" none (some .null), .remove "a", .accessor "b" (some .null) none, .write "a" .null]).Follows
          [.accessor "b" none (some .null), .remove "a", .accessor "b" (some .null) none, .write "a" .null] :=
  have hplain : ∀ items, ObjectKind.plain ≠ .array items := fun _ => nofun
  ⟨hplain, follows_after_new hplain none _⟩

/-- A key that went and came back stands where it came back. -/
example : ((Object.new .plain none).after
    [.write "b" .null, .write "a" .null, .remove "a", .write "b" .null, .write "a" .null]).keys =
      ["b", "a"] := by
  decide

end Object

end Resumption
