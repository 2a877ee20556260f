import Resumption.Machine.Access
import Resumption.Proofs.Match.Heap
import Resumption.Proofs.Reading.Numeral

/-!
# Elements and other slots of an array

An array has one space of keys for two stores: a key that writes a position belongs to an element,
any other key but the length to a list of slots.  An element is listed under the shortest text of
its position, but it is found under every text that is read as this position, and a plus sign in
front is read too.  Under the keys without such a sign the two agree.
-/

namespace Resumption

/-! ## Digits -/

namespace Number

theorem digit?_ten (c : Char) :
    digit? 10 c = if c.isDigit then some (c.toNat - '0'.toNat) else none := by
  have hdigit : c.isDigit = true ↔ '0' ≤ c ∧ c ≤ '9' := by
    simp [Char.isDigit, Char.le_def]
  have hletter : ∀ first : Char, (some (c.toNat - first.toNat + 10)).filter (· < 10) = none := by
    simp
  rw [digit?]
  by_cases h : '0' ≤ c ∧ c ≤ '9'
  · have hten : c.toNat - '0'.toNat < 10 := by
      have hnine : c.toNat ≤ '9'.toNat := h.2
      have : '9'.toNat - '0'.toNat < 10 := by decide
      omega
    rw [if_pos h, if_pos (hdigit.2 h)]
    exact Option.filter_some_pos (decide_eq_true hten)
  · rw [if_neg h, if_neg (mt hdigit.1 h)]
    split
    · exact hletter 'a'
    · split
      · exact hletter 'A'
      · rfl

theorem foldlM_digit? {digits : List Char} (n : Nat) :
    digits.foldlM (fun n c => (digit? 10 c).map (n * 10 + ·)) n =
      if digits.all Char.isDigit then some (Nat.ofDigitChars 10 digits n) else none := by
  induction digits generalizing n with
  | nil => rfl
  | cons c digits ih =>
      rw [List.foldlM_cons, digit?_ten, List.all_cons, Nat.ofDigitChars_cons, Nat.mul_comm 10 n]
      cases c.isDigit with
      | true => exact ih _
      | false => rfl

theorem natural?_ten (digits : List Char) :
    natural? 10 digits =
      if digits ≠ [] ∧ digits.all Char.isDigit then some (Nat.ofDigitChars 10 digits 0) else none := by
  rw [natural?, foldlM_digit?]
  cases digits <;> simp

theorem natural?_toDigits (n : Nat) : natural? 10 (Nat.toDigits 10 n) = some n := by
  rw [natural?_ten, if_pos ⟨Nat.toDigits_ne_nil, all_isDigit_toDigits n⟩, Nat.ofDigitChars_ten_toDigits]

theorem toDigits_digit {c : Char} (h : c.isDigit = true) :
    Nat.toDigits 10 (c.toNat - '0'.toNat) = [c] ∧ c.toNat - '0'.toNat < 10 := by
  obtain ⟨hzero, hnine⟩ := Char.isDigit_iff_toNat.1 h
  have hlt : c.toNat - '0'.toNat < 10 := by
    have : '9'.toNat - '0'.toNat < 10 := by decide
    omega
  refine ⟨?_, hlt⟩
  rw [Nat.toDigits_of_lt_base hlt]
  refine congrArg (· :: []) (Char.toNat_inj.1 ?_)
  rw [Nat.toNat_digitChar_of_lt_ten hlt]
  exact Nat.add_sub_cancel' hzero

/-- More digits behind those of a number that is not zero. -/
theorem toDigits_ofDigitChars {n : Nat} (hn : 0 < n) {digits : List Char}
    (h : digits.all Char.isDigit = true) :
    Nat.toDigits 10 (Nat.ofDigitChars 10 digits n) = Nat.toDigits 10 n ++ digits := by
  induction digits generalizing n with
  | nil => rw [Nat.ofDigitChars_nil, List.append_nil]
  | cons c digits ih =>
      obtain ⟨hc, hdigits⟩ := Bool.and_eq_true_iff.1 (List.all_cons ▸ h)
      obtain ⟨hdigit, hlt⟩ := toDigits_digit hc
      rw [Nat.ofDigitChars_cons, ih (by omega) hdigits,
        ← Nat.toDigits_append_toDigits (by decide) hn hlt, hdigit, List.append_assoc]
      rfl

/-- Digits without a zero in front are those of the number that they write. -/
theorem toDigits_of_natural? {c : Char} {digits : List Char} {n : Nat}
    (h : natural? 10 (c :: digits) = some n) (hzero : c = '0' → digits = []) :
    Nat.toDigits 10 n = c :: digits := by
  rw [natural?_ten] at h
  split at h
  · rename_i hall
    cases h
    obtain ⟨hc, hdigits⟩ := Bool.and_eq_true_iff.1 (List.all_cons ▸ hall.2)
    obtain ⟨hdigit, -⟩ := toDigits_digit hc
    rw [Nat.ofDigitChars_cons, Nat.mul_zero, Nat.zero_add]
    by_cases hz : c = '0'
    · rw [hzero hz, Nat.ofDigitChars_nil, hdigit]
    · have hpos : 0 < c.toNat - '0'.toNat := by
        have hle := (Char.isDigit_iff_toNat.1 hc).1
        have hne : c.toNat ≠ '0'.toNat := mt Char.toNat_inj.1 hz
        omega
      rw [toDigits_ofDigitChars hpos hdigits, hdigit]
      rfl
  · cases h

/-- Only zero itself begins with zero. -/
theorem head_toDigits {n : Nat} (hn : 0 < n) (digits : List Char) :
    Nat.toDigits 10 n ≠ '0' :: digits := by
  induction n using Nat.base_induction 10 (by decide) generalizing digits with
  | single n hlt =>
      rw [Nat.toDigits_of_lt_base hlt]
      intro h
      have hzero : n = 0 := Nat.digitChar_eq_zero.1 (List.cons.inj h).1
      omega
  | digit n d hd hpos ih =>
      rw [← Nat.toDigits_append_toDigits (by decide) hpos hd]
      intro h
      cases hdigits : Nat.toDigits 10 n with
      | nil => exact Nat.toDigits_ne_nil hdigits
      | cons c rest =>
          rw [hdigits] at h
          exact ih hpos rest (hdigits.trans (congrArg (· :: rest) (List.cons.inj h).1))

end Number

/-! ## Positions -/

theorem arrayIndex?_lt {key : String} {i : Nat} (h : arrayIndex? key = some i) : i < 2 ^ 64 := by
  rw [arrayIndex?] at h
  split at h
  · cases h
  · cases h
  · exact of_decide_eq_true (Option.filter_eq_some_iff.1 h).2

/-- The text of a position is read as this position. -/
theorem arrayIndex?_toString {i : Nat} (h : i < 2 ^ 64) : arrayIndex? (toString i) = some i := by
  have hplus : ∀ rest, Nat.toDigits 10 i ≠ '+' :: rest := by
    intro rest heq
    have hdigits := Number.all_isDigit_toDigits i
    rw [heq] at hdigits
    exact absurd hdigits (by simp)
  have hzero : ∀ c rest, Nat.toDigits 10 i ≠ '0' :: c :: rest := by
    intro c rest heq
    rcases Nat.eq_zero_or_pos i with rfl | hpos
    · cases heq
    · exact Number.head_toDigits hpos _ heq
  rw [arrayIndex?, Nat.toString_eq_repr, Nat.toList_repr]
  split
  · rename_i hnil
    exact absurd hnil Nat.toDigits_ne_nil
  · rename_i c rest heq
    exact absurd heq (hzero c rest)
  · rw [Number.bounded?, Number.natural?_toDigits]
    · exact Option.filter_some_pos (decide_eq_true h)
    · exact hplus

theorem position_eq_of_toString {i j : Nat} (h : toString i = toString j) : i = j := by
  have hdigits := congrArg (fun text => Nat.ofDigitChars 10 text.toList 0) h
  simpa using hdigits

/-- The key under which an array lists what it has for a key: the shortest text, where the key
writes a position. -/
def listedKey (key : String) : String :=
  match arrayIndex? key with
  | some i => toString i
  | none => key

/-- A key is listed as it stands, unless it begins with a plus sign. -/
theorem listedKey_eq {key : String} (h : ∀ rest, key.toList ≠ '+' :: rest) : listedKey key = key := by
  rw [listedKey]
  split
  · rename_i i hi
    have hdigits : Nat.toDigits 10 i = key.toList := by
      rw [arrayIndex?] at hi
      split at hi
      · cases hi
      · cases hi
      · rename_i hnil hzero
        rw [Number.bounded?] at hi
        · cases hkey : key.toList with
          | nil => exact absurd hkey hnil
          | cons c digits =>
              have hn := (Option.filter_eq_some_iff.1 hi).1
              rw [hkey] at hn
              refine Number.toDigits_of_natural? hn ?_
              rintro rfl
              cases digits with
              | nil => rfl
              | cons d digits => exact absurd hkey (hzero d digits)
        · exact h
    rw [Nat.toString_eq_ofList_toDigits, hdigits, String.ofList_toList]
  · rfl

theorem arrayIndex?_listedKey (key : String) : arrayIndex? (listedKey key) = arrayIndex? key := by
  rw [listedKey]
  cases hi : arrayIndex? key with
  | some i => exact arrayIndex?_toString (arrayIndex?_lt hi)
  | none => exact hi

theorem arrayIndex?_lengthKey : arrayIndex? lengthKey = none := by decide

theorem setElement_getElem?_of_ne (items : Array Value) {i j : Nat} (h : j ≠ i) (value : Value) :
    (Object.setElement items i value)[j]? =
      if items.size ≤ j ∧ j < i then some .undefined else items[j]? := by
  rw [Object.setElement, Array.getElem?_setIfInBounds_ne h.symm]
  split
  · rename_i hle
    rw [resize, if_neg (by omega), Array.getElem?_append]
    split
    · rename_i hlt
      rw [if_neg (by omega)]
    · rename_i hge
      by_cases hji : j < i
      · rw [if_pos ⟨Nat.not_lt.1 hge, hji⟩, Array.getElem?_replicate, if_pos (by omega)]
      · rw [if_neg (by omega), Array.getElem?_replicate, if_neg (by omega),
          Array.getElem?_eq_none (Nat.not_lt.1 hge)]
  · rename_i hlt
    rw [if_neg (by omega)]

theorem lt_size_setElement (items : Array Value) (i : Nat) (value : Value) :
    i < (Object.setElement items i value).size :=
  (Array.getElem?_eq_some_iff.1 (setElement_getElem? items i value)).1

namespace Object

/-! ## Arrays under change -/

/-- What becomes of a new array by writes and removals, its length included. -/
inductive ReachedArray : Object → Prop where
  | new (items : Array Value) (proto : Option Address) : ReachedArray (.new (.array items) proto)
  | setOwn {o : Object} (h : ReachedArray o) {key : String} (hkey : key ≠ lengthKey) (value : Value) :
    ReachedArray (o.setOwn key value)
  | setLength {o : Object} (h : ReachedArray o) (length : Float) : ReachedArray (o.setLength length)
  | remove {o : Object} (h : ReachedArray o) (key : String) : ReachedArray (o.remove key).2

/-- An array that keeps neither elements nor its length among the other slots. -/
structure Parted (o : Object) : Prop where
  isArray : o.isArray = true
  nodup : (o.props.map Prod.fst).Nodup
  apart : ∀ key ∈ o.props.map Prod.fst, arrayIndex? key = none ∧ key ≠ lengthKey

namespace ReachedArray

variable {o : Object}

theorem parted (h : ReachedArray o) : o.Parted := by
  induction h with
  | new items proto => exact ⟨rfl, List.nodup_nil, fun key hkey => nomatch hkey⟩
  | @setOwn o _ key hkey value ih =>
      obtain ⟨harray, hnodup, hapart⟩ := ih
      obtain ⟨kind, proto, props⟩ := o
      cases kind with
      | plain | function _ | error => cases harray
      | array items =>
          rw [Object.setOwn]
          cases hi : arrayIndex? key with
          | some i => exact ⟨rfl, hnodup, hapart⟩
          | none =>
              refine ⟨rfl, Props.nodup_keys_set hnodup, fun k hk => ?_⟩
              rcases Props.mem_keys_set.1 hk with rfl | hk
              · exact ⟨hi, hkey⟩
              · exact hapart k hk
  | @setLength o _ length ih =>
      obtain ⟨harray, hnodup, hapart⟩ := ih
      obtain ⟨kind, proto, props⟩ := o
      cases kind with
      | plain | function _ | error => cases harray
      | array items =>
          rw [Object.setLength]
          cases Number.toLength? length <;> exact ⟨rfl, hnodup, hapart⟩
  | @remove o _ key ih =>
      obtain ⟨harray, hnodup, hapart⟩ := ih
      obtain ⟨kind, proto, props⟩ := o
      cases kind with
      | plain | function _ | error => cases harray
      | array items =>
          rw [Object.remove]
          cases hi : arrayIndex? key with
          | some i => exact ⟨rfl, hnodup, hapart⟩
          | none =>
              refine ⟨rfl, Props.nodup_keys_erase hnodup key, fun k hk => hapart k ?_⟩
              rw [Props.keys_erase] at hk
              exact (List.mem_filter.1 hk).1

end ReachedArray

/-! ## Keys and slots -/

/-- An array that lists what it has: every slot but the length, once. -/
structure KeysAgree (o : Object) : Prop where
  own?_listedKey (key : String) : o.own? (listedKey key) = o.own? key
  hasOwn_iff (key : String) : o.hasOwn key = true ↔ listedKey key ∈ o.keys ∨ key = lengthKey
  nodup_keys : o.keys.Nodup
  mem_keys_setOwn (key : String) (value : Value) (notLength : key ≠ lengthKey) :
    listedKey key ∈ (o.setOwn key value).keys
  /-- A write changes no other slot, but it creates the elements that are missing below. -/
  own?_setOwn_of_ne (key other : String) (value : Value) (notLength : key ≠ lengthKey)
    (otherNotLength : other ≠ lengthKey) (different : listedKey other ≠ listedKey key) :
    (o.setOwn key value).own? other = o.own? other ∨
      ∃ i j, arrayIndex? key = some i ∧ arrayIndex? other = some j ∧ j < i ∧
        o.own? other = none ∧ (o.setOwn key value).own? other = some (.data .undefined)

section Agreement

variable {items : Array Value} {proto : Option Address} {props : List (String × Slot)}

theorem own?_array_of_position {key : String} {i : Nat} (hi : arrayIndex? key = some i) :
    (⟨.array items, proto, props⟩ : Object).own? key = items[i]?.map .data := by
  have hkey : key ≠ lengthKey := by
    rintro rfl
    cases arrayIndex?_lengthKey.symm.trans hi
  simp [own?, hkey, hi]

theorem own?_array_of_name {key : String} (hi : arrayIndex? key = none) (hkey : key ≠ lengthKey) :
    (⟨.array items, proto, props⟩ : Object).own? key = Props.get? key props := by
  simp [own?, hkey, hi]

theorem mem_keys_array_iff {key : String} :
    key ∈ (⟨.array items, proto, props⟩ : Object).keys ↔
      (∃ i < items.size, toString i = key) ∨ key ∈ props.map Prod.fst := by
  simp only [keys, List.mem_append, List.mem_map, List.mem_range]

theorem listedKey_of_position {key : String} {i : Nat} (hi : arrayIndex? key = some i) :
    listedKey key = toString i := by
  rw [listedKey, hi]

theorem listedKey_of_name {key : String} (hi : arrayIndex? key = none) : listedKey key = key := by
  rw [listedKey, hi]

/-- Where the positions of the elements can be written as keys, the keys are those of the slots. -/
theorem Parted.agreement (h : (⟨.array items, proto, props⟩ : Object).Parted)
    (hsize : items.size ≤ 2 ^ 64) : (⟨.array items, proto, props⟩ : Object).KeysAgree := by
  obtain ⟨-, hnodup, hapart⟩ := h
  have hposition : ∀ {i}, i < 2 ^ 64 → toString i ∉ props.map Prod.fst := by
    intro i hi hmem
    cases (arrayIndex?_toString hi).symm.trans (hapart _ hmem).1
  constructor
  case own?_listedKey =>
    intro key
    cases hi : arrayIndex? key with
    | some i =>
        rw [own?_array_of_position hi,
          own?_array_of_position ((arrayIndex?_listedKey key).trans hi)]
    | none => rw [listedKey_of_name hi]
  case hasOwn_iff =>
    intro key
    by_cases hkey : key = lengthKey
    · subst hkey
      exact iff_of_true rfl (.inr rfl)
    · rw [or_iff_left hkey, mem_keys_array_iff, hasOwn]
      cases hi : arrayIndex? key with
      | some i =>
          rw [own?_array_of_position hi, listedKey_of_position hi,
            or_iff_left (hposition (arrayIndex?_lt hi)), Option.isSome_map, isSome_getElem?]
          refine ⟨fun hlt => ⟨i, hlt, rfl⟩, ?_⟩
          rintro ⟨j, hlt, hj⟩
          exact position_eq_of_toString hj ▸ hlt
      | none =>
          rw [own?_array_of_name hi hkey, listedKey_of_name hi, Props.isSome_get?_iff, or_iff_right]
          rintro ⟨j, hj, rfl⟩
          cases hi.symm.trans (arrayIndex?_toString (Nat.lt_of_lt_of_le hj hsize))
  case nodup_keys =>
    refine List.nodup_append.2 ⟨?_, hnodup, ?_⟩
    · exact List.Pairwise.map toString (fun i j hij => mt position_eq_of_toString hij) List.nodup_range
    · rintro a ha b hb rfl
      obtain ⟨j, hj, rfl⟩ := List.mem_map.1 ha
      exact hposition (Nat.lt_of_lt_of_le (List.mem_range.1 hj) hsize) hb
  case mem_keys_setOwn =>
    intro key value hkey
    rw [Object.setOwn]
    cases hi : arrayIndex? key with
    | some i =>
        rw [listedKey_of_position hi]
        exact mem_keys_array_iff.2 (.inl ⟨i, lt_size_setElement items i value, rfl⟩)
    | none =>
        rw [listedKey_of_name hi]
        exact mem_keys_array_iff.2 (.inr (Props.mem_keys_set.2 (.inl rfl)))
  case own?_setOwn_of_ne =>
    intro key other value hkey hother hne
    rw [Object.setOwn]
    cases hi : arrayIndex? key with
    | none =>
        refine .inl ?_
        cases hj : arrayIndex? other with
        | some j => rw [own?_array_of_position hj, own?_array_of_position hj]
        | none =>
            rw [listedKey_of_name hi, listedKey_of_name hj] at hne
            rw [own?_array_of_name hj hother, own?_array_of_name hj hother, Props.get?_set,
              if_neg (by simpa using hne.symm)]
    | some i =>
        cases hj : arrayIndex? other with
        | none => exact .inl (by rw [own?_array_of_name hj hother, own?_array_of_name hj hother])
        | some j =>
            have hji : j ≠ i := by
              rintro rfl
              exact hne ((listedKey_of_position hj).trans (listedKey_of_position hi).symm)
            have hwrite := setElement_getElem?_of_ne items hji value
            rw [own?_array_of_position hj, own?_array_of_position hj, hwrite]
            by_cases hmissing : items.size ≤ j ∧ j < i
            · rw [if_pos hmissing]
              refine .inr ⟨i, j, rfl, rfl, hmissing.2, ?_, rfl⟩
              rw [Array.getElem?_eq_none hmissing.1]
              rfl
            · rw [if_neg hmissing]
              exact .inl rfl

end Agreement

/-- An array lists what it has, and a key without a plus sign in front is listed as it stands.  No
array has more elements than there are positions that can be written. -/
theorem ReachedArray.keysAgree {o : Object} (h : o.ReachedArray)
    (hsize : ∀ items, o.kind = .array items → items.size ≤ 2 ^ 64) :
    o.KeysAgree ∧ ∀ key, (∀ rest, key.toList ≠ '+' :: rest) → listedKey key = key := by
  refine ⟨?_, fun key hkey => listedKey_eq hkey⟩
  have hparted := h.parted
  obtain ⟨kind, proto, props⟩ := o
  cases kind with
  | plain | function _ | error => cases hparted.isArray
  | array items => exact hparted.agreement (hsize items rfl)

/-- A hole filled up by a write beyond the end. -/
theorem ReachedArray.keysAgree_holes :
    ((Object.new (.array #[.null]) none).setOwn "+3" .null).KeysAgree ∧
      ∀ key, (∀ rest, key.toList ≠ '+' :: rest) → listedKey key = key := by
  refine ReachedArray.keysAgree (.setOwn (.new _ _) (by decide) _) ?_
  intro items hitems
  cases hitems
  decide

/-- An element is found under its position with a plus sign in front, which is not listed. -/
theorem hasOwn_unlisted :
    ¬ ∀ (o : Object), o.ReachedArray → ∀ key, o.hasOwn key = true ↔ key ∈ o.keys ∨ key = lengthKey := by
  intro h
  have helement := (h _ (.new #[.null] none) "+0").1
  revert helement
  decide

end Object

/-! ## Arrays of a machine -/

theorem Heap.object_modify_array {h : Heap} {a : Address} (harray : (h.object a).isArray = true)
    (g : Object → Object) : (h.modify a g).object a = g (h.object a) := by
  have ha : a < h.size := by
    refine Nat.lt_of_not_le fun hle => ?_
    rw [object, Array.getD_eq_getD_getElem?, Array.getElem?_eq_none hle] at harray
    cases harray
  exact (object_modify h a a g ha).trans (if_pos rfl)

namespace Machine

variable {m m' : Machine} {a : Address} {key : String}

/-- A write by the machine, that of the length included, is one of these changes. -/
theorem setOwn_reachedArray {value : Value} (h : (m.heap.object a).ReachedArray)
    (hset : setOwn a key value m = .ok () m') : (m'.heap.object a).ReachedArray := by
  have harray := h.parted.isArray
  by_cases hkey : key = lengthKey
  · subst hkey
    have hguard : (lengthKey == lengthKey && (m.heap.object a).isArray) = true := by
      rw [harray]
      rfl
    change (if (lengthKey == lengthKey && (m.heap.object a).isArray) = true then _ else _ :
      MachineM Unit) m = _ at hset
    rw [if_pos hguard] at hset
    change (demand (m.heap.number? value) >>= _ : MachineM Unit) m = _ at hset
    cases hn : m.heap.number? value with
    | none =>
        rw [hn] at hset
        cases hset
    | some n =>
        rw [hn] at hset
        cases hset
        exact Heap.object_modify_array harray _ ▸ h.setLength n
  · have hguard : (key == lengthKey) = false := beq_eq_false_iff_ne.2 hkey
    rw [setOwn, hguard] at hset
    cases hset
    exact Heap.object_modify_array harray _ ▸ h.setOwn hkey value

theorem deleteProperty_reachedArray {found : Bool} (h : (m.heap.object a).ReachedArray)
    (hdelete : deleteProperty (.object a) key m = .ok found m') :
    (m'.heap.object a).ReachedArray := by
  cases hdelete
  exact Heap.object_modify_array h.parted.isArray _ ▸ h.remove key

end Machine

end Resumption
