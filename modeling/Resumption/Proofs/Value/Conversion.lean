import Mathlib.Data.List.Nodup
import Mathlib.Data.List.Perm.Subperm
import Mathlib.Logic.Relation
import Resumption.Machine.Setup
import Resumption.Proofs.Match.Heap
import Resumption.Value.Convert

/-!
# Where conversion to text ends

The text of an array is made of the texts of its elements, the text of an error of the texts of its
name and its message.  Arrays that are being converted are left out when they are met again, but an
error begins anew with nothing to leave out.  So a conversion ends exactly if no error that it can
come to leads back to itself.  Arrays may contain themselves or each other, and plain objects are
not opened at all.
-/

namespace Resumption

namespace Heap

open Relation

variable {h : Heap} {a b : Address} {seen : List Address}

/-- The text of the one object is made of the text of the other. -/
inductive Mentions (h : Heap) (a b : Address) : Prop
  | item {items : Array Value} (kind : (h.object a).kind = .array items)
      (mem : Value.object b ∈ items.toList)
  | name (kind : (h.object a).kind = .error) (slot : h.findData? "name" a = some (.object b))
  | message (kind : (h.object a).kind = .error)
      (slot : h.findData? "message" a = some (.object b))

/-- The object is an error whose text is made of its own text. -/
def Circular (h : Heap) (a : Address) : Prop :=
  (h.object a).kind = .error ∧ TransGen h.Mentions a a

/-- The text of the object is made of the text of a circular error. -/
def Endless (h : Heap) (a : Address) : Prop := ∃ e, ReflTransGen h.Mentions a e ∧ h.Circular e

theorem Endless.of_mentions (hab : h.Mentions a b) (hb : h.Endless b) : h.Endless a :=
  let ⟨e, hbe, he⟩ := hb
  ⟨e, .head hab hbe, he⟩

theorem lt_size_of_kind_ne (hkind : (h.object a).kind ≠ .plain) : a < h.size := by
  by_contra hsize
  have hnone : h.objects[a]? = none := Array.getElem?_eq_none (Nat.le_of_not_lt hsize)
  exact hkind (by rw [object, Array.getD_eq_getD_getElem?, hnone]; rfl)

/-! ## One object -/

/-- The arrays that the parts of an object are part of. -/
def within (h : Heap) (seen : List Address) (a : Address) : List Address :=
  if (h.object a).isArray then a :: seen else []

theorem within_of_array {items : Array Value} (hkind : (h.object a).kind = .array items) :
    h.within seen a = a :: seen := by
  rw [within, Object.isArray, Object.elements?, hkind]
  rfl

theorem within_of_error (hkind : (h.object a).kind = .error) : h.within seen a = [] := by
  rw [within, Object.isArray, Object.elements?, hkind]
  rfl

theorem isSome_mapM {α β : Type} {f : α → Option β} (l : List α) :
    (l.mapM f).isSome ↔ ∀ x ∈ l, (f x).isSome := by
  induction l with
  | nil => simp
  | cons x l ih =>
      rw [List.mapM_cons, List.forall_mem_cons, ← ih]
      cases f x with
      | none => simp
      | some y => cases l.mapM f <;> simp

/-- The text of what an array holds; `within` are the arrays that it is part of. -/
def itemText? (h : Heap) (depth : Nat) (within : List Address) : Value → Option String
  | .undefined | .null => some ""
  | .object b => h.objectText? depth within b
  | v => some (plainText v)

theorem isSome_itemText? (depth : Nat) (v : Value) :
    (h.itemText? depth seen v).isSome ↔
      ∀ b, v = .object b → (h.objectText? depth seen b).isSome := by
  cases v <;> simp [itemText?]

/-- The text of what an error has for its name or its message. -/
def partText? (h : Heap) (depth : Nat) (missing : String) : Option Value → Option String
  | some (.object b) => h.objectText? depth [] b
  | some v => some (plainText v)
  | none => some missing

theorem isSome_partText? (depth : Nat) (missing : String) (v : Option Value) :
    (h.partText? depth missing v).isSome ↔
      ∀ b, v = some (.object b) → (h.objectText? depth [] b).isSome := by
  rcases v with _ | v
  · simp [partText?]
  · cases v <;> simp [partText?]

theorem objectText?_array {items : Array Value} (hkind : (h.object a).kind = .array items)
    (hseen : a ∉ seen) (depth : Nat) :
    h.objectText? (depth + 1) seen a =
      (items.toList.mapM (h.itemText? depth (a :: seen))).bind (some ∘ (",".intercalate ·)) := by
  rw [objectText?, if_neg (by simpa using hseen), hkind]
  rfl

theorem objectText?_error (hkind : (h.object a).kind = .error) (hseen : a ∉ seen) (depth : Nat) :
    h.objectText? (depth + 1) seen a =
      (h.partText? depth "Error" (h.findData? "name" a)).bind fun name =>
        (h.partText? depth "" (h.findData? "message" a)).bind (some ∘ errorText name) := by
  rw [objectText?, if_neg (by simpa using hseen), hkind]
  cases h.findData? "name" a with
  | none =>
      cases h.findData? "message" a with
      | none => rfl
      | some w => cases w <;> rfl
  | some v =>
      cases h.findData? "message" a with
      | none => cases v <;> rfl
      | some w => cases v <;> cases w <;> rfl

theorem mentions_of_array {items : Array Value} (hkind : (h.object a).kind = .array items) :
    h.Mentions a b ↔ .object b ∈ items.toList := by
  refine ⟨fun hab => ?_, .item hkind⟩
  cases hab with
  | item hitems hmem => exact ObjectKind.array.inj (hkind.symm.trans hitems) ▸ hmem
  | name herror | message herror => cases hkind.symm.trans herror

theorem mentions_of_error (hkind : (h.object a).kind = .error) :
    h.Mentions a b ↔
      h.findData? "name" a = some (.object b) ∨ h.findData? "message" a = some (.object b) := by
  refine ⟨fun hab => ?_, fun hslot => hslot.elim (.name hkind) (.message hkind)⟩
  cases hab with
  | item hitems => cases hkind.symm.trans hitems
  | name _ hslot => exact .inl hslot
  | message _ hslot => exact .inr hslot

/-- Converting an object succeeds if the depth allows for it and its parts can be converted. -/
theorem isSome_objectText?_succ (depth : Nat) :
    (h.objectText? (depth + 1) seen a).isSome ↔
      a ∈ seen ∨ ∀ b, h.Mentions a b → (h.objectText? depth (h.within seen a) b).isSome := by
  by_cases hseen : a ∈ seen
  · rw [objectText?, if_pos (by simpa using hseen)]
    exact iff_of_true rfl (.inl hseen)
  rw [or_iff_right hseen]
  cases hkind : (h.object a).kind with
  | array items =>
      have hbind {x : Option (List String)} : (x.bind (some ∘ (",".intercalate ·))).isSome ↔ x.isSome := by
        cases x <;> simp
      simp only [objectText?_array hkind hseen, within_of_array hkind, hbind, isSome_mapM,
        isSome_itemText?, mentions_of_array hkind]
      exact ⟨fun hall b hb => hall _ hb b rfl, fun hall v hv b hb => hall b (hb ▸ hv)⟩
  | error =>
      have hbind {x y : Option String} :
          (x.bind fun name => y.bind (some ∘ errorText name)).isSome ↔ x.isSome ∧ y.isSome := by
        cases x <;> cases y <;> simp
      simp only [objectText?_error hkind hseen, within_of_error hkind, hbind, isSome_partText?,
        mentions_of_error hkind]
      exact ⟨fun hboth b hb => hb.elim (hboth.1 b) (hboth.2 b),
        fun hall => ⟨fun b hb => hall b (.inl hb), fun b hb => hall b (.inr hb)⟩⟩
  | plain =>
      rw [objectText?, if_neg (by simpa using hseen), hkind]
      exact iff_of_true rfl fun b hab => by cases hab <;> simp_all only [reduceCtorEq]
  | function f =>
      rw [objectText?, if_neg (by simpa using hseen), hkind]
      exact iff_of_true rfl fun b hab => by cases hab <;> simp_all only [reduceCtorEq]

/-! ## Conversions that do not end -/

/-- A circular error is at most so many objects away. -/
def Nears (h : Heap) : Nat → Address → Prop
  | 0, a => h.Circular a
  | n + 1, a => h.Nears n a ∨ ∃ b, h.Mentions a b ∧ h.Nears n b

theorem Endless.nears (ha : h.Endless a) : ∃ n, h.Nears n a := by
  obtain ⟨e, hae, he⟩ := ha
  induction hae using ReflTransGen.head_induction_on with
  | refl => exact ⟨0, he⟩
  | head hab _ ih =>
      obtain ⟨n, hn⟩ := ih
      exact ⟨n + 1, .inr ⟨_, hab, hn⟩⟩

theorem Circular.exists_mentions (ha : h.Circular a) : ∃ b, h.Mentions a b ∧ h.Endless b := by
  obtain ⟨b, hab, hba⟩ := TransGen.head'_iff.1 ha.2
  exact ⟨b, hab, a, hba, ha⟩

/-- No depth is enough for an object that leads to a circular error, unless an array on the way
there is being converted already. -/
theorem objectText?_eq_none_of_nears (depth : Nat) :
    ∀ (n : Nat) (seen : List Address) (a : Address), h.Nears n a → (∀ s ∈ seen, ¬h.Nears n s) →
      h.objectText? depth seen a = none := by
  induction depth with
  | zero => exact fun _ _ _ _ _ => rfl
  | succ depth ih =>
      intro n
      induction n with
      | zero =>
          intro seen a ha hseen
          obtain ⟨b, hab, hb⟩ := ha.exists_mentions
          obtain ⟨m, hm⟩ := hb.nears
          have hnone := ih m [] b hm (by simp)
          rw [← Option.not_isSome_iff_eq_none, isSome_objectText?_succ, not_or]
          refine ⟨fun hmem => hseen a hmem ha, fun hall => ?_⟩
          have := hall b hab
          rw [within_of_error ha.1, hnone] at this
          cases this
      | succ n ihn =>
          intro seen a ha hseen
          have hfar : ∀ s ∈ seen, ¬h.Nears n s := fun s hs hn => hseen s hs (.inl hn)
          by_cases hclose : h.Nears n a
          · exact ihn seen a hclose hfar
          -- The object itself is too far away to be met on the way.
          obtain ⟨b, hab, hb⟩ := ha.resolve_left hclose
          rw [← Option.not_isSome_iff_eq_none, isSome_objectText?_succ, not_or]
          refine ⟨fun hmem => hseen a hmem ha, fun hall => ?_⟩
          have hnone : h.objectText? depth (h.within seen a) b = none := by
            refine ih n _ b hb ?_
            rw [within]
            split
            · exact List.forall_mem_cons.2 ⟨hclose, hfar⟩
            · exact List.forall_mem_nil _
          have := hall b hab
          rw [hnone] at this
          cases this

theorem Endless.objectText? (ha : h.Endless a) (depth : Nat) : h.objectText? depth [] a = none :=
  let ⟨n, hn⟩ := ha.nears
  objectText?_eq_none_of_nears depth n [] a hn (List.forall_mem_nil _)

/-! ## Conversions that end -/

/-- What has been met on the way to an object: the arrays since the last error, and before them
errors that lead here. -/
structure Trail (h : Heap) (errors arrays : List Address) (a : Address) : Prop where
  errors_nodup : errors.Nodup
  arrays_nodup : arrays.Nodup
  errors_lead : ∀ e ∈ errors, (h.object e).kind = .error ∧ TransGen h.Mentions e a
  arrays_lt : ∀ s ∈ arrays, s < h.size

theorem length_le_of_nodup {l : List Address} {n : Nat} (hl : l.Nodup) (hlt : ∀ a ∈ l, a < n) :
    l.length ≤ n := by
  have hsub : l ⊆ List.range n := fun a ha => List.mem_range.2 (hlt a ha)
  simpa using (List.subperm_of_subset hl hsub).length_le

namespace Trail

variable {errors arrays : List Address}

theorem start (a : Address) : h.Trail [] [] a := ⟨.nil, .nil, by simp, by simp⟩

theorem length_errors_le (ht : h.Trail errors arrays a) : errors.length ≤ h.size :=
  length_le_of_nodup ht.errors_nodup fun e he =>
    lt_size_of_kind_ne (by rw [(ht.errors_lead e he).1]; simp)

theorem length_arrays_le (ht : h.Trail errors arrays a) : arrays.length ≤ h.size :=
  length_le_of_nodup ht.arrays_nodup ht.arrays_lt

/-- On from an array. -/
theorem array (ht : h.Trail errors arrays a) {items : Array Value}
    (hkind : (h.object a).kind = .array items) (hnew : a ∉ arrays) (hab : h.Mentions a b) :
    h.Trail errors (a :: arrays) b where
  errors_nodup := ht.errors_nodup
  arrays_nodup := List.nodup_cons.2 ⟨hnew, ht.arrays_nodup⟩
  errors_lead e he := ⟨(ht.errors_lead e he).1, (ht.errors_lead e he).2.tail hab⟩
  arrays_lt := List.forall_mem_cons.2 ⟨lt_size_of_kind_ne (by rw [hkind]; simp), ht.arrays_lt⟩

/-- On from an error that has not been met before. -/
theorem error (ht : h.Trail errors arrays a) (hkind : (h.object a).kind = .error)
    (hnew : a ∉ errors) (hab : h.Mentions a b) : h.Trail (a :: errors) [] b where
  errors_nodup := List.nodup_cons.2 ⟨hnew, ht.errors_nodup⟩
  arrays_nodup := .nil
  errors_lead := List.forall_mem_cons.2 ⟨⟨hkind, .single hab⟩,
    fun e he => ⟨(ht.errors_lead e he).1, (ht.errors_lead e he).2.tail hab⟩⟩
  arrays_lt := List.forall_mem_nil _

end Trail

/-- Every error on a trail is another one, and between two errors every array is. -/
theorem isSome_objectText? (depth : Nat) :
    ∀ (errors arrays : List Address) (a : Address), h.Trail errors arrays a → ¬h.Endless a →
      (h.size - errors.length) * (h.size + 1) + (h.size + 1 - arrays.length) ≤ depth →
      (h.objectText? depth arrays a).isSome := by
  induction depth with
  | zero =>
      intro errors arrays a ht _ hdepth
      have := ht.length_arrays_le
      omega
  | succ depth ih =>
      intro errors arrays a ht ha hdepth
      rw [isSome_objectText?_succ, or_iff_not_imp_left]
      intro hnew b hab
      have hb : ¬h.Endless b := fun hb => ha (hb.of_mentions hab)
      have hparts : (∃ items, (h.object a).kind = .array items) ∨ (h.object a).kind = .error := by
        cases hab with
        | item hkind => exact .inl ⟨_, hkind⟩
        | name hkind | message hkind => exact .inr hkind
      rcases hparts with ⟨items, hkind⟩ | hkind
      · have hnext := ht.array hkind hnew hab
        have := hnext.length_arrays_le
        rw [within_of_array hkind]
        exact ih errors _ b hnext hb (by simp only [List.length_cons] at *; omega)
      · -- An error that is met again would be circular.
        have hfirst : a ∉ errors := fun hmem => ha ⟨a, .refl, hkind, (ht.errors_lead a hmem).2⟩
        have hnext := ht.error hkind hfirst hab
        have herrors := hnext.length_errors_le
        have harrays := ht.length_arrays_le
        rw [within_of_error hkind]
        refine ih _ [] b hnext hb ?_
        simp only [List.length_cons, List.length_nil] at *
        have hsplit : h.size - errors.length = h.size - (errors.length + 1) + 1 := by omega
        rw [hsplit, Nat.add_mul] at hdepth
        omega

/-! ## The text of a value -/

/-- Conversion to text ends exactly for the objects whose text is not made, on whatever way, of the
text of an error that is made of its own. -/
theorem isSome_text?_object (h : Heap) (a : Address) :
    (h.text? (.object a)).isSome ↔ ¬h.Endless a := by
  refine ⟨fun hsome hendless => ?_, fun hends => ?_⟩
  · rw [text?, hendless.objectText?] at hsome
    cases hsome
  · refine isSome_objectText? _ [] [] a (.start a) hends ?_
    rw [textDepth, Nat.add_mul]
    simp

/-- A new error that is its own message, as `var e = new Error(); e.message = e;` makes it. -/
def withOwnMessage (h : Heap) : Heap :=
  (h.alloc (.new .error (some (Intrinsic.errorProto .general)))).2.modify h.size
    (fun o => o.setOwn "message" (.object h.size))

theorem circular_withOwnMessage (h : Heap) : h.withOwnMessage.Circular h.size := by
  have hsize : h.size < (h.alloc (.new .error (some (Intrinsic.errorProto .general)))).2.size := by
    rw [size_alloc]
    exact Nat.lt_succ_self _
  have hobject : h.withOwnMessage.object h.size =
      (Object.new .error (some (Intrinsic.errorProto .general))).setOwn "message" (.object h.size) := by
    rw [withOwnMessage, object_modify _ _ _ _ hsize, if_pos rfl, object_alloc, if_pos rfl]
  have hkind : (h.withOwnMessage.object h.size).kind = .error := by rw [hobject]; rfl
  have hfind : h.withOwnMessage.find? "message" h.size = some (.data (.object h.size)) := by
    rw [find?, hobject]
    rfl
  refine ⟨hkind, .single (.message hkind ?_)⟩
  rw [findData?, hfind]

/-- On a new machine already the conversion of such an error does not end. -/
theorem text?_withOwnMessage : Setup.heap.withOwnMessage.text? (.object Setup.heap.size) = none :=
  Endless.objectText? ⟨_, .refl, circular_withOwnMessage _⟩ _

end Heap

end Resumption
