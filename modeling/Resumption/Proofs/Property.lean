import Resumption.Machine.Setup
import Resumption.Proofs.Match.Heap

/-!
# Reading back a property

What was written to an object is what a read finds, whatever kind of object it is and whether the
key writes an element or not.  Only a debug method stands in front of an array's own properties.
-/

namespace Resumption

theorem Heap.find?_of_own {h : Heap} {key : String} {a : Address} {slot : Slot}
    (hown : (h.object a).own? key = some slot) : h.find? key a = some slot := by
  rw [Heap.find?, hown]

namespace Machine

variable {invoke : Invoke} {m : Machine} {a : Address} {key : String}

/-- A write that no accessor takes changes the object itself. -/
theorem putProperty_eq (v : Value) (haccessor : ∀ g s, m.heap.find? key a ≠ some (.accessor g s))
    (hlength : (m.heap.object a).isArray = true → key ≠ lengthKey) :
    putProperty invoke (.object a) key v m =
      .ok () { m with heap := m.heap.modify a (fun o => o.setOwn key v) } := by
  have hguard : (key == lengthKey && (m.heap.object a).isArray) = false := by
    cases harray : (m.heap.object a).isArray with
    | false => exact Bool.and_false _
    | true => rw [beq_eq_false_iff_ne.2 (hlength harray), Bool.false_and]
  have hset : setOwn a key v m =
      .ok () { m with heap := m.heap.modify a (fun o => o.setOwn key v) } := by
    rw [setOwn]
    cases hkey : key == lengthKey with
    | false => rfl
    | true =>
        have hplain : (m.heap.object a).isArray = false := by simpa [hkey] using hguard
        change (if (m.heap.object a).isArray = true then _ else _ : MachineM Unit) m = _
        rw [hplain]
        rfl
  rw [← hset]
  simp only [putProperty, ask_bind]
  cases hfound : m.heap.find? key a with
  | none => rfl
  | some slot =>
      cases slot with
      | data _ => rfl
      | accessor g s => exact absurd hfound (haccessor g s)

/-- What was written is read, unless a debug method stands in front of it. -/
theorem getProperty_putProperty (v : Value) (ha : a < m.heap.size)
    (haccessor : ∀ g s, m.heap.find? key a ≠ some (.accessor g s))
    (hlength : (m.heap.object a).isArray = true → key ≠ lengthKey) :
    ∃ m', putProperty invoke (.object a) key v m = .ok () m' ∧
      getProperty invoke (.object a) key m' = .ok ((m.methodInFront? a key).getD v) m' := by
  refine ⟨_, putProperty_eq v haccessor hlength, ?_⟩
  have hobject := Heap.object_modify m.heap a a (fun o => o.setOwn key v) ha
  rw [if_pos rfl] at hobject
  have hfound : (m.heap.modify a (fun o => o.setOwn key v)).find? key a = some (.data v) :=
    Heap.find?_of_own (by rw [hobject, Object.own?_setOwn v hlength])
  generalize hm' : { m with heap := m.heap.modify a (fun o => o.setOwn key v) } = m' at *
  have hmethod : m'.methodInFront? a key = m.methodInFront? a key := by
    subst hm'
    rw [methodInFront?, methodInFront?, hobject, Object.isArray_setOwn]
    rfl
  have hfound' : m'.heap.find? key a = some (.data v) := by rw [← hm', hfound]
  cases hfront : m.methodInFront? a key with
  | some method => exact getProperty_of_method invoke (hmethod.trans hfront)
  | none =>
      rw [getProperty_of_no_method invoke (hmethod.trans hfront)]
      split
      · rename_i hproto
        rw [eq_of_beq hproto] at hfound'
        exact prototypeOf_data hfound'
      · rw [ask_bind, hfound']
        rfl

/-- An element of an array is replaced, with debug support on. -/
theorem getProperty_putProperty_element :
    let m := { new .default with
      heap := ⟨#[.new (.array #[.null]) none]⟩, debugBuiltins := true, debugMethods := some [] }
    ∃ m', putProperty (fun f _ _ => pure f) (.object 0) "0" (.bool true) m = .ok () m' ∧
      getProperty (fun f _ _ => pure f) (.object 0) "0" m' = .ok (.bool true) m' := by
  intro m
  have hfound : m.heap.find? "0" 0 = some (.data .null) := Heap.find?_of_own rfl
  exact getProperty_putProperty (.bool true) (by decide) (fun g s => by rw [hfound]; exact nofun)
    (fun _ => by decide)

/-- An array's own `map` is written, and the debug method of that name is read. -/
theorem getProperty_putProperty_map :
    let m := { new .default with
      heap := ⟨#[.new (.array #[]) none, .new .plain none]⟩, debugBuiltins := true,
      debugMethods := some [("map", .object 1)] }
    ∃ m', putProperty (fun f _ _ => pure f) (.object 0) "map" (.bool true) m = .ok () m' ∧
      getProperty (fun f _ _ => pure f) (.object 0) "map" m' = .ok (.object 1) m' ∧
      (m'.heap.object 0).own? "map" = some (.data (.bool true)) := by
  intro m
  have hnone : m.heap.find? "map" 0 = none := by
    rw [Heap.find?]
    rfl
  have haccessor : ∀ g s, m.heap.find? "map" 0 ≠ some (.accessor g s) := fun g s h => by
    rw [hnone] at h
    cases h
  exact ⟨_, putProperty_eq (.bool true) haccessor (fun _ => by decide), rfl, rfl⟩

end Machine

end Resumption
