import Resumption.Engine.Drive
import Resumption.Proofs.Match.Fairness
import Resumption.Proofs.Match.Ground

/-!
# The instrumented array methods are made

When the array methods are first wanted they are registered, instrumented, and put on the heap.  What
becomes of the heap and of their registry depends on nothing else, and there is a heap to compare with in
which the same functions are walked.
-/

namespace Resumption

open Script

variable {T : Terms} {w : World} {r : Registry} {f : Script.Func} {ns : String} {isProgram : Bool}

/-- A tree that has been registered stays where it is. -/
theorem Terms.registered_assign {id : Nat} (h : r.Built)
    (hle : (r.assign f ns isProgram).2.Le (T.registries.getD id default)) :
    T.Registered (r.assign f ns isProgram).1 id :=
  fun _ hi => hle.tree (h.assign f ns isProgram) (h.tree_assign f ns isProgram hi)

/-! ## Functions on the heap -/

/-- A new function object. -/
def Object.ofCallable (f : Callable) : Object := .new (.function f) (some Intrinsic.functionProto)

/-- Twins are put on both heaps. -/
theorem Heap.Match.alloc_function {h h' : Heap} (hh : h.Match T w h') {g g' : Callable}
    (htwin : g.Twin T w g') :
    (h.alloc (.ofCallable g)).2.Match T (w.grow .shown) (h'.alloc (.ofCallable g')).2 := by
  have halike : (Object.ofCallable g).Alike (.ofCallable g') := ⟨.function htwin.alike, rfl, rfl⟩
  have hground := hh.ground.mono (w.le_grow .shown).roles
  refine hh.alloc .shown halike ⟨Machine.matches_new (.function htwin.alike) ?_ ?_ ?_, fun hproto => ?_⟩
  · intro _ h
    cases h
  · exact .inl (Machine.ground_proto hground rfl (by decide))
  · intro _ _ h h'
    cases h
    cases h'
    exact htwin.mono (w.le_grow .shown).roles
  · rfl

/-! ## Making the methods -/

namespace Machine

/-- Another heap, and another registry of the array methods. -/
def equip (m : Machine) (h : Heap) (r : Registry) : Machine :=
  { m with heap := h, registries := m.registries.setIfInBounds builtinRegistry r }

/-- The machine has such a heap and such a registry of the array methods. -/
structure Equipped (m : Machine) (h : Heap) (r : Registry) : Prop where
  heap : m.heap = h
  registry : m.registries.getD builtinRegistry default = r
  lt : builtinRegistry < m.registries.size

namespace Equipped

variable {m : Machine} {h h₁ h₂ : Heap} {r₁ r₂ : Registry}

theorem equip (hm : m.Equipped h r) (h₁ : Heap) (r₁ : Registry) : (m.equip h₁ r₁).Equipped h₁ r₁ where
  heap := rfl
  registry := by simp [Machine.equip, hm.lt]
  lt := by simpa [Machine.equip] using hm.lt

theorem equip_self (hm : m.Equipped h r) : m.equip h r = m := by
  obtain ⟨rfl, rfl, hlt⟩ := hm
  have hsame : m.registries.setIfInBounds builtinRegistry
      (m.registries.getD builtinRegistry default) = m.registries := by
    rw [Array.getD_eq_getD_getElem?, Array.getElem?_eq_getElem hlt, Option.getD_some,
      Array.setIfInBounds, dif_pos hlt, Array.set_getElem_self]
  rw [Machine.equip, hsame]

end Equipped

theorem equip_equip (m : Machine) (h₁ h₂ : Heap) (r₁ r₂ : Registry) :
    (m.equip h₁ r₁).equip h₂ r₂ = m.equip h₂ r₂ := by
  simp [equip]

/-- What making array methods does to heaps that are compared. -/
structure Makes (mode : Mode) (h h' : Heap) (r : Registry) (methods : List (String × Value))
    (h₁ h₁' : Heap) (r₁ : Registry) : Prop where
  le : r.Le r₁
  built : r₁.Built
  heap : ∀ T w, T.mode = mode → r₁.Le (T.registries.getD builtinRegistry default) →
    h.Match T w h' → ∃ w₁, w ≤ w₁ ∧ h₁.Match T w₁ h₁' ∧ ∀ p ∈ methods, p.2.Shown w₁

variable {mode : Mode} {h h' : Heap}

theorem bind_of_ok {α β : Type} {x : MachineM α} {g : α → MachineM β} {m m₁ : Machine} {a : α}
    (hx : x m = .ok a m₁) : (x >>= g) m = g a m₁ := by
  change EStateM.bind x g m = _
  rw [EStateM.bind, hx]

theorem debugMethod_eq (f : Script.Func) {m : Machine} (hm : m.Equipped h r) :
    debugMethod f m =
      let (code, r₁) := Code.instrument f r builtinNamespace [] false
      match code, f.name with
      | .ok code, some name =>
        let closure := Callable.instrumented ⟨code, [], builtinRegistry⟩
        .ok (some (name, .object h.size)) (m.equip (h.alloc (.ofCallable closure)).2 r₁)
      | _, _ => .ok none (m.equip h r₁) := by
  obtain ⟨rfl, rfl, -⟩ := hm
  have hcompile : withRegistry builtinRegistry (instrument f builtinNamespace [] false) m =
      .ok (Code.instrument f (m.registries.getD builtinRegistry default) builtinNamespace [] false).1
        (m.equip m.heap
          (Code.instrument f (m.registries.getD builtinRegistry default) builtinNamespace [] false).2) :=
    rfl
  refine (bind_of_ok hcompile).trans ?_
  generalize Code.instrument f (m.registries.getD builtinRegistry default) builtinNamespace [] false = x
  obtain ⟨code, r₁⟩ := x
  cases code with
  | error e => rfl
  | ok code =>
      cases f.name with
      | none => rfl
      | some name => rfl

/-- An array method that is walked. -/
def walkedMethod (r : Registry) (mode : Mode) (f : Script.Func) : SteppedClosure :=
  ⟨(r.assign f builtinNamespace false).1, r.next builtinNamespace, [], mode, builtinRegistry⟩

/-- An instrumented array method and the same method walked. -/
theorem methodTwin (hf : f ∈ ArrayMethods.all) (hr : r.Built)
    (hle : (r.assign f builtinNamespace false).2.Le (T.registries.getD builtinRegistry default))
    {code : Code.Func}
    (hcode : Code.lowerFunc (r.assign f builtinNamespace false).1 [] (r.next builtinNamespace) none f =
      .ok code) :
    Callable.Twin T w (.instrumented ⟨code, [], builtinRegistry⟩) (.stepped (walkedMethod r T.mode f)) := by
  have hready : (walkedMethod r T.mode f).Ready T w .own (.func f) f :=
    { stands := IndexedTree.at_root _ _ _ _
      func := rfl
      fair := .of_arrayMethod hf
      counts := fun _ => ⟨ArrayMethods.counterName_not_mem f hf, nofun⟩
      seeks := fun _ => ArrayMethods.tree_seeks hf _ _
      chain := nofun
      registered := fun _ => Terms.registered_assign hr hle
      quiet := nofun }
  have hruns : T.Runs [] ((walkedMethod r T.mode f).tree.ownNames (r.next builtinNamespace) (.func f) f)
      .own := ⟨rfl, ArrayMethods.argumentsName_not_mem hf _ _⟩
  exact .instrumented hready hruns hcode trivial rfl

theorem debugMethod_makes (hf : f ∈ ArrayMethods.all) (mode : Mode) (h h' : Heap) (hr : r.Built) :
    ∃ method h₁ h₁' r₁, Makes mode h h' r [method] h₁ h₁' r₁ ∧ f.name = some method.1 ∧
      ∀ m, m.Equipped h r → debugMethod f m = .ok (some method) (m.equip h₁ r₁) := by
  obtain ⟨code, hcode⟩ := ArrayMethods.exists_instrument hf r builtinNamespace
  obtain ⟨name, hname⟩ := Option.isSome_iff_exists.1 (ArrayMethods.isSome_name f hf)
  obtain ⟨hlowered, hregistry⟩ := Code.instrument_eq_ok hcode
  have hmakes : Makes mode h h' r [(name, .object h.size)]
      (h.alloc (.ofCallable (.instrumented ⟨code, [], builtinRegistry⟩))).2
      (h'.alloc (.ofCallable (.stepped (walkedMethod r mode f)))).2
      (Code.instrument f r builtinNamespace [] false).2 := by
    refine ⟨Code.le_instrument f r builtinNamespace [] false,
      Code.built_instrument hr f builtinNamespace [] false, fun T w hmode hle' hh => ?_⟩
    rw [hregistry] at hle'
    subst hmode
    refine ⟨_, w.le_grow .shown, hh.alloc_function (methodTwin hf hr hle' hlowered), fun p hp => ?_⟩
    cases List.mem_singleton.1 hp
    exact hh.size ▸ World.role?_grow_self w .shown
  refine ⟨(name, .object h.size), _, _, _, hmakes, hname, fun m hm => ?_⟩
  rw [debugMethod_eq f hm]
  dsimp only
  rw [hcode, hname]

theorem Makes.trans {h₁ h₂ h₁' h₂' : Heap} {r₁ r₂ : Registry} {methods₁ methods₂ : List (String × Value)}
    (hfirst : Makes mode h h' r methods₁ h₁ h₁' r₁) (hrest : Makes mode h₁ h₁' r₁ methods₂ h₂ h₂' r₂) :
    Makes mode h h' r (methods₁ ++ methods₂) h₂ h₂' r₂ where
  le := hfirst.le.trans hrest.le
  built := hrest.built
  heap T w hmode hle hh := by
    obtain ⟨w₁, hw₁, hh₁, hshown₁⟩ := hfirst.heap T w hmode (hrest.le.trans hle) hh
    obtain ⟨w₂, hw₂, hh₂, hshown₂⟩ := hrest.heap T w₁ hmode hle hh₁
    refine ⟨w₂, w.le_trans hw₁ hw₂, hh₂, fun p hp => ?_⟩
    rcases List.mem_append.1 hp with hp | hp
    · exact (hshown₁ p hp).mono hw₂.roles
    · exact hshown₂ p hp

/-- The methods are made one after the other. -/
theorem debugMethods_make {l : List Script.Func} (hl : l ⊆ ArrayMethods.all) (mode : Mode) (h h' : Heap)
    (hr : r.Built) :
    ∃ methods h₁ h₁' r₁, Makes mode h h' r methods h₁ h₁' r₁ ∧
      methods.map Prod.fst = l.filterMap (fun f => f.name) ∧
      ∀ m, m.Equipped h r → l.filterMapM debugMethod m = .ok methods (m.equip h₁ r₁) := by
  induction l generalizing h h' r with
  | nil =>
      refine ⟨[], h, h', r, ⟨.refl r, hr, fun T w _ _ hh => ⟨w, w.le_refl, hh, nofun⟩⟩, rfl, fun m hm => ?_⟩
      rw [hm.equip_self]
      rfl
  | cons f l ih =>
      obtain ⟨hf, hl⟩ := List.cons_subset.1 hl
      obtain ⟨method, h₁, h₁', r₁, hmakes, hname, hfirst⟩ := debugMethod_makes hf mode h h' hr
      obtain ⟨methods, h₂, h₂', r₂, hrest, hnames, hothers⟩ := ih hl h₁ h₁' hmakes.built
      refine ⟨method :: methods, h₂, h₂', r₂, hmakes.trans hrest, by simp [hname, hnames], fun m hm => ?_⟩
      rw [List.filterMapM_cons]
      refine (bind_of_ok (hfirst m hm)).trans ?_
      exact bind_of_ok ((hothers _ (hm.equip h₁ r₁)).trans (by rw [equip_equip]))

/-- What preparing a machine does, whether the array methods are wanted or not, with a heap in which the
same functions are walked. -/
structure Prepares (wanted : Bool) (mode : Mode) (h h' : Heap) (r : Registry)
    (methods : Option (List (String × Value))) (h₁ h₁' : Heap) (r₁ : Registry) : Prop where
  makes : Makes mode h h' r (methods.getD []) h₁ h₁' r₁
  present : wanted = true → methods.isSome = true
  named : wanted = true → ∀ key, debugMethodNames.contains key = true →
    ((methods.getD []).lookup key).isSome = true
  runs : ∀ m, m.Equipped h r → m.config.debugBuiltins = wanted → m.debugMethods = none →
    prepareDebugMethods m = .ok () { m.equip h₁ r₁ with debugMethods := methods }

theorem prepares (wanted : Bool) (mode : Mode) (h h' : Heap) (hr : r.Built) :
    ∃ methods h₁ h₁' r₁, Prepares wanted mode h h' r methods h₁ h₁' r₁ := by
  have hprepare : ∀ m, m.debugMethods = none → prepareDebugMethods m =
      (if m.config.debugBuiltins then
        ArrayMethods.all.filterMapM debugMethod >>= fun methods =>
          modify (fun m => { m with debugMethods := some methods })
      else pure () : MachineM Unit) m := by
    intro m hm
    change (if (m.config.debugBuiltins && m.debugMethods.isNone) = true then _ else _ : MachineM Unit) m = _
    rw [hm, Option.isNone_none, Bool.and_true]
  by_cases hwanted : wanted = true
  · obtain ⟨methods, h₁, h₁', r₁, hmakes, hnames, hruns⟩ :=
      debugMethods_make (List.Subset.refl _) mode h h' hr
    have hall : methods.map Prod.fst = debugMethodNames := hnames
    refine ⟨some methods, h₁, h₁', r₁, hmakes, fun _ => rfl, fun _ key hkey => ?_,
      fun m hm hbuiltins hnone => ?_⟩
    · rw [← hall, List.contains_iff_mem] at hkey
      obtain ⟨method, hmethod, rfl⟩ := List.mem_map.1 hkey
      exact List.lookup_isSome_iff.2 ⟨method, hmethod, beq_self_eq_true _⟩
    rw [hprepare m hnone, hbuiltins, if_pos hwanted]
    exact bind_of_ok (hruns m hm)
  · refine ⟨none, h, h', r, ⟨.refl r, hr, fun T w _ _ hh => ⟨w, w.le_refl, hh, nofun⟩⟩,
      fun h => absurd h hwanted, fun h => absurd h hwanted, fun m hm hbuiltins hnone => ?_⟩
    rw [hprepare m hnone, hbuiltins, if_neg hwanted, hm.equip_self, ← hnone]
    rfl

end Machine

end Resumption
