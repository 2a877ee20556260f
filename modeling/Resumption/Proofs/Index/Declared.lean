import Mathlib.Data.List.Induction
import Resumption.Proofs.Index.Position

/-!
# What is declared

The declarations in a part of a function's body, by its parts, and what becomes of them when they are put
together.
-/

namespace Resumption

open Script

variable {t : IndexedTree} {i j : Nat} {n : Node} {l l' : List Node} {name : String}

theorem Script.Node.func?_of_mayDeclare (h : n.mayDeclare = true) : n.func? = none := by
  cases n with
  | stmt stmt => cases stmt <;> first | rfl | cases h
  | _ => first | rfl | cases h

/-- The declarations that a node makes by itself. -/
def Script.Node.declares (i : Nat) : Node → List Declaration
  | .stmt s => s.declares i
  | _ => []

theorem Script.Node.children_of_func? {f : Func} (h : n.func? = some f) :
    n.children = Node.ofStmts f.body := by
  cases n with
  | func g =>
      cases h
      rfl
  | stmt s =>
      cases s <;> cases h
      rfl
  | expr e =>
      cases e <;> cases h
      rfl
  | _ => cases h

namespace IndexedTree

/-- The declarations at and below nodes, the first of them at the position. -/
def declaredIn (t : IndexedTree) (i : Nat) (l : List Node) : List Declaration :=
  (t.place i l).flatMap (fun (j, c) => t.declared c j)

theorem declaredIn_cons : t.declaredIn i (n :: l) = t.declared n i ++ t.declaredIn (t.after i) l := rfl

theorem declaredIn_append :
    t.declaredIn i (l ++ l') = t.declaredIn i l ++ t.declaredIn (t.afterMany l.length i) l' := by
  induction l generalizing i with
  | nil => rfl
  | cons n l ih =>
      rw [List.cons_append, declaredIn_cons, declaredIn_cons, ih, List.append_assoc, List.length_cons,
        afterMany_succ]

/-- What is declared at a node and below it. -/
theorem declared_eq (t : IndexedTree) (n : Node) (i : Nat) :
    t.declared n i = n.declares i ++ if n.mayDeclare then t.declaredIn (i + 1) n.children else [] := by
  unfold declared
  rw [List.flatMap_subtype (g := fun x => t.declared x.2 x.1) (fun _ _ => rfl), List.unattach_attach]
  cases n <;> rfl

/-- The functions that a statement declares by itself. -/
theorem mem_declares {stmt : Stmt} (h : .function name j ∈ stmt.declares i) :
    ∃ f, stmt = .function f ∧ f.name = some name ∧ j = i := by
  unfold Stmt.declares at h
  split at h
  · obtain ⟨_, _, heq⟩ := List.mem_map.1 h
    cases heq
  · rename_i f
    split at h
    · rename_i x hname
      cases List.mem_singleton.1 h
      exact ⟨f, rfl, hname, rfl⟩
    · cases h
  · obtain ⟨_, _, heq⟩ := List.mem_map.1 h
    cases heq
  · cases List.mem_singleton.1 h
  · cases h

/-- A function is declared at a node by the node itself or below it. -/
theorem mem_declared (h : .function name j ∈ t.declared n i) :
    (∃ f, n = .stmt (.function f) ∧ f.name = some name ∧ j = i) ∨
      n.mayDeclare = true ∧ .function name j ∈ t.declaredIn (i + 1) n.children := by
  unfold declared at h
  rcases List.mem_append.1 h with h | h
  · refine .inl ?_
    split at h
    · obtain ⟨f, rfl, hname, hj⟩ := mem_declares h
      exact ⟨f, rfl, hname, hj⟩
    · cases h
  · split at h
    · rename_i hmay
      refine .inr ⟨hmay, ?_⟩
      obtain ⟨⟨⟨k, c⟩, hmem⟩, -, h⟩ := List.mem_flatMap.1 h
      exact List.mem_flatMap.2 ⟨(k, c), hmem, h⟩
    · cases h

/-- What nodes hand down to their parts holds of the functions that are declared in them. -/
theorem exists_declared {P : Nat → Node → Prop}
    (hparts : ∀ {i : Nat} {n : Node}, n.mayDeclare = true → P i n → t.Along P (i + 1) n.children)
    {i : Nat} {n : Node} (h : P i n) (hmem : .function name j ∈ t.declared n i) :
    ∃ f, f.name = some name ∧ P j (.stmt (.function f)) := by
  rcases mem_declared hmem with ⟨f, rfl, hname, rfl⟩ | ⟨hmay, hmem⟩
  · exact ⟨f, hname, h⟩
  · obtain ⟨⟨k, c⟩, hc, hmem⟩ := List.mem_flatMap.1 hmem
    exact exists_declared hparts ((hparts hmay h).of_mem_place hc) hmem
termination_by n.weight
decreasing_by exact Node.weight_lt_of_mem_children (t.mem_of_mem_place hc)

theorem Along.exists_declared {P : Nat → Node → Prop}
    (hparts : ∀ {i : Nat} {n : Node}, n.mayDeclare = true → P i n → t.Along P (i + 1) n.children)
    (h : t.Along P i l) (hmem : .function name j ∈ t.declaredIn i l) :
    ∃ f, f.name = some name ∧ P j (.stmt (.function f)) := by
  obtain ⟨⟨k, c⟩, hc, hmem⟩ := List.mem_flatMap.1 hmem
  exact IndexedTree.exists_declared hparts (h.of_mem_place hc) hmem

/-- A function that is declared among nodes stands among them. -/
theorem AtAll.exists_declared (h : t.AtAll i l) (hmem : .function name j ∈ t.declaredIn i l) :
    ∃ f, f.name = some name ∧ i ≤ j ∧ t.At j (.stmt (.function f)) := by
  refine Along.exists_declared (fun {k m} _ hm => ?_) (h.along (Nat.le_refl i)) hmem
  exact hm.2.children.along (Nat.le_succ_of_le hm.1)

end IndexedTree

/-! ## Declarations that are put together -/

/-- The variable that is declared. -/
def Declaration.var? : Declaration → Option String
  | .var name => some name
  | .function _ _ => none

/-- The function that is declared, with its position. -/
def Declaration.function? : Declaration → Option (String × Nat)
  | .var _ => none
  | .function name i => some (name, i)

theorem Declaration.var?_eq_some {d : Declaration} : d.var? = some name ↔ d = .var name := by
  cases d <;> simp [var?]

theorem Declaration.function?_eq_some {d : Declaration} {f : String × Nat} :
    d.function? = some f ↔ d = .function f.1 f.2 := by
  cases d <;> simp [function?, Prod.ext_iff]

theorem eraseDups_concat (l : List String) (name : String) :
    (l ++ [name]).eraseDups = if name ∈ l then l.eraseDups else l.eraseDups ++ [name] := by
  rw [List.eraseDups_append, List.removeAll]
  split <;> simp_all [List.eraseDups_cons]

namespace Declarations

variable {l : List Declaration}

theorem ofList_concat (l : List Declaration) (d : Declaration) : ofList (l ++ [d]) = (ofList l).add d := by
  rw [ofList, List.foldl_append]
  rfl

@[simp] theorem functions_add_var (d : Declarations) (name : String) :
    (d.add (.var name)).functions = d.functions := by
  rw [add]
  split <;> rfl

/-- Variables count once, in order of their first declaration. -/
theorem vars_ofList (l : List Declaration) :
    (ofList l).vars = (l.filterMap Declaration.var?).eraseDups := by
  induction l using List.reverseRecOn with
  | nil => rfl
  | append_singleton l d ih =>
      rw [ofList_concat, List.filterMap_append]
      cases d with
      | function name i => rwa [List.filterMap_cons_none rfl, List.filterMap_nil, List.append_nil]
      | var name =>
          have hmem : (ofList l).vars.contains name = true ↔ name ∈ l.filterMap Declaration.var? := by
            rw [List.contains_iff_mem, ih, List.mem_eraseDups]
          have hvar : [Declaration.var name].filterMap Declaration.var? = [name] := rfl
          rw [hvar, eraseDups_concat, ← ih, add]
          simp only [hmem]
          split <;> rfl

/-- Functions stand in the order of their declarations, but some of these are overruled. -/
theorem functions_ofList_sublist (l : List Declaration) :
    (ofList l).functions.Sublist (l.filterMap Declaration.function?) := by
  induction l using List.reverseRecOn with
  | nil => exact .slnil
  | append_singleton l d ih =>
      rw [ofList_concat, List.filterMap_append]
      cases d with
      | var name =>
          rwa [functions_add_var, List.filterMap_cons_none rfl, List.filterMap_nil, List.append_nil]
      | function name i => exact (List.filter_sublist.trans ih).append (List.Sublist.refl _)

/-- What counts among declarations has been declared. -/
theorem mem_ofList (h : (name, i) ∈ (ofList l).functions) : .function name i ∈ l := by
  obtain ⟨d, hd, heq⟩ := List.mem_filterMap.1 ((functions_ofList_sublist l).subset h)
  rwa [Declaration.function?_eq_some.1 heq] at hd

theorem mem_vars_ofList : name ∈ (ofList l).vars ↔ .var name ∈ l := by
  simp [vars_ofList, Declaration.var?_eq_some]

theorem mem_names {d : Declarations} {params : List String} {name : String} :
    name ∈ d.names params ↔ name ∈ params ∨ name ∈ d.vars ∨ name ∈ d.functions.map Prod.fst := by
  have hfold : ∀ (l base : List String),
      name ∈ l.foldl Declarations.addName base ↔ name ∈ base ∨ name ∈ l := by
    intro l
    induction l with
    | nil => simp
    | cons x l ih =>
        intro base
        rw [List.foldl_cons, ih, Declarations.addName]
        split
        · rename_i hx
          have hmem : x ∈ base := List.contains_iff_mem.1 hx
          constructor
          · rintro (h | h)
            · exact .inl h
            · exact .inr (List.mem_cons_of_mem _ h)
          · rintro (h | h)
            · exact .inl h
            · rcases List.mem_cons.1 h with rfl | h
              · exact .inl hmem
              · exact .inr h
        · simp only [List.mem_append, List.mem_cons, List.not_mem_nil, or_false]
          grind
  rw [Declarations.names, hfold, List.mem_append]

end Declarations

end Resumption
