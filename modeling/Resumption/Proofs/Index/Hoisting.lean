import Resumption.Proofs.Index.Declared
import Resumption.Proofs.Index.Numbering

/-!
# What a function hoists

A function binds the names that are declared in its body, in statements inside of statements to any
depth, but not in the functions inside of it.  `t.body i` reads the body off the positions: those inside of
the function at `i` that no other function in there holds.  What the walk over the statements collects is
what stands at these positions, in their order.
-/

namespace Resumption

open Script

/-- The variables that the head of a loop declares. -/
def Script.Node.loopNames : Node → List String
  | .stmt (.forLoop (.vars decls) _ _ _) => decls.map Declarator.name
  | .stmt (.forIn (.var name) _ _) => [name]
  | _ => []

/-- The variables that a node declares by itself. -/
def Script.Node.varNames : Node → List String
  | .stmt (.var decls) => decls.map Declarator.name
  | n => n.loopNames

namespace IndexedTree

variable {t : IndexedTree} {i j k : Nat} {n m : Node} {l : List Node} {name : String} {f : Func}

/-- The position lies inside of the function at `i`, but not inside of a function in there. -/
structure InBody (t : IndexedTree) (i j : Nat) : Prop where
  behind : i < j
  inside : t.contains i j = true
  outermost : ∀ k, i < k → k < j → t.contains k j = true → t.func? k = none

instance (t : IndexedTree) (i : Nat) : DecidablePred (t.InBody i) := fun j =>
  decidable_of_iff
    (i < j ∧ t.contains i j = true ∧
      ∀ k < j, i < k → t.contains k j = true → (t.func? k).isNone = true)
    ⟨fun h => ⟨h.1, h.2.1, fun k hik hkj hk => Option.isNone_iff_eq_none.1 (h.2.2 k hkj hik hk)⟩,
      fun h => ⟨h.behind, h.inside, fun k hkj hik hk =>
        Option.isNone_iff_eq_none.2 (h.outermost k hik hkj hk)⟩⟩

/-- The positions of the body of the function at `i`, without the functions inside of it. -/
def body (t : IndexedTree) (i : Nat) : List Nat :=
  (List.range' (i + 1) (t.after i - (i + 1))).filter (t.InBody i)

/-- The variables that the node at a position declares by itself. -/
def varsAt (t : IndexedTree) (j : Nat) : List String := (t.node? j).elim [] Node.varNames

/-- The declarations that the node at a position makes by itself. -/
def declaredAt (t : IndexedTree) (j : Nat) : List Declaration := (t.node? j).elim [] (Node.declares j)

/-- The body of the function at `i` declares a function of the name at `j`. -/
structure DeclaresFunction (t : IndexedTree) (i : Nat) (name : String) (j : Nat) : Prop where
  inBody : t.InBody i j
  function : ∃ f, t.node? j = some (.stmt (.function f)) ∧ f.name = some name

/-- The declarations are those in the body of the function at `i`: each variable once, where it is declared
first, each function once, where it is declared last. -/
structure Hoists (t : IndexedTree) (i : Nat) (d : Declarations) : Prop where
  vars : d.vars.filter (· != argumentsName) =
    (((t.body i).flatMap t.varsAt).filter (· != argumentsName)).eraseDups
  nodup_vars : d.vars.Nodup
  mem_functions : ∀ name j, (name, j) ∈ d.functions ↔
    t.DeclaresFunction i name j ∧ ∀ k, t.DeclaresFunction i name k → k ≤ j
  mem_names : ∀ name, name ∈ d.functions.map Prod.fst ↔ ∃ j, t.DeclaresFunction i name j
  nodup_names : (d.functions.map Prod.fst).Nodup
  increasing : d.functions.Pairwise (fun f g => f.2 < g.2)
  func? : ∀ name j, (name, j) ∈ d.functions → ∃ f, t.func? j = some f ∧ f.name = some name

theorem mem_body : j ∈ t.body i ↔ t.InBody i j := by
  rw [body, List.mem_filter, List.mem_range'_1, decide_eq_true_iff]
  refine ⟨And.right, fun h => ⟨?_, h⟩⟩
  have hbehind := h.behind
  have hinside := contains_iff.1 h.inside
  omega

/-! ## The walk over the body -/

/-- What stands right below a function is in its body. -/
theorem At.inBody (h : t.At i n) (hmem : (j, m) ∈ t.children n i) : t.InBody i j where
  behind := (h.contains_child hmem).1
  inside := (h.contains_child hmem).2
  outermost _ hik hkj hk := absurd hk (h.not_contains_child hmem hik hkj)

/-- What stands right below a node of the body is in the body, unless the node is a function. -/
theorem InBody.child {c : Node} (h : t.InBody i j) (hi : t.At i n) (hj : t.At j m) (hm : m.func? = none)
    (hmem : (k, c) ∈ t.children m j) : t.InBody i k := by
  obtain ⟨hjk, hcontains⟩ := hj.contains_child hmem
  refine ⟨Nat.lt_trans h.behind hjk, hi.contains_trans h.inside hcontains, fun p hip hpk hp => ?_⟩
  rcases Nat.lt_trichotomy p j with hpj | rfl | hjp
  · refine h.outermost p hip hpj (contains_iff.2 ⟨Nat.le_of_lt hpj, ?_⟩)
    exact Nat.lt_trans hjk (contains_iff.1 hp).2
  · rw [hj.func?, hm]
  · exact absurd hp (hj.not_contains_child hmem hjp hpk)

/-- What stands below a function of the body is not in the body. -/
theorem InBody.not_inBody_below (h : t.InBody i j) (hf : t.func? j = some f) (hjk : j < k)
    (hcontains : t.contains j k = true) : ¬ t.InBody i k := by
  intro hk
  have hnone := hk.outermost j h.behind hjk hcontains
  rw [hf] at hnone
  cases hnone

/-- The declarations at so many positions, as far as they are in the body. -/
def declaredWithin (t : IndexedTree) (i lo count : Nat) : List Declaration :=
  ((List.range' lo count).filter (t.InBody i)).flatMap t.declaredAt

theorem declaredWithin_add (i lo a b : Nat) :
    t.declaredWithin i lo (a + b) = t.declaredWithin i lo a ++ t.declaredWithin i (lo + a) b := by
  rw [declaredWithin, ← List.range'_append_1, List.filter_append, List.flatMap_append]
  rfl

theorem declaredWithin_one (hj : t.At j n) (h : t.InBody i j) :
    t.declaredWithin i j 1 = n.declares j := by
  simp [declaredWithin, declaredAt, h, hj.node?]

theorem declaredWithin_eq_nil {lo count : Nat} (h : ∀ k, lo ≤ k → k < lo + count → ¬ t.InBody i k) :
    t.declaredWithin i lo count = [] := by
  have hnil : (List.range' lo count).filter (t.InBody i) = [] := by
    rw [List.filter_eq_nil_iff]
    intro k hk
    have hrange := List.mem_range'_1.1 hk
    simpa using h k hrange.1 hrange.2
  rw [declaredWithin, hnil, List.flatMap_nil]

theorem declaredIn_eq_within (hat : t.AtAll j l)
    (h : t.Along (fun k c => t.declared c k = t.declaredWithin i k c.size) j l) :
    t.declaredIn j l = t.declaredWithin i j (l.map Node.size).sum := by
  induction l generalizing j with
  | nil => rfl
  | cons c l ih =>
      obtain ⟨hc, hafter, hl⟩ := hat.uncons
      rw [declaredIn_cons, List.map_cons, List.sum_cons, declaredWithin_add, h.1, ih hat.2 h.2, hafter]

/-- Below a node that declarations do not stand below, there are no statements except in functions. -/
theorem declares_of_mem_children (hn : n.func? = none) (hmay : n.mayDeclare = false)
    (hc : m ∈ n.children) (j : Nat) : m.mayDeclare = false ∧ m.declares j = [] := by
  have hkind : (∃ e, m = .expr e) ∨ (∃ d, m = .declarator d) ∨ ∃ p, m = .property p := by
    cases n with
    | func f => cases hn
    | stmt s => cases s <;> grind [Node.mayDeclare, Node.func?, Node.children, Node.childrenOfStmt]
    | expr e =>
        rw [Node.children] at hc
        cases e <;> grind [Node.func?, Node.childrenOfExpr, Node.ofExprs]
    | declarator d => grind [Node.children, Node.ofExpr?]
    | property p => grind [Node.children]
    | case c => cases hmay
    | handler h => cases hmay
  rcases hkind with ⟨e, rfl⟩ | ⟨d, rfl⟩ | ⟨p, rfl⟩ <;> exact ⟨rfl, rfl⟩

/-- The walk goes on below every node that is not a function. -/
theorem declared_of_func?_eq_none (h : n.func? = none) (j : Nat) :
    t.declared n j = n.declares j ++ t.declaredIn (j + 1) n.children := by
  rw [declared_eq]
  split
  · rfl
  · rename_i hmay
    have hnil : t.declaredIn (j + 1) n.children = [] := by
      refine List.flatMap_eq_nil_iff.2 fun ⟨k, c⟩ hmem => ?_
      obtain ⟨hchild, hdeclares⟩ :=
        declares_of_mem_children h (by simpa using hmay) (t.mem_of_mem_place hmem) k
      simp [declared_eq, hchild, hdeclares]
    rw [hnil]

theorem along_of_mem_place {P : Nat → Node → Prop} (h : ∀ k c, (k, c) ∈ t.place j l → P k c) :
    t.Along P j l := by
  induction l generalizing j with
  | nil => trivial
  | cons c l ih =>
      exact ⟨h j c List.mem_cons_self, ih fun k d hmem => h k d (List.mem_cons_of_mem _ hmem)⟩

/-- The walk over a node of the body collects what stands in the body there. -/
theorem InBody.declared_eq {n m : Node} {j : Nat} (hi : t.At i n) (h : t.InBody i j) (hj : t.At j m) :
    t.declared m j = t.declaredWithin i j m.size := by
  have hsize : m.size = 1 + (m.children.map Node.size).sum := size_eq_one_add m
  rw [hsize, declaredWithin_add, declaredWithin_one hj h]
  cases hm : m.func? with
  | none =>
      rw [declared_of_func?_eq_none hm]
      refine congrArg _ (declaredIn_eq_within hj.children (along_of_mem_place fun k c hmem => ?_))
      exact InBody.declared_eq hi (h.child hi hj hm hmem) (hj.children.of_mem_place hmem)
  | some f =>
      have hmay : ¬ m.mayDeclare = true := fun hmay => by
        rw [Node.func?_of_mayDeclare hmay] at hm
        cases hm
      have hbelow : t.declaredWithin i (j + 1) (m.children.map Node.size).sum = [] := by
        refine declaredWithin_eq_nil fun k hlo hhi => ?_
        refine h.not_inBody_below (hj.func?.trans hm) hlo (contains_iff.2 ⟨Nat.le_of_lt hlo, ?_⟩)
        rw [hj.after]
        omega
      rw [IndexedTree.declared_eq, if_neg hmay, hbelow]
termination_by m.weight
decreasing_by exact Node.weight_lt_of_mem_children (t.mem_of_mem_place hmem)

/-- What the walk over a function collects is what is declared in its body. -/
theorem At.declaredIn_eq (h : t.At i n) (hf : n.func? = some f) :
    t.declaredIn (i + 1) (Node.ofStmts f.body) = (t.body i).flatMap t.declaredAt := by
  have hcount : t.after i - (i + 1) = (n.children.map Node.size).sum := by
    rw [h.after, size_eq_one_add]
    omega
  rw [← Node.children_of_func? hf, body, hcount]
  refine declaredIn_eq_within h.children (along_of_mem_place fun k c hmem => ?_)
  exact InBody.declared_eq h (h.inBody hmem) (h.children.of_mem_place hmem)

end IndexedTree

/-! ## Variables -/

theorem nodup_eraseDups (l : List String) : l.eraseDups.Nodup := by
  induction l using List.reverseRecOn with
  | nil => exact .nil
  | append_singleton l name ih =>
      rw [eraseDups_concat]
      split
      · exact ih
      · rename_i hnew
        refine List.nodup_append.2 ⟨ih, by simp, fun x hx y hy heq => ?_⟩
        rw [List.mem_singleton.1 hy] at heq
        exact hnew (List.mem_eraseDups.1 (heq ▸ hx))

theorem eraseDups_filter (p : String → Bool) (l : List String) :
    (l.filter p).eraseDups = l.eraseDups.filter p := by
  induction l using List.reverseRecOn with
  | nil => rfl
  | append_singleton l name ih =>
      rw [List.filter_append, eraseDups_concat]
      cases hp : p name with
      | false =>
          rw [List.filter_cons_of_neg (by simp [hp]), List.filter_nil, List.append_nil, ih]
          split <;> simp [hp]
      | true =>
          rw [List.filter_cons_of_pos hp, List.filter_nil, eraseDups_concat, ih]
          split <;> simp_all

namespace Script.Node

/-- The variables that a node declares by itself, where a `var` statement leaves the argument list alone. -/
def boundNames : Node → List String
  | .stmt (.var decls) => (decls.map Declarator.name).filter (· != argumentsName)
  | n => n.loopNames

theorem filterMap_declares (n : Node) (j : Nat) :
    (n.declares j).filterMap Declaration.var? = n.boundNames := by
  have hvars : ∀ decls : List Declarator,
      (decls.map (fun d => Declaration.var d.name)).filterMap Declaration.var? = decls.map Declarator.name := by
    intro decls
    rw [List.filterMap_map]
    exact congrFun (List.filterMap_eq_map' (f := Declarator.name)) decls
  cases n with
  | stmt s =>
      cases s with
      | var decls =>
          rw [boundNames, List.filter_map]
          exact hvars _
      | function f =>
          obtain ⟨name, params, body⟩ := f
          cases name <;> rfl
      | forLoop init test update body =>
          cases init with
          | vars decls => exact hvars decls
          | _ => rfl
      | forIn left right body => cases left <;> rfl
      | _ => rfl
  | _ => rfl

theorem filter_boundNames (n : Node) :
    n.boundNames.filter (· != argumentsName) = n.varNames.filter (· != argumentsName) := by
  unfold boundNames varNames
  split
  · rw [List.filter_filter]
    simp
  · rfl

/-- The heads of loops bind the argument list like any other variable, `var` statements do not. -/
theorem argumentsName_mem_boundNames {n : Node} : argumentsName ∈ n.boundNames ↔ argumentsName ∈ n.loopNames := by
  unfold boundNames
  split
  · simp [loopNames]
  · rfl

end Script.Node

/-! ## Functions -/

namespace Declarations

variable {l : List Declaration} {name : String} {j : Nat}

theorem nodup_functions_ofList (l : List Declaration) : ((ofList l).functions.map Prod.fst).Nodup := by
  induction l using List.reverseRecOn with
  | nil => exact .nil
  | append_singleton l d ih =>
      rw [ofList_concat]
      cases d with
      | var name => rwa [functions_add_var]
      | function name j =>
          rw [add, List.map_append]
          refine List.nodup_append.2 ⟨(ih.sublist (List.filter_sublist.map Prod.fst)), by simp, ?_⟩
          rintro x hx y hy heq
          obtain ⟨f, hf, rfl⟩ := List.mem_map.1 hx
          have hne := (List.mem_filter.1 hf).2
          simp_all

/-- Every function that is declared counts. -/
theorem mem_names_ofList : name ∈ (ofList l).functions.map Prod.fst ↔ ∃ j, .function name j ∈ l := by
  induction l using List.reverseRecOn with
  | nil => simp [ofList, empty]
  | append_singleton l d ih =>
      rw [ofList_concat]
      cases d with
      | var x =>
          rw [functions_add_var, ih]
          simp
      | function x m =>
          rw [add, List.map_append, List.mem_append]
          by_cases hx : name = x
          · simp [hx]
          · have hfilter : name ∈ ((ofList l).functions.filter (fun f => f.1 != x)).map Prod.fst ↔
                name ∈ (ofList l).functions.map Prod.fst := by
              simp [List.mem_map, List.mem_filter, hx]
            rw [hfilter, ih]
            simp [hx]

/-- Where the declarations come in the order of their positions, the last ones count. -/
theorem mem_functions_ofList (h : (l.filterMap Declaration.function?).Pairwise (fun f g => f.2 < g.2)) :
    (name, j) ∈ (ofList l).functions ↔
      .function name j ∈ l ∧ ∀ k, .function name k ∈ l → k ≤ j := by
  induction l using List.reverseRecOn with
  | nil => simp [ofList, empty]
  | append_singleton l d ih =>
      rw [List.filterMap_append, List.pairwise_append] at h
      obtain ⟨hfront, -, hlast⟩ := h
      rw [ofList_concat]
      cases d with
      | var x =>
          rw [functions_add_var, ih hfront]
          simp
      | function x m =>
          have hbehind : ∀ y k, .function y k ∈ l → k < m := by
            intro y k hk
            exact hlast (y, k) (List.mem_filterMap.2 ⟨_, hk, rfl⟩) (x, m) List.mem_cons_self
          rw [add, List.mem_append, List.mem_filter, ih hfront]
          grind

end Declarations

namespace IndexedTree

variable {t : IndexedTree} {i j k : Nat} {n : Node} {name : String} {f : Func}

theorem function_mem_declares :
    .function name j ∈ n.declares k ↔ j = k ∧ ∃ f, n = .stmt (.function f) ∧ f.name = some name := by
  constructor
  · intro h
    cases n with
    | stmt s =>
        obtain ⟨f, rfl, hname, rfl⟩ := mem_declares h
        exact ⟨rfl, f, rfl, hname⟩
    | _ => cases h
  · rintro ⟨rfl, f, rfl, hname⟩
    simp [Node.declares, Stmt.declares, hname]

theorem function_mem_body :
    .function name j ∈ (t.body i).flatMap t.declaredAt ↔ t.DeclaresFunction i name j := by
  constructor
  · intro h
    obtain ⟨k, hk, h⟩ := List.mem_flatMap.1 h
    cases hn : t.node? k with
    | none => simp [declaredAt, hn] at h
    | some n =>
        rw [declaredAt, hn] at h
        obtain ⟨rfl, f, rfl, hname⟩ := function_mem_declares.1 h
        exact ⟨mem_body.1 hk, f, hn, hname⟩
  · rintro ⟨hbody, f, hn, hname⟩
    refine List.mem_flatMap.2 ⟨j, mem_body.2 hbody, ?_⟩
    rw [declaredAt, hn]
    exact function_mem_declares.2 ⟨rfl, f, rfl, hname⟩

/-- A node declares one function at most. -/
theorem pairwise_functions_declares (n : Node) (j : Nat) :
    ((n.declares j).filterMap Declaration.function?).Pairwise (fun f g => f.2 < g.2) := by
  have hvars : ∀ decls : List Declarator,
      (decls.map (fun d => Declaration.var d.name)).filterMap Declaration.function? = [] := by
    intro decls
    rw [List.filterMap_map]
    exact List.filterMap_eq_nil_iff.2 fun _ _ => rfl
  cases n with
  | stmt s =>
      rw [Node.declares]
      unfold Stmt.declares
      split
      · rw [hvars]
        exact .nil
      · split
        · exact List.pairwise_singleton _ _
        · exact .nil
      · rw [hvars]
        exact .nil
      · exact .nil
      · exact .nil
  | _ => exact .nil

theorem pairwise_functions_body (t : IndexedTree) (i : Nat) :
    (((t.body i).flatMap t.declaredAt).filterMap Declaration.function?).Pairwise
      (fun f g => f.2 < g.2) := by
  have hfunction : ∀ j f, f ∈ (t.declaredAt j).filterMap Declaration.function? → f.2 = j := by
    intro j f hf
    obtain ⟨d, hd, heq⟩ := List.mem_filterMap.1 hf
    rw [Declaration.function?_eq_some.1 heq, declaredAt] at hd
    cases hn : t.node? j with
    | none => simp [hn] at hd
    | some n =>
        rw [hn] at hd
        exact (function_mem_declares.1 hd).1
  have hincreasing : (t.body i).Pairwise (· < ·) := List.Pairwise.filter _ List.pairwise_lt_range'
  rw [List.filterMap_flatMap, List.pairwise_flatMap]
  refine ⟨fun j _ => ?_, hincreasing.imp fun {a b} hab f hf g hg => ?_⟩
  · cases hn : t.node? j with
    | none => simp [declaredAt, hn]
    | some n =>
        rw [declaredAt, hn]
        exact pairwise_functions_declares n j
  · rwa [hfunction a f hf, hfunction b g hg]

theorem filter_vars_body (t : IndexedTree) (i : Nat) :
    (((t.body i).flatMap t.declaredAt).filterMap Declaration.var?).filter (· != argumentsName) =
      ((t.body i).flatMap t.varsAt).filter (· != argumentsName) := by
  rw [List.filterMap_flatMap, List.filter_flatMap, List.filter_flatMap]
  congr 1
  funext j
  cases hn : t.node? j with
  | none => simp [declaredAt, varsAt, hn]
  | some n =>
      rw [declaredAt, varsAt, hn]
      simp only [Option.elim_some]
      rw [Node.filterMap_declares, Node.filter_boundNames]

theorem hoists_ofList (t : IndexedTree) (i : Nat) :
    t.Hoists i (.ofList ((t.body i).flatMap t.declaredAt)) := by
  have hfunctions : ∀ {name j}, (name, j) ∈ (Declarations.ofList ((t.body i).flatMap t.declaredAt)).functions ↔
      t.DeclaresFunction i name j ∧ ∀ k, t.DeclaresFunction i name k → k ≤ j := by
    intro name j
    simp only [Declarations.mem_functions_ofList (pairwise_functions_body t i), function_mem_body]
  constructor
  · rw [Declarations.vars_ofList, ← eraseDups_filter, filter_vars_body]
  · rw [Declarations.vars_ofList]
    exact nodup_eraseDups _
  · exact fun name j => hfunctions
  · intro name
    simp only [Declarations.mem_names_ofList, function_mem_body]
  · exact Declarations.nodup_functions_ofList _
  · exact (pairwise_functions_body t i).sublist (Declarations.functions_ofList_sublist _)
  · intro name j hmem
    obtain ⟨⟨-, f, hn, hname⟩, -⟩ := hfunctions.1 hmem
    exact ⟨f, by rw [IndexedTree.func?, hn]; rfl, hname⟩

section

variable {ns : String} {base : Nat} {root : Func} {isProgram : Bool}

theorem declarations?_eq (h : (ofFunc ns base root isProgram).func? i = some f) :
    (ofFunc ns base root isProgram).declarations? i =
      some (.ofList (((ofFunc ns base root isProgram).body i).flatMap
        (ofFunc ns base root isProgram).declaredAt)) := by
  obtain ⟨n, hn, hf⟩ := Option.bind_eq_some_iff.1 h
  rw [declarations?, h, Option.map_some]
  exact congrArg (some ∘ Declarations.ofList) ((at_of_node? hn).declaredIn_eq hf)

/-- A function hoists exactly the declarations in its body. -/
theorem declarations_hoists (h : (ofFunc ns base root isProgram).func? i = some f) :
    ∃ d, (ofFunc ns base root isProgram).declarations? i = some d ∧
      (ofFunc ns base root isProgram).Hoists i d :=
  ⟨_, declarations?_eq h, hoists_ofList _ i⟩

/-- A function with declarations of both sorts, some of them repeated and some in another function. -/
def repeatedDeclarations : Func :=
  ⟨some "outer", ["p"], [
    .function ⟨some "inner", [], [.var [⟨"hidden", none⟩]]⟩,
    .forIn (.var "key") (.ident "p") (.block [.var [⟨"found", none⟩, ⟨"key", none⟩]]),
    .labeled "again" (.function ⟨some "inner", ["q"], []⟩)]⟩

theorem repeatedDeclarations_hoists :
    (ofFunc "hoisting" 7 repeatedDeclarations false).func? 7 = some repeatedDeclarations ∧
      (ofFunc "hoisting" 7 repeatedDeclarations false).declarations? 7 =
        some ⟨["key", "found"], [("inner", 18)]⟩ ∧
      (ofFunc "hoisting" 7 repeatedDeclarations false).Hoists 7 ⟨["key", "found"], [("inner", 18)]⟩ := by
  have hroot := (at_root "hoisting" 7 repeatedDeclarations false).func?
  have hvalue : (ofFunc "hoisting" 7 repeatedDeclarations false).declarations? 7 =
      some ⟨["key", "found"], [("inner", 18)]⟩ := by cbv
  obtain ⟨d, hd, hhoists⟩ := declarations_hoists hroot
  cases hvalue.symm.trans hd
  exact ⟨hroot, hvalue, hhoists⟩

/-! ## The argument list -/

/-- The head of a loop in the body of the function at `i` declares the variable. -/
def DeclaresInLoop (t : IndexedTree) (i : Nat) (name : String) : Prop :=
  ∃ j n, t.InBody i j ∧ t.node? j = some n ∧ name ∈ n.loopNames

theorem var_arguments_mem_body :
    .var argumentsName ∈ (t.body i).flatMap t.declaredAt ↔ t.DeclaresInLoop i argumentsName := by
  have hnode : ∀ (n : Node) (j : Nat), .var argumentsName ∈ n.declares j ↔ argumentsName ∈ n.loopNames := by
    intro n j
    rw [← Node.argumentsName_mem_boundNames, ← n.filterMap_declares j, List.mem_filterMap]
    simp [Declaration.var?_eq_some]
  constructor
  · intro h
    obtain ⟨j, hj, h⟩ := List.mem_flatMap.1 h
    cases hn : t.node? j with
    | none => simp [declaredAt, hn] at h
    | some n =>
        rw [declaredAt, hn] at h
        exact ⟨j, n, mem_body.1 hj, hn, (hnode n j).1 h⟩
  · rintro ⟨j, n, hbody, hn, h⟩
    refine List.mem_flatMap.2 ⟨j, mem_body.2 hbody, ?_⟩
    rw [declaredAt, hn]
    exact (hnode n j).2 h

/-- A function has a variable by the name of its argument list exactly if the head of a loop declares it:
`var` statements do not.  The name is bound to something else only by such a loop, a parameter or a function. -/
theorem argumentsName_mem_vars_iff (h : (ofFunc ns base root isProgram).func? i = some f) :
    ∃ d, (ofFunc ns base root isProgram).declarations? i = some d ∧
      (argumentsName ∈ d.vars ↔ (ofFunc ns base root isProgram).DeclaresInLoop i argumentsName) ∧
      (argumentsName ∈ d.names f.params ↔
        argumentsName ∈ f.params ∨ (ofFunc ns base root isProgram).DeclaresInLoop i argumentsName ∨
          ∃ j, (ofFunc ns base root isProgram).DeclaresFunction i argumentsName j) := by
  refine ⟨_, declarations?_eq h, ?_, ?_⟩
  · rw [Declarations.mem_vars_ofList, var_arguments_mem_body]
  · simp only [Declarations.mem_names, Declarations.mem_vars_ofList, var_arguments_mem_body,
      Declarations.mem_names_ofList, function_mem_body]

/-- A program with a loop over a variable that is named like the argument list. -/
def argumentsLoop : Func :=
  ⟨none, [], [.forLoop (.vars [⟨argumentsName, none⟩]) (some (.bool false)) none (.block [])]⟩

theorem argumentsLoop_mem_vars_iff :
    (ofFunc "loop" 0 argumentsLoop true).func? 0 = some argumentsLoop ∧
    ∃ d, (ofFunc "loop" 0 argumentsLoop true).declarations? 0 = some d ∧
      (argumentsName ∈ d.vars ↔ (ofFunc "loop" 0 argumentsLoop true).DeclaresInLoop 0 argumentsName) ∧
      (argumentsName ∈ d.names argumentsLoop.params ↔
        argumentsName ∈ argumentsLoop.params ∨
          (ofFunc "loop" 0 argumentsLoop true).DeclaresInLoop 0 argumentsName ∨
          ∃ j, (ofFunc "loop" 0 argumentsLoop true).DeclaresFunction 0 argumentsName j) :=
  have hroot := (at_root "loop" 0 argumentsLoop true).func?
  ⟨hroot, argumentsName_mem_vars_iff hroot⟩

/-- The loop makes a variable of the argument list. -/
theorem argumentsLoop_declarations :
    (ofFunc "loop" 0 argumentsLoop true).declarations? 0 = some ⟨[argumentsName], []⟩ := by cbv

end

end IndexedTree

end Resumption
