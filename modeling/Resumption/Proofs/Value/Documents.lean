import Mathlib.Data.List.Basic
import Resumption.Machine.Setup
import Resumption.Proofs.Match.Heap
import Resumption.Proofs.Value.Slots
import Resumption.Value.Json

/-!
# Documents are kept

The value of a document is built of new objects, and nothing older is touched.  So whatever is built
next to it later, it can be read back: the same document comes out, up to the order in which the
members of its objects stand.
-/

namespace Resumption

namespace Json

/-- All numbers are finite, and no object has two members of one name. -/
inductive Proper : Json → Prop
  | null : Proper .null
  | bool (b : Bool) : Proper (.bool b)
  | num {x : Float} (finite : x.isFinite = true) : Proper (.num x)
  | str (s : String) : Proper (.str s)
  | arr {items : List Json} (parts : ∀ j ∈ items, Proper j) : Proper (.arr items)
  | obj {members : List (String × Json)} (names : (members.map Prod.fst).Nodup)
      (parts : ∀ m ∈ members, Proper m.2) : Proper (.obj members)

/-- The documents are equal but for the order of the members of their objects. -/
inductive Same : Json → Json → Prop
  | null : Same .null .null
  | bool (b : Bool) : Same (.bool b) (.bool b)
  | num (x : Float) : Same (.num x) (.num x)
  | str (s : String) : Same (.str s) (.str s)
  | arr {items items' : List Json} (parts : List.Forall₂ Same items items') :
      Same (.arr items) (.arr items')
  | obj {members listed members' : List (String × Json)} (order : listed.Perm members')
      (names : members.map Prod.fst = listed.map Prod.fst)
      (parts : List.Forall₂ Same (members.map Prod.snd) (listed.map Prod.snd)) :
      Same (.obj members) (.obj members')

/-! ## Members at their places -/

theorem insert_perm {name : String} {members : List (String × Json)}
    (hfresh : name ∉ members.map Prod.fst) (j : Json) :
    (insert name j members).Perm ((name, j) :: members) := by
  induction members with
  | nil => exact .refl _
  | cons m members ih =>
      obtain ⟨n, k⟩ := m
      have hne : (name == n) = false :=
        beq_eq_false_iff_ne.2 fun h => hfresh (h ▸ List.mem_cons_self)
      rw [insert]
      split
      · exact .refl _
      · rw [hne]
        exact ((ih fun h => hfresh (List.mem_cons_of_mem _ h)).cons _).trans (.swap ..)

/-- Members with different names all find a place. -/
theorem object_perm {members : List (String × Json)} (hnames : (members.map Prod.fst).Nodup) :
    ∃ sorted, object members = .obj sorted ∧ members.Perm sorted := by
  refine ⟨_, rfl, ?_⟩
  -- The members that have their places already are carried along.
  suffices hgo : ∀ members sorted : List (String × Json), (members.map Prod.fst).Nodup →
      (∀ m ∈ members, m.1 ∉ sorted.map Prod.fst) →
      (members ++ sorted).Perm (members.foldl (fun sorted m => insert m.1 m.2 sorted) sorted) by
    have hperm := hgo members [] hnames fun _ _ => List.not_mem_nil
    rw [List.append_nil] at hperm
    exact hperm
  intro members
  induction members with
  | nil => exact fun sorted _ _ => .refl _
  | cons m members ih =>
      obtain ⟨n, v⟩ := m
      intro sorted hnames hfresh
      obtain ⟨hn, hnames⟩ := List.nodup_cons.1 hnames
      have hplace := insert_perm (hfresh (n, v) List.mem_cons_self) v
      have hrest : ∀ m ∈ members, m.1 ∉ (insert n v sorted).map Prod.fst := by
        intro m hm hmem
        rcases List.mem_cons.1 ((hplace.map Prod.fst).subset hmem) with heq | hmem
        · exact hn (heq ▸ List.mem_map_of_mem hm)
        · exact hfresh m (List.mem_cons_of_mem _ hm) hmem
      have hmiddle : (((n, v) :: members) ++ sorted).Perm (members ++ insert n v sorted) :=
        List.perm_middle.symm.trans (hplace.symm.append_left members)
      exact hmiddle.trans (ih _ hnames hrest)

end Json

namespace Heap

open Json

variable {h h' h₁ h₂ h₃ : Heap} {lo lo' n : Nat}

/-! ## What is built anew -/

/-- The objects below the address stay as they are. -/
structure Untouched (n : Nat) (h h' : Heap) : Prop where
  size_le : h.size ≤ h'.size
  object : ∀ a < n, h'.object a = h.object a

theorem Untouched.refl (n : Nat) (h : Heap) : Untouched n h h := ⟨Nat.le_refl _, fun _ _ => rfl⟩

theorem Untouched.trans (h₁₂ : Untouched n h₁ h₂) (h₂₃ : Untouched n h₂ h₃) : Untouched n h₁ h₃ :=
  ⟨Nat.le_trans h₁₂.size_le h₂₃.size_le, fun a ha => (h₂₃.object a ha).trans (h₁₂.object a ha)⟩

theorem Untouched.mono (h₁₂ : Untouched n h₁ h₂) {k : Nat} (hk : k ≤ n) : Untouched k h₁ h₂ :=
  ⟨h₁₂.size_le, fun a ha => h₁₂.object a (Nat.lt_of_lt_of_le ha hk)⟩

theorem untouched_alloc (h : Heap) (o : Object) : Untouched h.size h (h.alloc o).2 where
  size_le := by rw [size_alloc]; exact Nat.le_succ _
  object a ha := by rw [object_alloc, if_neg (Nat.ne_of_lt ha)]

theorem untouched_modify (h : Heap) (a : Address) (g : Object → Object) :
    Untouched a h (h.modify a g) where
  size_le := Nat.le_of_eq (size_modify h a g).symm
  object _ hb := object_modify_of_ne h g (Nat.ne_of_lt hb)

mutual

theorem untouched_ofJson (h : Heap) : ∀ j, Untouched h.size h (h.ofJson j).2
  | .null | .bool _ | .num _ | .str _ => .refl _ h
  | .arr items => by
      rw [ofJson]
      have hitems := untouched_ofJsonItems h items
      exact hitems.trans ((untouched_alloc _ _).mono hitems.size_le)
  | .obj members => by
      rw [ofJson]
      exact (untouched_alloc h _).trans (untouched_ofJsonMembers _ h.size members
        (by rw [size_alloc]; exact Nat.lt_succ_self _))

theorem untouched_ofJsonItems (h : Heap) : ∀ items, Untouched h.size h (ofJsonItems h items).2
  | [] => .refl _ h
  | j :: rest => by
      rw [ofJsonItems]
      have hfirst := untouched_ofJson h j
      exact hfirst.trans ((untouched_ofJsonItems _ rest).mono hfirst.size_le)

theorem untouched_ofJsonMember (h : Heap) (a : Address) (ha : a < h.size) :
    ∀ m, Untouched a h (ofJsonMember h a m)
  | (name, j) => by
      rw [ofJsonMember]
      exact ((untouched_ofJson h j).mono (Nat.le_of_lt ha)).trans (untouched_modify _ a _)

theorem untouched_ofJsonMembers (h : Heap) (a : Address) :
    ∀ members, a < h.size → Untouched a h (ofJsonMembers h a members)
  | [], _ => .refl _ h
  | m :: rest, ha => by
      rw [ofJsonMembers]
      have hfirst := untouched_ofJsonMember h a ha m
      exact hfirst.trans (untouched_ofJsonMembers _ a rest (Nat.lt_of_lt_of_le ha hfirst.size_le))

end

mutual

/-- A document takes as many new objects as it is deep, if not more. -/
theorem depth_le_ofJson (h : Heap) : ∀ j, h.size + j.depth ≤ (h.ofJson j).2.size + 1
  | .null | .bool _ | .num _ | .str _ => Nat.le_refl _
  | .arr items => by
      have hitems := depth_le_ofJsonItems h items
      rw [ofJson, depth]
      dsimp only
      rw [size_alloc]
      omega
  | .obj members => by
      have hmembers := depth_le_ofJsonMembers (h.alloc (.new .plain (some Intrinsic.objectProto))).2
        h.size members (by rw [size_alloc]; exact Nat.lt_succ_self _)
      rw [size_alloc] at hmembers
      rw [ofJson, depth]
      change _ ≤ (ofJsonMembers _ h.size members).size + 1
      omega

theorem depth_le_ofJsonItems (h : Heap) :
    ∀ items, h.size + listDepth items ≤ (ofJsonItems h items).2.size + 1
  | [] => Nat.le_succ _
  | j :: rest => by
      have hfirst := depth_le_ofJson h j
      have hrest := depth_le_ofJsonItems (h.ofJson j).2 rest
      have hle := (untouched_ofJson h j).size_le
      have hle' := (untouched_ofJsonItems (h.ofJson j).2 rest).size_le
      rw [ofJsonItems, listDepth]
      dsimp only
      omega

theorem depth_le_ofJsonMember (h : Heap) (a : Address) :
    ∀ m, h.size + memberDepth m ≤ (ofJsonMember h a m).size + 1
  | (name, j) => by
      rw [ofJsonMember, memberDepth]
      dsimp only
      rw [size_modify]
      exact depth_le_ofJson h j

theorem depth_le_ofJsonMembers (h : Heap) (a : Address) :
    ∀ members, a < h.size → h.size + membersDepth members ≤ (ofJsonMembers h a members).size + 1
  | [], _ => Nat.le_succ _
  | m :: rest, ha => by
      have hfirst := depth_le_ofJsonMember h a m
      have hle := (untouched_ofJsonMember h a ha m).size_le
      have ha' := Nat.lt_of_lt_of_le ha hle
      have hrest := depth_le_ofJsonMembers (ofJsonMember h a m) a rest ha'
      have hle' := (untouched_ofJsonMembers (ofJsonMember h a m) a rest ha').size_le
      rw [ofJsonMembers, membersDepth]
      omega

end

/-! ## Values that stand for documents -/

mutual

/-- The value stands for the document, by objects from an address on. -/
inductive Holds (h : Heap) (lo : Nat) : Value → Json → Prop
  | null : Holds h lo .null .null
  | bool (b : Bool) : Holds h lo (.bool b) (.bool b)
  | num (x : Float) : Holds h lo (.num x) (.num x)
  | str (s : String) : Holds h lo (.str s) (.str s)
  | arr {a : Address} {values : List Value} {items : List Json} (new : lo ≤ a) (made : a < h.size)
      (kind : (h.object a).kind = .array values.toArray) (parts : HoldsItems h lo values items) :
      Holds h lo (.object a) (.arr items)
  | obj {a : Address} {members : List (String × Json)} (new : lo ≤ a) (made : a < h.size)
      (kind : (h.object a).kind = .plain) (parts : HoldsMembers h lo (h.object a).props members) :
      Holds h lo (.object a) (.obj members)

inductive HoldsItems (h : Heap) (lo : Nat) : List Value → List Json → Prop
  | nil : HoldsItems h lo [] []
  | cons {v : Value} {j : Json} {values : List Value} {items : List Json} (head : Holds h lo v j)
      (tail : HoldsItems h lo values items) : HoldsItems h lo (v :: values) (j :: items)

inductive HoldsMembers (h : Heap) (lo : Nat) :
    List (String × Slot) → List (String × Json) → Prop
  | nil : HoldsMembers h lo [] []
  | cons {name : String} {v : Value} {j : Json} {props : List (String × Slot)}
      {members : List (String × Json)} (head : Holds h lo v j)
      (tail : HoldsMembers h lo props members) :
      HoldsMembers h lo ((name, .data v) :: props) ((name, j) :: members)

end

/-- From an address on the objects are the same, as far as there are any. -/
structure Agrees (lo : Nat) (h h' : Heap) : Prop where
  size_le : h.size ≤ h'.size
  object : ∀ a, lo ≤ a → a < h.size → h'.object a = h.object a

theorem Agrees.refl (lo : Nat) (h : Heap) : Agrees lo h h := ⟨Nat.le_refl _, fun _ _ _ => rfl⟩

theorem Untouched.agrees (hh : Untouched h.size h h') (lo : Nat) : Agrees lo h h' :=
  ⟨hh.size_le, fun a _ ha => hh.object a ha⟩

mutual

theorem Holds.mono (hh : Agrees lo h h') (hlo : lo' ≤ lo) :
    ∀ {v j}, Holds h lo v j → Holds h' lo' v j
  | _, _, .null => .null
  | _, _, .bool b => .bool b
  | _, _, .num x => .num x
  | _, _, .str s => .str s
  | _, _, .arr new made kind parts =>
      .arr (Nat.le_trans hlo new) (Nat.lt_of_lt_of_le made hh.size_le)
        (by rw [hh.object _ new made, kind]) (parts.mono hh hlo)
  | _, _, .obj new made kind parts =>
      .obj (Nat.le_trans hlo new) (Nat.lt_of_lt_of_le made hh.size_le)
        (by rw [hh.object _ new made, kind])
        (by rw [hh.object _ new made]; exact parts.mono hh hlo)

theorem HoldsItems.mono (hh : Agrees lo h h') (hlo : lo' ≤ lo) :
    ∀ {values items}, HoldsItems h lo values items → HoldsItems h' lo' values items
  | _, _, .nil => .nil
  | _, _, .cons head tail => .cons (head.mono hh hlo) (tail.mono hh hlo)

theorem HoldsMembers.mono (hh : Agrees lo h h') (hlo : lo' ≤ lo) :
    ∀ {props members}, HoldsMembers h lo props members → HoldsMembers h' lo' props members
  | _, _, .nil => .nil
  | _, _, .cons head tail => .cons (head.mono hh hlo) (tail.mono hh hlo)

end

theorem HoldsMembers.names {props : List (String × Slot)} {members : List (String × Json)}
    (hm : HoldsMembers h lo props members) : props.map Prod.fst = members.map Prod.fst := by
  match hm with
  | .nil => rfl
  | .cons _ tail => rw [List.map_cons, List.map_cons, tail.names]

theorem HoldsMembers.concat {props : List (String × Slot)} {members : List (String × Json)}
    (hm : HoldsMembers h lo props members) {v : Value} {j : Json} (name : String)
    (hv : Holds h lo v j) : HoldsMembers h lo (props ++ [(name, .data v)]) (members ++ [(name, j)]) := by
  match hm with
  | .nil => exact .cons hv .nil
  | .cons head tail => exact .cons head (tail.concat name hv)

mutual

/-- What is built stands for its document, by new objects. -/
theorem holds_ofJson (h : Heap) : ∀ {j}, j.Proper → Holds (h.ofJson j).2 h.size (h.ofJson j).1 j
  | .null, _ => .null
  | .bool b, _ => .bool b
  | .num x, _ => .num x
  | .str s, _ => .str s
  | .arr items, .arr parts => by
      have hitems := holds_ofJsonItems h items parts
      have hle := (untouched_ofJsonItems h items).size_le
      rw [ofJson]
      refine .arr hle (by rw [size_alloc]; exact Nat.lt_succ_self _) ?_
        (hitems.mono ((untouched_alloc _ _).agrees _) (Nat.le_refl _))
      change ((alloc _ _).2.object (ofJsonItems h items).2.size).kind = _
      rw [object_alloc, if_pos rfl]
      rfl
  | .obj members, .obj names parts => by
      have hnew : (h.alloc (.new .plain (some Intrinsic.objectProto))).2.object h.size =
          .new .plain (some Intrinsic.objectProto) := by
        rw [object_alloc, if_pos rfl]
      rw [ofJson]
      obtain ⟨hkind, hmembers⟩ := holds_ofJsonMembers (h.alloc (.new .plain (some Intrinsic.objectProto))).2
        h.size (by rw [size_alloc]; exact Nat.lt_succ_self _) [] members parts names (by rw [hnew]; rfl)
        (by rw [hnew]; exact .nil)
      have hle := (untouched_ofJsonMembers (h.alloc (.new .plain (some Intrinsic.objectProto))).2 h.size
        members (by rw [size_alloc]; exact Nat.lt_succ_self _)).size_le
      rw [size_alloc] at hle
      exact .obj (Nat.le_refl _) hle hkind
        (hmembers.mono (.refl _ _) (Nat.le_succ _))

theorem holds_ofJsonItems (h : Heap) : ∀ items, (∀ j ∈ items, Proper j) →
    HoldsItems (ofJsonItems h items).2 h.size (ofJsonItems h items).1 items
  | [], _ => .nil
  | j :: rest, parts => by
      have hfirst := holds_ofJson h (parts j List.mem_cons_self)
      have hrest := holds_ofJsonItems (h.ofJson j).2 rest fun k hk => parts k (List.mem_cons_of_mem _ hk)
      rw [ofJsonItems]
      exact .cons (hfirst.mono ((untouched_ofJsonItems _ rest).agrees _) (Nat.le_refl _))
        (hrest.mono (.refl _ _) (untouched_ofJson h j).size_le)

/-- One more member is set; the objects behind the one under construction stay. -/
theorem holds_ofJsonMember (h : Heap) (a : Address) (ha : a < h.size)
    {done : List (String × Json)} (hplain : (h.object a).kind = .plain)
    (hdone : HoldsMembers h (a + 1) (h.object a).props done) :
    ∀ m : String × Json, Proper m.2 → m.1 ∉ done.map Prod.fst →
      ((ofJsonMember h a m).object a).kind = .plain ∧
        HoldsMembers (ofJsonMember h a m) (a + 1) ((ofJsonMember h a m).object a).props (done ++ [m])
  | (name, j), hproper, hname => by
      have hvalue := holds_ofJson h hproper
      have hbuilt := untouched_ofJson h j
      have hlt := Nat.lt_of_lt_of_le ha hbuilt.size_le
      have hset : (ofJsonMember h a (name, j)).object a =
          { h.object a with props := (h.object a).props ++ [(name, .data (h.ofJson j).1)] } := by
        have hnot : (h.object a).isArray = false := by rw [Object.isArray, Object.elements?, hplain]; rfl
        rw [ofJsonMember]
        change ((h.ofJson j).2.modify a _).object a = _
        rw [object_modify _ _ _ _ hlt, if_pos rfl, hbuilt.object a ha, Object.setOwn_of_not_isArray hnot,
          Props.set_of_not_mem (by rwa [hdone.names])]
      have hrest : Agrees (a + 1) (h.ofJson j).2 (ofJsonMember h a (name, j)) := by
        refine ⟨Nat.le_of_eq (size_modify _ a _).symm, fun b hb _ => ?_⟩
        exact object_modify_of_ne _ _ (Nat.ne_of_gt hb)
      rw [hset]
      refine ⟨hplain, HoldsMembers.concat ?_ name ((hvalue.mono (.refl _ _) ha).mono hrest (Nat.le_refl _))⟩
      exact (hdone.mono (hbuilt.agrees _) (Nat.le_refl _)).mono hrest (Nat.le_refl _)

theorem holds_ofJsonMembers (h : Heap) (a : Address) (ha : a < h.size) (done : List (String × Json)) :
    ∀ members, (∀ m ∈ members, Proper m.2) → ((done ++ members).map Prod.fst).Nodup →
      (h.object a).kind = .plain → HoldsMembers h (a + 1) (h.object a).props done →
      ((ofJsonMembers h a members).object a).kind = .plain ∧
        HoldsMembers (ofJsonMembers h a members) (a + 1) ((ofJsonMembers h a members).object a).props
          (done ++ members)
  | [], _, _, hplain, hdone => by
      rw [List.append_nil]
      exact ⟨hplain, hdone⟩
  | m :: rest, parts, names, hplain, hdone => by
      have hname : m.1 ∉ done.map Prod.fst := by
        rw [List.map_append, List.map_cons] at names
        exact fun hmem => (List.nodup_append.1 names).2.2 _ hmem _ List.mem_cons_self rfl
      obtain ⟨hkind, hmember⟩ := holds_ofJsonMember h a ha hplain hdone m (parts m List.mem_cons_self) hname
      have hgo := holds_ofJsonMembers (ofJsonMember h a m) a
        (Nat.lt_of_lt_of_le ha (untouched_ofJsonMember h a ha m).size_le) (done ++ [m]) rest
        (fun k hk => parts k (List.mem_cons_of_mem _ hk)) (by simpa using names) hkind hmember
      rw [ofJsonMembers]
      simpa using hgo

end

/-! ## Reading back -/

/-- The values among slots, with their keys. -/
def dataOf (props : List (String × Slot)) : List (String × Value) :=
  props.filterMap fun p => match p.2 with
    | .data v => some (p.1, v)
    | .accessor _ _ => none

theorem entries_eq_dataOf {o : Object} (hkind : o.isArray = false) (hnames : (o.props.map Prod.fst).Nodup) :
    o.entries = dataOf o.props := by
  rw [Object.entries, Object.keys_of_not_isArray hkind, List.filterMap_map, dataOf]
  refine List.filterMap_congr fun p hp => ?_
  have hown : o.own? p.1 = some p.2 := by
    rw [Object.own?_of_not_isArray hkind]
    exact Props.get?_of_mem hnames hp
  obtain ⟨key, slot⟩ := p
  rw [Function.comp_apply, Object.getOwn?, hown]
  cases slot <;> rfl

mutual

/-- A value that stands for a document is read as this document. -/
theorem Holds.read : ∀ {v j}, Holds h lo v j → j.Proper → ∀ {d}, j.depth ≤ d →
    ∃ j', h.toJsonTo? d v = some j' ∧ j.Same j'
  | _, _, .null, _, d, _ => ⟨.null, by rw [toJsonTo?], .null⟩
  | _, _, .bool b, _, d, _ => ⟨.bool b, by rw [toJsonTo?], .bool b⟩
  | _, _, .num x, .num finite, d, _ => ⟨.num x, by rw [toJsonTo?, if_pos finite], .num x⟩
  | _, _, .str s, _, d, _ => ⟨.str s, by rw [toJsonTo?], .str s⟩
  | _, _, .arr _ _ kind parts, .arr proper, d, hd => by
      obtain ⟨d, rfl⟩ : ∃ k, d = k + 1 := ⟨d - 1, by rw [depth] at hd; omega⟩
      obtain ⟨items', hread, hsame⟩ := parts.read proper (d := d) (by rw [depth] at hd; omega)
      refine ⟨.arr items', ?_, .arr hsame⟩
      rw [toJsonTo?, kind]
      dsimp only
      rw [hread]
      rfl
  | .object a, _, .obj _ _ kind parts, .obj names proper, d, hd => by
      obtain ⟨d, rfl⟩ : ∃ k, d = k + 1 := ⟨d - 1, by rw [depth] at hd; omega⟩
      obtain ⟨listed, hread, hnames, hsame⟩ := parts.read proper (d := d) (by rw [depth] at hd; omega)
      have hlisted : (listed.map Prod.fst).Nodup := hnames ▸ names
      obtain ⟨sorted, hsorted, hperm⟩ := object_perm hlisted
      refine ⟨.obj sorted, ?_, .obj hperm hnames hsame⟩
      have hnot : (h.object a).isArray = false := by rw [Object.isArray, Object.elements?, kind]; rfl
      rw [toJsonTo?, kind]
      dsimp only
      rw [entries_eq_dataOf hnot (by rw [parts.names]; exact names), hread, ← hsorted]
      rfl

theorem HoldsItems.read : ∀ {values items}, HoldsItems h lo values items →
    (∀ j ∈ items, Proper j) → ∀ {d}, listDepth items ≤ d →
    ∃ items', values.mapM (toJsonTo? h d) = some items' ∧ List.Forall₂ Json.Same items items'
  | _, _, .nil, _, _, _ => ⟨[], rfl, .nil⟩
  | _, _, .cons head tail, proper, d, hd => by
      rw [listDepth] at hd
      obtain ⟨j', hhead, hfirst⟩ := head.read (proper _ List.mem_cons_self) (d := d) (by omega)
      obtain ⟨items', htail, hrest⟩ :=
        tail.read (fun k hk => proper k (List.mem_cons_of_mem _ hk)) (d := d) (by omega)
      refine ⟨j' :: items', ?_, .cons hfirst hrest⟩
      rw [List.mapM_cons, hhead, htail]
      rfl

theorem HoldsMembers.read : ∀ {props members}, HoldsMembers h lo props members →
    (∀ m ∈ members, Proper m.2) → ∀ {d}, membersDepth members ≤ d →
    ∃ listed, (dataOf props).mapM (fun (k, v) => do return (k, ← h.toJsonTo? d v)) = some listed ∧
      members.map Prod.fst = listed.map Prod.fst ∧
      List.Forall₂ Json.Same (members.map Prod.snd) (listed.map Prod.snd)
  | _, _, .nil, _, _, _ => ⟨[], rfl, rfl, .nil⟩
  | (name, .data v) :: props, _ :: _, .cons head tail, proper, d, hd => by
      rw [membersDepth, memberDepth] at hd
      obtain ⟨j', hhead, hfirst⟩ := head.read (proper _ List.mem_cons_self) (d := d) (by omega)
      obtain ⟨listed, htail, hnames, hrest⟩ :=
        tail.read (fun k hk => proper k (List.mem_cons_of_mem _ hk)) (d := d) (by omega)
      refine ⟨(name, j') :: listed, ?_, congrArg (name :: ·) hnames, .cons hfirst hrest⟩
      change ((name, v) :: dataOf props).mapM _ = _
      rw [List.mapM_cons, htail]
      dsimp only
      rw [hhead]
      rfl

end

/-- The heap with the values of some more documents. -/
def building (h : Heap) (documents : List Json) : Heap :=
  documents.foldl (fun h j => (h.ofJson j).2) h

theorem untouched_building (h : Heap) (documents : List Json) :
    Untouched h.size h (h.building documents) := by
  induction documents generalizing h with
  | nil => exact .refl _ h
  | cons j documents ih =>
      have hfirst := untouched_ofJson h j
      exact hfirst.trans ((ih (h.ofJson j).2).mono hfirst.size_le)

/-- Whatever the heap was, the value built for a document is read as the same document, and it still is
after any number of documents that came later. -/
theorem toJson?_building_ofJson (h : Heap) {j : Json} (hj : j.Proper) (later : List Json) :
    ∃ j', ((h.ofJson j).2.building later).toJson? (h.ofJson j).1 = some j' ∧ j.Same j' := by
  have hlater := untouched_building (h.ofJson j).2 later
  have hholds := (holds_ofJson h hj).mono (hlater.agrees _) (Nat.le_refl _)
  have hdepth := depth_le_ofJson h j
  have hle := hlater.size_le
  exact hholds.read hj (by omega)

/-- A document whose keys look like positions or like properties that some objects have by themselves. -/
def oddDocument : Json :=
  .obj [("", .arr [.num 0.5, .arr [], .obj []]), ("0", .null), ("length", .num 3),
    ("prototype", .obj [("0", .bool true)])]

theorem proper_oddDocument : oddDocument.Proper := by
  refine .obj (by decide) fun m hm => ?_
  simp only [List.mem_cons, List.not_mem_nil, or_false] at hm
  rcases hm with rfl | rfl | rfl | rfl
  · refine .arr fun j hj => ?_
    simp only [List.mem_cons, List.not_mem_nil, or_false] at hj
    rcases hj with rfl | rfl | rfl
    · exact .num (by decide)
    · exact .arr nofun
    · exact .obj .nil nofun
  · exact .null
  · exact .num (by decide)
  · refine .obj (by decide) fun m hm => ?_
    rw [List.mem_singleton.1 hm]
    exact .bool true

theorem toJson?_building_ofJson_odd : oddDocument.Proper ∧
    ∃ j', ((Setup.heap.ofJson oddDocument).2.building [.arr [oddDocument], .null]).toJson?
      (Setup.heap.ofJson oddDocument).1 = some j' ∧ oddDocument.Same j' :=
  ⟨proper_oddDocument, toJson?_building_ofJson Setup.heap proper_oddDocument [.arr [oddDocument], .null]⟩

end Heap

end Resumption
