import Resumption.Proofs.Resuming
import Resumption.Proofs.Sound.Host
import Resumption.Proofs.Value.Documents

/-!
# Copies of continuations

A copy of a continuation shows the same variables in each of its frames.  The variables of the function and
of the `catch` clauses in it have been copied; those of the functions around it have not, even if one of them
has a frame in the continuation, too.  So the copies of two frames share no variable, and a variable around
the function is the one of the original.
-/

namespace Resumption

variable {h h' h₀ h₁ h₂ : Heap} {n : Nat} {a : Address} {name : String} {c c' : Chain} {link link' : Link}
  {f f' : Frame}

/-! ## Lookups that go on below an address -/

namespace Chain

theorem recordOf?_eq_find? (h : Heap) (name : String) (c : Chain) :
    recordOf? h name c = (List.find? (Link.binds h name) c).map Link.record := by
  induction c with
  | nil => rfl
  | cons link c ih =>
      rw [recordOf?] at ih ⊢
      rw [find?, List.find?_cons]
      cases link.binds h name with
      | true => rfl
      | false => exact ih

theorem recordOf?_append (h : Heap) (name : String) (c d : Chain) :
    recordOf? h name (c ++ d) = (recordOf? h name c).or (recordOf? h name d) := by
  rw [recordOf?_eq_find?, recordOf?_eq_find?, recordOf?_eq_find?, List.find?_append, Option.map_or]

end Chain

namespace Heap

theorem find?_of_proto (hproto : (h.object a).proto = none) (key : String) :
    h.find? key a = (h.object a).own? key := by
  have hnone : h.proto? a = none := by rw [proto?, hproto]; rfl
  rw [find?]
  split
  · rename_i hown
    exact hown.symm
  · rename_i hown
    split
    · rename_i hsome
      rw [hnone] at hsome
      cases hsome
    · exact hown.symm

namespace Untouched

/-- Objects inherit from older ones, so they have what they had. -/
theorem find? (hh : Untouched n h h') (key : String) (a : Address) (ha : a < n) :
    h'.find? key a = h.find? key a := by
  induction a using Nat.strongRecOn with
  | ind a ih =>
      have hproto : h'.proto? a = h.proto? a := by rw [proto?, proto?, hh.object a ha]
      rw [Heap.find?, Heap.find?.eq_def h, hh.object a ha]
      split
      · rfl
      · split
        · rename_i p hp
          have hlt := proto?_lt hp
          rw [hproto] at hp
          split
          · rename_i q hq
            cases hp.symm.trans hq
            exact ih p hlt (Nat.lt_trans hlt ha)
          · rename_i hnone
            cases hp.symm.trans hnone
        · rename_i hnone
          rw [hproto] at hnone
          split
          · rename_i q hq
            cases hnone.symm.trans hq
          · rfl

theorem binds (hh : Untouched n h h') (hlink : link.record < n) (name : String) :
    link.binds h' name = link.binds h name := by
  rw [Link.binds, Link.binds, hasProperty, hasProperty, hh.find? name _ hlink, hh.object _ hlink]

theorem findData? (hh : Untouched n h h') (ha : a < n) (name : String) :
    h'.findData? name a = h.findData? name a := by
  rw [Heap.findData?, Heap.findData?, hh.find? name a ha]

theorem recordOf? (hh : Untouched n h h') (hc : ∀ link ∈ c, link.record < n) (name : String) :
    Chain.recordOf? h' name c = Chain.recordOf? h name c := by
  rw [Chain.recordOf?_eq_find?, Chain.recordOf?_eq_find?]
  congr 1
  induction c with
  | nil => rfl
  | cons link c ih =>
      rw [List.find?_cons, List.find?_cons, hh.binds (hc link List.mem_cons_self),
        ih fun l hl => hc l (List.mem_cons_of_mem _ hl)]

end Untouched

end Heap

/-! ## Records -/

/-- The object holds values and nothing else, and it inherits from nothing. -/
structure Object.HoldsValues (o : Object) : Prop where
  kind : o.kind = .plain
  proto : o.proto = none
  data : ∀ p ∈ o.props, ∃ v, p.2 = .data v

namespace Object

/-- Whether an object holds values and nothing else. -/
def isValues : Object → Bool
  | ⟨.plain, none, props⟩ => props.all fun p => match p.2 with
    | .data _ => true
    | .accessor _ _ => false
  | _ => false

theorem holdsValues_of_isValues {o : Object} (h : o.isValues = true) : o.HoldsValues := by
  obtain ⟨kind, proto, props⟩ := o
  unfold isValues at h
  split at h
  · rename_i heq
    cases heq
    refine ⟨rfl, rfl, fun p hp => ?_⟩
    have hdata := List.all_eq_true.1 h p hp
    split at hdata
    · exact ⟨_, ‹_›⟩
    · cases hdata
  · cases h

theorem own?_of_plain {o : Object} (ho : o.kind = .plain) (name : String) :
    o.own? name = Props.get? name o.props := by
  rw [own?, ho]

theorem own?_setOwn_of_plain {o : Object} (ho : o.kind = .plain) (key name : String) (v : Value) :
    (o.setOwn key v).own? name = if key == name then some (.data v) else o.own? name := by
  obtain ⟨kind, proto, props⟩ := o
  cases ho
  exact Props.get?_set key name _ props

/-- The values that a record is filled with. -/
theorem own?_foldl_setOwn {value : String → Option Value} (entries : List (String × Value)) {o : Object}
    (ho : o.kind = .plain) (hentries : ∀ e ∈ entries, value e.1 = some e.2) (name : String) :
    (entries.foldl (fun (o : Object) e => o.setOwn e.1 e.2) o).own? name =
      if name ∈ entries.map Prod.fst then (value name).map .data else o.own? name := by
  induction entries generalizing o with
  | nil => simp
  | cons e entries ih =>
      have hrest := ih (kind_setOwn ho e.1 e.2) fun e' he' => hentries e' (List.mem_cons_of_mem _ he')
      rw [List.foldl_cons, hrest, own?_setOwn_of_plain ho]
      by_cases hname : e.1 = name
      · subst hname
        simp [hentries e List.mem_cons_self]
      · have hmem : name ∈ (e :: entries).map Prod.fst ↔ name ∈ entries.map Prod.fst := by
          simp [Ne.symm hname]
        simp only [hmem, beq_iff_eq, hname, if_false]

/-- A copy has what the record has. -/
theorem HoldsValues.own?_copy {o : Object} (ho : o.HoldsValues) (name : String) :
    (o.entries.foldl (fun (o : Object) e => o.setOwn e.1 e.2) (.new .plain none)).own? name =
      o.own? name := by
  have hentries : ∀ e ∈ o.entries, o.getOwn? e.1 = some e.2 := fun e he => by
    obtain ⟨k, -, hk⟩ := List.mem_filterMap.1 he
    obtain ⟨v, hv, rfl⟩ := Option.map_eq_some_iff.1 hk
    exact hv
  rw [own?_foldl_setOwn o.entries rfl hentries]
  cases hown : o.own? name with
  | none =>
      have hmissing : name ∉ o.entries.map Prod.fst := fun hmem => by
        obtain ⟨e, he, rfl⟩ := List.mem_map.1 hmem
        have hvalue := hentries e he
        rw [getOwn?, hown] at hvalue
        cases hvalue
      rw [if_neg hmissing]
      rfl
  | some slot =>
      rw [own?_of_plain ho.kind] at hown
      obtain ⟨v, hv⟩ := ho.data _ (Props.mem_of_get? hown)
      cases hv
      have hvalue : o.getOwn? name = some v := by rw [getOwn?, own?_of_plain ho.kind, hown]
      have hkey : name ∈ o.keys := by
        rw [keys, ho.kind]
        exact List.mem_map_of_mem (Props.mem_of_get? hown)
      have hmem : name ∈ o.entries.map Prod.fst :=
        List.mem_map.2 ⟨(name, v), List.mem_filterMap.2 ⟨name, hkey, by rw [hvalue]; rfl⟩, rfl⟩
      rw [if_pos hmem, hvalue]
      rfl

theorem proto_foldl_setOwn (entries : List (String × Value)) (o : Object) :
    (entries.foldl (fun (o : Object) e => o.setOwn e.1 e.2) o).proto = o.proto := by
  induction entries generalizing o with
  | nil => rfl
  | cons e entries ih => rw [List.foldl_cons, ih, proto_setOwn]

end Object

/-! ## Links and their copies -/

/-- The link of a copy binds the same names to the same values.  Its record is a new one, unless it is the
object of a `with`. -/
structure Link.Doubles (h h' : Heap) (link link' : Link) : Prop where
  kind : link'.kind = link.kind
  binds : ∀ name, link'.binds h' name = link.binds h name
  value : ∀ name, h'.findData? name link'.record = h.findData? name link.record
  shared : link.kind = .withObject → link'.record = link.record
  fresh : link.kind ≠ .withObject → h.size ≤ link'.record
  made : link'.record < h'.size

/-- Where records of links are, and what they hold. -/
structure Link.Settled (h : Heap) (link : Link) : Prop where
  made : link.record < h.size
  values : link.kind ≠ .withObject → (h.object link.record).HoldsValues

theorem Link.Doubles.mono (h₁₂ : h₁.Untouched h₁.size h₂) (hl : link.Doubles h h₁ link') :
    link.Doubles h h₂ link' :=
  { hl with
    binds := fun name => (h₁₂.binds hl.made name).trans (hl.binds name)
    value := fun name => (h₁₂.findData? hl.made name).trans (hl.value name)
    made := Nat.lt_of_lt_of_le hl.made h₁₂.size_le }

namespace Frame

open Heap (Untouched)

theorem untouched_copyArray (h : Heap) (v : Value) : Untouched h.size h (copyArray h v).2 := by
  unfold copyArray
  split
  · split
    · exact Heap.untouched_alloc h _
    · exact .refl _ h
  · exact .refl _ h

theorem untouched_copyCache (h : Heap) (cache : Cache) : Untouched h.size h (copyCache h cache).2 := by
  induction cache generalizing h with
  | nil => exact .refl _ h
  | cons e cache ih =>
      have hfirst := untouched_copyArray h e.2
      exact hfirst.trans ((ih _).mono hfirst.size_le)

theorem untouched_copyRecord (h : Heap) (a : Address) : Untouched h.size h (copyRecord h a).2 :=
  Heap.untouched_alloc h _

/-- The record of a function or of a `catch` is copied. -/
theorem doubles_copyRecord {kind : LinkKind} (hh : Untouched h.size h h₀) (hl : Link.Settled h ⟨kind, a⟩)
    (hkind : kind ≠ .withObject) :
    Link.Doubles h (copyRecord h₀ a).2 ⟨kind, a⟩ ⟨kind, (copyRecord h₀ a).1⟩ := by
  have hvalues := hl.values hkind
  have hcopy : (copyRecord h₀ a).2.object (copyRecord h₀ a).1 =
      (h.object a).entries.foldl (fun (o : Object) e => o.setOwn e.1 e.2) (.new .plain none) := by
    rw [← hh.object _ hl.made]
    exact (Heap.object_alloc h₀ _ _).trans (if_pos rfl)
  have hproto : ((copyRecord h₀ a).2.object (copyRecord h₀ a).1).proto = none := by
    rw [hcopy, Object.proto_foldl_setOwn]
    rfl
  have hown : ∀ name, ((copyRecord h₀ a).2.object (copyRecord h₀ a).1).own? name =
      (h.object a).own? name := fun name => by rw [hcopy, hvalues.own?_copy]
  exact {
    kind := rfl
    binds := fun name => by
      cases kind with
      | withObject => exact absurd rfl hkind
      | function | handler => exact congrArg Option.isSome (hown name)
    value := fun name => by
      rw [Heap.findData?, Heap.findData?, Heap.find?_of_proto hproto, Heap.find?_of_proto hvalues.proto, hown]
    shared := fun hobject => absurd hobject hkind
    fresh := fun _ => hh.size_le
    made := by
      change h₀.size < (h₀.alloc _).2.size
      rw [Heap.size_alloc]
      exact Nat.lt_succ_self _ }

theorem doubles_copyLinks {links : List Link} (hh : Untouched h.size h h₀)
    (hlinks : ∀ link ∈ links, link.Settled h) :
    Untouched h₀.size h₀ (copyLinks h₀ links).2 ∧
      List.Forall₂ (Link.Doubles h (copyLinks h₀ links).2) links (copyLinks h₀ links).1 := by
  induction links generalizing h₀ with
  | nil => exact ⟨.refl _ h₀, .nil⟩
  | cons link links ih =>
      have hl := hlinks link List.mem_cons_self
      have hstep : ∃ r : Address × Heap, copyLinks h₀ (link :: links) =
          (⟨link.kind, r.1⟩ :: (copyLinks r.2 links).1, (copyLinks r.2 links).2) ∧
            Untouched h₀.size h₀ r.2 ∧ link.Doubles h r.2 ⟨link.kind, r.1⟩ := by
        obtain ⟨kind, record⟩ := link
        cases kind with
        | withObject =>
            exact ⟨(record, h₀), rfl, .refl _ h₀, rfl, hh.binds hl.made, hh.findData? hl.made, fun _ => rfl,
              fun hkind => absurd rfl hkind, Nat.lt_of_lt_of_le hl.made hh.size_le⟩
        | function | handler =>
            exact ⟨copyRecord h₀ record, rfl, untouched_copyRecord h₀ record,
              doubles_copyRecord hh hl nofun⟩
      obtain ⟨r, hcopy, huntouched, hdoubles⟩ := hstep
      obtain ⟨hrest, hothers⟩ := ih (hh.trans (huntouched.mono hh.size_le)) fun l hl =>
        hlinks l (List.mem_cons_of_mem _ hl)
      rw [hcopy]
      exact ⟨huntouched.trans (hrest.mono huntouched.size_le), .cons (hdoubles.mono hrest) hothers⟩

/-! ## Frames and their copies -/

/-- The links of the function itself, innermost first. -/
def inner (f : Frame) : Chain := f.pending.reverse ++ f.scope.take 1

/-- The links around the function. -/
def around (f : Frame) : Chain := f.scope.drop 1

theorem innermost_eq (f : Frame) : f.innermost = f.inner ++ f.around := by
  rw [innermost, inner, around, List.append_assoc, List.take_append_drop]

/-- The function or a `catch` in it declares the name that code at the interruption sees. -/
def declares (h : Heap) (f : Frame) (name : String) : Bool :=
  (List.find? (Link.binds h name) f.inner).any fun link => link.kind != .withObject

/-- The records of the frame are there, and those of the function itself hold values. -/
structure Settled (h : Heap) (f : Frame) : Prop where
  headed : ∃ a outer, f.scope = ⟨.function, a⟩ :: outer
  inner : ∀ link ∈ f.inner, link.Settled h
  around : ∀ link ∈ f.around, link.record < h.size

/-- The links of the function are copied, those around it are shared. -/
structure Doubles (h h' : Heap) (f f' : Frame) : Prop where
  inner : List.Forall₂ (Link.Doubles h h') f.inner f'.inner
  around : f'.around = f.around
  headed : ∃ a outer, f'.scope = ⟨.function, a⟩ :: outer ∧ h.size ≤ a

theorem Doubles.mono (h₁₂ : h₁.Untouched h₁.size h₂) (hf : f.Doubles h h₁ f') : f.Doubles h h₂ f' :=
  { hf with inner := hf.inner.imp fun _ _ hl => hl.mono h₁₂ }

theorem doubles_copy (hh : Untouched h.size h h₀) (hf : f.Settled h) :
    Untouched h₀.size h₀ (f.copy h₀).2 ∧ f.Doubles h (f.copy h₀).2 (f.copy h₀).1 := by
  obtain ⟨a, outer, hscope⟩ := hf.headed
  have hcache := untouched_copyCache h₀ f.cache
  have hh₁ := hh.trans (hcache.mono hh.size_le)
  have hhead : f.scope.take 1 = [⟨.function, a⟩] := by rw [hscope]; rfl
  have hrecord : f.record = a := by rw [record, hscope]; rfl
  have hl : Link.Settled h ⟨.function, a⟩ := hf.inner _ (List.mem_append_right _ (hhead ▸ List.mem_cons_self))
  have huntouched := untouched_copyRecord (copyCache h₀ f.cache).2 a
  have hdoubles := doubles_copyRecord hh₁ hl nofun
  obtain ⟨hlinks, hpending⟩ := doubles_copyLinks (hh₁.trans (huntouched.mono hh₁.size_le)) fun link hlink =>
    hf.inner link (List.mem_append_left _ (List.mem_reverse.2 hlink))
  have hcopy : f.copy h₀ = ({ f with
      scope := ⟨.function, (copyRecord (copyCache h₀ f.cache).2 a).1⟩ :: f.scope.drop 1
      pending := (copyLinks (copyRecord (copyCache h₀ f.cache).2 a).2 f.pending).1
      cache := (copyCache h₀ f.cache).1 },
      (copyLinks (copyRecord (copyCache h₀ f.cache).2 a).2 f.pending).2) := by
    rw [← hrecord]
    rfl
  rw [hcopy]
  refine ⟨hcache.trans ((huntouched.trans (hlinks.mono huntouched.size_le)).mono hcache.size_le), ?_, ?_, ?_⟩
  · rw [inner, inner, hhead]
    exact List.rel_append (List.rel_reverse hpending) (.cons (hdoubles.mono hlinks) .nil)
  · rfl
  · exact ⟨_, _, rfl, hdoubles.fresh nofun⟩

/-! ## What a copy shows -/

/-- The innermost of the links that binds a name. -/
theorem find?_doubles (hc : List.Forall₂ (Link.Doubles h h') c c') (name : String) :
    Option.Rel (Link.Doubles h h') (List.find? (Link.binds h name) c) (List.find? (Link.binds h' name) c') := by
  induction hc with
  | nil => exact .none
  | @cons link link' c c' hl _ ih =>
      rw [List.find?_cons, List.find?_cons, hl.binds]
      cases link.binds h name with
      | true => exact .some hl
      | false => exact ih

/-- The record that a name leads to, and the one that it leads the copy to. -/
theorem Doubles.recordOf? (hf : f.Doubles h h' f') (hsettled : f.Settled h) (hh : Untouched h.size h h')
    (name : String) :
    (∃ link link', Link.Doubles h h' link link' ∧ List.find? (Link.binds h name) f.inner = some link ∧
        Chain.recordOf? h name f.innermost = some link.record ∧
        Chain.recordOf? h' name f'.innermost = some link'.record) ∨
      List.find? (Link.binds h name) f.inner = none ∧
        Chain.recordOf? h name f.innermost = Chain.recordOf? h name f.around ∧
        Chain.recordOf? h' name f'.innermost = Chain.recordOf? h name f.around := by
  have hinner := find?_doubles hf.inner name
  rw [innermost_eq, innermost_eq, Chain.recordOf?_append, Chain.recordOf?_append, hf.around,
    hh.recordOf? hsettled.around, Chain.recordOf?_eq_find? h name f.inner,
    Chain.recordOf?_eq_find? h' name f'.inner]
  cases hfound : List.find? (Link.binds h name) f.inner with
  | none =>
      rw [hfound] at hinner
      cases hinner' : List.find? (Link.binds h' name) f'.inner with
      | none => exact .inr ⟨rfl, rfl, rfl⟩
      | some link' =>
          rw [hinner'] at hinner
          cases hinner
  | some link =>
      rw [hfound] at hinner
      cases hinner' : List.find? (Link.binds h' name) f'.inner with
      | none =>
          rw [hinner'] at hinner
          cases hinner
      | some link' =>
          rw [hinner'] at hinner
          cases hinner with
          | some hl => exact .inl ⟨link, link', hl, rfl, rfl, rfl⟩

theorem exists_link_of_recordOf? (ha : Chain.recordOf? h name c = some a) :
    ∃ link ∈ c, link.record = a := by
  rw [Chain.recordOf?_eq_find?] at ha
  obtain ⟨link, hlink, rfl⟩ := Option.map_eq_some_iff.1 ha
  exact ⟨link, List.mem_of_find?_eq_some hlink, rfl⟩

theorem Doubles.lookup? (hf : f.Doubles h h' f') (hsettled : f.Settled h) (hh : Untouched h.size h h')
    (name : String) : f'.lookup? h' name = f.lookup? h name := by
  rw [Frame.lookup?, Frame.lookup?]
  rcases hf.recordOf? hsettled hh name with ⟨link, link', hl, -, hrecord, hrecord'⟩ | ⟨-, hrecord, hrecord'⟩
  · rw [hrecord, hrecord']
    exact hl.value name
  · rw [hrecord, hrecord']
    cases ha : Chain.recordOf? h name f.around with
    | none => rfl
    | some a =>
        obtain ⟨link, hlink, rfl⟩ := exists_link_of_recordOf? ha
        exact hh.findData? (hsettled.around link hlink) name

end Frame

/-- The names that the function declares are the ones that the copy has for itself. -/
theorem Frame.Doubles.declared (hf : f.Doubles h h' f') (hsettled : f.Settled h) (hh : h.Untouched h.size h')
    (name : String) :
    (f.declares h name = true → ∃ a, Chain.recordOf? h' name f'.innermost = some a ∧ h.size ≤ a) ∧
      (f.declares h name = false →
        Chain.recordOf? h' name f'.innermost = Chain.recordOf? h name f.innermost) := by
  rcases hf.recordOf? hsettled hh name with
    ⟨link, link', hl, hfound, hrecord, hrecord'⟩ | ⟨hmissing, hrecord, hrecord'⟩
  · have hdeclares : f.declares h name = (link.kind != .withObject) := by rw [declares, hfound]; rfl
    rw [hdeclares]
    refine ⟨fun hkind => ⟨_, hrecord', hl.fresh (bne_iff_ne.1 hkind)⟩, fun hkind => ?_⟩
    rw [hrecord, hrecord', hl.shared (bne_eq_false_iff_eq.1 hkind)]
  · have hdeclares : f.declares h name = false := by rw [declares, hmissing]; rfl
    rw [hdeclares, hrecord, hrecord']
    exact ⟨nofun, fun _ => rfl⟩

namespace Continuation

open Heap (Untouched)

theorem doubles_copyFrames {frames : List Frame} (hh : Untouched h.size h h₀)
    (hframes : ∀ f ∈ frames, f.Settled h) :
    Untouched h₀.size h₀ (copyFrames h₀ frames).2 ∧
      List.Forall₂ (Frame.Doubles h (copyFrames h₀ frames).2) frames (copyFrames h₀ frames).1 := by
  induction frames generalizing h₀ with
  | nil => exact ⟨.refl _ h₀, .nil⟩
  | cons f frames ih =>
      obtain ⟨hfirst, hdoubles⟩ := Frame.doubles_copy hh (hframes f List.mem_cons_self)
      obtain ⟨hrest, hothers⟩ := ih (hh.trans (hfirst.mono hh.size_le)) fun g hg =>
        hframes g (List.mem_cons_of_mem _ hg)
      exact ⟨hfirst.trans (hrest.mono hfirst.size_le), .cons (hdoubles.mono hrest) hothers⟩

end Continuation

/-- The frames of a continuation that was left behind are settled if their records hold values. -/
theorem Frame.In.settled {w : Realm} (hw : w.size = h.size) (hf : f.In w)
    (hrecords : ∀ link ∈ f.inner, link.kind ≠ .withObject → (h.object link.record).HoldsValues) :
    f.Settled h where
  headed := hf.headed
  inner link hlink := by
    refine ⟨hw ▸ ?_, hrecords link hlink⟩
    rcases List.mem_append.1 hlink with hpending | hscope
    · exact hf.pending link (List.mem_reverse.1 hpending)
    · exact hf.scope link (List.mem_of_mem_take hscope)
  around link hlink := hw ▸ hf.scope link (List.mem_of_mem_drop hlink)

namespace Machine

open Script
open Heap (Untouched)

variable {config : Config} {m : Machine} {ks : List Continuation} {k : Continuation}

/-- A continuation is copied.  Nothing that is there changes, and each frame of the copy shows what the frame
shows.  A name that the function declares leads the copy to a record that is new, and any other name leads it
to the record to which it leads the original. -/
theorem Reached.duplicate_shows (h : Reached config m ks) (hk : k ∈ ks)
    (hrecords : ∀ f ∈ k.frames, ∀ link ∈ f.inner, link.kind ≠ .withObject →
      (m.heap.object link.record).HoldsValues) :
    ∃ k' m', k.duplicate m = .ok k' m' ∧ Untouched m.heap.size m.heap m'.heap ∧
      k'.frames.size = k.frames.size ∧
      ∀ (i : Nat) (f f' : Frame), k.frames[i]? = some f → k'.frames[i]? = some f' → ∀ name,
        f'.lookup? m'.heap name = f.lookup? m.heap name ∧
        (f.declares m.heap name = true →
          ∃ a, Chain.recordOf? m'.heap name f'.innermost = some a ∧ m.heap.size ≤ a) ∧
        (f.declares m.heap name = false →
          Chain.recordOf? m'.heap name f'.innermost = Chain.recordOf? m.heap name f.innermost) := by
  have hsettled : ∀ f ∈ k.frames.toList, f.Settled m.heap := fun f hf =>
    ((h.orderly.left k hk).1.frames f (Array.mem_toList_iff.1 hf)).settled rfl
      (hrecords f (Array.mem_toList_iff.1 hf))
  obtain ⟨huntouched, hdoubles⟩ := Continuation.doubles_copyFrames (.refl _ m.heap) hsettled
  refine ⟨_, _, rfl, huntouched, hdoubles.length_eq.symm, fun i f f' hf hf' name => ?_⟩
  have hlist : k.frames.toList[i]? = some f := Array.getElem?_toList.trans hf
  have hlist' : (Continuation.copyFrames m.heap k.frames.toList).1[i]? = some f' :=
    List.getElem?_toArray.symm.trans hf'
  have hf := hsettled f (List.mem_of_getElem? hlist)
  obtain ⟨hlt, rfl⟩ := List.getElem?_eq_some_iff.1 hlist
  obtain ⟨hlt', rfl⟩ := List.getElem?_eq_some_iff.1 hlist'
  have hframe := (List.forall₂_iff_get.1 hdoubles).2 i hlt hlt'
  exact ⟨hframe.lookup? hf huntouched name, hframe.declared hf huntouched name⟩

/-- What a program leaves behind when it is paused. -/
theorem reached_of_paused {p : Program} {fuel : Nat}
    (hrun : runProgram fuel p ownRegistry (new config) = .ok (.ok (.paused k)) m) :
    Reached config m [k] := by
  have hends : (Deed.errand (.runProgram p ownRegistry)).perform fuel (new config) = .ok (some k) m := by
    change EStateM.bind (EStateM.bind (runProgram fuel p ownRegistry) _) _ (new config) = _
    rw [EStateM.bind, EStateM.bind, hrun]
    rfl
  exact Reached.new.done fuel (.errand (.runProgram p ownRegistry)) (Nat.zero_lt_succ 1) hends

/-! ## A variable that two frames share -/

/-- What a paused program leaves behind passes a check. -/
def pauses (check : Continuation → Machine → Bool) : Outcome → Machine → Bool
  | .paused k, m => check k m
  | _, _ => false

theorem exists_of_pauses {check : Continuation → Machine → Bool} {o : Outcome} (h : pauses check o m = true) :
    ∃ k, o = .paused k ∧ check k m = true := by
  cases o with
  | paused k => exact ⟨k, rfl, h⟩
  | completed v => cases h
  | failed error k => cases h

/-- The records of the frames hold values. -/
def holdsValues (h : Heap) (k : Continuation) : Bool :=
  k.frames.all fun f => f.inner.all fun link => link.kind == .withObject ||
    (h.object link.record).isValues

theorem of_holdsValues {h : Heap} (hall : holdsValues h k = true) :
    ∀ f ∈ k.frames, ∀ link ∈ f.inner, link.kind ≠ .withObject → (h.object link.record).HoldsValues := by
  intro f hf link hlink hkind
  have hlinks := List.all_eq_true.1 (Array.all_eq_true'.1 hall f hf) link hlink
  rw [Bool.or_eq_true, beq_iff_eq] at hlinks
  exact Object.holdsValues_of_isValues (hlinks.resolve_left hkind)

/-- What is copied is resumed after its copy has been, and each of them returns a text. -/
def copiesTo (s s' : String) : Outcome → Machine → Bool
  | .paused k, m =>
    resumes 9 (fun o m => comesTo s o && resumes 9 (fun o _ => comesTo s' o) 1 (.paused k) m) 1
      (.paused (k.copy m.heap).1) { m with heap := (k.copy m.heap).2 }
  | _, _ => false

theorem exists_of_copiesTo {s s' : String} {o : Outcome} (h : copiesTo s s' o m = true) :
    ∃ k k' m₁ m₂ m₃, o = .paused k ∧ k.duplicate m = .ok k' m₁ ∧
      Continued 9 (.paused k') m₁ 1 (.completed (.str s)) m₂ ∧
      Continued 9 (.paused k) m₂ 1 (.completed (.str s')) m₃ := by
  cases o with
  | paused k =>
      obtain ⟨o₁, m₁, hcopy, hcheck⟩ := exists_of_resumes h
      rw [Bool.and_eq_true] at hcheck
      obtain ⟨o₂, m₂, horiginal, hcomes⟩ := exists_of_resumes hcheck.2
      rw [eq_of_comesTo hcheck.1] at hcopy
      rw [eq_of_comesTo hcomes] at horiginal
      exact ⟨k, _, _, m₁, m₂, rfl, rfl, hcopy, horiginal⟩
  | completed v => cases h
  | failed error k => cases h

/-- The program

    var x = "";
    function f() { debugger; x = x + "u"; }
    f();
    return x;
-/
def sharing : Program :=
  ⟨[.var [⟨"x", some (.str "")⟩],
    .function ⟨some "f", [],
      [.debugger, .expr (.assign none (.ident "x") (.binary .add (.ident "x") (.str "u")))]⟩,
    .expr (.call (.ident "f") []),
    .ret (some (.ident "x"))]⟩

/-- The frames of `f` and of the program hold values, the latter declares the variable, and their copies are
resumed before they are. -/
theorem sharing_runs : arrives (fun o m => pauses (fun k m => holdsValues m.heap k &&
    k.frames.toList.map (fun f => f.declares m.heap "x") == [false, true]) o m && copiesTo "" "uu" o m)
    (runProgram 9 sharing ownRegistry unequipped) = true := by
  decide +kernel

/-- The frames of `f` and of the program, and which of them declares the variable. -/
theorem runProgram_sharing : ∃ k m, runProgram 9 sharing ownRegistry unequipped = .ok (.ok (.paused k)) m ∧
    holdsValues m.heap k = true ∧
      k.frames.toList.map (fun f => f.declares m.heap "x") = [false, true] := by
  obtain ⟨o, m, hrun, hends⟩ := exists_of_arrives sharing_runs
  obtain ⟨k, rfl, hcheck⟩ := exists_of_pauses (Bool.and_eq_true_iff.1 hends).1
  rw [Bool.and_eq_true, beq_iff_eq] at hcheck
  exact ⟨k, m, hrun, hcheck⟩

theorem Reached.duplicate_shows_sharing : ∃ k m k' m' f g f' g',
    Reached { Config.default with debugBuiltins := false } m [k] ∧ holdsValues m.heap k = true ∧ k.duplicate m = .ok k' m' ∧
      k.frames.toList = [f, g] ∧ k'.frames.toList = [f', g'] ∧
      f'.lookup? m'.heap "x" = f.lookup? m.heap "x" ∧ g'.lookup? m'.heap "x" = g.lookup? m.heap "x" ∧
      Chain.recordOf? m'.heap "x" f'.innermost = Chain.recordOf? m.heap "x" f.innermost ∧
      ∃ a, Chain.recordOf? m'.heap "x" g'.innermost = some a ∧ m.heap.size ≤ a := by
  obtain ⟨k, m, hrun, hvalues, hdeclares⟩ := runProgram_sharing
  have hreached := reached_of_paused hrun
  obtain ⟨k', m', hduplicate, -, hsize, hshows⟩ :=
    Reached.duplicate_shows hreached (List.mem_singleton_self k) (of_holdsValues hvalues)
  obtain ⟨f, g, hframes⟩ : ∃ f g, k.frames.toList = [f, g] :=
    List.length_eq_two.1 (by rw [← List.length_map, hdeclares]; rfl)
  obtain ⟨f', g', hframes'⟩ : ∃ f' g', k'.frames.toList = [f', g'] :=
    List.length_eq_two.1 (by rw [Array.length_toList, hsize, ← Array.length_toList, hframes]; rfl)
  rw [hframes] at hdeclares
  have hf : f.declares m.heap "x" = false := (List.cons.inj hdeclares).1
  have hg : g.declares m.heap "x" = true := (List.cons.inj (List.cons.inj hdeclares).2).1
  have hfirst := hshows 0 f f' (by rw [← Array.getElem?_toList, hframes]; rfl)
    (by rw [← Array.getElem?_toList, hframes']; rfl) "x"
  have hsecond := hshows 1 g g' (by rw [← Array.getElem?_toList, hframes]; rfl)
    (by rw [← Array.getElem?_toList, hframes']; rfl) "x"
  exact ⟨k, m, k', m', f, g, f', g', hreached, hvalues, hduplicate, hframes, hframes', hfirst.1, hsecond.1,
    hfirst.2.2 hf, hsecond.2.1 hg⟩

/-- The copies of the frame of `f` and of the frame of the program do not share the variable: the frame of `f`
writes the one of the original. -/
theorem sharing_comesApart : ∃ k m k' m₁ m₂ m₃,
    runProgram 9 sharing ownRegistry unequipped = .ok (.ok (.paused k)) m ∧
      k.duplicate m = .ok k' m₁ ∧
      Continued 9 (.paused k') m₁ 1 (.completed (.str "")) m₂ ∧
      Continued 9 (.paused k) m₂ 1 (.completed (.str "uu")) m₃ := by
  obtain ⟨o, m, hrun, hends⟩ := exists_of_arrives sharing_runs
  obtain ⟨k, k', m₁, m₂, m₃, rfl, hcontinued⟩ := exists_of_copiesTo (Bool.and_eq_true_iff.1 hends).2
  exact ⟨k, m, k', m₁, m₂, m₃, hrun, hcontinued⟩

end Machine

end Resumption
