import Resumption.Proofs.Sound.Machine

/-!
# The functions every machine starts with are upright

What they hand over was handed to them, or stood in an array, or is new.
-/

namespace Resumption.Machine

open Upright

variable {w w' : Realm} {invoke : Invoke}

theorem strings_in {α : Type} (l : List α) (f : α → String) : Values.In w (l.map fun a => .str (f a)) := by
  intro v hv
  obtain ⟨a, -, rfl⟩ := List.mem_map.1 hv
  trivial

theorem lasting_value : Lasting Value.In := fun _ _ _ hw h => Value.In.mono hw h

theorem lasting_items : Lasting Items.In := fun _ _ _ hw h v hv => (h v hv).mono hw

/-- What a callback is called with at an element. -/
theorem callbackArgs_in {this v : Value} (hthis : this.In w) (hv : v.In w) (i : Nat) :
    Values.In w [v, .num (Number.ofNat i), this] := by
  intro u hu
  simp only [List.mem_cons, List.not_mem_nil, or_false] at hu
  rcases hu with rfl | rfl | rfl
  · exact hv
  · trivial
  · exact hthis

theorem append_in {items more : Array Value} (h : Items.In w items) (hmore : Items.In w more) :
    Items.In w (items ++ more) := fun v hv =>
  (Array.mem_append.1 hv).elim (h v) (hmore v)

theorem push_in {items : Array Value} (h : Items.In w items) {v : Value} (hv : v.In w) :
    Items.In w (items.push v) := fun u hu =>
  (Array.mem_push.1 hu).elim (h u) fun heq => heq ▸ hv

theorem drop_in {items : Array Value} (h : Items.In w items) (n : Nat) : Items.In w (items.drop n) := by
  intro v hv
  rw [Array.drop_eq_extract, ← Array.mem_toList_iff, Array.toList_extract] at hv
  exact h v (Array.mem_toList_iff.1 (List.mem_of_mem_drop (List.mem_of_mem_take hv)))

theorem pop_in {items : Array Value} (h : Items.In w items) : Items.In w items.pop := by
  intro v hv
  rw [← Array.mem_toList_iff, Array.toList_pop] at hv
  exact h v (Array.mem_toList_iff.1 ((List.dropLast_sublist _).subset hv))

theorem getD_in {v : Option Value} (h : ∀ u, v = some u → u.In w) : (v.getD .undefined).In w := by
  cases v with
  | none => trivial
  | some u => exact h u rfl

/-- An array method that visits the elements. -/
theorem visiting_upright {β : Type} {this : Value} (hthis : this.In w) {args : List Value}
    (hargs : Values.In w args) {method : String} {fuel : Nat} {start : β} {S : Realm → β → Prop}
    (hS : Lasting S) (hstart : ∀ w', S w' start) {step : Value → β → Nat → Value → MachineM β}
    {result : β → MachineM Value}
    (hstep : ∀ w' f acc i v, w ≤ w' → f.In w' → S w' acc → v.In w' → Upright w' (step f acc i v) S)
    (hresult : ∀ w' acc, w ≤ w' → S w' acc → Upright w' (result acc) Value.In) :
    Upright w (do
      let (a, _) ← thisItems this method
      let f ← callback args method
      let acc ← visit a (step f) fuel 0 start
      result acc) Value.In := by
  refine (thisItems_upright hthis method).bind fun w₁ items hw₁ _ => ?_
  refine (callback_upright (hargs.mono hw₁) method).bind fun w₂ f hw₂ hf => ?_
  have hw := le_trans hw₁ hw₂
  refine (visit_upright hS (fun w' acc i v hw' hacc hv => ?_) fuel w₂ 0 start le_rfl (hstart w₂)).bind
    fun w₃ acc hw₃ hacc => hresult w₃ acc (le_trans hw hw₃) hacc
  exact hstep w' f acc i v (le_trans hw hw') (hf.mono hw') hacc hv

theorem runNative_upright (hinvoke : invoke.Upright) (fuel : Nat) (f : Native) {this : Value}
    (hthis : this.In w) {args : List Value} (hargs : Values.In w args) :
    Upright w (runNative invoke fuel f this args) Value.In := by
  have hmath : ∀ g : Float → Float, Upright w (do
      return Value.num (g (← number (arg args 0)))) Value.In := fun _ =>
    (number_upright _).next fun _ => value trivial
  have harg : ∀ i, (arg args i).In w := hargs.getD
  have hdrop : Values.In w (args.drop 1) := fun v hv => hargs v (List.mem_of_mem_drop hv)
  cases f with
  | hasOwnProperty =>
      refine (text_upright _).next fun key => ?_
      split
      · exact (ask_any _).next fun _ => value trivial
      · exact value trivial
      · exact value trivial
  | toText => exact (text_upright _).next fun _ => value trivial
  | call => exact hinvoke hthis (harg 0) hdrop
  | apply =>
      unfold runNative
      dsimp only
      split
      · exact hinvoke hthis (harg 0) (List.forall_mem_nil _)
      · exact hinvoke hthis (harg 0) (List.forall_mem_nil _)
      · rename_i a _
        refine (ask_upright (R := Values.In) fun heap rs hheap _ => ?_).bind fun _ _ hw hitems =>
          hinvoke (hthis.mono hw) ((harg 0).mono hw) hitems
        cases hitems : (heap.object a).elements? with
        | none => exact List.forall_mem_nil _
        | some items => exact ((hheap.object a).elements? hitems).toList
      · exact typeError_upright _
  | push =>
      refine (thisItems_upright hthis _).bind fun w₁ r hw₁ _ => ?_
      refine (changeItems_upright (R := Any) (fun _ _ _ _ _ => trivial) trivial
        fun w' items hw' hitems => ⟨trivial, ?_⟩).next fun _ => value trivial
      exact append_in hitems (hargs.mono (le_trans hw₁ hw')).toArray
  | pop =>
      refine (thisItems_upright hthis _).bind fun w₁ r hw₁ _ => ?_
      refine changeItems_upright lasting_value (trivial : Value.undefined.In _)
        fun w' items _ hitems => ⟨?_, pop_in hitems⟩
      exact getD_in fun v hv => hitems v (Array.mem_of_back? hv)
  | shift =>
      refine (thisItems_upright hthis _).bind fun w₁ r hw₁ _ => ?_
      refine changeItems_upright lasting_value (trivial : Value.undefined.In _)
        fun w' items _ hitems => ⟨?_, drop_in hitems 1⟩
      exact getD_in fun v hv => hitems.getElem? hv
  | unshift =>
      refine (thisItems_upright hthis _).bind fun w₁ r hw₁ _ => ?_
      refine (changeItems_upright (R := Any) (fun _ _ _ _ _ => trivial) trivial
        fun w' items hw' hitems => ⟨trivial, ?_⟩).next fun _ => value trivial
      exact append_in (hargs.mono (le_trans hw₁ hw')).toArray hitems
  | slice =>
      refine (thisItems_upright hthis _).bind fun w₁ r hw₁ hr => ?_
      refine (sliceOf_upright _ _).bind fun w₂ found hw₂ hfound => newArray_upright fun v hv => ?_
      exact (hr.2.toList v (hfound v hv)).mono hw₂
  | concat =>
      refine (thisItems_upright hthis _).bind fun w₁ r hw₁ hr => ?_
      refine (Upright.mapM (R := Values.In) (fun _ _ _ hw h => h.mono hw) fun w' hw' v hv => ?_).bind
        fun w₂ more hw₂ hmore => newArray_upright fun v hv => ?_
      · refine (ask_upright (R := fun w' items => ∀ l, items = some l → Items.In w' l)
          fun heap rs hheap _ l hl => hheap.elements? hl).bind fun w'' items hw'' hitems => ?_
        split
        · exact pure fun _ hw => (hitems _ rfl).toList.mono hw
        · exact pure fun _ hw => List.forall_mem_singleton.2
            ((hargs v hv).mono (le_trans hw₁ (le_trans hw' (le_trans hw'' hw))))
      · rcases List.mem_append.1 hv with hv | hv
        · exact (hr.2.toList v hv).mono hw₂
        · obtain ⟨l, hl, hv⟩ := List.mem_flatten.1 hv
          exact hmore l hl v hv
  | join =>
      refine (thisItems_upright hthis _).next fun r => ?_
      dsimp only
      have hparts : ∀ {w : Realm} (l : List Value), Upright w (l.mapM itemText) Any := fun l =>
        (Upright.mapM (R := Any) (fun _ _ _ _ _ => trivial) fun _ _ v _ => itemText_upright v).imp
          fun _ _ _ _ => trivial
      split
      · exact (done (a := ",")).next fun _ => (hparts _).next fun _ => value trivial
      · exact (text_upright _).next fun _ => (hparts _).next fun _ => value trivial
  | indexOf =>
      refine (thisItems_upright hthis _).next fun r => ?_
      dsimp only
      split
      · exact value trivial
      · exact value trivial
  | forEach =>
      refine visiting_upright hthis hargs (S := Any) (fun _ _ _ _ _ => trivial) (fun _ => trivial)
        (fun w' f _ i v hw hf _ hv => ?_) fun _ _ _ _ => value trivial
      exact (hinvoke hf ((harg 1).mono hw) (callbackArgs_in (hthis.mono hw) hv i)).next fun _ => done
  | map =>
      refine visiting_upright hthis hargs lasting_items (fun _ v hv => absurd hv (Array.not_mem_empty v))
        (fun w' f acc i v hw hf hacc hv => ?_) fun _ _ _ hacc => newArray_upright hacc.toList
      refine (hinvoke hf ((harg 1).mono hw) (callbackArgs_in (hthis.mono hw) hv i)).bind
        fun w'' u hw' hu => pure fun _ hw'' => lasting_items hw'' (push_in (lasting_items hw' hacc) hu)
  | filter =>
      refine visiting_upright hthis hargs lasting_items (fun _ v hv => absurd hv (Array.not_mem_empty v))
        (fun w' f acc i v hw hf hacc hv => ?_) fun _ _ _ hacc => newArray_upright hacc.toList
      refine (hinvoke hf ((harg 1).mono hw) (callbackArgs_in (hthis.mono hw) hv i)).bind
        fun w'' keep hw' _ => pure fun _ hw'' => lasting_items hw'' ?_
      split
      · exact push_in (lasting_items hw' hacc) (hv.mono hw')
      · exact lasting_items hw' hacc
  | reduce =>
      refine (thisItems_upright hthis _).bind fun w₁ r hw₁ hr => ?_
      refine (callback_upright (hargs.mono hw₁) _).bind fun w₂ f hw₂ hf => ?_
      have hw := le_trans hw₁ hw₂
      dsimp only
      have hvisit : ∀ (start : Nat) (first : Value), first.In w₂ → Upright w₂ (visit r.1
          (fun acc i v => invoke f .undefined [acc, v, .num (Number.ofNat i), this]) fuel start first)
          Value.In := fun start first hfirst =>
        visit_upright lasting_value (fun w' acc i v hw' hacc hv => hinvoke (hf.mono hw')
          undefined_in (List.forall_mem_cons.2
            ⟨hacc, callbackArgs_in (hthis.mono (le_trans hw hw')) hv i⟩)) fuel w₂ start first le_rfl hfirst
      split
      · exact hvisit 0 _ ((harg 1).mono hw)
      · split
        · rename_i first hfirst
          exact hvisit 1 first ((hr.2.getElem? hfirst).mono hw₂)
        · exact typeError_upright _
  | charAt =>
      exact (text_upright _).next fun _ => (number_upright _).next fun _ => value trivial
  | textIndexOf =>
      refine (text_upright _).next fun _ => (text_upright _).next fun _ => ?_
      split
      · exact value trivial
      · exact value trivial
  | textSlice =>
      exact (text_upright _).next fun _ => (sliceOf_upright _ _).next fun _ => value trivial
  | toUpperCase => exact (text_upright _).next fun _ => value trivial
  | toLowerCase => exact (text_upright _).next fun _ => value trivial
  | split =>
      refine (text_upright _).next fun s => ?_
      split
      · exact newArray_upright (List.forall_mem_singleton.2 trivial)
      · exact (text_upright _).next fun _ => newArray_upright (strings_in _ _)
  | object =>
      unfold runNative
      dsimp only
      split
      · rename_i a ha
        exact value (ha ▸ harg 0)
      · exact object_upright newObject_upright
  | keys =>
      unfold runNative
      dsimp only
      split
      · exact (ask_any _).next fun _ => newArray_upright (strings_in _ id)
      · exact (inspect_upright _).next fun _ => typeError_upright _
  | array =>
      unfold runNative
      dsimp only
      split
      · split
        · exact newArray_upright fun v hv => by rw [List.eq_of_mem_replicate hv]; trivial
        · exact fail_upright _ _
      · exact newArray_upright hargs
  | isArray =>
      unfold runNative
      dsimp only
      split
      · exact (ask_any _).next fun _ => value trivial
      · exact value trivial
  | string =>
      cases args with
      | nil => exact value trivial
      | cons v rest => exact (text_upright v).next fun _ => value trivial
  | number =>
      cases args with
      | nil => exact value trivial
      | cons v rest => exact (number_upright v).next fun _ => value trivial
  | error kind => exact (messageText_upright _).next fun _ => newError_upright _ _
  | floor => exact hmath _
  | ceil => exact hmath _
  | abs => exact hmath _
  | round => exact hmath _
  | sqrt => exact hmath _
  | max => exact (foldNumbers_upright _ _ _).next fun _ => value trivial
  | min => exact (foldNumbers_upright _ _ _).next fun _ => value trivial
  | pow => exact (number_upright _).next fun _ => (number_upright _).next fun _ => value trivial
  | log =>
      refine (Upright.mapM (R := Any) (fun _ _ _ _ _ => trivial) fun _ _ v _ => logText_upright v).next
        fun _ => ?_
      exact (log_upright _).next fun _ => value trivial

end Resumption.Machine
