import Resumption.Number.Text
import Resumption.Value.Basic

/-!
# Properties of one object

A plain object is a map that remembers the order of insertion.  An array has its elements and its
length on top of that: keys that write a position belong to the elements, whether there is such an
element or not.
-/

namespace Resumption

/-! ## Ordered maps -/

namespace Props

def get? (key : String) : List (String × Slot) → Option Slot
  | [] => none
  | (k, slot) :: rest => if k == key then some slot else get? key rest

/-- Overwrites a slot where it stands, or appends it. -/
def set (key : String) (slot : Slot) : List (String × Slot) → List (String × Slot)
  | [] => [(key, slot)]
  | (k, old) :: rest => if k == key then (k, slot) :: rest else (k, old) :: set key slot rest

def erase (key : String) (props : List (String × Slot)) : List (String × Slot) :=
  props.filter (fun p => p.1 != key)

end Props

/-- The position that a key writes: no leading zero, and an optional plus sign. -/
def arrayIndex? (key : String) : Option Nat :=
  match key.toList with
  | [] => none
  | '0' :: _ :: _ => none
  | digits => Number.bounded? 10 (2 ^ 64) digits

def lengthKey : String := "length"

/-- An array of the given size: cut off, or filled up with undefined elements. -/
def resize (items : Array Value) (n : Nat) : Array Value :=
  if n ≤ items.size then items.take n else items ++ Array.replicate (n - items.size) .undefined

namespace Object

def new (kind : ObjectKind) (proto : Option Address) : Object := ⟨kind, proto, []⟩

def elements? (o : Object) : Option (Array Value) :=
  match o.kind with
  | .array items => some items
  | _ => none

def isArray (o : Object) : Bool := o.elements?.isSome

def callable? (o : Object) : Option Callable :=
  match o.kind with
  | .function f => some f
  | _ => none

/-- The object's own slot for a key. -/
def own? (o : Object) (key : String) : Option Slot :=
  match o.kind with
  | .array items =>
    if key == lengthKey then some (.data (.num (Number.ofNat items.size)))
    else
      match arrayIndex? key with
      | some i => items[i]?.map .data
      | none => Props.get? key o.props
  | _ => Props.get? key o.props

def hasOwn (o : Object) (key : String) : Bool := (o.own? key).isSome

/-- The own value for a key, accessors left aside. -/
def getOwn? (o : Object) (key : String) : Option Value :=
  match o.own? key with
  | some (.data value) => some value
  | _ => none

/-- Writes an element and whatever is missing below it. -/
def setElement (items : Array Value) (i : Nat) (value : Value) : Array Value :=
  (if items.size ≤ i then resize items (i + 1) else items).setIfInBounds i value

/-- Sets the length of an array, if the number can be one. -/
def setLength (o : Object) (length : Float) : Object :=
  match o with
  | ⟨.array items, proto, props⟩ =>
    match Number.toLength? length with
    | some n => ⟨.array (resize items n), proto, props⟩
    | none => ⟨.array items, proto, props⟩
  | o => o

/-- Creates or overwrites an own value.  Not for the length of an array. -/
def setOwn (o : Object) (key : String) (value : Value) : Object :=
  match o with
  | ⟨.array items, proto, props⟩ =>
    match arrayIndex? key with
    | some i => ⟨.array (setElement items i value), proto, props⟩
    | none => ⟨.array items, proto, Props.set key (.data value) props⟩
  | ⟨kind, proto, props⟩ => ⟨kind, proto, Props.set key (.data value) props⟩

/-- Defines one half or both halves of an accessor; a half that is not given stays. -/
def defineAccessor (o : Object) (key : String) (get set : Option Value) : Object :=
  let slot := match Props.get? key o.props with
    | some (.accessor oldGet oldSet) => .accessor (get.or oldGet) (set.or oldSet)
    | _ => Slot.accessor get set
  { o with props := Props.set key slot o.props }

/-- Removes an own property, and says whether there was one.  An element only becomes undefined. -/
def remove (o : Object) (key : String) : Bool × Object :=
  match o with
  | ⟨.array items, proto, props⟩ =>
    match arrayIndex? key with
    | some i => (true, ⟨.array (items.setIfInBounds i .undefined), proto, props⟩)
    | none =>
      let kept := Props.erase key props
      (props.length != kept.length, ⟨.array items, proto, kept⟩)
  | ⟨kind, proto, props⟩ =>
    let kept := Props.erase key props
    (props.length != kept.length, ⟨kind, proto, kept⟩)

/-- The own keys: positions of elements, then the other keys in order of insertion. -/
def keys (o : Object) : List String :=
  let positions := match o.kind with
    | .array items => (List.range items.size).map toString
    | _ => []
  positions ++ o.props.map Prod.fst

/-- The own values with their keys. -/
def entries (o : Object) : List (String × Value) :=
  o.keys.filterMap (fun k => (o.getOwn? k).map (fun v => (k, v)))

end Object

end Resumption
