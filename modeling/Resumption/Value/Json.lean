import Resumption.Json.Basic
import Resumption.Value.Heap

/-!
# Values and JSON documents

A document becomes a value built of new objects.  A value becomes a document as far as a document
can say it: functions and what is no finite number become null, accessors are left out.
-/

namespace Resumption

namespace Heap

mutual

/-- The value of a document, and the heap with its new objects. -/
def ofJson (h : Heap) : Json → Value × Heap
  | .null => (.null, h)
  | .bool b => (.bool b, h)
  | .num x => (.num x, h)
  | .str s => (.str s, h)
  | .arr items =>
    let (values, h) := ofJsonItems h items
    let (a, h) := h.alloc (.new (.array values.toArray) (some Intrinsic.arrayProto))
    (.object a, h)
  | .obj members =>
    let (a, h) := h.alloc (.new .plain (some Intrinsic.objectProto))
    (.object a, ofJsonMembers h a members)
termination_by structural j => j

def ofJsonItems (h : Heap) : List Json → List Value × Heap
  | [] => ([], h)
  | j :: rest =>
    let (v, h) := ofJson h j
    let (vs, h) := ofJsonItems h rest
    (v :: vs, h)
termination_by structural l => l

/-- Sets one member of a new object. -/
def ofJsonMember (h : Heap) (a : Address) : String × Json → Heap
  | (name, j) =>
    let (v, h) := ofJson h j
    h.modify a (fun o => o.setOwn name v)
termination_by structural m => m

def ofJsonMembers (h : Heap) (a : Address) : List (String × Json) → Heap
  | [] => h
  | m :: rest => ofJsonMembers (ofJsonMember h a m) a rest
termination_by structural l => l

end

/-- The document of a value, down to a depth; none where the value is nested deeper. -/
def toJsonTo? (h : Heap) : Nat → Value → Option Json
  | _, .undefined | _, .null => some .null
  | _, .bool b => some (.bool b)
  | _, .num x => some (if x.isFinite then .num x else .null)
  | _, .str s => some (.str s)
  | 0, .object _ => none
  | depth + 1, .object a =>
    match (h.object a).kind with
    | .array items => do return .arr (← items.toList.mapM (toJsonTo? h depth))
    | .function _ => some .null
    | _ => do
      let members ← (h.object a).entries.mapM (fun (k, v) => do
        return (k, ← toJsonTo? h depth v))
      return .object members

/-- The document of a value; none if the value contains itself. -/
def toJson? (h : Heap) (v : Value) : Option Json := h.toJsonTo? (h.size + 1) v

end Heap

end Resumption
