import Resumption.Value.Object

/-!
# The heap

Objects by address.  Inheritance is followed from younger to older objects, which is why every
walk along it ends.
-/

namespace Resumption

structure Heap where
  objects : Array Object

namespace Heap

def empty : Heap := ⟨#[]⟩

instance : Inhabited Heap := ⟨empty⟩

def size (h : Heap) : Nat := h.objects.size

def object (h : Heap) (a : Address) : Object := h.objects.getD a default

/-- Puts an object at a new address. -/
def alloc (h : Heap) (o : Object) : Address × Heap := (h.objects.size, ⟨h.objects.push o⟩)

def modify (h : Heap) (a : Address) (f : Object → Object) : Heap := ⟨h.objects.modify a f⟩

/-- The object next in line of inheritance; it has to be older. -/
def proto? (h : Heap) (a : Address) : Option Address := (h.object a).proto.filter (· < a)

theorem proto?_lt {h : Heap} {a p : Address} (hp : h.proto? a = some p) : p < a := by
  have := (Option.filter_eq_some_iff.1 hp).2
  simpa using this

/-- The slot for a key, the object's own or an inherited one. -/
def find? (h : Heap) (key : String) (a : Address) : Option Slot :=
  match (h.object a).own? key with
  | some slot => some slot
  | none =>
    match _h : h.proto? a with
    | some p => find? h key p
    | none => none
termination_by a
decreasing_by exact proto?_lt _h

/-- The object has the property, or inherits it. -/
def hasProperty (h : Heap) (key : String) (a : Address) : Bool := (h.find? key a).isSome

/-- The addresses an object inherits from, nearest first. -/
def ancestors (h : Heap) (a : Address) : List Address :=
  match _h : h.proto? a with
  | some p => p :: ancestors h p
  | none => []
termination_by a
decreasing_by exact proto?_lt _h

def elements? (h : Heap) : Value → Option (Array Value)
  | .object a => (h.object a).elements?
  | _ => none

def callable? (h : Heap) : Value → Option Callable
  | .object a => (h.object a).callable?
  | _ => none

def isCallable (h : Heap) (v : Value) : Bool := (h.callable? v).isSome

/-- The kind of a value, as scripts see it. -/
def typeOf (h : Heap) : Value → String
  | .undefined => "undefined"
  | .null => "object"
  | .bool _ => "boolean"
  | .num _ => "number"
  | .str _ => "string"
  | .object a => if (h.object a).callable?.isSome then "function" else "object"

end Heap

/-! ## The objects every machine starts with -/

namespace Intrinsic

def objectProto : Address := 0
def functionProto : Address := 1
def arrayProto : Address := 2
def stringProto : Address := 3
def numberProto : Address := 4

def errorProto : ErrorKind → Address
  | .general => 5
  | .type => 6
  | .reference => 7
  | .range => 8
  | .grammar => 9

/-- The object whose properties are the global variables. -/
def globalObject : Address := 10

/-- A prototype that enumeration does not look into. -/
def isPrototype (a : Address) : Bool := a < globalObject

end Intrinsic

/-- The keys that a loop over an object visits: its own, then those it inherits from objects that
scripts made. -/
def Heap.enumerate (h : Heap) : Value → List String
  | .str s => (List.range s.length).map toString
  | .object a =>
    ((a :: h.ancestors a).takeWhile (fun b => !Intrinsic.isPrototype b)).foldl
      (fun found b => (h.object b).keys.foldl
        (fun found key => if found.contains key then found else found ++ [key]) found) []
  | _ => []

end Resumption
