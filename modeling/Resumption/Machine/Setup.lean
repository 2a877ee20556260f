import Resumption.Machine.Basic

/-!
# A new machine

The prototypes come first, then the object of the global variables, so that their addresses are
known; everything else is added behind them.
-/

namespace Resumption

namespace Setup

/-- The prototypes and the global object, still empty. -/
def skeleton : Heap :=
  let child := Object.new .plain (some Intrinsic.objectProto)
  let errorChild := Object.new .plain (some (Intrinsic.errorProto .general))
  ⟨#[.new .plain none, child, child, child, child, child, errorChild, errorChild, errorChild,
     errorChild, child]⟩

def set (a : Address) (key : String) (v : Value) (h : Heap) : Heap :=
  h.modify a (fun o => o.setOwn key v)

def setGlobal (name : String) (v : Value) (h : Heap) : Heap :=
  set Intrinsic.globalObject name v h

/-- A new function object. -/
def native (f : Native) (h : Heap) : Address × Heap :=
  h.alloc (.new (.function (.native f)) (some Intrinsic.functionProto))

/-- Gives an object a function under the function's own name. -/
def method (a : Address) (h : Heap) (f : Native) : Heap :=
  let (b, h) := native f h
  set a f.name (.object b) h

def methods (a : Address) (fs : List Native) (h : Heap) : Heap := fs.foldl (method a) h

/-- A global function with functions of its own. -/
def globalFunction (f : Native) (statics : List Native) (h : Heap) : Heap :=
  let (a, h) := native f h
  setGlobal f.name (.object a) (methods a statics h)

/-- A kind of error: its constructor and its prototype. -/
def errorKind (h : Heap) (kind : ErrorKind) : Heap :=
  let (a, h) := native (.error kind) h
  let proto := Intrinsic.errorProto kind
  let h := set proto "name" (.str kind.name) h
  let h := set proto "message" (.str "") h
  let h := set a "prototype" (.object proto) h
  setGlobal kind.name (.object a) h

/-- The ratio of a circle's circumference to its diameter. -/
def circleRatio : Float := 3.141592653589793

def mathObject (h : Heap) : Heap :=
  let (a, h) := h.alloc (.new .plain (some Intrinsic.objectProto))
  let h := set a "PI" (.num circleRatio) h
  let h := methods a [.floor, .ceil, .abs, .round, .max, .min, .sqrt, .pow] h
  setGlobal "Math" (.object a) h

def consoleObject (h : Heap) : Heap :=
  let (a, h) := h.alloc (.new .plain (some Intrinsic.objectProto))
  setGlobal "console" (.object a) (methods a [.log] h)

/-- The heap of a new machine. -/
def heap : Heap :=
  let h := methods Intrinsic.objectProto [.hasOwnProperty, .toText] skeleton
  let h := methods Intrinsic.functionProto [.call, .apply, .toText] h
  let h := methods Intrinsic.arrayProto
    [.push, .pop, .shift, .unshift, .slice, .concat, .join, .indexOf, .forEach, .map, .filter,
     .reduce] h
  let h := methods Intrinsic.stringProto
    [.charAt, .textIndexOf, .textSlice, .toUpperCase, .toLowerCase, .split] h
  let h := setGlobal "undefined" .undefined h
  let h := setGlobal "NaN" (.num Number.nan) h
  let h := setGlobal "Infinity" (.num Number.infinity) h
  let h := globalFunction .object [.keys] h
  let h := globalFunction .array [.isArray] h
  let h := globalFunction .string [] h
  let h := globalFunction .number [] h
  let h := ErrorKind.all.foldl errorKind h
  consoleObject (mathObject h)

end Setup

namespace Machine

/-- The registry that is in use when no other one is. -/
def ownRegistry : Nat := 0

/-- The registry of the instrumented array methods. -/
def builtinRegistry : Nat := 1

def new (config : Config) : Machine :=
  { heap := Setup.heap, config, debugging := false, debugBuiltins := false, debugMethods := none
    registries := #[Registry.empty, Registry.empty], active := ownRegistry, depth := 0
    output := [], hook := none, chronicle := .empty }

/-- Adds an empty registry. -/
def newRegistry : MachineM Nat :=
  modifyGet (fun m => (m.registries.size, { m with registries := m.registries.push .empty }))

end Machine

end Resumption
