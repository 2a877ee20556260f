import Resumption.Machine.Basic

/-!
# Objects at work

Reading and writing properties, operators, and construction.  Accessors and constructors are
functions, so these take the way to call one (`invoke`) as a parameter.
-/

namespace Resumption

open Script (UnaryOp BinaryOp)

namespace Machine

/-- The array methods that have instrumented versions. -/
def debugMethodNames : List String := ["forEach", "map", "filter", "reduce"]

/-- The instrumented version of an array method, if it is in use. -/
def debugMethod? (m : Machine) (key : String) : Option Value :=
  if m.debugBuiltins then m.debugMethods.bind (fun methods => methods.lookup key) else none

/-- The `prototype` of a function, made when it is first asked for. -/
def prototypeOf (a : Address) : MachineM Value := do
  let h ← heapM
  match h.find? "prototype" a with
  | some (.data v) => return v
  | some (.accessor _ _) => return .undefined
  | none =>
    if (h.object a).callable?.isSome then
      let proto := Value.object (← newObject)
      modifyHeap (fun h => h.modify a (fun o => o.setOwn "prototype" proto))
      return proto
    else return .undefined

/-- Reads what a slot holds. -/
def readSlot (invoke : Invoke) (this : Value) : Option Slot → MachineM Value
  | some (.data v) => return v
  | some (.accessor (some getter) _) => invoke getter this []
  | some (.accessor none _) | none => return .undefined

/-- Reads a property. -/
def getProperty (invoke : Invoke) (target : Value) (key : String) : MachineM Value := do
  let inherited := fun (proto : Address) => do
    readSlot invoke target (← ask (fun h => h.find? key proto))
  match target with
  | .undefined => typeError ("Cannot read property '" ++ key ++ "' of undefined")
  | .null => typeError ("Cannot read property '" ++ key ++ "' of null")
  | .str s =>
    if key == lengthKey then return .num (Number.ofNat s.length)
    else
      match arrayIndex? key with
      | some i =>
        match s.toList[i]? with
        | some c => return .str (String.singleton c)
        | none => return .undefined
      | none => inherited Intrinsic.stringProto
  | .num _ => inherited Intrinsic.numberProto
  | .bool _ => inherited Intrinsic.objectProto
  | .object a =>
    let m ← get
    let method :=
      if debugMethodNames.contains key && (m.heap.object a).isArray then m.debugMethod? key
      else none
    match method with
    | some method => return method
    | none => if key == "prototype" then prototypeOf a else inherited a

/-- Writes a property.  A setter takes the value; an accessor without one drops it, and so does a
value that is no object. -/
def putProperty (invoke : Invoke) (target : Value) (key : String) (value : Value) :
    MachineM Unit := do
  match target with
  | .undefined => typeError ("Cannot set property '" ++ key ++ "' of undefined")
  | .null => typeError ("Cannot set property '" ++ key ++ "' of null")
  | .object a =>
    match ← ask (fun h => h.find? key a) with
    | some (.accessor _ (some setter)) =>
      let _ ← invoke setter target [value]
      return ()
    | some (.accessor _ none) => return ()
    | _ => setOwn a key value
  | _ => return ()

/-- Deletes a property. -/
def deleteProperty (target : Value) (key : String) : MachineM Bool := do
  match target with
  | .undefined => typeError ("Cannot delete property '" ++ key ++ "' of undefined")
  | .null => typeError ("Cannot delete property '" ++ key ++ "' of null")
  | .object a =>
    modifyHeap (fun h => h.modify a (fun o => (o.remove key).2))
    return true
  | _ => return true

/-! ## Global variables -/

def hasGlobal (name : String) : MachineM Bool :=
  ask (fun h => h.hasProperty name Intrinsic.globalObject)

def readGlobal (invoke : Invoke) (name : String) : MachineM Value := do
  if ← hasGlobal name then getProperty invoke (.object Intrinsic.globalObject) name
  else fail .reference (name ++ " is not defined")

def writeGlobal (invoke : Invoke) (name : String) (value : Value) : MachineM Unit :=
  putProperty invoke (.object Intrinsic.globalObject) name value

/-! ## Operators -/

def unary (op : UnaryOp) (v : Value) : MachineM Value := convert (fun h => h.unary? op v)

/-- The value is an object made by the constructor, or by one that inherits from it. -/
def instanceOf (invoke : Invoke) (v ctor : Value) : MachineM Bool := do
  if ← ask (fun h => h.isCallable ctor) then
    match v with
    | .object a =>
      match ← getProperty invoke ctor "prototype" with
      | .object proto => ask (fun h => (h.ancestors a).contains proto)
      | _ => return false
    | _ => return false
  else typeError "Right-hand side of 'instanceof' is not callable"

def binary (invoke : Invoke) (op : BinaryOp) (a b : Value) : MachineM Value := do
  match op with
  | .isIn =>
    let key ← text a
    match b with
    | .object x => return .bool (← ask (fun h => h.hasProperty key x))
    | _ =>
      let right ← text b
      typeError ("Cannot use 'in' operator to search for '" ++ key ++ "' in " ++ right)
  | .instanceOf => return .bool (← instanceOf invoke a b)
  | _ => convert (fun h => h.binary? op a b)

/-! ## Construction -/

/-- What the instances of a function inherit from. -/
def instanceProto (invoke : Invoke) (f : Value) : MachineM Address := do
  match ← getProperty invoke f "prototype" with
  | .object a => return a
  | _ => return Intrinsic.objectProto

/-- Calls a script function on a new object, which is the result unless the function returns another
one. -/
def instanceOn (invoke : Invoke) (f : Value) (args : List Value) : MachineM Value := do
  let proto ← instanceProto invoke f
  let a ← alloc (.new .plain (some proto))
  match ← invoke f (.object a) args with
  | .object b => return .object b
  | _ => return .object a

/-- Runs a constructor. -/
def construct (invoke : Invoke) (f : Value) (args : List Value) : MachineM Value := do
  match ← ask (fun h => h.callable? f) with
  | none => typeError ((← inspect f) ++ " is not a constructor")
  | some (.native _) => invoke f .undefined args
  | some _ => instanceOn invoke f args

end Machine

end Resumption
