import Resumption.Machine.Access
import Resumption.Text.Case

/-!
# The functions every machine starts with

Array methods look at the array again before each step, so a callback that grows or cuts the array
changes how far they go.
-/

namespace Resumption

namespace Machine

/-- The argument at a position; missing arguments are undefined. -/
def arg (args : List Value) (i : Nat) : Value := args.getD i .undefined

/-! ## Arrays -/

/-- The elements of the array that a method was called on. -/
def thisItems (this : Value) (method : String) : MachineM (Address × Array Value) := do
  match this with
  | .object a =>
    match ← ask (fun h => (h.object a).elements?) with
    | some items => return (a, items)
    | none => typeError ("Array.prototype." ++ method ++ " called on non-array")
  | _ => typeError ("Array.prototype." ++ method ++ " called on non-array")

/-- Changes the elements of an array, and hands something over. -/
def changeItems {α : Type} (a : Address) (f : Array Value → α × Array Value) (default : α) :
    MachineM α := do
  match ← ask (fun h => (h.object a).elements?) with
  | none => return default
  | some items =>
    modifyHeap (fun h => h.modify a (fun o => { o with kind := .array #[] }))
    let (result, items) := f items
    modifyHeap (fun h => h.modify a (fun o => { o with kind := .array items }))
    return result

def elementAt? (a : Address) (i : Nat) : MachineM (Option Value) :=
  ask (fun h => (h.object a).elements?.bind (fun items => items[i]?))

/-- A position that may count from the end. -/
def relative (v : Value) (length default : Nat) : MachineM Nat := do
  if v.isUndefined then return default
  let x := Number.truncate (← number v)
  let n := Number.ofNat length
  if x.isNaN then return 0
  else if x < 0 then return if n + x > 0 then Number.toPosition (n + x) else 0
  else return if x < n then Number.toPosition x else length

/-- The part between two relative positions. -/
def sliceOf {α : Type} (items : List α) (args : List Value) : MachineM (List α) := do
  let start ← relative (arg args 0) items.length 0
  let stop ← relative (arg args 1) items.length items.length
  return (items.take stop).drop start

/-- The function given to an array method. -/
def callback (args : List Value) (method : String) : MachineM Value := do
  let f := arg args 0
  if ← ask (fun h => h.isCallable f) then return f
  else typeError ((← inspect f) ++ " is not a function (in Array.prototype." ++ method ++ ")")

/-- Visits the elements from a position on, for as long as there are any. -/
def visit {β : Type} (a : Address) (step : β → Nat → Value → MachineM β) :
    Nat → Nat → β → MachineM β
  | 0, _, _ => throw .exhausted
  | fuel + 1, i, acc => do
    match ← elementAt? a i with
    | none => return acc
    | some v =>
      let acc ← step acc i v
      visit a step fuel (i + 1) acc

/-- The text of an element inside of its array. -/
def itemText (v : Value) : MachineM String := if v.isNullish then return "" else text v

/-! ## Texts -/

/-- The position of the first occurrence, counted in characters. -/
def occurrence? (needle : List Char) : Nat → List Char → Option Nat
  | i, [] => if needle.isEmpty then some i else none
  | i, c :: rest =>
    if needle.isPrefixOf (c :: rest) then some i else occurrence? needle (i + 1) rest

/-- The pieces between the occurrences of a separator that is not empty. -/
def splitAt (separator : List Char) : Nat → List Char → List Char → List (List Char)
  | 0, piece, s => [piece.reverse ++ s]
  | _, piece, [] => [piece.reverse]
  | fuel + 1, piece, c :: rest =>
    if separator.isPrefixOf (c :: rest) then
      piece.reverse :: splitAt separator fuel [] ((c :: rest).drop separator.length)
    else splitAt separator fuel (c :: piece) rest

/-! ## Numbers -/

/-- Halves go up. -/
def roundHalfUp (x : Float) : Float := (x + 0.5).floor

/-- Folds the arguments as numbers; one that is no number decides the result. -/
def foldNumbers (pick : Float → Float → Float) : Float → List Value → MachineM Float
  | acc, [] => return acc
  | acc, v :: rest => do
    let x ← number v
    if x.isNaN then return Number.nan else foldNumbers pick (pick acc x) rest

/-- The greater one; of two that are equal, the latter. -/
def greater (x y : Float) : Float := if x > y then x else y

/-- The lesser one; of two that are equal, the latter. -/
def lesser (x y : Float) : Float := if x < y then x else y

/-! ## All of them -/

/-- The text of an argument that may be missing altogether. -/
def messageText (v : Value) : MachineM String := if v.isUndefined then return "" else text v

/-- A value in a line of the console: texts stand as they are. -/
def logText : Value → MachineM String
  | .str s => return s
  | v => inspect v

def runNative (invoke : Invoke) (fuel : Nat) (f : Native) (this : Value) (args : List Value) :
    MachineM Value := do
  let math := fun (g : Float → Float) => do return Value.num (g (← number (arg args 0)))
  match f with
  | .object =>
    match arg args 0 with
    | .object a => return .object a
    | _ => return .object (← newObject)
  | .keys =>
    match arg args 0 with
    | .object a => newArray ((← ask (fun h => (h.object a).keys)).map .str)
    | v => typeError ("Object.keys called on non-object " ++ (← inspect v))
  | .hasOwnProperty =>
    let key ← text (arg args 0)
    match this with
    | .object a => return .bool (← ask (fun h => (h.object a).hasOwn key))
    | .str s =>
      let inside := match arrayIndex? key with
        | some i => decide (i < s.length)
        | none => false
      return .bool (key == lengthKey || inside)
    | _ => return .bool false
  | .toText => return .str (← text this)
  | .call => invoke this (arg args 0) (args.drop 1)
  | .apply =>
    match arg args 1 with
    | .undefined | .null => invoke this (arg args 0) []
    | .object a =>
      let items ← ask (fun h => ((h.object a).elements?.getD #[]).toList)
      invoke this (arg args 0) items
    | _ => typeError "CreateListFromArrayLike called on non-object"
  | .array =>
    match args with
    | [.num x] =>
      match Number.toLength? x with
      | some n => newArray (List.replicate n .undefined)
      | none => fail .range "Invalid array length"
    | _ => newArray args
  | .isArray =>
    match arg args 0 with
    | .object a => return .bool (← ask (fun h => (h.object a).isArray))
    | _ => return .bool false
  | .push =>
    let (a, _) ← thisItems this "push"
    let size ← changeItems a (fun items =>
      let items := items ++ args.toArray
      (items.size, items)) 0
    return .num (Number.ofNat size)
  | .pop =>
    let (a, _) ← thisItems this "pop"
    changeItems a (fun items => (items.back?.getD .undefined, items.pop)) .undefined
  | .shift =>
    let (a, _) ← thisItems this "shift"
    changeItems a (fun items => (items[0]?.getD .undefined, items.drop 1)) .undefined
  | .unshift =>
    let (a, _) ← thisItems this "unshift"
    let size ← changeItems a (fun items =>
      let items := args.toArray ++ items
      (items.size, items)) 0
    return .num (Number.ofNat size)
  | .slice =>
    let (_, items) ← thisItems this "slice"
    newArray (← sliceOf items.toList args)
  | .concat =>
    let (_, items) ← thisItems this "concat"
    let more ← args.mapM (fun v => do
      match ← ask (fun h => h.elements? v) with
      | some items => return items.toList
      | none => return [v])
    newArray (items.toList ++ more.flatten)
  | .join =>
    let (_, items) ← thisItems this "join"
    let separator ← if (arg args 0).isUndefined then pure "," else text (arg args 0)
    let parts ← items.toList.mapM itemText
    return .str (separator.intercalate parts)
  | .indexOf =>
    let (_, items) ← thisItems this "indexOf"
    match items.findIdx? (fun v => v.same (arg args 0)) with
    | some i => return .num (Number.ofNat i)
    | none => return .num (-1)
  | .forEach =>
    let (a, _) ← thisItems this "forEach"
    let f ← callback args "forEach"
    visit a (fun () i v => do
      let _ ← invoke f (arg args 1) [v, .num (Number.ofNat i), this]
      return ()) fuel 0 ()
    return .undefined
  | .map =>
    let (a, _) ← thisItems this "map"
    let f ← callback args "map"
    let results ← visit a (fun (found : Array Value) i v => do
      return found.push (← invoke f (arg args 1) [v, .num (Number.ofNat i), this])) fuel 0 #[]
    newArray results.toList
  | .filter =>
    let (a, _) ← thisItems this "filter"
    let f ← callback args "filter"
    let results ← visit a (fun (found : Array Value) i v => do
      let keep ← invoke f (arg args 1) [v, .num (Number.ofNat i), this]
      return if keep.truthy then found.push v else found) fuel 0 #[]
    newArray results.toList
  | .reduce =>
    let (a, items) ← thisItems this "reduce"
    let f ← callback args "reduce"
    let step := fun (acc : Value) (i : Nat) (v : Value) =>
      invoke f .undefined [acc, v, .num (Number.ofNat i), this]
    if args.length > 1 then visit a step fuel 0 (arg args 1)
    else
      match items[0]? with
      | some first => visit a step fuel 1 first
      | none => typeError "Reduce of empty array with no initial value"
  | .string =>
    match args with
    | [] => return .str ""
    | v :: _ => return .str (← text v)
  | .charAt =>
    let s ← text this
    let x ← number (arg args 0)
    let x := if x.isNaN then 0 else Number.truncate x
    let found := if x < 0 || x.isInf then none else s.toList[Number.toPosition x]?
    return .str ((found.map String.singleton).getD "")
  | .textIndexOf =>
    let s ← text this
    let needle ← text (arg args 0)
    match occurrence? needle.toList 0 s.toList with
    | some i => return .num (Number.ofNat i)
    | none => return .num (-1)
  | .textSlice =>
    let s ← text this
    return .str (String.ofList (← sliceOf s.toList args))
  | .toUpperCase =>
    let s ← text this
    return .str (String.ofList (Text.toUpper s.toList))
  | .toLowerCase =>
    let s ← text this
    return .str (String.ofList (Text.toLower s.toList))
  | .split =>
    let s ← text this
    if (arg args 0).isUndefined then newArray [.str s]
    else
      let separator ← text (arg args 0)
      let pieces :=
        if separator.isEmpty then s.toList.map (fun c => [c])
        else splitAt separator.toList s.length [] s.toList
      newArray (pieces.map (fun piece => .str (String.ofList piece)))
  | .number =>
    match args with
    | [] => return .num 0
    | v :: _ => return .num (← number v)
  | .error kind =>
    let message ← messageText (arg args 0)
    newError kind message
  | .floor => math Float.floor
  | .ceil => math Float.ceil
  | .abs => math Float.abs
  | .round => math roundHalfUp
  | .sqrt => math Float.sqrt
  | .pow =>
    let base ← number (arg args 0)
    let power ← number (arg args 1)
    return .num (Float.pow base power)
  | .max => return .num (← foldNumbers greater (-Number.infinity) args)
  | .min => return .num (← foldNumbers lesser Number.infinity args)
  | .log =>
    let parts ← args.mapM logText
    log (" ".intercalate parts)
    return .undefined

end Machine

end Resumption
