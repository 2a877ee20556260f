import Resumption.Code.Basic
import Resumption.Index.Tree

/-!
# Values and objects

What scripts compute with.  Objects live in a heap and are referred to by address; an object that
inherits is always younger than the object it inherits from.  A function object holds what it runs:
one of the functions every machine starts with, instrumented code, or a function of a source tree
that is walked step by step.
-/

namespace Resumption

/-- The place of an object in the heap. -/
abbrev Address := Nat

inductive Value where
  | undefined
  | null
  | bool (b : Bool)
  | num (x : Float)
  | str (s : String)
  | object (a : Address)

instance : Inhabited Value := ⟨.undefined⟩

namespace Value

def isNullish : Value → Bool
  | .undefined | .null => true
  | _ => false

/-- How a condition takes the value. -/
def truthy : Value → Bool
  | .undefined | .null => false
  | .bool b => b
  | .num x => x != 0 && !x.isNaN
  | .str s => !s.isEmpty
  | .object _ => true

/-- Equality without conversion: objects by identity, numbers as numbers. -/
def same : Value → Value → Bool
  | .undefined, .undefined => true
  | .null, .null => true
  | .bool a, .bool b => a == b
  | .num x, .num y => x == y
  | .str s, .str t => s == t
  | .object a, .object b => a == b
  | _, _ => false

def isUndefined : Value → Bool
  | .undefined => true
  | _ => false

end Value

inductive ErrorKind where
  | general | type | reference | range | grammar
deriving Repr, DecidableEq

def ErrorKind.name : ErrorKind → String
  | .general => "Error"
  | .type => "TypeError"
  | .reference => "ReferenceError"
  | .range => "RangeError"
  | .grammar => "SyntaxError"

def ErrorKind.all : List ErrorKind := [.general, .type, .reference, .range, .grammar]

/-- The functions every machine starts with. -/
inductive Native where
  | hasOwnProperty | toText
  | call | apply
  | push | pop | shift | unshift | slice | concat | join | indexOf
  | forEach | map | filter | reduce
  | charAt | textIndexOf | textSlice | toUpperCase | toLowerCase | split
  | object | keys | array | isArray | string | number
  | error (kind : ErrorKind)
  | floor | ceil | abs | round | max | min | sqrt | pow
  | log
deriving Repr, DecidableEq

/-- The name a function goes by. -/
def Native.name : Native → String
  | .hasOwnProperty => "hasOwnProperty"
  | .toText => "toString"
  | .call => "call"
  | .apply => "apply"
  | .push => "push"
  | .pop => "pop"
  | .shift => "shift"
  | .unshift => "unshift"
  | .slice | .textSlice => "slice"
  | .concat => "concat"
  | .join => "join"
  | .indexOf | .textIndexOf => "indexOf"
  | .forEach => "forEach"
  | .map => "map"
  | .filter => "filter"
  | .reduce => "reduce"
  | .charAt => "charAt"
  | .toUpperCase => "toUpperCase"
  | .toLowerCase => "toLowerCase"
  | .split => "split"
  | .object => "Object"
  | .keys => "keys"
  | .array => "Array"
  | .isArray => "isArray"
  | .string => "String"
  | .number => "Number"
  | .error kind => kind.name
  | .floor => "floor"
  | .ceil => "ceil"
  | .abs => "abs"
  | .round => "round"
  | .max => "max"
  | .min => "min"
  | .sqrt => "sqrt"
  | .pow => "pow"
  | .log => "log"

/-! ## Scope links -/

inductive LinkKind where
  | function | handler | withObject
deriving Repr, DecidableEq

def LinkKind.name : LinkKind → String
  | .function => "Function"
  | .handler => "Catch"
  | .withObject => "With"

/-- A record of bindings in a scope chain. -/
structure Link where
  kind : LinkKind
  record : Address
deriving Repr, DecidableEq

/-- Links from the innermost to the outermost. -/
abbrev Chain := List Link

/-! ## Functions -/

/-- Whether a walk over a source tree keeps the books. -/
inductive Mode where
  | recording | plain
deriving Repr, DecidableEq

/-- Instrumented code with the scopes it was made in. -/
structure InstrumentedClosure where
  func : Code.Func
  chain : Chain
  registry : Nat

/-- A function of a source tree with the scopes it was made in. -/
structure SteppedClosure where
  tree : IndexedTree
  index : Nat
  chain : Chain
  mode : Mode
  registry : Nat

inductive Callable where
  | native (f : Native)
  | instrumented (closure : InstrumentedClosure)
  | stepped (closure : SteppedClosure)

/-- The function's name; empty if it has none. -/
def Callable.name : Callable → String
  | .native f => f.name
  | .instrumented closure => closure.func.name.getD ""
  | .stepped closure => ((closure.tree.func? closure.index).bind (fun f => f.name)).getD ""

/-! ## Objects -/

inductive ObjectKind where
  | plain
  | array (items : Array Value)
  | function (callable : Callable)
  | error

inductive Slot where
  | data (value : Value)
  | accessor (get set : Option Value)

structure Object where
  kind : ObjectKind
  proto : Option Address
  /-- Properties in the order of their insertion. -/
  props : List (String × Slot)

instance : Inhabited Object := ⟨⟨.plain, none, []⟩⟩

end Resumption
