import Resumption.Value.Convert

/-!
# Operators

The operators that never run a script.  They give no result exactly when a conversion they need
does not end.
-/

namespace Resumption

open Script (UnaryOp BinaryOp)

namespace Heap

variable (h : Heap)

/-- Equality that converts.  Truth values count as numbers, objects as texts. -/
def looseEquals? (a b : Value) : Option Bool :=
  match unTruth a, unTruth b with
  | .undefined, .undefined | .undefined, .null | .null, .undefined | .null, .null => some true
  | .undefined, _ | .null, _ | _, .undefined | _, .null => some false
  | .object x, .object y => some (x == y)
  | x, y => do
    match ← h.primitive? x, ← h.primitive? y with
    | .num m, .str s => return m == textNumber s
    | .str s, .num m => return textNumber s == m
    | x, y => return x.same y
where
  /-- A truth value as a number. -/
  unTruth : Value → Value
    | .bool b => .num (if b then 1 else 0)
    | v => v

/-- Which of two operands is less; none if they cannot be compared. -/
def order? (a b : Value) : Option (Option Ordering) := do
  match ← h.primitive? a, ← h.primitive? b with
  | .str s, .str t => return some (compare s t)
  | x, y =>
    let x ← h.number? x
    let y ← h.number? y
    return if x < y then some .lt else if x > y then some .gt else if x == y then some .eq else none

/-- A comparison; operands that cannot be compared make it false. -/
def compare? (a b : Value) (accept : Ordering → Bool) : Option Value := do
  match ← h.order? a b with
  | some o => return .bool (accept o)
  | none => return .bool false

def arithmetic? (a b : Value) (f : Float → Float → Float) : Option Value := do
  let x ← h.number? a
  return .num (f x (← h.number? b))

def bitwise? (a b : Value) (f : Int32 → Int32 → Int32) : Option Value := do
  let x ← h.signedWord? a
  let y ← h.signedWord? b
  return .num (Number.ofInt (f x y).toInt)

/-- Adds numbers, or joins texts if one operand is a text. -/
def add? (a b : Value) : Option Value := do
  let x ← h.primitive? a
  let y ← h.primitive? b
  match x, y with
  | .str s, y => return .str (s ++ plainText y)
  | x, .str t => return .str (plainText x ++ t)
  | x, y => h.arithmetic? x y (· + ·)

/-- A binary operator that needs no object model: all but the last two. -/
def binary? (op : BinaryOp) (a b : Value) : Option Value :=
  match op with
  | .add => h.add? a b
  | .sub => h.arithmetic? a b (· - ·)
  | .mul => h.arithmetic? a b (· * ·)
  | .div => h.arithmetic? a b (· / ·)
  | .mod => h.arithmetic? a b Number.remainder
  | .eq => (h.looseEquals? a b).map .bool
  | .notEq => (h.looseEquals? a b).map (fun r => .bool !r)
  | .strictEq => some (.bool (a.same b))
  | .strictNotEq => some (.bool !(a.same b))
  | .lt => h.compare? a b (· == .lt)
  | .ltE => h.compare? a b (· != .gt)
  | .gt => h.compare? a b (· == .gt)
  | .gtE => h.compare? a b (· != .lt)
  | .bitAnd => h.bitwise? a b (· &&& ·)
  | .bitOr => h.bitwise? a b (· ||| ·)
  | .bitXor => h.bitwise? a b (· ^^^ ·)
  | .shl => h.bitwise? a b (fun x y => x <<< (y &&& 31))
  | .shr => h.bitwise? a b (fun x y => x >>> (y &&& 31))
  | .uShr => do
    let x ← h.word? a
    let y ← h.word? b
    return .num (Number.ofNat (x >>> (y &&& 31)).toNat)
  | .isIn | .instanceOf => some .undefined

def unary? (op : UnaryOp) (v : Value) : Option Value :=
  match op with
  | .neg => (h.number? v).map (fun x => .num (-x))
  | .plus => (h.number? v).map .num
  | .not => some (.bool !v.truthy)
  | .bitNot => (h.signedWord? v).map (fun x => .num (Number.ofInt (~~~x).toInt))
  | .typeOf => some (.str (h.typeOf v))
  | .void => some .undefined
  | .delete => some (.bool true)

end Heap

end Resumption
