/-!
# Numbers as exact quantities

A finite number is an integer times a power of two.  Reading it that way turns truncation, the
remainder and the choice of decimal digits into arithmetic of naturals, where nothing is rounded:
only the last step back to a `Float` has to fit sixty-four bits, and for the operations below it
always does.
-/

namespace Resumption

/-- Powers are those of the core library, whatever algebra is in scope. -/
@[default_instance 20000]
instance (priority := high) corePow {α : Type} [NatPow α] : Pow α Nat := instPowNat

/-- The value `mantissa * 2 ^ exponent`, with its sign kept apart so that zero has one too. -/
structure Dyadic where
  negative : Bool
  mantissa : Nat
  exponent : Int
deriving Repr, DecidableEq

namespace Dyadic

/-- The quantity a number stands for; `none` for the infinities and for a number that is none. -/
def ofFloat? (x : Float) : Option Dyadic :=
  let bits := x.toBits.toNat
  let negative := bits / 2 ^ 63 == 1
  let raised : Nat := bits / 2 ^ 52 % 2 ^ 11
  let fraction := bits % 2 ^ 52
  if raised == 2 ^ 11 - 1 then none
  else if raised == 0 then some ⟨negative, fraction, -1074⟩
  else some ⟨negative, 2 ^ 52 + fraction, (raised : Int) - 1075⟩

/-- Sixty-four bits of a quantity whose mantissa, after removing factors of two, has at most
fifty-three digits. -/
def toFloat (d : Dyadic) : Float :=
  let sign := if d.negative then 2 ^ 63 else 0
  if d.mantissa == 0 then Float.ofBits (UInt64.ofNat sign)
  else
    let top := d.exponent + (Nat.log2 d.mantissa : Int)
    let unit := max (top - 52) (-1074)
    let scaled :=
      if unit ≤ d.exponent then d.mantissa * 2 ^ (d.exponent - unit).toNat
      else d.mantissa / 2 ^ (unit - d.exponent).toNat
    let raised := if scaled < 2 ^ 52 then 0 else (unit + 1075).toNat
    Float.ofBits (UInt64.ofNat (sign + raised * 2 ^ 52 + scaled % 2 ^ 52))

/-- The whole part of the magnitude. -/
def whole (d : Dyadic) : Nat :=
  if 0 ≤ d.exponent then d.mantissa * 2 ^ d.exponent.toNat
  else d.mantissa / 2 ^ (-d.exponent).toNat

/-- No fractional part is left. -/
def isWhole (d : Dyadic) : Bool :=
  0 ≤ d.exponent || d.mantissa % 2 ^ (-d.exponent).toNat == 0

/-- The integer next towards zero. -/
def toInt (d : Dyadic) : Int :=
  if d.negative then -(d.whole : Int) else d.whole

/-- Drops the fractional part and keeps the sign, also of a result that is zero. -/
def truncate (d : Dyadic) : Dyadic :=
  if 0 ≤ d.exponent then d else ⟨d.negative, d.whole, 0⟩

/-- What is left of the first magnitude after taking the second away as often as possible; the
sign is that of the first. -/
def remainder (a b : Dyadic) : Dyadic :=
  let unit := min a.exponent b.exponent
  let x := a.mantissa * 2 ^ (a.exponent - unit).toNat
  let y := b.mantissa * 2 ^ (b.exponent - unit).toNat
  ⟨a.negative, x % y, unit⟩

end Dyadic

namespace Number

def nan : Float := 0.0 / 0.0

def infinity : Float := 1.0 / 0.0

/-- Whether the sign bit is set; the one way to tell the two zeros apart. -/
def isNegative (x : Float) : Bool := x.toBits.toNat / 2 ^ 63 == 1

/-- A finite number without a fractional part. -/
def isWhole (x : Float) : Bool :=
  match Dyadic.ofFloat? x with
  | some d => d.isWhole
  | none => false

/-- The number next towards zero without a fractional part. -/
def truncate (x : Float) : Float :=
  match Dyadic.ofFloat? x with
  | some d => d.truncate.toFloat
  | none => x

/-- The exact remainder of a division truncated towards zero; its sign is that of the dividend. -/
def remainder (x y : Float) : Float :=
  match Dyadic.ofFloat? x, Dyadic.ofFloat? y with
  | none, _ => nan
  | some a, some b => if b.mantissa == 0 then nan else (a.remainder b).toFloat
  | some _, none => if y.isNaN then nan else x

/-- The residue modulo `2 ^ 32` of the whole part; zero for what has none. -/
def toWord (x : Float) : UInt32 :=
  match Dyadic.ofFloat? x with
  | some d => UInt32.ofNat (d.toInt % 2 ^ 32).toNat
  | none => 0

/-- The number of an index or a count. -/
def ofNat (n : Nat) : Float := Float.ofScientific n false 0

/-- The number of a signed word. -/
def ofInt (i : Int) : Float := if i < 0 then -(ofNat i.natAbs) else ofNat i.natAbs

/-- The whole part of a number that is not negative, for use as a position; everything below one
is the first position. -/
def toPosition (x : Float) : Nat :=
  match Dyadic.ofFloat? x with
  | some d => if d.negative then 0 else d.whole
  | none => 0

/-- The count that a number is: whole and not negative. -/
def toLength? (x : Float) : Option Nat :=
  if x ≥ 0 && isWhole x then some (toPosition x) else none

end Number

end Resumption
