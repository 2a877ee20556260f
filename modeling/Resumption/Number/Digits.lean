import Resumption.Number.Dyadic

/-!
# The fewest digits of a number

Many decimals round to the same number.  Those that do form an interval around it, half way to the
neighbour on either side, its ends included when the mantissa is even.  The digits written for a
number are the fewest that name a decimal of that interval; among decimals with equally few digits
the nearest one is taken, and of two equally near ones the larger.
-/

namespace Resumption

/-- The decimal `digits * 10 ^ exponent`. -/
structure Decimal where
  digits : Nat
  exponent : Int
deriving Repr, DecidableEq

namespace Decimal

/-- Trailing zeros move from the digits into the exponent. -/
def strip (d : Decimal) : Decimal :=
  if h : d.digits ≠ 0 ∧ d.digits % 10 = 0 then strip ⟨d.digits / 10, d.exponent + 1⟩ else d
termination_by d.digits
decreasing_by omega

/-- The digits with the point at its place; no exponent is ever written. -/
def layout (d : Decimal) : List Char :=
  let text := Nat.toDigits 10 d.digits
  if 0 ≤ d.exponent then text ++ List.replicate d.exponent.toNat '0'
  else
    let places := (-d.exponent).toNat
    if places < text.length then
      text.take (text.length - places) ++ '.' :: text.drop (text.length - places)
    else '0' :: '.' :: List.replicate (places - text.length) '0' ++ text

end Decimal

namespace Dyadic

/-- Exact comparison of `a * 10 ^ i` with `n * 2 ^ j`. -/
def compareScaled (a : Nat) (i : Int) (n : Nat) (j : Int) : Ordering :=
  compare (a * 10 ^ i.toNat * 2 ^ (-j).toNat) (n * 2 ^ j.toNat * 10 ^ (-i).toNat)

/-- The neighbour below is half as far away as the one above: the mantissa is the least of its
binade, and the binade is not the lowest. -/
def narrowBelow (d : Dyadic) : Bool := d.mantissa == 2 ^ 52 && d.exponent > -1074

/-- The decimal lies among the reals that round to the magnitude. -/
def readsBack (d : Dyadic) (c : Decimal) : Bool :=
  let low := if d.narrowBelow then 4 * d.mantissa - 1 else 4 * d.mantissa - 2
  let high := 4 * d.mantissa + 2
  let closed := d.mantissa % 2 == 0
  let atLow := compareScaled c.digits c.exponent low (d.exponent - 2)
  let atHigh := compareScaled c.digits c.exponent high (d.exponent - 2)
  (atLow == .gt || (closed && atLow == .eq)) && (atHigh == .lt || (closed && atHigh == .eq))

/-- The least `k` with the magnitude below `10 ^ k`, from an estimate that is off by one at most. -/
def magnitude (d : Dyadic) : Int :=
  let guess := (d.exponent + (Nat.log2 d.mantissa : Int)) * 30103 / 100000 + 1
  if compareScaled 1 guess d.mantissa d.exponent != .gt then guess + 1
  else if compareScaled 1 (guess - 1) d.mantissa d.exponent == .gt then guess - 1
  else guess

/-- The better of the two neighbours of the magnitude on the grid of multiples of `10 ^ place`, if
one of them reads back. -/
def onGrid? (d : Dyadic) (place : Int) : Option Decimal :=
  let num := d.mantissa * 2 ^ d.exponent.toNat * 10 ^ (-place).toNat
  let den := 2 ^ (-d.exponent).toNat * 10 ^ place.toNat
  let below : Decimal := ⟨num / den, place⟩
  let above : Decimal := ⟨num / den + 1, place⟩
  match d.readsBack below, d.readsBack above with
  | true, true => if 2 * (num % den) < den then some below else some above
  | true, false => some below
  | false, true => some above
  | false, false => none

/-- The magnitude to the last digit. -/
def exactly (d : Dyadic) : Decimal :=
  if 0 ≤ d.exponent then ⟨d.mantissa * 2 ^ d.exponent.toNat, 0⟩
  else ⟨d.mantissa * 5 ^ (-d.exponent).toNat, d.exponent⟩

/-- The fewest digits that read back: one digit is tried first, then two, and so on. -/
def fewest (d : Dyadic) : Decimal :=
  let top := d.magnitude
  match (List.range 17).findSome? (fun n : Nat => d.onGrid? (top - 1 - n)) with
  | some c => c.strip
  | none => d.exactly.strip

end Dyadic

end Resumption
