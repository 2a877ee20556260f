import Resumption.Number.Text

/-!
# Numbers in JSON texts

An integer that fits into 64 bits is the number nearest to it.  Any other number is made of the
digits that fit into 64 bits, scaled by a power of ten in one step; below the range of the powers
it takes several.  So the last digit of a long number may differ from that of the nearest number.
-/

namespace Resumption.Json

/-- Collects digits as long as the result fits into 64 bits, and counts them. -/
def collect (n kept : Nat) : List Char → Nat × Nat × Bool
  | [] => (n, kept, false)
  | c :: rest =>
    let next := n * 10 + (Number.digit? 10 c).getD 0
    if next < 2 ^ 64 then collect next (kept + 1) rest else (n, kept, true)

def signed? (s : List Char) : Option Int :=
  match s with
  | '-' :: digits => (Number.natural? 10 digits).map (fun n => -(n : Int))
  | '+' :: digits => (Number.natural? 10 digits).map (fun n => (n : Int))
  | digits => (Number.natural? 10 digits).map (fun n => (n : Int))

/-- The digits and the power of ten of an unsigned number. -/
def significand (s : List Char) : Nat × Int :=
  let (mantissa, exponent) := s.span (fun c => c != 'e' && c != 'E')
  let (whole, fraction) := mantissa.span (fun c => c != '.')
  let e := (signed? (exponent.drop 1)).getD 0
  let (n, kept, full) := collect 0 0 whole
  let e := e + ((whole.length - kept : Nat) : Int)
  if full then (n, e)
  else
    let (n, kept, _) := collect n 0 (fraction.drop 1)
    (n, e - (kept : Int))

/-- The largest power of ten that is a number. -/
def largestPower : Nat := 308

/-- A power of ten; beyond the largest one it is infinite. -/
def power (n : Nat) : Float :=
  if n ≤ largestPower then Float.ofScientific 1 false n else Number.infinity

/-- Divides by a power of ten in as few steps as possible. -/
def divide (x : Float) : Nat → Nat → Float
  | 0, _ => x
  | steps + 1, e =>
    if e ≤ largestPower then x / power e
    else divide (x / power largestPower) steps (e - largestPower)

def scale (x : Float) (e : Int) : Float :=
  if x == 0 then x
  else if 0 ≤ e then x * power e.toNat
  else divide x (e.natAbs / largestPower + 1) e.natAbs

/-- The number written by a text. -/
def number (text : String) : Float :=
  let (negative, digits) := match text.toList with
    | '-' :: rest => (true, rest)
    | rest => (false, rest)
  let scaled := fun _ : Unit =>
    let (n, e) := significand digits
    scale (Number.ofNat n) e
  let x := match Number.natural? 10 digits with
    | some n =>
      if n < 2 ^ 63 || (!negative && n < 2 ^ 64) then Number.ofNat n else scaled ()
    | none => scaled ()
  if negative then -x else x

end Resumption.Json
