import Resumption.Number.Digits

/-!
# Numbers as text

Writing: a whole number below `10 ^ 21` is written out in full, anything else with the fewest
digits that read back, always positionally.  Zero has no sign in text.

Reading: a decimal with an optional sign, an optional fraction and an optional exponent, rounded
once.  Which words stand for the infinities depends on who is reading, so that is left to the
callers.
-/

namespace Resumption.Number

/-- The text of a number. -/
def text (x : Float) : String :=
  match Dyadic.ofFloat? x with
  | none => if x.isNaN then "NaN" else if x < 0 then "-Infinity" else "Infinity"
  | some d =>
    if d.mantissa == 0 then "0"
    else
      let digits :=
        if d.isWhole && d.whole < 10 ^ 21 then Nat.toDigits 10 d.whole else d.fewest.layout
      String.ofList (if d.negative then '-' :: digits else digits)

/-- The text of a number that shows the sign of zero. -/
def signedText (x : Float) : String :=
  if x == 0 && isNegative x then "-0" else text x

/-- The value of one digit below the base. -/
def digit? (base : Nat) (c : Char) : Option Nat :=
  let value :=
    if '0' ≤ c ∧ c ≤ '9' then some (c.toNat - '0'.toNat)
    else if 'a' ≤ c ∧ c ≤ 'z' then some (c.toNat - 'a'.toNat + 10)
    else if 'A' ≤ c ∧ c ≤ 'Z' then some (c.toNat - 'A'.toNat + 10)
    else none
  value.filter (· < base)

/-- The natural number written by digits alone, at least one of them. -/
def natural? (base : Nat) (digits : List Char) : Option Nat :=
  if digits.isEmpty then none
  else digits.foldlM (fun n c => (digit? base c).map (n * base + ·)) 0

/-- A natural number below the bound, with an optional plus sign in front. -/
def bounded? (base bound : Nat) (digits : List Char) : Option Nat :=
  let unsigned := match digits with
    | '+' :: rest => rest
    | _ => digits
  (natural? base unsigned).filter (· < bound)

/-- The number nearest to `digits * 10 ^ exponent`.  Exponents beyond every number are cut off
first: the power would only be computed to be thrown away. -/
def ofDecimal (digits : Nat) (exponent : Int) : Float :=
  if digits == 0 then 0
  else
    let size : Int := (Nat.toDigits 10 digits).length + exponent
    if size > 400 then infinity
    else if size < -400 then 0
    else Float.ofScientific digits (exponent < 0) exponent.natAbs

/-- Splits off the longest run of decimal digits. -/
def spanDigits (s : List Char) : List Char × List Char := s.span Char.isDigit

/-- The exponent at the end of a decimal; nothing may follow it. -/
def exponent? : List Char → Option Int
  | [] => some 0
  | c :: rest =>
    if c == 'e' || c == 'E' then
      match rest with
      | '-' :: digits => (natural? 10 digits).map (fun n => -(n : Int))
      | '+' :: digits => (natural? 10 digits).map (fun n => (n : Int))
      | digits => (natural? 10 digits).map (fun n => (n : Int))
    else none

/-- A decimal without a sign: digits with an optional fraction, at least one digit in all, and an
optional exponent. -/
def unsigned? (s : List Char) : Option Float :=
  let (whole, rest) := spanDigits s
  let (fraction, rest) := match rest with
    | '.' :: tail => spanDigits tail
    | _ => ([], rest)
  match natural? 10 (whole ++ fraction), exponent? rest with
  | some digits, some e => some (ofDecimal digits (e - fraction.length))
  | _, _ => none

/-- A decimal with an optional sign. -/
def decimal? : List Char → Option Float
  | '-' :: rest => (unsigned? rest).map (fun x => -x)
  | '+' :: rest => unsigned? rest
  | s => unsigned? s

/-- A decimal, or a word for an infinity or for a number that is none, in any letter case. -/
def decimalOrWord? (s : List Char) : Option Float :=
  let (negative, body) := match s with
    | '-' :: rest => (true, rest)
    | '+' :: rest => (false, rest)
    | _ => (false, s)
  let word := String.ofList (body.map Char.toLower)
  let magnitude :=
    if word == "inf" || word == "infinity" then some infinity
    else if word == "nan" then some nan
    else unsigned? body
  magnitude.map (fun x => if negative then -x else x)

end Resumption.Number
