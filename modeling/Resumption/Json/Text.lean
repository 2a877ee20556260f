import Resumption.Json.Basic
import Resumption.Json.Number
import Resumption.Text.Quoted

/-!
# JSON texts

Strings are written in plain ASCII: any other character becomes one or two escaped units of sixteen
bits.  Reading takes such escapes back, and accepts blanks between all tokens.
-/

namespace Resumption.Json

/-! ## Strings as units -/

def isHigh (u : Nat) : Bool := 0xD800 ≤ u && u < 0xDC00

def isLow (u : Nat) : Bool := 0xDC00 ≤ u && u < 0xE000

/-- The characters that units stand for; a high and a low unit are one character. -/
def ofUnits : List Nat → List Char
  | [] => []
  | [u] => [Char.ofNat u]
  | u :: v :: rest =>
    if isHigh u && isLow v then
      Char.ofNat (0x10000 + (u - 0xD800) * 0x400 + (v - 0xDC00)) :: ofUnits rest
    else Char.ofNat u :: ofUnits (v :: rest)

/-- The units of a character. -/
def units (c : Char) : List Nat :=
  if c.toNat < 0x10000 then [c.toNat]
  else [0xD800 + (c.toNat - 0x10000) / 0x400, 0xDC00 + (c.toNat - 0x10000) % 0x400]

/-! ## Writing -/

def escapeUnit (u : Nat) : List Char := '\\' :: 'u' :: Text.hexadecimal 4 u

def escapeChar (c : Char) : List Char :=
  if c == '"' then ['\\', '"']
  else if c == '\\' then ['\\', '\\']
  else if 0x20 ≤ c.toNat && c.toNat < 0x7F then [c]
  else (units c).flatMap escapeUnit

/-- A string as it stands in a document. -/
def quote (s : String) : String := "\"" ++ String.ofList (s.toList.flatMap escapeChar) ++ "\""

/-! ## Reading -/

def isBlank (c : Char) : Bool := c == ' ' || c == '\t' || c == '\n' || c == '\r'

def skip (s : List Char) : List Char := s.dropWhile isBlank

def hexValue (digits : List Char) : Nat :=
  digits.foldl (fun n c => n * 16 + (Number.digit? 16 c).getD 0) 0

/-- The units of a string up to the closing quote, last one first. -/
def readUnits (acc : List Nat) : List Char → Option (List Nat × List Char)
  | [] => none
  | '"' :: rest => some (acc, rest)
  | '\\' :: 'u' :: a :: b :: c :: d :: rest => readUnits (hexValue [a, b, c, d] :: acc) rest
  | '\\' :: c :: rest => readUnits ((Text.unescape c).toNat :: acc) rest
  | c :: rest => readUnits (c.toNat :: acc) rest

/-- A string, from behind its opening quote. -/
def readString (s : List Char) : Option (String × List Char) :=
  (readUnits [] s).map (fun (units, rest) => (String.ofList (ofUnits units.reverse), rest))

def isNumberChar (c : Char) : Bool :=
  c.isDigit || c == '-' || c == '+' || c == '.' || c == 'e' || c == 'E'

mutual

/-- Reads a document. -/
def readValue : Nat → List Char → Option (Json × List Char)
  | 0, _ => none
  | fuel + 1, s =>
    match skip s with
    | '"' :: rest => (readString rest).map (fun (t, rest) => (.str t, rest))
    | '[' :: rest => readItems fuel [] rest
    | '\x7b' :: rest => readMembers fuel [] rest
    | 't' :: 'r' :: 'u' :: 'e' :: rest => some (.bool true, rest)
    | 'f' :: 'a' :: 'l' :: 's' :: 'e' :: rest => some (.bool false, rest)
    | 'n' :: 'u' :: 'l' :: 'l' :: rest => some (.null, rest)
    | s =>
      let (digits, rest) := s.span isNumberChar
      if digits.isEmpty then none else some (.num (number (String.ofList digits)), rest)

/-- Reads the rest of a list; the items read so far come last one first. -/
def readItems : Nat → List Json → List Char → Option (Json × List Char)
  | 0, _, _ => none
  | fuel + 1, acc, s =>
    match skip s with
    | ']' :: rest => some (.arr acc.reverse, rest)
    | ',' :: rest => readItems fuel acc rest
    | s => do
      let (item, rest) ← readValue fuel s
      readItems fuel (item :: acc) rest

/-- Reads the rest of an object; the members read so far come last one first. -/
def readMembers : Nat → List (String × Json) → List Char → Option (Json × List Char)
  | 0, _, _ => none
  | fuel + 1, acc, s =>
    match skip s with
    | '\x7d' :: rest => some (object acc.reverse, rest)
    | ',' :: rest => readMembers fuel acc rest
    | '"' :: rest => do
      let (name, rest) ← readString rest
      match skip rest with
      | ':' :: rest =>
        let (value, rest) ← readValue fuel rest
        readMembers fuel ((name, value) :: acc) rest
      | _ => none
    | _ => none

end

/-- The document written by a text. -/
def parse? (text : String) : Option Json :=
  let s := text.toList
  match readValue (s.length + 1) s with
  | some (j, rest) => if (skip rest).isEmpty then some j else none
  | none => none

end Resumption.Json
