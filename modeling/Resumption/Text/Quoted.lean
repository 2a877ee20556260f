import Resumption.Number.Text

/-!
# Quoted text

A text is written between double quotes; what would end the quotation, and every control
character, is written as an escape.  Reading accepts more escapes than writing produces: a few
more letters, and any other character after a backslash stands for itself.
-/

namespace Resumption.Text

/-- Lower-case hexadecimal digits, padded with zeros to the width. -/
def hexadecimal (width n : Nat) : List Char :=
  let digits := Nat.toDigits 16 n
  List.replicate (width - digits.length) '0' ++ digits

/-- How one character is written inside quotes. -/
def escape (c : Char) : List Char :=
  if c == '"' then ['\\', '"']
  else if c == '\\' then ['\\', '\\']
  else if c == '\n' then ['\\', 'n']
  else if c == '\t' then ['\\', 't']
  else if c == '\r' then ['\\', 'r']
  else if c.toNat == 0 then ['\\', '0']
  else if c.toNat < 0x20 then '\\' :: 'u' :: hexadecimal 4 c.toNat
  else [c]

/-- The quoted form of a text. -/
def quoteChars (s : List Char) : List Char := '"' :: s.flatMap escape ++ ['"']

def quote (s : String) : String := String.ofList (quoteChars s.toList)

/-- The character that a letter after a backslash stands for. -/
def unescape (c : Char) : Char :=
  if c == 'n' then '\n'
  else if c == 't' then '\t'
  else if c == 'r' then '\r'
  else if c == 'b' then '\x08'
  else if c == 'f' then '\x0c'
  else if c == 'v' then '\x0b'
  else if c == '0' then '\x00'
  else c

/-- The character with the code point written by hexadecimal digits. -/
def codePoint? (digits : List Char) : Option Char :=
  match Number.bounded? 16 (2 ^ 32) digits with
  | some n => if n.isValidChar then some (Char.ofNat n) else none
  | none => none

/-- The text between two quotes.  The error holds the digits of the first escape that names no
character; up to four characters count as its digits. -/
def unquote : List Char → Except (List Char) (List Char)
  | [] => .ok []
  | ['\\'] => .ok ['\\']
  | '\\' :: 'u' :: rest =>
    match codePoint? (rest.take 4) with
    | some c => do return c :: (← unquote (rest.drop 4))
    | none => .error (rest.take 4)
  | '\\' :: c :: rest => do return unescape c :: (← unquote rest)
  | c :: rest => do return c :: (← unquote rest)
termination_by s => s.length
decreasing_by all_goals simp <;> omega

end Resumption.Text
