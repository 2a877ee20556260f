import Resumption.Text.Quoted
import Resumption.Text.Visible

/-!
# Spelled text

The form in which diagnostics show a text: quoted, with short escapes for the common control
characters and the code point of everything else that cannot be shown.
-/

namespace Resumption.Text

/-- How one character is shown in a diagnostic. -/
def spellChar (c : Char) : List Char :=
  if c == '"' then ['\\', '"']
  else if c == '\\' then ['\\', '\\']
  else if c == '\n' then ['\\', 'n']
  else if c == '\t' then ['\\', 't']
  else if c == '\r' then ['\\', 'r']
  else if c.toNat == 0 then ['\\', '0']
  else if isVisible c then [c]
  else '\\' :: 'u' :: '\x7b' :: hexadecimal 1 c.toNat ++ ['\x7d']

/-- The spelled form of a text. -/
def spell (s : String) : String := String.ofList ('"' :: s.toList.flatMap spellChar ++ ['"'])

end Resumption.Text
