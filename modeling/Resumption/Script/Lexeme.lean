import Resumption.Number.Text
import Resumption.Text.Quoted

/-!
# Lexemes

The smallest pieces of source text.  Everything here reads from the front of the text and hands
back the rest.  A lexeme absorbs the blanks and comments in front of it, so a rule of the grammar
never has to say where blanks may stand.  Words are delimited by what follows them: `inner` does
not begin with the word `in`.
-/

namespace Resumption.Script

namespace Lexeme

def isBlank (c : Char) : Bool := c == ' ' || c == '\t' || c == '\r' || c == '\n'

/-- The text after the end of a bracketed comment. -/
def closing? : List Char → Option (List Char)
  | [] => none
  | '*' :: '/' :: rest => some rest
  | _ :: rest => closing? rest

/-- The text after a comment.  A bracketed comment that is never closed is none. -/
def comment? : List Char → Option (List Char)
  | '/' :: '/' :: rest => some (rest.dropWhile (· != '\n'))
  | '/' :: '*' :: rest => closing? rest
  | _ => none

theorem length_closing? {s r : List Char} (h : closing? s = some r) : r.length < s.length := by
  fun_induction closing? s with
  | case1 => simp at h
  | case2 rest => cases h; simp <;> omega
  | case3 c rest _ ih => have := ih h; simp <;> omega

theorem length_dropWhile_le (p : Char → Bool) (s : List Char) :
    (s.dropWhile p).length ≤ s.length :=
  (List.dropWhile_suffix p).length_le

theorem length_comment? {s r : List Char} (h : comment? s = some r) : r.length < s.length := by
  unfold comment? at h
  split at h
  · next rest =>
      cases h
      have := length_dropWhile_le (· != '\n') rest
      simp <;> omega
  · next rest =>
      have := length_closing? h
      simp <;> omega
  · simp at h

/-- The text without the blanks and comments at its front. -/
def skip (s : List Char) : List Char :=
  match _h : comment? (s.dropWhile isBlank) with
  | none => s.dropWhile isBlank
  | some rest => skip rest
termination_by s.length
decreasing_by
  have := length_comment? _h
  have := length_dropWhile_le isBlank s
  omega

/-- The text after a literal beginning. -/
def after? : List Char → List Char → Option (List Char)
  | [], s => some s
  | c :: cs, d :: s => if c == d then after? cs s else none
  | _ :: _, [] => none

theorem after?_append (t s : List Char) : after? t (t ++ s) = some s := by
  induction t with
  | nil => rfl
  | cons c t ih => simp [after?, ih]

/-- The text after a mark. -/
@[inline]
def mark (text : String) (s : List Char) : Option (List Char) := after? text.toList (skip s)

/-- The next character, if there is one, fails the test. -/
def endsBefore (test : Char → Bool) : List Char → Bool
  | [] => true
  | c :: _ => !test c

/-- A mark that some characters may not follow. -/
@[inline]
def markBefore (text : String) (barred : Char → Bool) (s : List Char) : Option (List Char) :=
  (mark text s).filter (endsBefore barred)

def isNameStart (c : Char) : Bool := c.isAlpha || c == '_' || c == '$'

def isNameChar (c : Char) : Bool := c.isAlphanum || c == '_' || c == '$'

/-- A word of the language. -/
@[inline]
def keyword (word : String) (s : List Char) : Option (List Char) := markBefore word isNameChar s

/-- The words that cannot be names. -/
def reserved : List String :=
  ["var", "function", "return", "if", "else", "for", "instanceof", "in", "while", "do", "break",
   "continue", "throw", "try", "catch", "finally", "switch", "case", "default", "with", "debugger",
   "new", "this", "typeof", "void", "delete", "true", "false", "null"]

/-- A name after a dot or in front of a colon: reserved words are as good as any. -/
def propertyName (s : List Char) : Option (String × List Char) :=
  match skip s with
  | [] => none
  | c :: rest =>
    if isNameStart c then
      some (String.ofList (c :: rest.takeWhile isNameChar), rest.dropWhile isNameChar)
    else none

/-- A name of a variable, a function or a label. -/
def identifier (s : List Char) : Option (String × List Char) :=
  (propertyName s).filter (fun found => !reserved.contains found.1)

def isHexDigit (c : Char) : Bool := (Number.digit? 16 c).isSome

/-- A run of at least one character of a class. -/
def run (test : Char → Bool) (s : List Char) : Option (List Char × List Char) :=
  match s.span test with
  | ([], _) => none
  | found => some found

def hexNumber : List Char → Option (List Char × List Char)
  | '0' :: x :: rest =>
    if x == 'x' || x == 'X' then
      (run isHexDigit rest).map (fun (digits, rest) => ('0' :: x :: digits, rest))
    else none
  | _ => none

/-- An exponent, or nothing. -/
def exponent (s : List Char) : List Char × List Char :=
  match s with
  | [] => ([], s)
  | e :: rest =>
    if e == 'e' || e == 'E' then
      let (sign, rest) := match rest with
        | c :: more => if c == '+' || c == '-' then ([c], more) else ([], rest)
        | [] => ([], rest)
      match run Char.isDigit rest with
      | some (digits, rest) => (e :: sign ++ digits, rest)
      | none => ([], s)
    else ([], s)

def decimalNumber (s : List Char) : Option (List Char × List Char) :=
  let body := match run Char.isDigit s with
    | some (whole, '.' :: rest) =>
      let (fraction, rest) := rest.span Char.isDigit
      some (whole ++ '.' :: fraction, rest)
    | some found => some found
    | none =>
      match s with
      | '.' :: rest => (run Char.isDigit rest).map (fun (digits, rest) => ('.' :: digits, rest))
      | _ => none
  body.map (fun (digits, rest) =>
    let (power, rest) := exponent rest
    (digits ++ power, rest))

/-- The text of a number literal. -/
def number (s : List Char) : Option (List Char × List Char) :=
  let s := skip s
  (hexNumber s).or (decimalNumber s)

/-- The text between quotes, its escapes not yet read.  A backslash shields any character, a line
break included. -/
def quotedBody (quote : Char) : List Char → Option (List Char × List Char)
  | [] => none
  | '\\' :: c :: rest => (quotedBody quote rest).map (fun (body, rest) => ('\\' :: c :: body, rest))
  | c :: rest =>
    if c == quote then some ([], rest)
    else if c == '\\' || c == '\n' then none
    else (quotedBody quote rest).map (fun (body, rest) => (c :: body, rest))

/-- The text of a string literal without its quotes. -/
def string (s : List Char) : Option (List Char × List Char) :=
  match skip s with
  | c :: rest => if c == '"' || c == '\x27' then quotedBody c rest else none
  | [] => none

end Lexeme

end Resumption.Script
