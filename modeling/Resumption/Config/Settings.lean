import Resumption.Config.Basic
import Resumption.Number.Text
import Resumption.Text.Quoted

/-!
# Settings

Configuration files consist of lines `key = value`, where a value is a text between double quotes,
an integer or a boolean.  A value of another type than the one asked for is converted where it has
an obvious reading.
-/

namespace Resumption

inductive Setting where
  | text (s : String)
  | integer (n : Int)
  | boolean (b : Bool)
deriving Repr, DecidableEq

namespace Setting

def isBlank (c : Char) : Bool := c == ' ' || c == '\t' || c == '\r'

/-- A line without the blanks around it. -/
def strip (line : List Char) : List Char :=
  ((line.dropWhile isBlank).reverse.dropWhile isBlank).reverse

def isKeyChar (c : Char) : Bool := c.isAlphanum || c == '_' || c == '-'

/-- Decimal digits without a leading zero. -/
def magnitude? (digits : List Char) : Option Nat :=
  match digits with
  | '0' :: _ :: _ => none
  | _ => Number.natural? 10 digits

/-- An integer of 64 bits. -/
def integer? (s : List Char) : Option Int :=
  let n : Option Int := match s with
    | '-' :: digits => (magnitude? digits).map (fun n => -(n : Int))
    | '+' :: digits => (magnitude? digits).map (fun n => (n : Int))
    | digits => (magnitude? digits).map (fun n => (n : Int))
  n.filter (fun n => -(2 ^ 63) ≤ n && n < 2 ^ 63)

/-- The value written by a text. -/
def ofChars? (s : List Char) : Option Setting :=
  match s with
  | '"' :: rest =>
    match rest.span (fun c => c != '"') with
    | (body, ['"']) =>
      if body.all (fun c => c != '\\' && 0x20 ≤ c.toNat) then some (.text (String.ofList body))
      else none
    | _ => none
  | _ =>
    match String.ofList s with
    | "true" => some (.boolean true)
    | "false" => some (.boolean false)
    | _ => (integer? s).map .integer

/-- The key and the value of a line.  A line may be blank or hold a comment. -/
def ofLine? (line : List Char) : Option (Option (String × Setting)) :=
  match strip line with
  | [] => some none
  | '#' :: _ => some none
  | line =>
    let (key, rest) := line.span isKeyChar
    if key.isEmpty then none
    else
      match strip rest with
      | '=' :: value =>
        (ofChars? (strip value)).map (fun v => some (String.ofList key, v))
      | _ => none

/-- Reads lines one after another; no key may be set twice. -/
def ofLines? : List (List Char) → List (String × Setting) → Option (List (String × Setting))
  | [], settings => some settings
  | line :: rest, settings =>
    match ofLine? line with
    | none => none
    | some none => ofLines? rest settings
    | some (some (key, v)) =>
      if (settings.lookup key).isSome then none else ofLines? rest (settings ++ [(key, v)])

/-- The settings of a file. -/
def ofText? (s : String) : Option (List (String × Setting)) :=
  ofLines? (s.toList.splitOn '\n') []

/-! ## Conversions -/

/-- What a word says. -/
def word? (s : String) : Option Bool :=
  match String.ofList (s.toList.map Char.toLower) with
  | "true" | "on" | "yes" => some true
  | "false" | "off" | "no" => some false
  | _ => none

def toBool? : Setting → Option Bool
  | .boolean b => some b
  | .integer n => some (n != 0)
  | .text "1" => some true
  | .text "0" => some false
  | .text s => word? s

def toNat? : Setting → Option Nat
  | .boolean b => some b.toNat
  | .integer n => if 0 ≤ n then some n.toNat else none
  | .text s =>
    match word? s with
    | some b => some b.toNat
    | none => Number.bounded? 10 (2 ^ 64) s.toList

def toText : Setting → String
  | .text s => s
  | .boolean b => if b then "true" else "false"
  | .integer n => toString n

/-! ## Writing -/

/-- How one character is written in a text. -/
def escape (c : Char) : List Char :=
  if c == '"' then ['\\', '"']
  else if c == '\\' then ['\\', '\\']
  else if c == '\x08' then ['\\', 'b']
  else if c == '\t' then ['\\', 't']
  else if c == '\n' then ['\n']
  else if c == '\x0c' then ['\\', 'f']
  else if c == '\r' then ['\\', 'r']
  else if c.toNat < 0x20 || c.toNat == 0x7F then
    '\\' :: 'u' :: (Text.hexadecimal 4 c.toNat).map Char.toUpper
  else [c]

/-- A text as a value.  Where nothing has to be escaped it stands between double quotes; one with
double quotes or backslashes stands between single quotes if that is possible; one of several
lines stands between triple quotes. -/
def quote (s : String) : String :=
  let cs := s.toList
  let asIs := fun (c : Char) => c != '\x27' && c.toNat != 0x7F && (0x20 ≤ c.toNat || c == '\t')
  let body := String.ofList (cs.flatMap escape)
  if cs.contains '\n' then "\"\"\"\n" ++ body ++ "\"\"\""
  else if (cs.contains '"' || cs.contains '\\') && cs.all asIs then "'" ++ s ++ "'"
  else "\"" ++ body ++ "\""

def render : Setting → String
  | .text s => quote s
  | .boolean b => if b then "true" else "false"
  | .integer n => toString n

end Setting

namespace Config

def debuggingEnabledKey : String := "debugging_enabled"

def debugBuiltinsKey : String := "debug_builtins"

def namespaceKey : String := "namespace"

def maxCallDepthKey : String := "max_call_depth"

def logFilterKey : String := "log_filter"

/-- The configuration as settings. -/
def settings (c : Config) : List (String × Setting) :=
  [(debuggingEnabledKey, .boolean c.debuggingEnabled), (debugBuiltinsKey, .boolean c.debugBuiltins),
   (namespaceKey, .text c.ns), (maxCallDepthKey, .integer c.maxCallDepth),
   (logFilterKey, .text c.logFilter)]

/-- The configuration as the text of a file. -/
def render (c : Config) : String :=
  String.join (c.settings.map (fun (key, v) => key ++ " = " ++ v.render ++ "\n"))

end Config

end Resumption
