import Resumption.Text.Blank
import Resumption.Text.Quoted
import Resumption.Text.Spelled
import Resumption.Value.Heap

/-!
# Conversions

Values as texts and as numbers.  The text of an array is made of the texts of its elements, where an
array inside itself contributes nothing; the text of an error is made of its name and its message,
and these are converted from the start.  So an error that is its own message has no text at all,
and the conversions say so.
-/

namespace Resumption

/-- The number that a text writes for a script. -/
def textNumber (s : String) : Float :=
  let s := Text.trim s.toList
  match s with
  | [] => 0
  | '0' :: 'x' :: digits | '0' :: 'X' :: digits =>
    match Number.bounded? 16 (2 ^ 64) digits with
    | some n => Number.ofNat n
    | none => Number.nan
  | _ =>
    let word := String.ofList s
    if word == "Infinity" || word == "+Infinity" then Number.infinity
    else if word == "-Infinity" then -Number.infinity
    else (Number.decimal? s).getD Number.nan

namespace Heap

/-- The text of a value without looking at objects. -/
def plainText : Value → String
  | .undefined => "undefined"
  | .null => "null"
  | .bool b => if b then "true" else "false"
  | .num x => Number.text x
  | .str s => s
  | .object _ => ""

/-- The data slot a key leads to, if it leads to one. -/
def findData? (h : Heap) (key : String) (a : Address) : Option Value :=
  match h.find? key a with
  | some (.data v) => some v
  | _ => none

/-- An error's text from its name and its message. -/
def errorText (name message : String) : String :=
  if message.isEmpty then name else name ++ ": " ++ message

/-- The text of an object; `seen` are the arrays that it is part of.  The depth bounds how far
objects are followed. -/
def objectText? (h : Heap) : Nat → List Address → Address → Option String
  | 0, _, _ => none
  | depth + 1, seen, a =>
    if seen.contains a then some ""
    else
      let fresh := fun (v : Value) => match v with
        | .object b => objectText? h depth [] b
        | v => some (plainText v)
      let item := fun (v : Value) => match v with
        | .undefined | .null => some ""
        | .object b => objectText? h depth (a :: seen) b
        | v => some (plainText v)
      match (h.object a).kind with
      | .array items => do
        let parts ← items.toList.mapM item
        return ",".intercalate parts
      | .function f => some ("function " ++ f.name ++ "() \x7b [code] \x7d")
      | .error => do
        let name ← match h.findData? "name" a with
          | some v => fresh v
          | none => some "Error"
        let message ← match h.findData? "message" a with
          | some v => fresh v
          | none => some ""
        return errorText name message
      | .plain => some "[object Object]"

/-- A walk that comes back to an error never ends, and between two errors no array occurs twice: a
walk that ends is not deeper than this. -/
def textDepth (h : Heap) : Nat := (h.size + 1) * (h.size + 1)

/-- The text of a value; none if the conversion does not end. -/
def text? (h : Heap) : Value → Option String
  | .object a => h.objectText? h.textDepth [] a
  | v => some (plainText v)

/-- The number of a value. -/
def number? (h : Heap) : Value → Option Float
  | .undefined => some Number.nan
  | .null => some 0
  | .bool b => some (if b then 1 else 0)
  | .num x => some x
  | .str s => some (textNumber s)
  | .object a => (h.text? (.object a)).map textNumber

/-- The value as an unsigned word. -/
def word? (h : Heap) (v : Value) : Option UInt32 := (h.number? v).map Number.toWord

/-- The value as a signed word. -/
def signedWord? (h : Heap) (v : Value) : Option Int32 := (h.word? v).map UInt32.toInt32

/-- The value of an operand: objects become texts. -/
def primitive? (h : Heap) : Value → Option Value
  | .object a => (h.text? (.object a)).map .str
  | v => some v

/-! ## Texts for people -/

/-- A value as people want to see it: texts quoted, arrays and objects opened up to a depth. -/
def inspectTo? (h : Heap) : Nat → Value → Option String
  | depth, .object a =>
    match (h.object a).kind, depth with
    | .array items, depth + 1 => do
      let parts ← items.toList.mapM (inspectTo? h depth)
      return "[" ++ ", ".intercalate parts ++ "]"
    | .plain, depth + 1 => do
      let parts ← (h.object a).entries.mapM (fun (k, v) => do
        return k ++ ": " ++ (← inspectTo? h depth v))
      if parts.isEmpty then return "\x7b\x7d"
      else return "\x7b " ++ ", ".intercalate parts ++ " \x7d"
    | .array _, 0 => some "[Array]"
    | .plain, 0 => some "[Object]"
    | _, _ => h.text? (.object a)
  | _, .str s => some (Text.quote s)
  | _, v => some (plainText v)

def inspect? (h : Heap) (v : Value) : Option String := h.inspectTo? 2 v

/-- A value as programmers want to see it, one object deep.  Only an error shows a value inside:
its message. -/
def spellTo (h : Heap) : Nat → Value → String
  | _, .str s => Text.spell s
  | 0, .object _ => ""
  | depth + 1, .object a =>
    let o := h.object a
    match o.kind with
    | .plain => "[object Object [" ++ ", ".intercalate (o.keys.map Text.spell) ++ "]]"
    | .array items => "[object Array(" ++ toString items.size ++ ")]"
    | .function f => "[function " ++ f.name ++ "]"
    | .error =>
      match o.getOwn? "message" with
      | some v => "[object Error Some(" ++ spellTo h depth v ++ ")]"
      | none => "[object Error None]"
  | _, v => plainText v

def spell (h : Heap) (v : Value) : String := h.spellTo (h.size + 1) v

/-! ## Writing -/

/-- Creates or overwrites an own value.  The length of an array takes the value as a number, and
nothing happens if that is no length. -/
def setOwn? (h : Heap) (a : Address) (key : String) (value : Value) : Option Heap :=
  if key == lengthKey && (h.object a).isArray then do
    let n ← h.number? value
    return h.modify a (fun o => o.setLength n)
  else some (h.modify a (fun o => o.setOwn key value))

end Heap

end Resumption
