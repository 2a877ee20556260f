/-!
# Refusals

Why a source text is not a program.  The grammar may not fit at all; or it fits, and some piece of
the tree it describes makes no sense.  The first kind is always reported before the second.
-/

namespace Resumption.Script

/-- A piece of a well-formed text that cannot become a tree. -/
inductive Fault where
  | assignmentTarget (op : String)
  | updateOperand
  | bareTry
  | number (text : String)
  | escape (digits : String)
  | notOneFunction
  | notOneExpression
deriving Repr, DecidableEq

def Fault.message : Fault → String
  | .assignmentTarget op => "invalid assignment target near '" ++ op ++ "'"
  | .updateOperand => "invalid increment/decrement operand"
  | .bareTry => "try statement needs a catch or finally clause"
  | .number text => "invalid number literal " ++ text
  | .escape digits => "invalid escape \\u" ++ digits
  | .notOneFunction => "expected a single function definition"
  | .notOneExpression => "expected a single expression"

inductive ParseError where
  /-- The text does not fit the grammar. -/
  | malformed
  /-- The text fits, but a piece of it makes no sense. -/
  | invalid (fault : Fault)
deriving Repr, DecidableEq

def ParseError.message : ParseError → String
  | .malformed => "syntax error"
  | .invalid fault => "invalid program: " ++ fault.message

/-- A tree, or the fault that comes first in the text. -/
abbrev Built (α : Type) := Except Fault α

/-- A list of trees; the first fault wins. -/
def Built.all {α : Type} : List (Built α) → Built (List α)
  | [] => .ok []
  | x :: xs => do
    let a ← x
    let as ← Built.all xs
    return a :: as

/-- A part that may be absent. -/
def Built.option {α : Type} : Option (Built α) → Built (Option α)
  | none => .ok none
  | some x => do return some (← x)

end Resumption.Script
