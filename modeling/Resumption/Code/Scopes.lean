import Resumption.Code.Basic
import Resumption.Index.Declarations

/-!
# Static scopes

A picture of the scope chain as it will be at run time: one entry for every link, innermost first.
The number of entries passed over while looking for a name is the number of links to walk.
-/

namespace Resumption.Code

inductive ScopeKind where
  | function | handler | withObject
deriving Repr, DecidableEq

structure ScopeEntry where
  kind : ScopeKind
  names : List String
deriving Repr, DecidableEq

/-- Entries, innermost first. -/
abbrev Scopes := List ScopeEntry

namespace Scopes

/-- The scopes around a function: one record for the bindings it inherits, if there are any. -/
def ofInherited (names : List String) : Scopes :=
  if names.isEmpty then [] else [⟨.function, names⟩]

/-- The place of a name, and how many links out the `with` objects in front of it are. -/
def locate (name : String) : Nat → Scopes → List Nat × Place
  | _, [] => ([], .global)
  | hops, entry :: outer =>
    if entry.kind == .withObject then
      let (withs, place) := locate name (hops + 1) outer
      (hops :: withs, place)
    else if entry.names.contains name then ([], .slot hops)
    else locate name (hops + 1) outer

/-- What a name refers to. -/
def resolve (scopes : Scopes) (name : String) : Ref :=
  if Script.isEscaped name then .free name
  else
    match locate name 0 scopes with
    | ([], place) => .fixed place name
    | (withs, place) => .dynamic withs place name

/-- A link up to the innermost function binds the name. -/
def bindsLocally (name : String) : Scopes → Bool
  | [] => false
  | entry :: outer =>
    entry.names.contains name || (entry.kind != .function && bindsLocally name outer)

/-- A name in an expression.  The name of the argument list means the argument list unless
something closer than the enclosing function's end binds it. -/
def read (scopes : Scopes) (name : String) : Expr :=
  if name == argumentsName && !bindsLocally name scopes then .arguments
  else .ref (scopes.resolve name)

end Scopes

end Resumption.Code
