/-!
# JSON documents

Trees of lists and of members with names.  The members of an object are kept in ascending order of
their names, and there is one for each name.
-/

namespace Resumption

inductive Json where
  | null
  | bool (b : Bool)
  | num (x : Float)
  | str (s : String)
  | arr (items : List Json)
  | obj (members : List (String × Json))

namespace Json

instance : Inhabited Json := ⟨.null⟩

/-- Adds a member at its place; an earlier one of that name is replaced. -/
def insert (name : String) (value : Json) : List (String × Json) → List (String × Json)
  | [] => [(name, value)]
  | (n, v) :: rest =>
    if name < n then (name, value) :: (n, v) :: rest
    else if name == n then (name, value) :: rest
    else (n, v) :: insert name value rest

/-- The object with the given members. -/
def object (members : List (String × Json)) : Json :=
  .obj (members.foldl (fun sorted (n, v) => insert n v sorted) [])

/-- A member of an object. -/
def get? (name : String) : Json → Option Json
  | .obj members => members.lookup name
  | _ => none

/-- A member that is there and is not null. -/
def present? (name : String) (j : Json) : Option Json :=
  match j.get? name with
  | none | some .null => none
  | found => found

def text? : Json → Option String
  | .str s => some s
  | _ => none

def items : Json → List Json
  | .arr items => items
  | _ => []

/-- The items of a member that is a list. -/
def list (name : String) (j : Json) : List Json := ((j.get? name).map items).getD []

mutual

/-- How deep the document is nested. -/
def depth : Json → Nat
  | .arr items => listDepth items + 1
  | .obj members => membersDepth members + 1
  | .null | .bool _ | .num _ | .str _ => 1
termination_by structural j => j

def listDepth : List Json → Nat
  | [] => 0
  | j :: rest => max j.depth (listDepth rest)
termination_by structural l => l

def memberDepth : String × Json → Nat
  | (_, j) => j.depth
termination_by structural m => m

def membersDepth : List (String × Json) → Nat
  | [] => 0
  | m :: rest => max (memberDepth m) (membersDepth rest)
termination_by structural l => l

end

end Json

end Resumption
