import Resumption.Value.Heap

/-!
# Scope chains

A chain is a list of links, innermost first, so a link together with everything outside of it is a
suffix of the chain.
-/

namespace Resumption

/-- The link binds the name.  Records of functions and `catch` clauses hold their names themselves;
a `with` object may inherit them. -/
def Link.binds (h : Heap) (name : String) (link : Link) : Bool :=
  match link.kind with
  | .function | .handler => (h.object link.record).hasOwn name
  | .withObject => h.hasProperty name link.record

namespace Chain

/-- The chain from the innermost link on that binds the name. -/
def find? (h : Heap) (name : String) : Chain → Option Chain
  | [] => none
  | link :: outer => if link.binds h name then some (link :: outer) else find? h name outer

/-- The record that binds the name. -/
def recordOf? (h : Heap) (name : String) (chain : Chain) : Option Address :=
  (find? h name chain).bind (fun c => c.head?.map (fun link => link.record))

/-- The chain that many steps outwards, if there is a link. -/
def ancestor? (hops : Nat) (chain : Chain) : Option Chain :=
  match chain.drop hops with
  | [] => none
  | outer => some outer

/-- The chain from the innermost function on, and the links inside of that function, outermost
first. -/
def split : Chain → Chain × List Link
  | [] => ([], [])
  | [link] => ([link], [])
  | link :: outer =>
    if link.kind == .function then (link :: outer, [])
    else
      let (scope, pending) := split outer
      (scope, pending ++ [link])

/-- The innermost link in words. -/
def describe (chain : Chain) : String :=
  let kind := match chain with
    | [] => ""
    | link :: _ => link.kind.name
  "Link \x7b kind: " ++ kind ++ ", depth: " ++ toString chain.length ++ " \x7d"

end Chain

end Resumption
