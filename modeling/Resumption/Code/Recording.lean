import Resumption.Script.Node

/-!
# What is recorded, and when

While a function runs it keeps the results of some of its nodes, and a marker of how far it has
come.  Both ways of running a function keep the same records, so the rule stands here once.
-/

namespace Resumption

open Script

inductive Recording where
  /-- Not recorded: evaluated again when the function is entered once more. -/
  | none
  /-- The marker moves before the operation runs; the result is stored when it returns. -/
  | before
  /-- The result is stored, then the marker moves. -/
  | after
  /-- The result is stored and the marker stays. -/
  | store
deriving Repr, DecidableEq

/-- How the result of a node is recorded.  What `switch`, `for-in`, `catch` and `debugger` record
is theirs to write. -/
def Script.Node.recording : Node → Recording
  | .expr (.call _ _) | .expr (.construct _ _) | .expr (.update _ _ _) => .before
  | .expr (.assign _ _ _) => .after
  | .declarator d => if d.init.isSome then .after else .none
  | .expr (.function _) | .stmt (.function _) => .store
  | _ => .none

end Resumption
