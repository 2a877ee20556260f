/-!
# Configuration
-/

namespace Resumption

structure Config where
  /-- `debugger` statements and hooks pause a script. -/
  debuggingEnabled : Bool
  /-- The instrumented array methods stand in for the others while a script can be paused. -/
  debugBuiltins : Bool
  /-- The name space of the code a machine compiles. -/
  ns : String
  /-- The number of calls that may be open at a time. -/
  maxCallDepth : Nat
  logFilter : String
deriving Repr, DecidableEq

def Config.default : Config := ⟨true, true, "default", 256, "warn"⟩

end Resumption
