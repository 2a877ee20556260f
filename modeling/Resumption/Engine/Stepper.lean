import Resumption.Code.Recording
import Resumption.Engine.Construct
import Resumption.Index.Registry

/-!
# Walking source trees

The other way of running a function: its source tree is walked, names are looked up along the scope
chain, and a hook may halt it before each statement.

A function that was interrupted is taken up again by walking it from its beginning.  As long as the
position to get back to lies ahead, finished nodes give the results they recorded, and nodes that
contain the position are entered without looking at anything else.  Once the position is reached
the walk goes on as usual.
-/

namespace Resumption.Stepper

open Script
open ActM

/-! ## Getting back -/

/-- Where a node stands with regard to the position to get back to. -/
inductive Resume where
  /-- There is none, or it is behind. -/
  | fresh
  /-- Here, with the result it waits for, if that is there. -/
  | here (v : Option Value)
  /-- Ahead; the node was finished, with its result if that was recorded. -/
  | finished (v : Option Value)
  /-- Inside of the node. -/
  | inside (pc : Nat)

namespace Resume

/-- The result that the node has already. -/
def result? : Resume → Option Value
  | .here v | .finished v => v
  | .inside _ | .fresh => none

/-- The position to get back to, if it is inside of the node. -/
def entry : Resume → Option Nat
  | .inside pc => some pc
  | _ => none

/-- Nothing is left to do at the node. -/
def isDone : Resume → Bool
  | .finished _ => true
  | .here v => v.isSome
  | .inside _ | .fresh => false

end Resume

def resumeState (t : IndexedTree) (i : Nat) : ActM Resume := do
  match (← activation).pc with
  | none => return .fresh
  | some pc =>
    if i == pc then
      clearPc
      return .here (← cached? i)
    else if t.contains i pc then return .inside pc
    else if pc < i then
      clearPc
      return .fresh
    else return .finished (← cached? i)

/-- The position to get back to is inside of the node at `i`. -/
def entering (t : IndexedTree) (entry : Option Nat) (i : Nat) : Bool :=
  match entry with
  | some pc => t.contains i pc
  | none => false

/-- Takes the next link to re-enter. -/
def popPending : ActM (Option Link) := do
  match (← activation).pending with
  | [] => return none
  | link :: rest =>
    update (fun act => { act with pending := rest })
    return some link

/-! ## Names -/

/-- The record that binds a name. -/
def recordOf? (name : String) : ActM (Option Address) := do
  let chain ← chain
  lift (Machine.ask (fun h => Chain.recordOf? h name chain))

def lookup (env : Env) (name : String) : ActM Value := do
  match ← recordOf? name with
  | some a => lift (Machine.getProperty env.invoke (.object a) name)
  | none =>
    if name == argumentsName then argumentsObject env
    else lift (Machine.readGlobal env.invoke name)

def resolvable (name : String) : ActM Bool := do
  if (← recordOf? name).isSome || name == argumentsName then return true
  else lift (Machine.hasGlobal name)

def assignName (env : Env) (name : String) (v : Value) : ActM Unit := do
  match ← recordOf? name with
  | some a => lift (Machine.putProperty env.invoke (.object a) name v)
  | none => lift (Machine.writeGlobal env.invoke name v)

/-- A closure of a function at a position.  One that asks for it runs without books and without
scopes. -/
def makeClosure (env : Env) (t : IndexedTree) (i : Nat) (f : Func) : ActM Value := do
  let chain ← chain
  let closure : SteppedClosure :=
    if f.isEscaped then ⟨t, i, [], .plain, env.registry⟩
    else ⟨t, i, chain, if env.records then .recording else .plain, env.registry⟩
  lift (Machine.newFunction (.stepped closure))

/-! ## Expressions -/

/-- What a written value goes to. -/
inductive Spot where
  | name (name : String)
  | member (object : Value) (key : String)

def readSpot (env : Env) : Spot → ActM Value
  | .name name => lookup env name
  | .member object key => lift (Machine.getProperty env.invoke object key)

def writeSpot (env : Env) (spot : Spot) (v : Value) : ActM Unit :=
  match spot with
  | .name name => assignName env name v
  | .member object key => lift (Machine.putProperty env.invoke object key v)

/-- A callee in an error message. -/
def describe : Expr → String
  | .ident name => name
  | .member object property => describe object ++ "." ++ property
  | .index object _ => describe object ++ "[...]"
  | .this => "this"
  | _ => "expression"

/-- A name that the operator only asks about: it need not be bound. -/
def askedFor? : UnaryOp → Expr → Option String
  | .typeOf, .ident name => some name
  | _, _ => none

/-- The operator asks about a name that is not bound. -/
def unresolved (op : UnaryOp) (arg : Expr) : ActM Bool := do
  match askedFor? op arg with
  | some name => return !(← resolvable name)
  | none => return false

/-- Keeps the books about an expression that has been evaluated. -/
def keepBooks (env : Env) (i : Nat) (e : Expr) (v : Value) : ActM Unit := do
  match (Node.expr e).recording with
  | .before | .store => record env i v
  | .after =>
    record env i v
    mark env i
  | .none => return ()

/-- Evaluates a node unless its result is there already, and keeps the books.  The body is told
whether the position to get back to is inside. -/
def evaluating (env : Env) (t : IndexedTree) (i : Nat) (e : Expr) (body : Option Nat → ActM Value) :
    ActM Value := do
  let state ← resumeState t i
  match state.result? with
  | some v => return v
  | none =>
    let v ← body state.entry
    keepBooks env i e v
    return v

/-- The function to call, and its receiver. -/
def calleeOf (env : Env) (isProperty : Bool) (spot : ActM Spot) (value : ActM Value) :
    ActM (Value × Value) := do
  if isProperty then
    match ← spot with
    | .member object key => return (← lift (Machine.getProperty env.invoke object key), object)
    | .name _ => lift (Machine.typeError "invalid callee")
  else functionOf value

mutual

/-- The value of the expression at a position. -/
def eval (env : Env) (t : IndexedTree) (i : Nat) : Expr → ActM Value
  | .num v => evaluating env t i (.num v) (fun _ => return .num v)
  | .str v => evaluating env t i (.str v) (fun _ => return .str v)
  | .bool v => evaluating env t i (.bool v) (fun _ => return .bool v)
  | .null => evaluating env t i .null (fun _ => return .null)
  | .ident name => evaluating env t i (.ident name) (fun _ => lookup env name)
  | .this => evaluating env t i .this (fun _ => return env.this)
  | .array elements => evaluating env t i (.array elements) (fun _ => do
      let items ← evalList env t (i + 1) elements
      lift (Machine.newArray items))
  | .object props => evaluating env t i (.object props) (fun _ => do
      let a ← lift Machine.newObject
      evalProps env t a (i + 1) props
      return .object a)
  | .function f => evaluating env t i (.function f) (fun _ => makeClosure env t i f)
  | .unary op arg => evaluating env t i (.unary op arg) (fun _ => do
      if ← unresolved op arg then return .str "undefined"
      else if op == .delete && arg.isProperty then
        match ← evalSpot env t (i + 1) arg with
        | .member object key => return .bool (← lift (Machine.deleteProperty object key))
        | .name _ => return .bool false
      else
        let v ← eval env t (i + 1) arg
        lift (Machine.unary op v))
  | .update op before arg => evaluating env t i (.update op before arg) (fun _ => do
      let spot ← evalSpot env t (i + 1) arg
      updating env i op before (readSpot env spot) (writeSpot env spot))
  | .binary op left right => evaluating env t i (.binary op left right) (fun _ => do
      let l ← eval env t (i + 1) left
      let r ← eval env t (t.after (i + 1)) right
      lift (Machine.binary env.invoke op l r))
  | .logical op left right => evaluating env t i (.logical op left right) (fun entry => do
      let j := t.after (i + 1)
      if entering t entry j then eval env t j right
      else
        let l ← eval env t (i + 1) left
        if decides op l then return l else eval env t j right)
  | .assign op target value => evaluating env t i (.assign op target value) (fun _ => do
      let spot ← evalSpot env t (i + 1) target
      let j := t.after (i + 1)
      assigning env op (readSpot env spot) (eval env t j value) (writeSpot env spot))
  | .conditional test cons alt => evaluating env t i (.conditional test cons alt) (fun entry => do
      let j := t.after (i + 1)
      let k := t.after j
      if entering t entry j then eval env t j cons
      else if entering t entry k then eval env t k alt
      else
        let c ← eval env t (i + 1) test
        if c.truthy then eval env t j cons else eval env t k alt)
  | .call callee args => evaluating env t i (.call callee args) (fun _ => do
      let (f, this) ← calleeOf env callee.isProperty (evalSpot env t (i + 1) callee)
        (eval env t (i + 1) callee)
      let args ← evalList env t (t.after (i + 1)) args
      callAt env i (describe callee) f this args)
  | .construct callee args => evaluating env t i (.construct callee args) (fun _ => do
      let f ← eval env t (i + 1) callee
      let args ← evalList env t (t.after (i + 1)) args
      constructAt env i (describe callee) f args)
  | .member object property => evaluating env t i (.member object property) (fun _ => do
      let o ← eval env t (i + 1) object
      lift (Machine.getProperty env.invoke o property))
  | .index object key => evaluating env t i (.index object key) (fun _ => do
      let o ← eval env t (i + 1) object
      let v ← eval env t (t.after (i + 1)) key
      let k ← lift (Machine.text v)
      lift (Machine.getProperty env.invoke o k))
  | .sequence exprs => evaluating env t i (.sequence exprs) (fun _ =>
      evalSequence env t .undefined (i + 1) exprs)
termination_by structural e => e

def evalList (env : Env) (t : IndexedTree) (i : Nat) : List Expr → ActM (List Value)
  | [] => return []
  | e :: rest => do
    let v ← eval env t i e
    return v :: (← evalList env t (t.after i) rest)
termination_by structural l => l

/-- The value of the last of the expressions. -/
def evalSequence (env : Env) (t : IndexedTree) (v : Value) (i : Nat) : List Expr → ActM Value
  | [] => return v
  | e :: rest => do
    let v ← eval env t i e
    evalSequence env t v (t.after i) rest
termination_by structural l => l

def evalProps (env : Env) (t : IndexedTree) (a : Address) (i : Nat) : List Property → ActM Unit
  | [] => return ()
  | p :: rest => do
    evalProp env t a i p
    evalProps env t a (t.after i) rest
termination_by structural l => l

def evalProp (env : Env) (t : IndexedTree) (a : Address) (i : Nat) : Property → ActM Unit
  | ⟨key, kind, value⟩ => do
    let v ← eval env t (i + 1) value
    lift (define a key v kind)
termination_by structural p => p

/-- The parts of an expression that is written to. -/
def evalSpot (env : Env) (t : IndexedTree) (i : Nat) : Expr → ActM Spot
  | .ident name => return .name name
  | .member object property => do return .member (← eval env t (i + 1) object) property
  | .index object key => do
    let o ← eval env t (i + 1) object
    let v ← eval env t (t.after (i + 1)) key
    return .member o (← lift (Machine.text v))
  | _ => lift (Machine.fail .reference "Invalid left-hand side in assignment")
termination_by structural e => e

end

/-! ## Statements -/

/-- Halts before a statement if the hook says so. -/
def haltCheck (env : Env) (t : IndexedTree) (i : Nat) (s : Stmt) : ActM Unit := do
  if env.records && !s.isSilent then
    if ← lift (Machine.shouldHalt ⟨t.ns, i, s⟩) then
      markPending env i
      lift (Machine.pauseAt i)

/-- Runs a statement unless it was finished before. -/
def executing (env : Env) (t : IndexedTree) (i : Nat) (s : Stmt) (body : Option Nat → ActM Flow) :
    ActM Flow := do
  match ← resumeState t i with
  | .finished _ => return .normal
  | .here v => if s.isDebugger && v.isSome then return .normal else body none
  | .inside pc => body (some pc)
  | .fresh =>
    haltCheck env t i s
    body none

def declare (env : Env) (t : IndexedTree) (i : Nat) (d : Declarator) : ActM Unit := do
  match d.init with
  | none => return ()
  | some init =>
    if (← resumeState t i).isDone then return ()
    else
      let v ← eval env t (i + 1) init
      assignName env d.name v
      record env i v
      mark env i

def declareAll (env : Env) (t : IndexedTree) : Nat → List Declarator → ActM Unit
  | _, [] => return ()
  | i, d :: rest => do
    declare env t i d
    declareAll env t (t.after i) rest

/-- The part of a `for` at which it is entered. -/
inductive Phase where
  | init | test | body | update
deriving DecidableEq

/-- Where a `for` with the given test and update is entered. -/
def Phase.ofEntry (t : IndexedTree) (entry : Option Nat) (test update : Option Expr)
    (testAt updateAt bodyAt : Nat) : Phase :=
  if entering t entry bodyAt then .body
  else if update.isSome && entering t entry updateAt then .update
  else if test.isSome && entering t entry testAt then .test
  else .init

def enterLoop (env : Env) (t : IndexedTree) (i : Nat) : ForInit → ActM Unit
  | .absent => return ()
  | .vars decls => declareAll env t i decls
  | .expr e => do
    let _ ← eval env t i e

/-- The test of a loop; a loop without one goes on. -/
def testLoop (env : Env) (t : IndexedTree) (i : Nat) : Option Expr → ActM Bool
  | none => return true
  | some test => do return (← eval env t i test).truthy

def evalOptional (env : Env) (t : IndexedTree) (i : Nat) : Option Expr → ActM Value
  | none => return .undefined
  | some e => eval env t i e

/-- Gives the target of a `for-in` the next key. -/
def assignKey (env : Env) (t : IndexedTree) (i : Nat) (left : ForTarget) (key : Value) :
    ActM Unit := do
  match left with
  | .var name => assignName env name key
  | .expr e =>
    let spot ← evalSpot env t i e
    writeSpot env spot key

/-- The test of a case, if it has one and is to be asked, gives the value. -/
def testCase (env : Env) (t : IndexedTree) (v : Value) (asked : Bool) (i : Nat)
    (test : Option Expr) : ActM Bool := do
  match test with
  | some test => if asked then return (← eval env t i test).same v else return false
  | none => return false

/-- The number of the first case from a number on whose test gives the value. -/
def matching? (env : Env) (t : IndexedTree) (v : Value) (start : Nat) :
    Nat → Nat → List Case → ActM (Option Nat)
  | _, _, [] => return none
  | k, i, c :: rest => do
    if ← testCase env t v (start ≤ k) (i + 1) c.test then return some k
    else matching? env t v start (k + 1) (t.after i) rest

/-- The number of the case without a test. -/
def defaultCase? (cases : List Case) : Option Nat := cases.findIdx? (fun c => c.test.isNone)

/-- The number and the position of the case that contains the position to get back to. -/
def resumedCase? (t : IndexedTree) (entry : Option Nat) : Nat → Nat → List Case →
    Option (Nat × Nat × Case)
  | _, _, [] => none
  | k, i, c :: rest =>
    if entering t entry i then some (k, i, c) else resumedCase? t entry (k + 1) (t.after i) rest

/-- The queue of keys of a loop whose body is re-entered. -/
def storedKeys? (t : IndexedTree) (entry : Option Nat) (i bodyAt : Nat) : ActM (Option Value) :=
  if entering t entry bodyAt then cached? i else return none

/-- The position to get back to is not in front of `i`. -/
def reached (entry : Option Nat) (i : Nat) : Bool :=
  match entry with
  | some pc => i ≤ pc
  | none => false

/-- The completion that waits for a `finally` that is re-entered. -/
def storedCompletion? (i : Nat) : ActM (Option Completion) := do
  let waiting ← cached? i
  let heap ← lift Machine.heapM
  return waiting.bind (Completion.decode? heap)

/-- The value that a `switch` looks for; one that is re-entered has found it already. -/
def switchValue (env : Env) (i : Nat) (resumed : Bool) (discriminant : ActM Value) :
    ActM Value := do
  if resumed then return (← cached? i).getD .undefined
  else discriminating env i discriminant

/-- The case to go on in, if it is known without looking at tests. -/
def directCase? (t : IndexedTree) (entry : Option Nat) : Option (Nat × Nat × Case) → Option Nat
  | some (k, j, c) => if c.test.isNone || !entering t entry (j + 1) then some k else none
  | none => none

/-- The number of the case at which the arms of a `switch` start. -/
def startingCase? (env : Env) (t : IndexedTree) (entry : Option Nat) (v : Value) (i : Nat)
    (cases : List Case) : ActM (Option Nat) := do
  let resumed := resumedCase? t entry 0 i cases
  match directCase? t entry resumed with
  | some k => return some k
  | none =>
    let hit ← matching? env t v ((resumed.map Prod.fst).getD 0) 0 i cases
    return hit.or (defaultCase? cases)

/-- The link to re-enter, or a new one. -/
def reenter (reentered : Bool) (fresh : ActM Link) : ActM Link := do
  if reentered then
    match ← popPending with
    | some link => return link
    | none => fresh
  else fresh

mutual

/-- Runs the statement at a position. -/
def exec (env : Env) (t : IndexedTree) (i : Nat) : Stmt → ActM Flow
  | .var decls => executing env t i (.var decls) (fun _ => do
      declareAll env t (i + 1) decls
      return .normal)
  | .function f => executing env t i (.function f) (fun _ => return .normal)
  | .empty => executing env t i .empty (fun _ => return .normal)
  | .expr e => executing env t i (.expr e) (fun _ => do
      let _ ← eval env t (i + 1) e
      return .normal)
  | .block body => executing env t i (.block body) (fun _ => execList env t (i + 1) body)
  | .branch test cons alt => executing env t i (.branch test cons alt) (fun entry => do
      let j := t.after (i + 1)
      let k := t.after j
      if entering t entry j then exec env t j cons
      else if alt.isSome && entering t entry k then execOptional env t k alt
      else
        let c ← eval env t (i + 1) test
        if c.truthy then exec env t j cons else execOptional env t k alt)
  | .forLoop init test update body =>
    executing env t i (.forLoop init test update body) (fun entry => do
      let testAt := t.afterMany init.count (i + 1)
      let updateAt := if test.isSome then t.after testAt else testAt
      let bodyAt := if update.isSome then t.after updateAt else updateAt
      let updating := updateTurn (evalOptional env t updateAt update)
      let turn := forTurn (testLoop env t testAt test) (exec env t bodyAt body)
        (evalOptional env t updateAt update)
      match Phase.ofEntry t entry test update testAt updateAt bodyAt with
      | .init =>
        enterLoop env t (i + 1) init
        turning turn turn env.fuel
      | .test => turning turn turn env.fuel
      | .body => turning (bodyThen (exec env t bodyAt body) updating) turn env.fuel
      | .update => turning updating turn env.fuel)
  | .forIn left right body => executing env t i (.forIn left right body) (fun entry => do
      let rightAt := if left.isExpr then t.after (i + 1) else i + 1
      let bodyAt := t.after rightAt
      let turn := fun keys =>
        keyTurn keys (assignKey env t (i + 1) left) (exec env t bodyAt body)
      match ← storedKeys? t entry rightAt bodyAt with
      | some keys =>
        let flow ← turning (keyBody keys (exec env t bodyAt body)) (turn keys) env.fuel
        leaveKeys env rightAt flow
      | none =>
        let keys ← keyQueue env rightAt (eval env t rightAt right)
        let flow ← turning (turn keys) (turn keys) env.fuel
        leaveKeys env rightAt flow)
  | .whileLoop test body => executing env t i (.whileLoop test body) (fun entry =>
      let bodyAt := t.after (i + 1)
      let turn := whileTurn (eval env t (i + 1) test) (exec env t bodyAt body)
      let first :=
        if entering t entry bodyAt then bodyThen (exec env t bodyAt body) endTurn else turn
      turning first turn env.fuel)
  | .doLoop body test => executing env t i (.doLoop body test) (fun entry =>
      let testAt := t.after (i + 1)
      let turn := doTurn (exec env t (i + 1) body) (eval env t testAt test)
      let first := if entering t entry testAt then testTurn (eval env t testAt test) else turn
      turning first turn env.fuel)
  | .ret value => executing env t i (.ret value) (fun _ => do
      return .ret (← evalOptional env t (i + 1) value))
  | .brk none => executing env t i (.brk none) (fun _ => return .brk)
  | .cont none => executing env t i (.cont none) (fun _ => return .cont)
  | .brk (some label) => executing env t i (.brk (some label)) (fun _ =>
      lift (Machine.fail .grammar "labels are not supported"))
  | .cont (some label) => executing env t i (.cont (some label)) (fun _ =>
      lift (Machine.fail .grammar "labels are not supported"))
  | .labeled label body => executing env t i (.labeled label body) (fun _ =>
      lift (Machine.fail .grammar "labels are not supported"))
  | .throwing value => executing env t i (.throwing value) (fun _ => do
      let v ← eval env t (i + 1) value
      lift (Machine.throwValue v))
  | .attempt block handler finalizer =>
    executing env t i (.attempt block handler finalizer) (fun entry => do
      let catchAt := t.afterMany block.length (i + 1)
      let finallyAt := if handler.isSome then t.after catchAt else catchAt
      if finalizer.isSome && reached entry finallyAt then
        let waiting ← storedCompletion? i
        finallyThen i (execFinally env t finallyAt finalizer) (match waiting with
          | some c => proceed c.toResult
          | none => return .normal)
      else
        let saved ← chain
        let conclude :=
          concluding env i saved finalizer.isSome (execFinally env t finallyAt finalizer)
        if handler.isSome && entering t entry catchAt then
          let link ← reenter true (do return ⟨.handler, ← lift Machine.newRecord⟩)
          conclude (← caught (inScope link saved (execHandlerBody env t (catchAt + 1) handler)))
        else
          conclude (← guarding (execList env t (i + 1) block)
            (fun u => execHandler env t saved u catchAt handler)))
  | .switch discriminant cases => executing env t i (.switch discriminant cases) (fun entry => do
      let casesAt := t.after (i + 1)
      let v ← switchValue env (i + 1) (resumedCase? t entry 0 casesAt cases).isSome
        (eval env t (i + 1) discriminant)
      match ← startingCase? env t entry v casesAt cases with
      | none => return .normal
      | some k => return (← execArms env t k casesAt cases).endSwitch)
  | .withScope object body => executing env t i (.withScope object body) (fun entry => do
      let bodyAt := t.after (i + 1)
      let link ← reenter (entering t entry bodyAt) (do
        let v ← eval env t (i + 1) object
        return ⟨.withObject, ← lift (scopeRecord v)⟩)
      inScope link (← chain) (exec env t bodyAt body))
  | .debugger => executing env t i .debugger (fun _ => debugging env i)
termination_by structural s => s

def execOptional (env : Env) (t : IndexedTree) (i : Nat) : Option Stmt → ActM Flow
  | none => return .normal
  | some s => exec env t i s
termination_by structural s => s

/-- Runs consecutive statements, the first of them at a position. -/
def execList (env : Env) (t : IndexedTree) (i : Nat) : List Stmt → ActM Flow
  | [] => return .normal
  | s :: rest => do
    match ← exec env t i s with
    | .normal => execList env t (t.after i) rest
    | abrupt => return abrupt
termination_by structural l => l

def execFinally (env : Env) (t : IndexedTree) (i : Nat) : Option (List Stmt) → ActM Flow
  | none => return .normal
  | some body => execList env t i body
termination_by structural f => f

/-- Runs the handler for what was thrown, if there is one. -/
def execHandler (env : Env) (t : IndexedTree) (saved : Chain) (u : Unwind) (i : Nat) :
    Option Handler → ActM (Except Unwind Flow)
  | none => return .error u
  | some h => caught (execCatch env t saved (u.thrown?.getD .undefined) i h)
termination_by structural h => h

def execCatch (env : Env) (t : IndexedTree) (saved : Chain) (thrown : Value) (i : Nat) :
    Handler → ActM Flow
  | ⟨param, body⟩ => catching env i saved param thrown (execList env t (i + 1) body)
termination_by structural h => h

/-- The body of a handler that is re-entered. -/
def execHandlerBody (env : Env) (t : IndexedTree) (i : Nat) : Option Handler → ActM Flow
  | none => return .normal
  | some h => execReentered env t i h
termination_by structural h => h

def execReentered (env : Env) (t : IndexedTree) (i : Nat) : Handler → ActM Flow
  | ⟨_, body⟩ => execList env t i body
termination_by structural h => h

/-- Runs the arms of a `switch` from a number on. -/
def execArms (env : Env) (t : IndexedTree) : Nat → Nat → List Case → ActM Flow
  | _, _, [] => return .normal
  | 0, i, c :: rest => do
    match ← execArm env t i c with
    | .normal => execArms env t 0 (t.after i) rest
    | abrupt => return abrupt
  | k + 1, i, _ :: rest => execArms env t k (t.after i) rest
termination_by structural _ _ l => l

def execArm (env : Env) (t : IndexedTree) (i : Nat) : Case → ActM Flow
  | ⟨test, body⟩ => execList env t (if test.isSome then t.after (i + 1) else i + 1) body
termination_by structural c => c

end

/-! ## Calls -/

/-- Makes the closure of a declared function. -/
def hoist (env : Env) (t : IndexedTree) (a : Address) (name : String) (i : Nat) : ActM Unit := do
  match t.func? i with
  | some f =>
    let v ← recorded env i (makeClosure env t i f)
    lift (Machine.setOwn a name v)
  | none => return ()

/-- Makes the closures of the declared functions. -/
def instantiate (env : Env) (t : IndexedTree) (a : Address) : List (String × Nat) → ActM Unit
  | [] => return ()
  | (name, i) :: rest => do
    hoist env t a name i
    instantiate env t a rest

/-- The name by which a function expression knows itself. -/
def selfName? (t : IndexedTree) (i : Nat) (f : Func) (decls : Declarations) : Option String :=
  match t.node? i, f.name with
  | some (.expr (.function _)), some name =>
    if decls.functions.any (fun d => d.1 == name) then none else some name
  | _, _ => none

/-- Calls a closure of a source tree; `callee` is the function object itself. -/
def call (invoke : Invoke) (fuel : Nat) (closure : SteppedClosure) (callee this : Value)
    (args : List Value) : MachineM Value := do
  let t := closure.tree
  let i := closure.index
  match t.func? i with
  | none =>
    Machine.fail .reference ("no function at index " ++ toString i ++ " in '" ++ t.ns ++ "'")
  | some f =>
    let decls := t.declarationsOf f i
    let self := (selfName? t i f decls).map (fun name => (name, callee))
    let a ← Machine.alloc (entryRecord f.params args decls.vars self)
    let env : Env :=
      { invoke, fuel, this, args, ns := t.ns, index := i, registry := closure.registry
        records := closure.mode == .recording }
    let act : Activation :=
      { site := env.toSite, chain := ⟨.function, a⟩ :: closure.chain, cache := [], last := i
        arguments := none, pending := [], pc := none }
    runActivation env act (do
      instantiate env t a decls.functions
      execList env t (i + 1) f.body)

end Resumption.Stepper
