import Resumption.Engine.Construct

/-!
# Running instrumented code

Variables have their places and records have their positions already, so running is a plain walk
over the code that keeps the books as it goes.
-/

namespace Resumption.Instrumented

open Code (Ref Place Key Target)
open Script (PropKind)
open ActM

/-! ## Variables -/

/-- The record of the innermost of the `with` objects that has the name. -/
def overriding? (h : Heap) (chain : Chain) (name : String) : List Nat → Option Address
  | [] => none
  | hops :: rest =>
    match chain[hops]? with
    | some link => if link.binds h name then some link.record else overriding? h chain name rest
    | none => overriding? h chain name rest

/-- The record a place stands for; none for the global object. -/
def placeRecord? (chain : Chain) : Place → Option Address
  | .slot hops => chain[hops]?.map (fun link => link.record)
  | .global => none

/-- The record that holds a variable; none for the global object. -/
def recordOf? (h : Heap) (chain : Chain) : Ref → Option Address
  | .fixed place _ => placeRecord? chain place
  | .dynamic withs place name =>
    (overriding? h chain name withs).or (placeRecord? chain place)
  | .free name => Chain.recordOf? h name chain

def record? (r : Ref) : ActM (Option Address) := do
  let chain ← chain
  lift (Machine.ask (fun h => recordOf? h chain r))

def readRef (env : Env) (r : Ref) : ActM Value := do
  match ← record? r with
  | some a => lift (Machine.getProperty env.invoke (.object a) r.name)
  | none => lift (Machine.readGlobal env.invoke r.name)

def writeRef (env : Env) (r : Ref) (v : Value) : ActM Unit := do
  match ← record? r with
  | some a => lift (Machine.putProperty env.invoke (.object a) r.name v)
  | none => lift (Machine.writeGlobal env.invoke r.name v)

/-- A place that is there without asking. -/
def isSlot : Place → Bool
  | .slot _ => true
  | .global => false

/-- A variable with a place that is there without asking. -/
def hasSlot : Ref → Bool
  | .fixed place _ => isSlot place
  | .dynamic _ place _ => isSlot place
  | .free _ => false

/-- The variable exists. -/
def resolvable (r : Ref) : ActM Bool := do
  if hasSlot r || (← record? r).isSome then return true
  else lift (Machine.hasGlobal r.name)

/-! ## Expressions -/

/-- What a written value goes to. -/
inductive Spot where
  | ref (r : Ref)
  | member (object : Value) (key : String)

def readSpot (env : Env) : Spot → ActM Value
  | .ref r => readRef env r
  | .member object key => lift (Machine.getProperty env.invoke object key)

def writeSpot (env : Env) (spot : Spot) (v : Value) : ActM Unit :=
  match spot with
  | .ref r => writeRef env r v
  | .member object key => lift (Machine.putProperty env.invoke object key v)

/-- A callee in an error message. -/
def describe : Code.Expr → String
  | .ref r => r.name
  | .member object (.name name) => describe object ++ "." ++ name
  | .member object (.computed _) => describe object ++ "[...]"
  | .this => "this"
  | _ => "expression"

/-- A function that runs without books. -/
def plainClosure (env : Env) (ns : String) (i : Nat) : MachineM Value := do
  match (← Machine.registry env.registry).tree ns i with
  | .ok tree =>
    Machine.newFunction (.stepped
      { tree, index := i, chain := [], mode := .plain, registry := env.registry })
  | .error e => Machine.fail .reference e.message

/-- A variable that the operator only asks about: it need not exist. -/
def askedFor? : Script.UnaryOp → Code.Expr → Option Ref
  | .typeOf, .ref r => some r
  | _, _ => none

/-- The operator asks about a variable that does not exist. -/
def unresolved (op : Script.UnaryOp) (arg : Code.Expr) : ActM Bool := do
  match askedFor? op arg with
  | some r => return !(← resolvable r)
  | none => return false

mutual

def eval (env : Env) : Code.Expr → ActM Value
  | .num v => return .num v
  | .str v => return .str v
  | .bool v => return .bool v
  | .null => return .null
  | .ref r => readRef env r
  | .this => return env.this
  | .arguments => argumentsObject env
  | .array elements => do
    let items ← evalList env elements
    lift (Machine.newArray items)
  | .object props => do
    let a ← lift Machine.newObject
    evalProps env a props
    return .object a
  | .closure f => do
    let closure : InstrumentedClosure := { func := f, chain := ← chain, registry := env.registry }
    recorded env f.index (lift (Machine.newFunction (.instrumented closure)))
  | .plain ns i => recorded env i (lift (plainClosure env ns i))
  | .unary op arg => do
    if ← unresolved op arg then return .str "undefined"
    else
      let v ← eval env arg
      lift (Machine.unary op v)
  | .delete target => do
    match ← evalTarget env target with
    | .member object key => return .bool (← lift (Machine.deleteProperty object key))
    | .ref _ => return .bool false
  | .update i op before target => do
    let spot ← evalTarget env target
    recorded env i (updating env i op before (readSpot env spot) (writeSpot env spot))
  | .binary op left right => do
    let l ← eval env left
    let r ← eval env right
    lift (Machine.binary env.invoke op l r)
  | .logical op left right => do
    let l ← eval env left
    if decides op l then return l else eval env right
  | .assign i op target value => do
    let spot ← evalTarget env target
    let v ← assigning env op (readSpot env spot) (eval env value) (writeSpot env spot)
    record env i v
    mark env i
    return v
  | .conditional test cons alt => do
    let t ← eval env test
    if t.truthy then eval env cons else eval env alt
  | .call i callee args => do
    let (f, this) ← (match callee with
      | .member object key => methodOf env (eval env object) (evalKey env key)
      | other => functionOf (eval env other))
    let args ← evalList env args
    recorded env i (callAt env i (describe callee) f this args)
  | .construct i callee args => do
    let f ← eval env callee
    let args ← evalList env args
    recorded env i (constructAt env i (describe callee) f args)
  | .member object key => do
    let o ← eval env object
    let k ← evalKey env key
    lift (Machine.getProperty env.invoke o k)
  | .sequence exprs => evalSequence env .undefined exprs
termination_by structural e => e

def evalList (env : Env) : List Code.Expr → ActM (List Value)
  | [] => return []
  | e :: rest => do
    let v ← eval env e
    return v :: (← evalList env rest)
termination_by structural l => l

/-- The value of the last of the expressions. -/
def evalSequence (env : Env) (v : Value) : List Code.Expr → ActM Value
  | [] => return v
  | e :: rest => do
    let v ← eval env e
    evalSequence env v rest
termination_by structural l => l

def evalProps (env : Env) (a : Address) : List Code.Property → ActM Unit
  | [] => return ()
  | p :: rest => do
    evalProp env a p
    evalProps env a rest
termination_by structural l => l

def evalProp (env : Env) (a : Address) : Code.Property → ActM Unit
  | ⟨key, kind, value⟩ => do
    let v ← eval env value
    lift (define a key v kind)
termination_by structural p => p

def evalKey (env : Env) : Key → ActM String
  | .name name => return name
  | .computed e => do
    let v ← eval env e
    lift (Machine.text v)
termination_by structural k => k

def evalTarget (env : Env) : Target → ActM Spot
  | .ref r => return .ref r
  | .member object key => do
    let o ← eval env object
    return .member o (← evalKey env key)
termination_by structural t => t

end

/-- The function to call, and its receiver. -/
def evalCallee (env : Env) : Code.Expr → ActM (Value × Value)
  | .member object key => methodOf env (eval env object) (evalKey env key)
  | callee => functionOf (eval env callee)

theorem eval_call (env : Env) (i : Nat) (callee : Code.Expr) (args : List Code.Expr) :
    eval env (.call i callee args) = (do
      let (f, this) ← evalCallee env callee
      let args ← evalList env args
      recorded env i (callAt env i (describe callee) f this args)) := by
  cases callee <;> rfl

/-! ## Statements -/

def declare (env : Env) (d : Code.Declarator) : ActM Unit := do
  match d.init with
  | none => return ()
  | some init =>
    let v ← eval env init
    writeRef env d.target v
    record env d.index v
    mark env d.index

/-- The number of the first case whose test gives the value. -/
def matching? (env : Env) (v : Value) : Nat → List Code.Case → ActM (Option Nat)
  | _, [] => return none
  | k, c :: rest => do
    match c.test with
    | none => matching? env v (k + 1) rest
    | some test =>
      let w ← eval env test
      if w.same v then return some k else matching? env v (k + 1) rest

/-- The number of the case without a test. -/
def defaultCase? (cases : List Code.Case) : Option Nat := cases.findIdx? (fun c => c.test.isNone)

/-- The test of a loop; a loop without one goes on. -/
def testLoop (env : Env) : Option Code.Expr → ActM Bool
  | none => return true
  | some test => do return (← eval env test).truthy

def evalOptional (env : Env) : Option Code.Expr → ActM Value
  | none => return .undefined
  | some e => eval env e

/-- Gives the target of a `for-in` the next key. -/
def assignKey (env : Env) (target : Target) (key : Value) : ActM Unit := do
  let spot ← evalTarget env target
  writeSpot env spot key

def enterLoop (env : Env) : Code.ForInit → ActM Unit
  | .absent => return ()
  | .vars decls => decls.forM (declare env)
  | .expr e => do
    let _ ← eval env e

mutual

def exec (env : Env) : Code.Stmt → ActM Flow
  | .var decls => do
    decls.forM (declare env)
    return .normal
  | .expr e => do
    let _ ← eval env e
    return .normal
  | .block body => execList env body
  | .branch test cons alt => do
    let t ← eval env test
    if t.truthy then exec env cons else execOptional env alt
  | .forLoop init test update body => do
    enterLoop env init
    let turn := forTurn (testLoop env test) (exec env body) (evalOptional env update)
    turning turn turn env.fuel
  | .forIn i target right body => do
    let keys ← keyQueue env i (eval env right)
    let turn := keyTurn keys (assignKey env target) (exec env body)
    let flow ← turning turn turn env.fuel
    leaveKeys env i flow
  | .whileLoop test body =>
    let turn := whileTurn (eval env test) (exec env body)
    turning turn turn env.fuel
  | .doLoop body test =>
    let turn := doTurn (exec env body) (eval env test)
    turning turn turn env.fuel
  | .ret value => do return .ret (← evalOptional env value)
  | .brk => return .brk
  | .cont => return .cont
  | .throwing value => do
    let v ← eval env value
    lift (Machine.throwValue v)
  | .attempt i block handler finalizer => do
    let saved ← chain
    let result ← guarding (execList env block) (fun u => execHandler env saved u handler)
    concluding env i saved finalizer.isSome (execFinally env finalizer) result
  | .switch i discriminant cases => do
    let v ← discriminating env i (eval env discriminant)
    match (← matching? env v 0 cases).or (defaultCase? cases) with
    | none => return .normal
    | some start => return (← execArms env start cases).endSwitch
  | .withScope object body => do
    let v ← eval env object
    let a ← lift (scopeRecord v)
    inScope ⟨.withObject, a⟩ (← chain) (exec env body)
  | .debugger i => debugging env i
  | .empty => return .normal
termination_by structural s => s

def execOptional (env : Env) : Option Code.Stmt → ActM Flow
  | none => return .normal
  | some s => exec env s
termination_by structural s => s

def execList (env : Env) : List Code.Stmt → ActM Flow
  | [] => return .normal
  | s :: rest => do
    match ← exec env s with
    | .normal => execList env rest
    | abrupt => return abrupt
termination_by structural l => l

def execFinally (env : Env) : Option (List Code.Stmt) → ActM Flow
  | none => return .normal
  | some body => execList env body
termination_by structural f => f

/-- Runs the handler for what was thrown, if there is one. -/
def execHandler (env : Env) (saved : Chain) (u : Unwind) :
    Option Code.Handler → ActM (Except Unwind Flow)
  | none => return .error u
  | some h => caught (execCatch env saved (u.thrown?.getD .undefined) h)
termination_by structural h => h

def execCatch (env : Env) (saved : Chain) (thrown : Value) : Code.Handler → ActM Flow
  | ⟨i, param, body⟩ => catching env i saved param thrown (execList env body)
termination_by structural h => h

/-- Runs the arms of a `switch` from a number on. -/
def execArms (env : Env) : Nat → List Code.Case → ActM Flow
  | _, [] => return .normal
  | 0, c :: rest => do
    match ← execArm env c with
    | .normal => execArms env 0 rest
    | abrupt => return abrupt
  | k + 1, _ :: rest => execArms env k rest
termination_by structural _ l => l

def execArm (env : Env) : Code.Case → ActM Flow
  | ⟨_, body⟩ => execList env body
termination_by structural c => c

end

/-! ## Calls -/

/-- Makes the closures of the declared functions. -/
def instantiate (env : Env) (record : Address) : List Code.Hoisted → ActM Unit
  | [] => return ()
  | h :: rest => do
    let v ← eval env h.value
    lift (Machine.setOwn record h.name v)
    instantiate env record rest

/-- Calls an instrumented closure; `callee` is the function object itself. -/
def call (invoke : Invoke) (fuel : Nat) (closure : InstrumentedClosure) (callee this : Value)
    (args : List Value) : MachineM Value := do
  let f := closure.func
  let a ← Machine.alloc
    (entryRecord f.params args f.declared (f.selfName.map (fun name => (name, callee))))
  let env : Env :=
    { invoke, fuel, this, args, ns := f.ns, index := f.index, registry := closure.registry
      records := true }
  let act : Activation :=
    { site := env.toSite, chain := ⟨.function, a⟩ :: closure.chain, cache := [], last := f.index
      arguments := none, pending := [], pc := none }
  runActivation env act (do
    instantiate env a f.hoisted
    execList env f.body)

end Resumption.Instrumented
