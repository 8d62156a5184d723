import BlockScript.Backend.Recorder
import BlockScript.Machine.Vm

/-!
# The immediate backend

This backend runs script-level operations as they are issued, on a live value stack
and the world of a virtual machine. Only the arm of a branch that is taken runs, and an
operator that skips its right-hand side does not run it. Method and block bodies cannot
run when they are defined: while such a unit is open, operations are recorded as the
bytecode backend records them, and the machine runs the body when it is called.

A loop at script level may run forever, and so may a body; both take a budget.
-/

namespace BlockScript

/-- The state of the immediate backend beside the bench. -/
structure Interpreter where
  limits : Limits
  world : World
  /-- The activation of the script. -/
  top : Activation
  /-- The handle of the script unit while it is open. -/
  script : Option UnitHandle := none
  /-- The value of the script once it has ended. -/
  result : Option Value := none

namespace Interpreter

variable {υ α : Type}

/-- A session in which nothing has run. -/
def new (config : Config) (limits : Limits) (owner : Nat) (client : υ) :
    Session Interpreter υ :=
  let world := World.new
  let (frame, heap) := world.heap.newFrame (.new 0 [] none)
  { bench := .new config owner true
    backend := { limits, world := { world with heap }, top := { frame, self := World.main } }
    client }

/-- The innermost unit is being recorded. -/
def recording : Work Interpreter υ Bool := return (← Work.bench).recording?.isSome

/-- Some unit must be open. -/
def ensureOpen : Work Interpreter υ Unit := do
  if (← Work.bench).units.units.isEmpty then Work.violate .noOpenUnit

/-- The value stack of the script, topmost first. -/
def stack : Work Interpreter υ (List Value) := return (← get).backend.top.stack

/-- Replace the value stack of the script. -/
def setStack (stack : List Value) : Work Interpreter υ Unit := modify fun session =>
  { session with backend := { session.backend with
      top := { session.backend.top with stack } } }

/-- Too few values for an operation. -/
def underflow (operation : String) (needed available : Nat) : Work Interpreter υ α :=
  Work.violate (.stackUnderflow operation needed available)

/-- Take the topmost value of the script. -/
def pop (operation : String) : Work Interpreter υ Value := do
  match ← stack with
  | value :: rest =>
    setStack rest
    return value
  | [] => underflow operation 1 0

/-- Execute an operation of the machine for the script. An error is reported with a line. -/
def execute (fuel : Nat) (op : Op) (line : Option UInt32) : Work Interpreter υ Unit :=
  fun session =>
    match session with
    | ⟨bench, { limits, world, top, script, result }, client⟩ =>
      match Machine.complete bench.program limits fuel op (top, world) with
      | .ok _ (top, world) => .ok () ⟨bench, { limits, world, top, script, result }, client⟩
      | .error (.failure error) (top, world) =>
        .error (.failure (.runtime error line))
          ⟨bench, { limits, world, top, script, result }, client⟩
      | .error .outOfFuel (top, world) =>
        .error .outOfFuel ⟨bench, { limits, world, top, script, result }, client⟩

/-- Record an operation into the open body, or execute it at script level. -/
def perform (fuel : Nat) (operation : String) (op : Op) : Work Interpreter υ Unit := do
  ensureOpen
  if ← recording then Work.onBench (Bench.emit operation op)
  else
    let available := (← stack).length
    if available < op.pops then underflow operation op.pops available
    execute fuel op (← Work.bench).currentLine

/-- Perform an operation without nested code. Its constants join the pool first. -/
def primitive (fuel : Nat) (p : Primitive) : Work Interpreter υ Unit :=
  match p.form with
  | .op op => perform fuel p.operation op
  | .pooled constant op => do
    if let .retrieveConstant name := p then
      ensureOpen
      if !(← recording) && ((← get).backend.world.constants.get? name).isNone then
        Work.fail (.resolution .constant name (← Work.bench).currentLine)
    perform fuel p.operation (op (← Work.onBench (Bench.intern constant)))
  | .access index depth assign => do
    Work.onBench (Bench.checkScopeDepth depth)
    perform fuel p.operation (Bench.localOp index depth assign)
  | .aliasMethod newName oldName => do
    let new ← Work.onBench (Bench.intern (.name newName))
    let old ← Work.onBench (Bench.intern (.name oldName))
    perform fuel p.operation (.aliasMethod new old)
  | .yield hasArgs => do
    ensureOpen
    Work.onBench (Bench.emitYield p.operation hasArgs)
  | .line line => do
    ensureOpen
    if ← recording then Work.onBench (Bench.setLine line)
    Work.modifyBench fun bench => { bench with line := some line }

/-- Open the script unit, once. -/
def startScript : Work Interpreter υ Unit := do
  let { script, result, .. } := (← get).backend
  if script.isSome || result.isSome then Work.violate .scriptAlreadyStarted
  let handle ← Work.onBench fun bench =>
    match bench.units.open .script mainName none with
    | .ok (handle, units) => .ok handle { bench with units }
    | .error error => .error error bench
  modify fun session => { session with backend := { session.backend with script := some handle } }

/-- Close the script unit and take its value. No other unit may be open. -/
def endScript : Work Interpreter υ Unit := do
  let bench ← Work.bench
  if 1 < bench.units.size then
    Work.violate (.unclosedUnit (bench.units.top?.elim "" (·.describe)))
  match (← get).backend.script with
  | none => Work.violate .noOpenUnit
  | some handle =>
    modify fun session => { session with backend := { session.backend with script := none } }
    let line := bench.currentLine
    match bench.units.close handle .script line with
    | .error error => Work.fail error
    | .ok (_, units) => Work.modifyBench fun bench => { bench with units }
    let values ← stack
    if 1 < values.length && bench.config.checkStack then
      Work.fail (.violation (.unbalancedUnit describeMain values.length) line)
    setStack []
    modify fun session => { session with
      backend := { session.backend with result := some (values.head?.getD .nil) } }

/-- Open a method unit. -/
def beginMethod (name : String) (arity localCount : Nat) : Work Interpreter υ UnitHandle := do
  ensureOpen
  Work.onBench (Bench.openUnit .method name arity localCount [])

/-- Close a method unit. -/
def endMethod (handle : UnitHandle) : Work Interpreter υ Unit := do
  let _ ← Work.onBench (Bench.closeUnit handle .method)

/-- Run nested code that owes some values. The result is how many it left. -/
def runRegion (construct : String) (allowed : DepthTracker.Allowance)
    (region : Work Interpreter υ Unit) : Work Interpreter υ Int := do
  let units := (← Work.bench).units.size
  let before := (← stack).length
  region
  Work.ensureSameUnit construct units
  let produced : Int := (← stack).length - before
  if !allowed.admits produced && (← Work.bench).config.checkStack then
    Work.violate (.callbackResult construct allowed.text produced)
  return produced

/-- Drop values of the script. -/
def drop (operation : String) : Nat → Work Interpreter υ Unit
  | 0 => return ()
  | count + 1 => do
    let _ ← pop operation
    drop operation count

/-- Call a method, recording its block first. -/
def invoke (fuel : Nat) (name : String) (shape : Invocation)
    (block : Option (BlockBody (Session Interpreter υ))) : Work Interpreter υ Unit := do
  ensureOpen
  if ← recording then Work.emitCall name shape block
  else
    let available := (← stack).length
    if available < shape.consumed then underflow Work.callOperation shape.consumed available
    let block ← Work.recordBlock? block
    let position ← Work.onBench (Bench.intern (.name name))
    perform fuel Work.callOperation
      (.send position shape.argc.toUInt32 shape.hasReceiver block)

/-- Produce the elements of an aggregate in order and collapse them. -/
def objectArray (fuel count : Nat) (element : Nat → Work Interpreter υ Unit) :
    Work Interpreter υ Unit := do
  ensureOpen
  if ← recording then Work.emitArray count element
  else
    let produce (index : Nat) : Work Interpreter υ Unit := do
      let _ ← runRegion (Work.arrayOperation ++ " element") .one (element index)
    Work.nested (Work.forEachIndex produce 0 count)
    perform fuel Work.arrayOperation (.makeArray count.toUInt32)

/-- Take the condition and run one arm. -/
def branch (onTrue onFalse : Work Interpreter υ Unit) : Work Interpreter υ Unit := do
  ensureOpen
  if ← recording then Work.emitBranch onTrue onFalse
  else
    let operation := "perform_boolean_branch"
    let condition ← pop operation
    let units := (← Work.bench).units.size
    Work.nested (if condition.isTruthy then onTrue else onFalse)
    Work.ensureSameUnit operation units

/-- The operator runs its right-hand side when the left value is truthy. -/
def runsWhen : Connective → Bool
  | .conjunction => true
  | .disjunction => false

/-- Keep the left value, or take it and run the right-hand side. -/
def logical (connective : Connective) (right : Work Interpreter υ Unit) :
    Work Interpreter υ Unit := do
  ensureOpen
  if ← recording then Work.emitLogical connective right
  else
    let operation := connective.operation
    match ← stack with
    | [] => underflow operation 1 0
    | left :: _ =>
      if left.isTruthy = runsWhen connective then
        let _ ← pop operation
        Work.nested do
          let _ ← runRegion operation .one right

/-- Repeat the body while the condition holds. Each pass uses up one unit of the budget. -/
def passes (condition body : Work Interpreter υ Unit) :
    (fuel : Nat) → (test : Bool) → Work Interpreter υ Unit
  | 0, _ => throw .outOfFuel
  | fuel + 1, test => do
    let goOn ← if test then do
        let _ ← runRegion (Work.loopOperation ++ " condition") .one condition
        pure (← pop Work.loopOperation).isTruthy
      else pure true
    if goOn then
      let produced ← runRegion (Work.loopOperation ++ " body") .atMostOne body
      drop Work.loopOperation produced.toNat
      passes condition body fuel true

/-- Run a loop. -/
def loop (fuel : Nat) (condition body : Work Interpreter υ Unit) (checkFirst : Bool) :
    Work Interpreter υ Unit := do
  ensureOpen
  if ← recording then Work.emitLoop condition body checkFirst
  else Work.nested (passes condition body fuel checkFirst)

/-- Record a block and push it. -/
def closure (fuel : Nat) (scope : StaticScope) (arity : Nat) (body : Work Interpreter υ Unit) :
    Work Interpreter υ Unit := do
  ensureOpen
  let slot ← Work.recordBlock scope arity body
  perform fuel Work.closureOperation (.makeClosure slot)

/-- Record a method and define it. -/
def defineMethod (fuel : Nat) (name : String) (arity localCount : Nat)
    (body : Work Interpreter υ Unit) : Work Interpreter υ Unit := do
  ensureOpen
  let slot ← Work.recordUnit .method name arity localCount [] body
  let position ← Work.onBench (Bench.intern (.name name))
  perform fuel Work.defineOperation (.defineMethod position slot)

/-- The immediate backend. Every run of a body and every loop has the given budget. -/
def contract (υ : Type) (fuel : Nat) : Contract (Session Interpreter υ) where
  startScript
  endScript
  beginMethod
  endMethod
  primitive := primitive fuel
  invoke := invoke fuel
  objectArray := objectArray fuel
  branch
  logical
  loop := loop fuel
  closure := closure fuel
  defineMethod := defineMethod fuel

/-- Take the output, which leaves none. -/
def takeOutput (session : Session Interpreter υ) : String × Session Interpreter υ :=
  (session.backend.world.output,
    { session with backend := { session.backend with
        world := { session.backend.world with output := "" } } })

end Interpreter

end BlockScript
