import BlockScript.Backend.Bench

/-!
# Emission of nested code

The operations with nested code, as every backend that records bytecode carries them
out: both arms of a branch and all parts of a loop are recorded, and a block or method
body becomes a code object of its own. Nested code is a computation on the whole
session, so it may do anything that its backend offers. After each piece the innermost
unit must be as deep as before, and the piece must have left the values it owes.
-/

namespace BlockScript

/-- The state of a backend together with the state of whoever issues its operations. -/
structure Session (β υ : Type) where
  bench : Bench
  backend : β
  client : υ

/-- A computation of a session. -/
abbrev Work (β υ α : Type) := Gen (Session β υ) α

namespace Work

variable {β υ α : Type}

/-- Compute on the bench. -/
def onBench (action : BenchM α) : Work β υ α := fun session =>
  match session with
  | ⟨bench, backend, client⟩ =>
    match action bench with
    | .ok value bench => .ok value ⟨bench, backend, client⟩
    | .error error bench => .error (.failure error) ⟨bench, backend, client⟩

/-- The bench as it is now. -/
def bench : Work β υ Bench := return (← get).bench

/-- Change the bench. -/
def modifyBench (f : Bench → Bench) : Work β υ Unit := modify fun session =>
  match session with
  | ⟨bench, backend, client⟩ => ⟨f bench, backend, client⟩

/-- Fail with an error of code generation. -/
def fail (error : CompileError) : Work β υ α := throw (.failure error)

/-- Fail with a breach of contract on the current line. -/
def violate (kind : Violation) : Work β υ α := do fail ((← bench).violation kind)

/-- Break off without an answer: nobody can go on from here. -/
def breakOff : Work β υ α := throw .outOfFuel

/-- Clean up the bench if the computation breaks off. -/
def cleaning (action : Work β υ α) (cleanUp : Bench → Bench) : Work β υ α := fun session =>
  match action session with
  | .ok value session => .ok value session
  | .error halt session => .error halt { session with bench := cleanUp session.bench }

/-- Run a region one control-flow level deeper. The level is given back however the
region ends, and units that it leaves open when it breaks off are discarded. -/
def nested (region : Work β υ α) : Work β υ α := do
  onBench fun bench =>
    match bench.units.enter with
    | .ok units => .ok () { bench with units }
    | .error error => .error error bench
  let before := (← bench).units.size
  let value ← region.cleaning fun bench => bench.exitRegion.abandon before
  modifyBench Bench.exitRegion
  return value

/-- The innermost unit is as deep as before a piece of nested code. -/
def ensureSameUnit (construct : String) (before : Nat) : Work β υ Unit := do
  if (← bench).units.size ≠ before then violate (.callbackLeakedUnit construct)

/-- Run nested code that owes some values. The result is its net effect. -/
def runRegion (construct : String) (allowed : DepthTracker.Allowance)
    (region : Work β υ Unit) : Work β υ Int := do
  let units := (← bench).units.size
  let before := (← onBench Bench.target).depth
  region
  ensureSameUnit construct units
  let line := (← bench).currentLine
  let stack := (← onBench Bench.target).stack
  match stack.expectDelta construct before allowed line with
  | .ok () => return stack.deltaSince before
  | .error error => fail error

/-- Record a unit whose body is nested code. If that breaks off, the unit and whatever
the body left open are discarded. -/
def recordUnit (kind : UnitKind) (name : String) (arity localCount : Nat)
    (locals : List String) (body : Work β υ Unit) : Work β υ UInt32 := do
  let before := (← bench).units.size
  let handle ← onBench (Bench.openUnit kind name arity localCount locals)
  let record : Work β υ UInt32 := do
    body
    onBench (Bench.closeUnit handle kind)
  record.cleaning (·.abandon before)

/-- Record a block. -/
def recordBlock (scope : StaticScope) (arity : Nat) (body : Work β υ Unit) :
    Work β υ UInt32 := do
  recordUnit .closure (← bench).blockName arity scope.size scope.names body

/-- Record the block of a call, if it has one. -/
def recordBlock? (block : Option (BlockBody (Session β υ))) : Work β υ (Option UInt32) :=
  block.mapM fun block => recordBlock block.scope block.arity block.body

/-- Append a forward jump. -/
def emitJump (operation : String) (kind : JumpKind) : Work β υ JumpPatch :=
  onBench (Bench.build (·.emitJump operation kind))

/-- Append a jump back to a label. -/
def emitJumpBack (operation : String) (kind : JumpKind) (label : Nat) : Work β υ Unit :=
  onBench (Bench.build fun builder => return ((), ← builder.emitJumpBack operation kind label))

/-- Aim a waiting jump at the next operation. The jump is looked for in the unit that is now
innermost; if that has no such position there is no going on. -/
def patchHere (patch : JumpPatch) : Work β υ Unit := do
  match (← onBench Bench.target).patchHere? patch with
  | some _ => onBench (Bench.modifyBuilder (·.patchHere patch))
  | none => breakOff

/-- The depth of the innermost recording. -/
def depth : Work β υ Nat := return (← onBench Bench.target).depth

/-- Append an operation several times. -/
def emitTimes (operation : String) (op : Op) : Nat → Work β υ Unit
  | 0 => return ()
  | count + 1 => do
    onBench (Bench.emit operation op)
    emitTimes operation op count

/-- Record both arms of a branch. They must leave equally many values. -/
def emitBranch (onTrue onFalse : Work β υ Unit) : Work β υ Unit := nested do
  let operation := "perform_boolean_branch"
  let units := (← bench).units.size
  let toElse ← emitJump operation .ifFalse
  let before ← depth
  onTrue
  ensureSameUnit operation units
  let afterTrue ← depth
  let toEnd ← emitJump operation .always
  patchHere toElse
  onBench (Bench.modifyBuilder (·.resetTo before))
  onFalse
  ensureSameUnit operation units
  let builder ← onBench Bench.target
  let afterFalse := builder.depth
  if afterTrue ≠ afterFalse ∧ builder.stack.strict then
    violate (.unbalancedBranch (afterTrue - before) (afterFalse - before))
  patchHere toEnd

/-- When the right-hand side is skipped. -/
def skipWhen : Connective → JumpKind
  | .conjunction => .ifFalse
  | .disjunction => .ifTrue

/-- Record the right-hand side of an operator. A jump past it keeps the left value. -/
def emitLogical (connective : Connective) (right : Work β υ Unit) : Work β υ Unit := nested do
  let operation := connective.operation
  onBench (Bench.emit operation .dup)
  let toEnd ← emitJump operation (skipWhen connective)
  onBench (Bench.emit operation .pop)
  let _ ← runRegion operation .one right
  patchHere toEnd

/-- The operation that loops are reported under. -/
def loopOperation : String := "perform_boolean_loop"

/-- Record the condition of a loop. -/
def emitCondition (condition : Work β υ Unit) : Work β υ Unit := do
  let _ ← runRegion (loopOperation ++ " condition") .one condition

/-- Record the body of a loop and drop the value it may leave. -/
def emitLoopBody (body : Work β υ Unit) : Work β υ Unit := do
  let produced ← runRegion (loopOperation ++ " body") .atMostOne body
  emitTimes loopOperation .pop produced.toNat

/-- Record a loop. -/
def emitLoop (condition body : Work β υ Unit) (checkFirst : Bool) : Work β υ Unit := nested do
  let top := (← onBench Bench.target).label
  if checkFirst then
    emitCondition condition
    let toEnd ← emitJump loopOperation .ifFalse
    emitLoopBody body
    emitJumpBack loopOperation .always top
    patchHere toEnd
  else
    emitLoopBody body
    emitCondition condition
    emitJumpBack loopOperation .ifTrue top

/-- Run a computation for the numbers from `first` on. -/
def forEachIndex (action : Nat → Work β υ Unit) : (first count : Nat) → Work β υ Unit
  | _, 0 => return ()
  | first, count + 1 => do
    action first
    forEachIndex action (first + 1) count

/-- The operation that aggregates are reported under. -/
def arrayOperation : String := "create_object_array"

/-- Record the elements of an aggregate in order. -/
def emitArray (count : Nat) (element : Nat → Work β υ Unit) : Work β υ Unit := nested do
  let produce (index : Nat) : Work β υ Unit := do
    let _ ← runRegion (arrayOperation ++ " element") .one (element index)
  forEachIndex produce 0 count
  onBench (Bench.emit arrayOperation (.makeArray count.toUInt32))

/-- The operation that calls are reported under. -/
def callOperation : String := "invoke_dynamic"

/-- Record the block of a call and then the call. -/
def emitCall (name : String) (shape : Invocation) (block : Option (BlockBody (Session β υ))) :
    Work β υ Unit := do
  let block ← recordBlock? block
  onBench (Bench.emitSend callOperation name shape block)

/-- The operation that block values are reported under. -/
def closureOperation : String := "create_new_closure"

/-- The operation that method definitions are reported under. -/
def defineOperation : String := "define_new_method"

end Work

end BlockScript
