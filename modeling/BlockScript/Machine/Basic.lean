import BlockScript.Machine.Execute

/-!
# The machine

A machine runs bodies one inside the other. Its focus is what it is about to do: enter
a body, execute the next operation of one, go on with a repeated block call, or hand a
result or an error outward. What waits for that result is kept in a list, innermost
first. One step is total and needs no budget; only a whole run does, and a run that
uses up its budget is told apart from one that ends in an error.

An error leaves the bodies that wait for a result one by one and takes their names and
lines along. Errors of the machine itself (a limit, or control outside the code) do not
name the body that they arise in.
-/

namespace BlockScript

/-- The limits of a run. -/
structure Limits where
  maxCallDepth : Nat := 1000
  maxSteps : Option Nat := none
  maxStackSize : Nat := 10000
deriving DecidableEq, Repr

/-- What a machine is about to do. -/
inductive Focus where
  | enter (position : UInt32) (activation : Activation)
  | run (code : Code) (ip : Nat) (activation : Activation)
  | iterate (loop : BlockLoop)
  | give (value : Value)
  | fail (error : RuntimeError)
deriving DecidableEq, Repr

/-- What waits for the result of a body. -/
inductive Waiting where
  /-- The operation at `ip` of a body, which pushes the result. -/
  | body (code : Code) (ip : Nat) (activation : Activation)
  | loop (loop : BlockLoop)
deriving DecidableEq, Repr

/-- A machine in the middle of a run. -/
structure Machine where
  focus : Focus
  waiting : List Waiting := []
  world : World

namespace World

/-- One more operation is executed. -/
def count (world : World) : World :=
  match world with
  | { heap, symbols, globals, constants, methods, output, calls, steps } =>
    { heap, symbols, globals, constants, methods, output, calls, steps := steps + 1 }

/-- A call begins. -/
def beginCall (world : World) (call : Call) : World :=
  match world with
  | { heap, symbols, globals, constants, methods, output, calls, steps } =>
    { heap, symbols, globals, constants, methods, output, calls := calls.push call, steps }

/-- The innermost call ends. -/
def endCall (world : World) : World :=
  match world with
  | { heap, symbols, globals, constants, methods, output, calls, steps } =>
    { heap, symbols, globals, constants, methods, output, calls := calls.pop, steps }

end World

namespace BlockLoop

/-- The block, its next argument and the loop after it, unless the loop is over. -/
def next? : BlockLoop → Option (Ref .proc × Value × BlockLoop)
  | times block next count receiver =>
    if next < count then
      some (block, .fixnum (Int64.ofNat next), .times block (next + 1) count receiver)
    else none
  | each _ [] _ => none
  | each block (value :: rest) receiver => some (block, value, .each block rest receiver)
  | map _ [] _ => none
  | map block (value :: rest) results => some (block, value, .map block rest results)

/-- Take note of what the block returned. -/
def accept (loop : BlockLoop) (value : Value) : BlockLoop :=
  match loop with
  | map block rest results => .map block rest (value :: results)
  | other => other

/-- The result of a loop that is over. -/
def result : BlockLoop → Run Value
  | times _ _ _ receiver | each _ _ receiver => return receiver
  | map _ _ results => Run.newArray results.reverse.toArray

end BlockLoop

/-- A body and the line of one of its operations, as error messages list them. -/
def Code.place (code : Code) (ip : Nat) : String :=
  match code.lineFor ip with
  | some line => code.name ++ ":" ++ toString line.toNat
  | none => code.name

namespace Machine

/-- Begin a call, unless as many are in progress as the limit allows. -/
def enter (program : Program) (limits : Limits) (position : UInt32) (activation : Activation)
    (waiting : List Waiting) (world : World) : Machine :=
  if limits.maxCallDepth ≤ world.calls.size then
    let innermost := world.calls.back?.map (·.name)
    { focus := .fail (.callDepth limits.maxCallDepth innermost), waiting, world }
  else
    match program.code? position with
    | none => { focus := .fail (.noCode position), waiting, world }
    | some code =>
      { focus := .run code 0 activation, waiting
        world := world.beginCall ⟨code.name, activation.block⟩ }

/-- The limit that executing one more operation would break. -/
def brokenLimit (limits : Limits) (steps stackSize : Nat) : Option RuntimeError :=
  match limits.maxSteps with
  | some most =>
    if most < steps then some (.stepLimit most)
    else if limits.maxStackSize < stackSize then some (.stackSize limits.maxStackSize)
    else none
  | none => if limits.maxStackSize < stackSize then some (.stackSize limits.maxStackSize) else none

/-- Go on after an operation that was executed. -/
def follow (code : Code) (ip : Nat) (flow : Flow) (activation : Activation)
    (waiting : List Waiting) (world : World) : Machine :=
  match flow with
  | .next => { focus := .run code (ip + 1) activation, waiting, world }
  | .jump offset =>
    let target := (ip : Int) + offset.toInt
    if 0 ≤ target then { focus := .run code target.toNat activation, waiting, world }
    else { focus := .fail (.jumpOutside target code.name), waiting, world := world.endCall }
  | .ret value => { focus := .give value, waiting, world := world.endCall }
  | .enter position callee =>
    { focus := .enter position callee, waiting := .body code ip activation :: waiting, world }
  | .iterate loop =>
    { focus := .iterate loop, waiting := .body code ip activation :: waiting, world }

/-- Execute the operation at a position of a body. -/
def advance (program : Program) (limits : Limits) (code : Code) (ip : Nat)
    (activation : Activation) (waiting : List Waiting) (world : World) : Machine :=
  match code.ops[ip]? with
  | none => { focus := .fail (.endedWithoutReturn code.name), waiting, world := world.endCall }
  | some op =>
    let world := world.count
    match brokenLimit limits world.steps activation.stack.length with
    | some error => { focus := .fail error, waiting, world := world.endCall }
    | none =>
      match Exec.perform program op (activation, world) with
      | .ok flow (activation, world) => follow code ip flow activation waiting world
      | .error error (_, world) =>
        { focus := .fail (error.leaving (code.place ip)), waiting, world := world.endCall }

/-- Call the block of a loop once more, or end the loop. -/
def iterate (program : Program) (loop : BlockLoop) (waiting : List Waiting) (world : World) :
    Machine :=
  match loop.next? with
  | some (block, argument, rest) =>
    match Run.enterBlock program block [argument] world with
    | .ok (position, activation) world =>
      { focus := .enter position activation, waiting := .loop rest :: waiting, world }
    | .error error world => { focus := .fail error, waiting, world }
  | none =>
    match loop.result world with
    | .ok value world => { focus := .give value, waiting, world }
    | .error error world => { focus := .fail error, waiting, world }

/-- Take one step. A machine with a result or an error and nothing waiting stays as it
is. -/
def step (program : Program) (limits : Limits) : Machine → Machine
  | { focus := .enter position activation, waiting, world } =>
    enter program limits position activation waiting world
  | { focus := .run code ip activation, waiting, world } =>
    advance program limits code ip activation waiting world
  | { focus := .iterate loop, waiting, world } => iterate program loop waiting world
  | { focus := .give value, waiting := .body code ip activation :: waiting, world } =>
    let activation := { activation with stack := value :: activation.stack }
    { focus := .run code (ip + 1) activation, waiting, world }
  | { focus := .give value, waiting := .loop loop :: waiting, world } =>
    { focus := .iterate (loop.accept value), waiting, world }
  | { focus := .fail error, waiting := .body code ip _ :: waiting, world } =>
    { focus := .fail (error.leaving (code.place ip)), waiting, world := world.endCall }
  | { focus := .fail error, waiting := .loop _ :: waiting, world } =>
    { focus := .fail error, waiting, world }
  | { focus, waiting := [], world } => { focus, waiting := [], world }

end Machine

/-- Why a computation has no result. -/
inductive Halt (ε : Type) where
  | failure (error : ε)
  /-- There is no answer: the budget was used up first, so that the computation may or may not have
  a result, or recorded code was patched at a position that it does not have. -/
  | outOfFuel
deriving DecidableEq, Repr

/-- A computation on the world with a budget. -/
abbrev Bounded := EStateM (Halt RuntimeError) World

namespace Machine

/-- Run within a budget of steps to the result or error that leaves the machine. -/
def run (program : Program) (limits : Limits) : (fuel : Nat) → Machine →
    EStateM.Result (Halt RuntimeError) World Value
  | _, { focus := .give value, waiting := [], world } => .ok value world
  | _, { focus := .fail error, waiting := [], world } => .error (.failure error) world
  | 0, { world, .. } => .error .outOfFuel world
  | fuel + 1, machine => run program limits fuel (step program limits machine)

/-- Run from a focus that nothing waits for. -/
def runFrom (program : Program) (limits : Limits) (fuel : Nat) (focus : Focus) :
    Bounded Value := fun world => run program limits fuel { focus, world }

end Machine

/-- A computation on the world that needs no budget. -/
def Bounded.ofRun {α : Type} (action : Run α) : Bounded α := fun world =>
  match action world with
  | .ok value world => .ok value world
  | .error error world => .error (.failure error) world

end BlockScript
