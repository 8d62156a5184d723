import BlockScript.Builtin.Dispatch

/-!
# Executing one operation

An operation works on the activation that executes it and on the world. Most are
done at once; a call that needs another body to run is only prepared, and its result
is pushed later. When an operation fails, the operands it has taken are gone.
-/

namespace BlockScript

/-- Where control goes after an operation. -/
inductive Flow where
  | next
  | jump (offset : Int32)
  /-- The unit is left with this result. -/
  | ret (value : Value)
  /-- A body has to run; its result is the operand that the operation pushes. -/
  | enter (code : UInt32) (activation : Activation)
  /-- A block has to be called repeatedly; the result is pushed. -/
  | iterate (loop : BlockLoop)
deriving DecidableEq, Repr

/-- A computation on an activation and the world. -/
abbrev Exec := EStateM RuntimeError (Activation × World)

namespace Exec

/-- Compute on the world alone. -/
def lift {α : Type} (action : Run α) : Exec α := fun (activation, world) =>
  match action world with
  | .ok value world => .ok value (activation, world)
  | .error error world => .error error (activation, world)

/-- The executing activation. -/
def activation : Exec Activation := return (← get).1

/-- Push an operand. -/
def push (value : Value) : Exec Unit := modify fun (activation, world) =>
  ({ activation with stack := value :: activation.stack }, world)

/-- Push an operand and go on. -/
def pushNext (value : Value) : Exec Flow := do
  push value
  return .next

/-- Take the topmost operand. -/
def pop : Exec Value := fun (activation, world) =>
  match activation with
  | { stack := value :: stack, frame, self, block } =>
    .ok value ({ stack, frame, self, block }, world)
  | { stack := [], .. } => .error (.stackUnderflow "POP") (activation, world)

/-- Take the topmost operands, in the order in which they were pushed. -/
def popMany (operation : String) (count : Nat) : Exec (List Value) := fun (activation, world) =>
  if count ≤ activation.stack.length then
    let (taken, stack) := activation.stack.splitAt count
    .ok taken.reverse ({ activation with stack }, world)
  else .error (.stackUnderflow operation) (activation, world)

/-- The text of a constant. -/
def constantText (pool : Pool) (position : UInt32) : Exec String :=
  match pool.text? position with
  | some text => return text
  | none => throw (.badConstant position)

/-- The frame a number of levels outward. -/
def outer (depth : UInt32) : Exec (Ref .frame) := do
  let (activation, world) ← get
  match world.heap.ancestor? depth.toNat activation.frame with
  | some frame => return frame
  | none => throw (.noFrame depth)

/-- A block over the executing activation. -/
def makeProc (program : Program) (position : UInt32) : Exec (Ref .proc) := do
  let code ← lift (Run.code program position)
  let { frame, self, block, .. } ← activation
  lift (Run.alloc (·.newProc { code := position, arity := code.arity.toNat, frame, self, block }))

/-- Go on with a reply: a value is pushed, anything else is left to run. -/
def answer : Reply → Exec Flow
  | .value value => pushNext value
  | .enter code activation => return .enter code activation
  | .iterate loop => return .iterate loop

/-- Jump if the operand is as wanted. -/
def jumpWhen (truthy : Bool) (offset : Int32) : Exec Flow := do
  if (← pop).isTruthy = truthy then return .jump offset else return .next

/-- Execute one operation of a program. -/
def perform (program : Program) : Op → Exec Flow
  | .pushNil => pushNext .nil
  | .pushTrue => pushNext (.bool true)
  | .pushFalse => pushNext (.bool false)
  | .pushSelf => do pushNext (← activation).self
  | .pushFixnum value => pushNext (.fixnum value)
  | .pushBignum constant => do
    match program.constants.get? constant with
    | some (.bignum n) => pushNext (← lift (Run.newInteger n))
    | _ => throw (.badConstant constant)
  | .pushString constant => do
    pushNext (← lift (Run.newString (← constantText program.constants constant)))
  | .pushSymbol constant => do
    pushNext (← lift (Run.intern (← constantText program.constants constant)))
  | .pop => do
    let _ ← pop
    return .next
  | .dup => do
    match (← activation).stack with
    | top :: _ => pushNext top
    | [] => throw (.stackUnderflow "DUP")
  | .getLocal index => do
    let (activation, world) ← get
    pushNext ((world.heap.frame activation.frame).get index.toNat)
  | .setLocal index => do
    let value ← pop
    let frame := (← activation).frame
    lift (Run.modifyHeap (·.setLocal frame index.toNat value))
    return .next
  | .getOuter index depth => do
    let frame ← outer depth
    pushNext (((← get).2.heap.frame frame).get index.toNat)
  | .setOuter index depth => do
    let value ← pop
    let frame ← outer depth
    lift (Run.modifyHeap (·.setLocal frame index.toNat value))
    return .next
  | .getIvar constant => do
    let name ← constantText program.constants constant
    let (activation, world) ← get
    match activation.self with
    | .object cell => pushNext (((world.heap.object cell).ivars.get? name).getD .nil)
    | _ => pushNext .nil
  | .setIvar constant => do
    let name ← constantText program.constants constant
    let value ← pop
    match (← activation).self with
    | .object cell =>
      lift (Run.modifyHeap (·.setIvar cell name value))
      return .next
    | other => throw (.noInstanceVariables name (other.className (← get).2.heap))
  | .getGlobal constant => do
    let name ← constantText program.constants constant
    pushNext ((← get).2.global name)
  | .setGlobal constant => do
    let name ← constantText program.constants constant
    let value ← pop
    lift (Run.setGlobal name value)
    return .next
  | .getConst constant => do
    let name ← constantText program.constants constant
    match (← get).2.constants.get? name with
    | some value => pushNext value
    | none => throw (.noConstant name)
  | .setConst constant => do
    let name ← constantText program.constants constant
    let value ← pop
    lift (Run.setConstant name value)
    return .next
  | .makeArray count => do
    let items ← popMany "MAKE_ARRAY" count.toNat
    pushNext (← lift (Run.newArray items.toArray))
  | .toArray => do
    match ← pop with
    | .array cell => pushNext (← lift (Run.newArray ((← get).2.heap.array cell)))
    | .nil => pushNext (← lift (Run.newArray #[]))
    | other => pushNext (← lift (Run.newArray #[other]))
  | .send constant argc receiver block => do
    let name ← constantText program.constants constant
    let args ← popMany "SEND" argc.toNat
    let target ← if receiver then pop else (·.self) <$> activation
    let block ← block.mapM (makeProc program)
    answer (← lift (Run.dispatch program target name args block))
  | .yield argc => do
    let args ← popMany "YIELD" argc.toNat
    match (← activation).block with
    | none => throw .noBlock
    | some block =>
      let (code, activation) ← lift (Run.enterBlock program block args)
      return .enter code activation
  | .makeClosure code => do pushNext (.proc (← makeProc program code))
  | .defineMethod constant position => do
    let name ← constantText program.constants constant
    let code ← lift (Run.code program position)
    lift (Run.setMethod name (.compiled position code.arity.toNat))
    return .next
  | .aliasMethod new old => do
    let newName ← constantText program.constants new
    let oldName ← constantText program.constants old
    lift (Run.aliasMethod newName oldName)
    return .next
  | .not => do pushNext (.bool !(← pop).isTruthy)
  | .jump offset => return .jump offset
  | .jumpIfFalse offset => jumpWhen false offset
  | .jumpIfTrue offset => jumpWhen true offset
  | .ret => return .ret (← pop)

end Exec

end BlockScript
