import BlockScript.Code.Basic
import BlockScript.World

/-!
# Replies to messages

A message is answered by a value, by a body that has to be run, or by a block that
has to be called repeatedly. Running bodies is the machine's work; everything here
only prepares it, so answering a message always ends.
-/

namespace BlockScript

/-- A block that is called once for each of several arguments. -/
inductive BlockLoop where
  /-- Once for each number from `next` up to `count`; the receiver is the result. -/
  | times (block : Ref .proc) (next count : Nat) (receiver : Value)
  /-- Once for each value that is left; the receiver is the result. -/
  | each (block : Ref .proc) (rest : List Value) (receiver : Value)
  /-- Once for each value that is left; the results so far come last one first. -/
  | map (block : Ref .proc) (rest : List Value) (results : List Value)
deriving DecidableEq, Repr

/-- What a message came to. -/
inductive Reply where
  | value (value : Value)
  /-- The result of running a body. -/
  | enter (code : UInt32) (activation : Activation)
  | iterate (loop : BlockLoop)
deriving DecidableEq, Repr

namespace Run

/-- The code object at a position of the program. -/
def code (program : Program) (position : UInt32) : Run Code :=
  match program.code? position with
  | some code => return code
  | none => throw (.noCode position)

/-- Prepare a method body: its arguments fill the first slots of a fresh frame. -/
def enterMethod (program : Program) (position : UInt32) (self : Value) (args : List Value)
    (block : Option (Ref .proc)) : Run Reply := do
  let body ← code program position
  let frame ← alloc (·.newFrame (.new body.localCount.toNat args none))
  return .enter position { frame, self, block }

/-- The arguments as a block takes them: a single array is spread over several
parameters, and surplus arguments are dropped. -/
def spread (heap : Heap) (arity : Nat) (args : List Value) : List Value :=
  match args with
  | [.array cell] => if 1 < arity then ((heap.array cell).toList).take arity else args.take arity
  | _ => args.take arity

/-- Prepare a block: its frame lies inside the one that the block was made in. -/
def enterBlock (program : Program) (cell : Ref .proc) (args : List Value) :
    Run (UInt32 × Activation) := do
  match (← get).heap.proc? cell with
  | none => throw (.internal "no such block")
  | some proc =>
    let body ← code program proc.code
    let args := spread (← get).heap proc.arity args
    let frame ← alloc (·.newFrame (.new body.localCount.toNat args (some proc.frame)))
    return (proc.code, { frame, self := proc.self, block := proc.block })

/-- The block that a method needs. -/
def requireBlock (block : Option (Ref .proc)) : Run (Ref .proc) :=
  match block with
  | some cell => return cell
  | none => throw .noBlock

end Run

end BlockScript
