import BlockScript.Code.Basic
import BlockScript.Depth

/-!
# Building a code object

A builder appends operations to one code object and tracks the depth of its stack
by their declared effects. Forward jumps are emitted with offset zero and patched
when their target is reached; backward jumps aim at a label taken earlier. Source
lines are entered into the line table only where they change.
-/

namespace BlockScript

/-- When a jump is taken. -/
inductive JumpKind where
  | always
  | ifFalse
  | ifTrue
deriving DecidableEq, Repr

/-- The jump of that kind. -/
def JumpKind.op : JumpKind → Int32 → Op
  | .always => .jump
  | .ifFalse => .jumpIfFalse
  | .ifTrue => .jumpIfTrue

/-- A forward jump that waits for its target. -/
structure JumpPatch where
  ip : Nat
  kind : JumpKind
deriving DecidableEq, Repr

/-- A code object under construction. -/
structure Builder where
  code : Code
  stack : DepthTracker
  line : Option UInt32 := none
deriving DecidableEq, Repr

namespace Builder

/-- An empty unit. Its frame has room for the arguments and the named locals. -/
def new (name : String) (kind : UnitKind) (arity localCount : Nat) (locals : List String)
    (checkStack : Bool) : Builder where
  code :=
    { name, kind, arity := arity.toUInt32, locals
      localCount := max (max localCount arity).toUInt32 locals.length.toUInt32 }
  stack := .new checkStack

/-- The current depth of the unit's stack. -/
def depth (builder : Builder) : Nat := builder.stack.depth

/-- The position of the next operation. -/
def label (builder : Builder) : Nat := builder.code.ops.size

/-- Enter a line for the operations that start at a position. A second line for one
position replaces the first, and a line that is already in effect adds nothing. -/
def enterLine (lines : LineTable) (ip line : UInt32) : LineTable :=
  match lines.back? with
  | some last =>
    if last.ip = ip then lines.pop.push { last with line }
    else if last.line = line then lines
    else lines.push ⟨ip, line⟩
  | none => lines.push ⟨ip, line⟩

/-- Set the source line of the operations to come. -/
def setLine (builder : Builder) (line : UInt32) : Builder :=
  { builder with
    line := some line
    code := { builder.code with
      lines := enterLine builder.code.lines builder.label.toUInt32 line } }

/-- Append an operation on behalf of the named operation of the contract. -/
def emit (builder : Builder) (operation : String) (op : Op) : Except CompileError Builder :=
  match builder with
  | ⟨code, stack, line⟩ => do
    let stack ← stack.consume operation op.pops line
    return ⟨{ code with ops := code.ops.push op }, stack.produce op.pushes, line⟩

/-- Append a jump whose target is not yet known. -/
def emitJump (builder : Builder) (operation : String) (kind : JumpKind) :
    Except CompileError (JumpPatch × Builder) := do
  let ip := builder.label
  return (⟨ip, kind⟩, ← builder.emit operation (kind.op 0))

/-- The offset of a jump from one position to another. -/
def offset (source target : Nat) : Int32 := Int32.ofInt ((target : Int) - source)

/-- Aim a waiting jump at the next operation, if its position lies in the code. -/
def patchHere? (builder : Builder) (patch : JumpPatch) : Option Builder :=
  if inside : patch.ip < builder.code.ops.size then
    let jump := patch.kind.op (offset patch.ip builder.label)
    some { builder with code := { builder.code with ops := builder.code.ops.set patch.ip jump } }
  else none

/-- The unit with a waiting jump of its own aimed at the next operation. This is asked for only where
there is such a unit. -/
def patchHere (builder : Builder) (patch : JumpPatch) : Builder :=
  (builder.patchHere? patch).getD builder

theorem patchHere_eq (builder : Builder) (patch : JumpPatch) : builder.patchHere patch =
    let jump := patch.kind.op (offset patch.ip builder.label)
    { builder with
      code := { builder.code with ops := builder.code.ops.setIfInBounds patch.ip jump } } := by
  unfold patchHere patchHere? Array.setIfInBounds
  split <;> rfl

theorem patchHere?_inside {builder : Builder} {patch : JumpPatch}
    (inside : patch.ip < builder.label) :
    builder.patchHere? patch = some (builder.patchHere patch) := by
  have here : patch.ip < builder.code.ops.size := inside
  unfold patchHere patchHere?
  rw [dif_pos here]
  rfl

theorem patchHere?_outside {builder : Builder} {patch : JumpPatch}
    (outside : builder.label ≤ patch.ip) : builder.patchHere? patch = none :=
  dif_neg (Nat.not_lt.mpr outside)

/-- Append a jump to a position that was passed. -/
def emitJumpBack (builder : Builder) (operation : String) (kind : JumpKind) (target : Nat) :
    Except CompileError Builder :=
  builder.emit operation (kind.op (offset builder.label target))

/-- Rewind the depth of the stack. -/
def resetTo (builder : Builder) (depth : Nat) : Builder :=
  { builder with stack := builder.stack.resetTo depth }

/-- The unit as messages refer to it. -/
def describe (builder : Builder) : String := builder.code.kind.describe builder.code.name

/-- Append an operation several times. -/
def emitTimes (operation : String) (op : Op) : Nat → Builder → Except CompileError Builder
  | 0, builder => .ok builder
  | count + 1, builder => do emitTimes operation op count (← builder.emit operation op)

/-- Close the unit: without a value it returns nil, one value is returned, and more
than one are an imbalance. -/
def finish (builder : Builder) : Except CompileError Code := do
  let operation := "end of unit"
  let surplus ← builder.stack.surplus builder.describe builder.line
  let builder ← emitTimes operation .pop surplus builder
  let builder ← if builder.depth = 0 then builder.emit operation .pushNil else pure builder
  let builder ← builder.emit operation .ret
  return { builder.code with maxStack := builder.stack.maxDepth.toUInt32 }

/-- A breach of contract on the line of the next operation. -/
def violation (builder : Builder) (kind : Violation) : CompileError :=
  .violation kind builder.line

end Builder

end BlockScript
