import BlockScript.Builder
import BlockScript.Contract.Basic
import BlockScript.Verifier

/-!
# The workbench

What every backend that records bytecode works on: the open units with the code
objects under construction, the code table and constant pool that they end up in, and
the current source line. A unit claims its slot in the code table when it opens and
fills it when it closes.

A bench that shares code objects gives an equal code object the slot of the first one
and takes the new slot back, so that recording the same body again and again does not
make the table grow.
-/

namespace BlockScript

/-- A unit whose body is being recorded, and its slot in the code table. -/
structure Recording where
  slot : UInt32
  builder : Builder
deriving DecidableEq, Repr

/-- The state of recording. -/
structure Bench where
  config : Config
  /-- Units without a recording are executed instead. -/
  units : UnitStack (Option Recording)
  program : Program := .empty
  /-- The last source line that was set. -/
  line : Option UInt32 := none
  /-- Equal code objects share a slot. -/
  sharing : Bool
  /-- The code objects that may be shared, with their slots. -/
  recorded : List (Code × UInt32) := []
deriving DecidableEq, Repr

/-- A computation on the bench. -/
abbrev BenchM := EStateM CompileError Bench

namespace Bench

/-- A bench on which nothing was recorded. The owner tells its units from others'. -/
def new (config : Config) (owner : Nat) (sharing : Bool) : Bench where
  config
  units := .new owner config.maxNesting
  sharing

/-- The innermost unit's recording. -/
def recording? (bench : Bench) : Option Recording := bench.units.top?.bind (·.payload)

/-- The source line that diagnostics name. -/
def currentLine (bench : Bench) : Option UInt32 :=
  (bench.recording?.bind (·.builder.line)).or bench.line

/-- The depth of the stack of the innermost recording. -/
def unitDepth? (bench : Bench) : Option Nat := bench.recording?.map (·.builder.depth)

/-- The name of a block that is made in the innermost unit. -/
def blockName (bench : Bench) : String :=
  match bench.units.top? with
  | some unit => "block in " ++ unit.name
  | none => "block"

/-- A breach of contract on the current line. -/
def violation (bench : Bench) (kind : Violation) : CompileError :=
  .violation kind bench.currentLine

/-- Give back the slot at a position and every slot after it. -/
def release (bench : Bench) (slot : UInt32) : Bench :=
  match bench with
  | { config, units, program, line, sharing, recorded } =>
    { config, units, program := program.release slot, line, sharing
      recorded := recorded.filter (·.2 < slot) }

/-- Leave a control-flow region. -/
def exitRegion (bench : Bench) : Bench := { bench with units := bench.units.exit }

/-- Discard all but the outermost units, and the slots of those discarded. -/
def abandon (bench : Bench) (count : Nat) : Bench :=
  let (dropped, units) := bench.units.truncate count
  let bench := { bench with units }
  match (dropped.filterMap fun unit => unit.payload.map (·.slot)).min? with
  | some lowest => bench.release lowest
  | none => bench

/-- Add a constant to the pool. -/
def intern (constant : Constant) : BenchM UInt32 := fun bench =>
  match bench.program.constants.intern constant bench.config.maxPoolEntries with
  | .ok (position, constants) =>
    .ok position { bench with program := { bench.program with constants } }
  | .error error => .error error bench

/-- The innermost unit must be recording. -/
def target : BenchM Builder := do
  let bench ← get
  match bench.units.top? with
  | none => throw (.violation .noOpenUnit bench.line)
  | some unit =>
    match unit.payload with
    | some recording => return recording.builder
    | none => throw (.violation (.wrongUnitKind unit.describe) bench.line)

/-- Change the builder of the innermost recording. -/
def modifyBuilder (f : Builder → Builder) : BenchM Unit := modify fun bench =>
  match bench with
  | { config, units, program, line, sharing, recorded } =>
    { config, units := units.mapTop (·.map fun ⟨slot, builder⟩ => ⟨slot, f builder⟩)
      program, line, sharing, recorded }

/-- Let the builder of the innermost recording do something that may fail. -/
def build {α : Type} (action : Builder → Except CompileError (α × Builder)) : BenchM α := do
  match action (← target) with
  | .ok (value, builder) =>
    modifyBuilder fun _ => builder
    return value
  | .error error => throw error

/-- Append an operation to the innermost recording. -/
def emit (operation : String) (op : Op) : BenchM Unit :=
  build fun builder => return ((), ← builder.emit operation op)

/-- Append an operation on a pooled constant. -/
def emitPooled (operation : String) (constant : Constant) (op : UInt32 → Op) : BenchM Unit := do
  let _ ← target
  emit operation (op (← intern constant))

/-- Append an operation on a pooled name. -/
def emitNamed (operation name : String) (op : UInt32 → Op) : BenchM Unit :=
  emitPooled operation (.name name) op

/-- Append an alias. -/
def emitAlias (operation newName oldName : String) : BenchM Unit := do
  let _ ← target
  let new ← intern (.name newName)
  let old ← intern (.name oldName)
  emit operation (.aliasMethod new old)

/-- Append a call with what is on the stack. -/
def emitSend (operation name : String) (shape : Invocation) (block : Option UInt32) :
    BenchM Unit := do
  let _ ← target
  let position ← intern (.name name)
  emit operation (.send position shape.argc.toUInt32 shape.hasReceiver block)

/-- A yield needs a method around it. A lenient one without a prepared value passes no
arguments. -/
def emitYield (operation : String) (hasArgs : Bool) : BenchM Unit := do
  let bench ← get
  if !bench.units.insideMethod then throw (bench.violation .yieldWithoutBlock)
  let builder ← target
  let lenient := bench.config.yieldMode = .lenient
  let drop := hasArgs && builder.depth == 0 && lenient
  emit operation (.yield (if hasArgs && !drop then 1 else 0))

/-- A local is only reachable through closures that are open. -/
def checkScopeDepth (depth : Nat) : BenchM Unit := do
  let bench ← get
  let available := bench.units.reachableDepth
  if available < depth then throw (bench.violation (.scopeDepth depth available))

/-- The operation that reads or sets a local. -/
def localOp (index depth : Nat) (assign : Bool) : Op :=
  let index := index.toUInt32
  let depth := depth.toUInt32
  match assign with
  | false => if depth = 0 then .getLocal index else .getOuter index depth
  | true => if depth = 0 then .setLocal index else .setOuter index depth

/-- Append an access to a local. -/
def emitLocal (operation : String) (index depth : Nat) (assign : Bool) : BenchM Unit := do
  checkScopeDepth depth
  emit operation (localOp index depth assign)

/-- Set the source line of the innermost recording. -/
def setLine (line : UInt32) : BenchM Unit := do
  let _ ← target
  modifyBuilder (·.setLine line)

/-- Append the code of an operation without nested code. -/
def emitPrimitive (p : Primitive) : BenchM Unit :=
  match p.form with
  | .op op => emit p.operation op
  | .pooled constant op => emitPooled p.operation constant op
  | .access index depth assign => emitLocal p.operation index depth assign
  | .aliasMethod newName oldName => emitAlias p.operation newName oldName
  | .yield hasArgs => emitYield p.operation hasArgs
  | .line line => do
    setLine line
    modify fun bench => { bench with line := some line }

/-- Claim a slot for a unit that is about to open. -/
def reserve : BenchM UInt32 := fun bench =>
  if bench.config.maxPoolEntries ≤ bench.program.code.size then
    .error (.exhausted .codeObjects bench.config.maxPoolEntries) bench
  else
    let (slot, program) := bench.program.reserve
    .ok slot { bench with program }

/-- Fill a slot. The result is the slot that users of the code object refer to. -/
def install (slot : UInt32) (code : Code) : BenchM UInt32 := fun bench =>
  let shared := if bench.sharing then bench.recorded.find? (·.1 = code) else none
  match shared with
  | some (_, existing) => .ok existing (bench.release slot)
  | none =>
    match bench.program.install? slot code with
    | some program =>
      .ok slot { bench with
        program
        recorded := if bench.sharing then (code, slot) :: bench.recorded else bench.recorded }
    | none =>
      if bench.sharing then .error (.runtime (.noSlot slot) bench.currentLine) bench
      else .error (.violation .noOpenUnit bench.line) bench

/-- Open a recording unit in a slot of its own. -/
def openUnit (kind : UnitKind) (name : String) (arity localCount : Nat) (locals : List String) :
    BenchM UnitHandle := do
  let slot ← reserve
  let bench ← get
  let builder := Builder.new name kind arity localCount locals bench.config.checkStack
  let builder := match bench.currentLine with
    | some line => builder.setLine line
    | none => builder
  match bench.units.open kind name (some ⟨slot, builder⟩) with
  | .ok (handle, units) =>
    set { bench with units }
    return handle
  | .error error =>
    set (bench.release slot)
    throw error

/-- Finish a code object, verify it and install it. -/
def installUnit (slot : UInt32) (builder : Builder) : BenchM UInt32 := do
  match builder.finish with
  | .error error => throw error
  | .ok code =>
    if (← get).config.verifyUnits then
      if let .error error := code.verify then throw (.verify error)
    install slot code

/-- Close the innermost unit and install its code object. A unit that cannot be
installed is closed all the same, and its slot is given back. -/
def closeUnit (handle : UnitHandle) (kind : UnitKind) : BenchM UInt32 := fun bench =>
  let line := bench.currentLine
  match bench.units.close handle kind line with
  | .error error => .error error bench
  | .ok (unit, units) =>
    let bench := { bench with units }
    match unit.payload with
    | none => .error (.violation (.wrongUnitKind unit.describe) line) bench
    | some ⟨slot, builder⟩ =>
      match installUnit slot builder bench with
      | .ok installed bench => .ok installed bench
      | .error error bench => .error error (bench.release slot)

end Bench

end BlockScript
