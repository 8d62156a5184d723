import BlockScript.Artifact.Codec
import BlockScript.Backend.Emission

/-!
# The bytecode backend

This backend records every operation into a program; both arms of a branch and every
part of a loop are recorded, and nothing runs. The first operation that fails poisons
it: everything after that fails too, and no program is handed over.
-/

namespace BlockScript

/-- How far the script has come. -/
inductive ScriptState where
  | notStarted
  | opened (handle : UnitHandle)
  | ended
deriving DecidableEq, Repr

/-- The state of the bytecode backend beside the bench. -/
structure Recorder where
  script : ScriptState := .notStarted
  /-- The first failure. -/
  poisoned : Option CompileError := none
deriving DecidableEq, Repr

/-- The name of the script body. -/
def mainName : String := "<main>"

/-- The script body as messages refer to it. -/
def describeMain : String := UnitKind.script.describe mainName

namespace Recorder

variable {υ α : Type}

/-- Remember a failure, unless one is remembered already or it only reports one. -/
def poison (error : CompileError) (recorder : Recorder) : Recorder :=
  if recorder.poisoned.isNone && !error.isAborted then { recorder with poisoned := some error }
  else recorder

/-- Carry out one operation, or refuse it after a failure. -/
def checked (operation : Work Recorder υ α) : Work Recorder υ α := fun session =>
  match session.backend.poisoned with
  | some error => .error (.failure (.aborted error)) session
  | none =>
    match operation session with
    | .ok value session => .ok value session
    | .error (.failure error) session =>
      .error (.failure error) { session with backend := session.backend.poison error }
    | .error .outOfFuel session => .error .outOfFuel session

/-- Set how far the script has come. -/
def setScript (script : ScriptState) : Work Recorder υ Unit := modify fun session =>
  { session with backend := { session.backend with script } }

/-- Open the script unit, once. -/
def startScript : Work Recorder υ Unit := checked do
  let bench ← Work.bench
  if (← get).backend.script ≠ .notStarted then
    Work.fail (.violation .scriptAlreadyStarted bench.line)
  setScript (.opened (← Work.onBench (Bench.openUnit .script mainName 0 0 [])))

/-- Close the script unit. No other unit may be open. -/
def endScript : Work Recorder υ Unit := checked do
  let bench ← Work.bench
  if 1 < bench.units.size then
    Work.violate (.unclosedUnit (bench.units.top?.elim "" (·.describe)))
  match (← get).backend.script with
  | .opened handle =>
    setScript .ended
    let _ ← Work.onBench (Bench.closeUnit handle .script)
  | _ => Work.fail (.violation .noOpenUnit bench.line)

/-- Open a method unit inside a recording one. -/
def beginMethod (name : String) (arity localCount : Nat) : Work Recorder υ UnitHandle :=
  checked do
    let _ ← Work.onBench Bench.target
    Work.onBench (Bench.openUnit .method name arity localCount [])

/-- Close a method unit. -/
def endMethod (handle : UnitHandle) : Work Recorder υ Unit := checked do
  let _ ← Work.onBench (Bench.closeUnit handle .method)

/-- Record a block and push it. -/
def closure (scope : StaticScope) (arity : Nat) (body : Work Recorder υ Unit) :
    Work Recorder υ Unit := checked do
  let _ ← Work.onBench Bench.target
  let slot ← Work.recordBlock scope arity body
  Work.onBench (Bench.emit Work.closureOperation (.makeClosure slot))

/-- Record a method and define it. -/
def defineMethod (name : String) (arity localCount : Nat) (body : Work Recorder υ Unit) :
    Work Recorder υ Unit := checked do
  let _ ← Work.onBench Bench.target
  let slot ← Work.recordUnit .method name arity localCount [] body
  Work.onBench (Bench.emitNamed Work.defineOperation name fun name => .defineMethod name slot)

/-- The bytecode backend. -/
def contract (υ : Type) : Contract (Session Recorder υ) where
  startScript
  endScript
  beginMethod
  endMethod
  primitive p := checked (Work.onBench (Bench.emitPrimitive p))
  invoke name shape block := checked (Work.emitCall name shape block)
  objectArray count element := checked (Work.emitArray count element)
  branch onTrue onFalse := checked (Work.emitBranch onTrue onFalse)
  logical connective right := checked (Work.emitLogical connective right)
  loop condition body checkFirst := checked (Work.emitLoop condition body checkFirst)
  closure
  defineMethod

/-- A session in which nothing was recorded. -/
def new (config : Config) (owner : Nat) (client : υ) : Session Recorder υ where
  bench := .new config owner false
  backend := {}
  client

/-- The finished program. There is none after a failure or before the script has ended. -/
def program (session : Session Recorder υ) : Except CompileError Program :=
  let line := session.bench.line
  match session.backend.poisoned, session.backend.script with
  | some error, _ => .error (.aborted error)
  | none, .notStarted => .error (.aborted (.violation .noOpenUnit line))
  | none, .opened _ => .error (.aborted (.violation (.unclosedUnit describeMain) line))
  | none, .ended =>
    if session.bench.config.verifyUnits then
      (session.bench.program.verify.mapError .verify).map fun _ => session.bench.program
    else .ok session.bench.program

end Recorder

end BlockScript
