import BlockScript.Backend.Emission

/-!
# Programs against the contract

An `Action` is what a caller of a backend does, as data: single operations, operations
with nested actions, and the few things a caller can do around them, which are to keep
handles under names, to note what happened, to fail on its own account and to recover
from a failure. Running an action against a backend issues its operations in order; the
first failure that no recovery catches ends it.

Operations that a backend offers beside the contract are a parameter of the type.
-/

namespace BlockScript

/-- Something to do with a backend, with further operations of type `ε`. -/
inductive Action (ε : Type) where
  | skip
  | seq (first next : Action ε)
  | startScript
  | endScript
  /-- Open a method and keep its handle under a name. -/
  | beginMethod (key name : String) (arity localCount : Nat)
  /-- Close a method by the handle under a name, which is used up. -/
  | endMethod (key : String)
  /-- Keep any handle under a name. -/
  | hold (key : String) (handle : UnitHandle)
  | primitive (p : Primitive)
  | call (name : String) (shape : Invocation)
  | callBlock (name : String) (shape : Invocation) (scope : StaticScope) (arity : Nat)
      (body : Action ε)
  | array (count : Nat) (element : Nat → Action ε)
  | branch (onTrue onFalse : Action ε)
  | logical (connective : Connective) (right : Action ε)
  | loop (condition body : Action ε) (checkFirst : Bool)
  | closure (scope : StaticScope) (arity : Nat) (body : Action ε)
  | method (name : String) (arity localCount : Nat) (body : Action ε)
  | mark (label : String)
  | fail (error : CompileError)
  | rescue (body : Action ε) (handler : CompileError → Action ε)
  | extra (operation : ε)
deriving Inhabited

/-- What the caller of a backend keeps: handles under names, and the marks it has left. -/
structure Notes where
  handles : List (String × UnitHandle) := []
  trace : Array String := #[]
deriving DecidableEq, Repr

namespace Notes

/-- Leave a mark. -/
def mark (label : String) (notes : Notes) : Notes := { notes with trace := notes.trace.push label }

/-- Keep a handle under a name. -/
def hold (key : String) (handle : UnitHandle) (notes : Notes) : Notes :=
  { notes with handles := (key, handle) :: notes.handles.filter (·.1 ≠ key) }

/-- Forget the handle under a name. -/
def drop (key : String) (notes : Notes) : Notes :=
  { notes with handles := notes.handles.filter (·.1 ≠ key) }

/-- The handle under a name. -/
def handle? (key : String) (notes : Notes) : Option UnitHandle :=
  (notes.handles.find? (·.1 = key)).map (·.2)

end Notes

namespace Action

variable {ε β : Type}

/-- Change what the caller keeps. -/
def note (f : Notes → Notes) : Work β Notes Unit := modify fun session =>
  match session with
  | ⟨bench, backend, client⟩ => ⟨bench, backend, f client⟩

/-- Go on with the handler after a failure. What was changed before it stays changed. -/
def recover (body : Work β Notes Unit) (handler : CompileError → Work β Notes Unit) :
    Work β Notes Unit := fun session =>
  match body session with
  | .error (.failure error) session => handler error session
  | result => result

/-- Run an action against a backend. -/
def run (contract : Contract (Session β Notes)) (onExtra : ε → Work β Notes Unit) :
    Action ε → Work β Notes Unit
  | skip => return ()
  | seq first next => do
    first.run contract onExtra
    next.run contract onExtra
  | startScript => contract.startScript
  | endScript => contract.endScript
  | beginMethod key name arity localCount => do
    let handle ← contract.beginMethod name arity localCount
    note (·.hold key handle)
  | endMethod key => do
    match (← get).client.handle? key with
    | some handle =>
      note (·.drop key)
      contract.endMethod handle
    | none => note (·.mark "no handle")
  | hold key handle => note (·.hold key handle)
  | primitive p => contract.primitive p
  | call name shape => contract.invoke name shape none
  | callBlock name shape scope arity body =>
    contract.invoke name shape (some { scope, arity, body := body.run contract onExtra })
  | array count element =>
    contract.objectArray count fun index => (element index).run contract onExtra
  | branch onTrue onFalse =>
    contract.branch (onTrue.run contract onExtra) (onFalse.run contract onExtra)
  | logical connective right => contract.logical connective (right.run contract onExtra)
  | loop condition body checkFirst =>
    contract.loop (condition.run contract onExtra) (body.run contract onExtra) checkFirst
  | closure scope arity body => contract.closure scope arity (body.run contract onExtra)
  | method name arity localCount body =>
    contract.defineMethod name arity localCount (body.run contract onExtra)
  | mark label => note (·.mark label)
  | fail error => Work.fail error
  | rescue body handler =>
    recover (body.run contract onExtra) fun error => (handler error).run contract onExtra
  | extra operation => onExtra operation

/-- Several actions in order. -/
def all : List (Action ε) → Action ε
  | [] => skip
  | [last] => last
  | first :: rest => seq first (all rest)

end Action

/-- The direct use of a bench, which backends offer beside the contract. -/
inductive BenchAction where
  | emit (op : Op)
  /-- Append a read of a global by name. -/
  | emitNamed (name : String)
  | reserve
  | install (slot : UInt32) (code : Code)
  | release (slot : UInt32)
  /-- Mark the name that a block would get. -/
  | blockName
deriving DecidableEq, Repr

/-- Carry out a direct use of the bench, and mark what it gives. -/
def BenchAction.run {β : Type} : BenchAction → Work β Notes Unit
  | emit op => Work.onBench (Bench.emit "emit_op" op)
  | emitNamed name => Work.onBench (Bench.emitNamed "emit_named" name .getGlobal)
  | reserve => do
    let slot ← Work.onBench Bench.reserve
    Action.note (·.mark ("reserved " ++ toString slot.toNat))
  | install slot code => do
    let slot ← Work.onBench (Bench.install slot code)
    Action.note (·.mark ("installed " ++ toString slot.toNat))
  | release slot => Work.modifyBench (·.release slot)
  | blockName => do
    let name := (← Work.bench).blockName
    Action.note (·.mark name)

end BlockScript
