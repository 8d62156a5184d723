import BlockScript.Machine.Basic
import BlockScript.Verifier

/-!
# The virtual machine

A virtual machine holds a loaded program, its limits and a world. It runs the script,
and it also answers single messages, calls bodies and blocks, and executes single
operations for an activation that its caller owns. All of these run bodies to their
end, so all of them take a budget of machine steps.
-/

namespace BlockScript

namespace Machine

variable (program : Program) (limits : Limits) (fuel : Nat)

/-- Run until a reply has become a value. -/
def settle : Reply → Bounded Value
  | .value value => return value
  | .enter position activation => runFrom program limits fuel (.enter position activation)
  | .iterate loop => runFrom program limits fuel (.iterate loop)

/-- Send a message and run until it is answered. -/
def send (receiver : Value) (name : String) (args : List Value)
    (block : Option (Ref .proc)) : Bounded Value := do
  settle program limits fuel
    (← Bounded.ofRun (Run.dispatch program receiver name args block))

/-- Run a method body. -/
def callCode (position : UInt32) (self : Value) (args : List Value)
    (block : Option (Ref .proc)) : Bounded Value := do
  settle program limits fuel
    (← Bounded.ofRun (Run.enterMethod program position self args block))

/-- Call a block. -/
def callProc (cell : Ref .proc) (args : List Value) : Bounded Value := do
  let (position, activation) ← Bounded.ofRun (Run.enterBlock program cell args)
  settle program limits fuel (.enter position activation)

/-- Execute one operation for an activation, with every body that it calls. The result
is never one of the flows that leave a body to run. -/
def complete (op : Op) : EStateM (Halt RuntimeError) (Activation × World) Flow :=
  fun state =>
    let finish (reply : Reply) (activation : Activation) (world : World) :=
      match settle program limits fuel reply world with
      | .ok value world =>
        .ok Flow.next ({ activation with stack := value :: activation.stack }, world)
      | .error halt world => .error halt (activation, world)
    match Exec.perform program op state with
    | .ok (.enter position callee) (activation, world) =>
      finish (.enter position callee) activation world
    | .ok (.iterate loop) (activation, world) => finish (.iterate loop) activation world
    | .ok flow state => .ok flow state
    | .error error state => .error (.failure error) state

/-- Run the script body from a fresh count of operations, with the top-level object as
self. -/
def runMain : Bounded Value := do
  modify World.resetExecution
  let main ← Bounded.ofRun (Run.code program 0)
  let frame ← Bounded.ofRun (Run.alloc (·.newFrame (.new main.localCount.toNat [] none)))
  runFrom program limits fuel (.enter 0 { frame, self := World.main })

end Machine

/-- A virtual machine with its program. -/
structure Vm where
  program : Program := .empty
  limits : Limits := {}
  world : World := .new

namespace Vm

/-- A machine without a program in a world in which nothing has run. -/
def new (limits : Limits) : Vm := { limits }

/-- Replace the program by one that the verifier accepts. -/
def load (vm : Vm) (program : Program) : Except RuntimeError Vm :=
  match program.verify with
  | .ok () => .ok { vm with program }
  | .error error => .error (.internal error.text)

/-- Compute on the world of the machine. -/
def apply {ε α : Type} (vm : Vm) (action : EStateM ε World α) : Except ε α × Vm :=
  match vm with
  | ⟨program, limits, world⟩ =>
    match action world with
    | .ok value world => (.ok value, ⟨program, limits, world⟩)
    | .error error world => (.error error, ⟨program, limits, world⟩)

/-- Run the loaded program. -/
def runMain (vm : Vm) (fuel : Nat) : Except (Halt RuntimeError) Value × Vm :=
  vm.apply (Machine.runMain vm.program vm.limits fuel)

/-- Load a program and run it. -/
def run (vm : Vm) (fuel : Nat) (program : Program) : Except (Halt RuntimeError) Value × Vm :=
  match vm.load program with
  | .ok vm => vm.runMain fuel
  | .error error => (.error (.failure error), vm)

/-- Take the output, which leaves none. -/
def takeOutput (vm : Vm) : String × Vm :=
  (vm.world.output, { vm with world := { vm.world with output := "" } })

end Vm

end BlockScript
