import BlockScript.Machine.Basic
import BlockScript.Proofs.Value.Shown

/-!
# Operations that show blocks

A text that shows a block depends on where its code object is. Text of a value is made by the
methods that print or convert values, and by two errors that name a value. For each message
this lists the values whose text is made when it is answered.
-/

namespace BlockScript

/-- A value that becomes text. -/
structure Shown where
  rendering : Rendering
  value : Value

/-- The text shows a block. -/
def Shown.proc (heap : Heap) (shown : Shown) : Bool := shown.rendering.showsProc heap shown.value

theorem Shown.proc_withProcs (heap : Heap) (procs : Array Proc) (shown : Shown) :
    shown.proc (heap.withProcs procs) = shown.proc heap :=
  congrFun (Rendering.showsProc_withProcs heap procs shown.rendering) shown.value

namespace Builtin

/-- Only an order relation makes a text: it names a value that is no integer. -/
def integerShows (method : IntegerMethod) (args : List Value) : List Shown :=
  match method, args with
  | .comparison _, [argument] =>
    match argument.int? with
    | some _ => []
    | none => [⟨.inspect, argument⟩]
  | _, _ => []

/-- Only joining makes texts, unless the separator is refused. -/
def arrayShows (method : ArrayMethod) (items args : List Value) : List Shown :=
  match method, args with
  | .join, [] | .join, .nil :: _ | .join, .string _ :: _ => items.map (⟨.display, ·⟩)
  | _, _ => []

/-- The methods of every object that print or convert values. -/
def kernelShows (method : KernelMethod) (receiver : Value) (args : List Value) : List Shown :=
  match method with
  | .puts => args.map (⟨.lines, ·⟩)
  | .print => args.map (⟨.display, ·⟩)
  | .p => args.map (⟨.inspect, ·⟩)
  | .inspect => [⟨.inspect, receiver⟩]
  | .display => [⟨.display, receiver⟩]
  | _ => []

/-- Without a method of that name the error names the receiver. -/
def lastShows (receiver : Value) (name : String) (args : List Value) : List Shown :=
  match named? kernelMethods name with
  | some method => kernelShows method receiver args
  | none => [⟨.inspect, receiver⟩]

/-- The texts that a method of the receiver's class makes, if it has one of that name. -/
def classShows (heap : Heap) (receiver : Value) (name : String) (args : List Value) :
    Option (List Shown) :=
  match receiver with
  | .fixnum _ | .bignum _ _ => (named? integerMethods name).map (integerShows · args)
  | .string _ => (named? stringMethods name).map fun _ => []
  | .symbol _ => (named? symbolMethods name).map fun _ => []
  | .array cell => (named? arrayMethods name).map (arrayShows · (heap.array cell).toList args)
  | .proc _ => (named? procMethods name).map fun _ => []
  | .classRef _ => (named? classMethods name).map fun _ => []
  | .nil => (named? nilMethods name).map fun _ => []
  | .bool _ | .object _ => none

/-- The texts that the built-in methods alone make. -/
def builtinShows (heap : Heap) (receiver : Value) (name : String) (args : List Value) :
    List Shown :=
  (classShows heap receiver name args).getD (lastShows receiver name args)

end Builtin

/-- The texts that answering a message makes, before any body runs. -/
def World.shows (world : World) (receiver : Value) (name : String) (args : List Value) :
    List Shown :=
  match Builtin.classShows world.heap receiver name args with
  | some shown => shown
  | none =>
    match world.methods.get? name with
    | some (.compiled _ _) => []
    | some (.builtin original) => Builtin.builtinShows world.heap receiver original args
    | none => Builtin.lastShows receiver name args

/-- They do not depend on the code of blocks. -/
theorem World.shows_withProcs (world : World) (procs : Array Proc) (receiver : Value) (name : String)
    (args : List Value) :
    World.shows { world with heap := world.heap.withProcs procs } receiver name args =
      world.shows receiver name args := by
  cases receiver <;> rfl

/-- The texts that an operation makes. -/
def Op.shows (program : Program) (activation : Activation) (world : World) : Op → List Shown
  | .send name argc receiver _ =>
    let args := (activation.stack.take argc.toNat).reverse
    let target :=
      if receiver then (activation.stack.drop argc.toNat).headD .nil else activation.self
    (program.constants.text? name).elim [] (world.shows target · args)
  | _ => []

/-- They do not depend on how many operations were executed. -/
theorem Op.shows_count (op : Op) (program : Program) (activation : Activation) (world : World) :
    op.shows program activation world.count = op.shows program activation world := by
  cases op <;> rfl

/-- The next operation of the machine makes a text that shows a block. -/
def Machine.ShowsProc (program : Program) (machine : Machine) : Prop :=
  ∃ code ip activation op, machine.focus = .run code ip activation ∧ code.ops[ip]? = some op ∧
    ∃ shown ∈ op.shows program activation machine.world, shown.proc machine.world.heap = true

end BlockScript
