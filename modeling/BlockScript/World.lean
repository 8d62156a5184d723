import BlockScript.Error.Runtime
import BlockScript.Value.Equality
import BlockScript.Value.Render

/-!
# The state of a running program

A `World` is everything that a running program can change apart from the frames in
its own hands: the heap, the symbols, the tables of globals, constants and methods,
the output, the calls in progress and the number of operations executed. An error
does not undo what was changed before it.
-/

namespace BlockScript

/-- What a method name stands for. -/
inductive Method where
  | compiled (code : UInt32) (arity : Nat)
  /-- Another name of a built-in method. -/
  | builtin (name : String)
deriving DecidableEq, Repr

/-- A call in progress: the name of the body and the block it was given. -/
structure Call where
  name : String
  block : Option (Ref .proc)
deriving DecidableEq, Repr

/-- One executing body: its operands, topmost first, its frame, self and block. -/
structure Activation where
  stack : List Value := []
  frame : Ref .frame
  self : Value
  block : Option (Ref .proc) := none
deriving DecidableEq, Repr

/-- The state that the operations of a program work on. -/
structure World where
  heap : Heap := .empty
  symbols : SymbolTable := {}
  globals : Table Value := .empty
  constants : Table Value := .empty
  methods : Table Method := .empty
  output : String := ""
  /-- Calls in progress, the innermost last. -/
  calls : Array Call := #[]
  /-- Operations executed since the last reset. -/
  steps : Nat := 0

namespace World

/-- The object that is self at the top level. -/
def main : Value := .object ⟨0⟩

/-- A world in which nothing has run: it holds the top-level object and knows the one
class that can be instantiated. -/
def new : World where
  heap := (Heap.empty.newObject Value.mainClass).2
  constants := Table.empty.set "Object" (.classRef "Object")

/-- Forget the calls in progress and the operations counted. -/
def resetExecution (world : World) : World := { world with calls := #[], steps := 0 }

/-- Globals that were never set hold nil. -/
def global (world : World) (name : String) : Value := (world.globals.get? name).getD .nil

/-- The innermost call was given a block. -/
def blockGiven (world : World) : Bool := world.calls.back?.any (·.block.isSome)

end World

/-- A computation on the world that may end in a runtime error. -/
abbrev Run := EStateM RuntimeError World

namespace Run

/-- Make a heap cell. -/
def alloc {α : Type} (make : Heap → α × Heap) : Run α := modifyGet fun world =>
  match world with
  | { heap, symbols, globals, constants, methods, output, calls, steps } =>
    let (cell, heap) := make heap
    (cell, { heap, symbols, globals, constants, methods, output, calls, steps })

/-- Change heap cells. -/
def modifyHeap (f : Heap → Heap) : Run Unit := modify fun world =>
  match world with
  | { heap, symbols, globals, constants, methods, output, calls, steps } =>
    { heap := f heap, symbols, globals, constants, methods, output, calls, steps }

/-- A fresh string. -/
def newString (text : String) : Run Value := return .string (← alloc (·.newString text))

/-- A fresh array. -/
def newArray (items : Array Value) : Run Value := return .array (← alloc (·.newArray items))

/-- An integer: a fixnum if it fits one, otherwise a large integer of its own. -/
def newInteger (n : Int) : Run Value :=
  if isFixnum n then return .fixnum (Int64.ofInt n) else alloc (·.newBignum n)

/-- A fresh object of a class. -/
def newObject (className : String) : Run Value :=
  return .object (← alloc (·.newObject className))

/-- The symbol of a name. -/
def intern (name : String) : Run Value := modifyGet fun world =>
  let (symbol, symbols) := world.symbols.intern name
  (.symbol symbol, { world with symbols })

/-- Print text. -/
def write (text : String) : Run Unit := modify fun world =>
  match world with
  | { heap, symbols, globals, constants, methods, output, calls, steps } =>
    { heap, symbols, globals, constants, methods, output := output ++ text, calls, steps }

/-- Set a global variable. -/
def setGlobal (name : String) (value : Value) : Run Unit := modify fun world =>
  { world with globals := world.globals.set name value }

/-- Set a constant. -/
def setConstant (name : String) (value : Value) : Run Unit := modify fun world =>
  { world with constants := world.constants.set name value }

/-- Bind a method name. -/
def setMethod (name : String) (method : Method) : Run Unit := modify fun world =>
  { world with methods := world.methods.set name method }

/-- A value was needed that converts to another class. -/
def notConvertible {α : Type} (expected : String) (value : Value) : Run α := do
  throw (.notConvertible (value.className (← get).heap) expected)

/-- The receiver has no method of that name. -/
def noMethod {α : Type} (name : String) (receiver : Value) : Run α := do
  let heap := (← get).heap
  throw (.noMethod name (receiver.inspect heap) (receiver.className heap))

/-- A method was called with the wrong number of arguments. -/
def expectArgs (args : List Value) (expected : Nat) : Run Unit :=
  if args.length = expected then pure () else throw (.wrongArity args.length expected)

end Run

end BlockScript
