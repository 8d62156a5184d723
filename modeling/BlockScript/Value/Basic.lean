import BlockScript.Symbol
import BlockScript.Table

/-!
# Values and the heap

Nil, truth values, small integers and symbols are immediate. Strings, arrays,
blocks and objects live in cells of a heap, and a value of such a kind is a
reference to its cell; two values are identical when they refer to one cell. A large
integer cannot change, so it carries its number itself together with an identity.
Frames of local variables are heap cells as well, because blocks keep them alive.

The heap has one array of cells for each kind, and cells are only ever added.
-/

namespace BlockScript

/-- The kinds of heap cells. -/
inductive CellKind where
  | string
  | array
  | proc
  | object
  | frame
deriving DecidableEq, Repr

/-- A reference to a cell of one kind. -/
structure Ref (kind : CellKind) where
  index : Nat
deriving DecidableEq, Repr

/-- A value of the language. -/
inductive Value where
  | nil
  | bool (b : Bool)
  | fixnum (n : Int64)
  /-- An integer of any size. Arithmetic makes one only of a number that is no fixnum. -/
  | bignum (n : Int) (identity : Nat)
  | string (cell : Ref .string)
  | symbol (symbol : Symbol)
  | array (cell : Ref .array)
  | proc (cell : Ref .proc)
  | classRef (name : String)
  | object (cell : Ref .object)
deriving DecidableEq, Repr, Inhabited

/-- A block together with everything that it closed over. -/
structure Proc where
  code : UInt32
  arity : Nat
  frame : Ref .frame
  self : Value
  /-- The block of the method that the block was made in; a yield calls it. -/
  block : Option (Ref .proc)
deriving DecidableEq, Repr

/-- An object: its class and its instance variables. -/
structure Instance where
  className : String
  ivars : Table Value := .empty
deriving DecidableEq, Repr

/-- The local variables of one activation. -/
structure Frame where
  locals : Array Value
  parent : Option (Ref .frame)
deriving DecidableEq, Repr

namespace Frame

/-- A frame whose first slots hold the given values and whose size is at least `size`. -/
def new (size : Nat) (values : List Value) (parent : Option (Ref .frame)) : Frame where
  locals := values.toArray ++ Array.replicate (size - values.length) Value.nil
  parent

/-- The variable in a slot; slots that were never set hold nil. -/
def get (frame : Frame) (slot : Nat) : Value := frame.locals.getD slot Value.nil

/-- Values with one slot set, and nil in the gap before it if the slot is new. -/
def setSlot (values : Array Value) (slot : Nat) (value : Value) : Array Value :=
  if slot < values.size then values.setIfInBounds slot value
  else (values ++ Array.replicate (slot - values.size) Value.nil).push value

/-- Set a slot. The frame grows as needed. -/
def set (frame : Frame) (slot : Nat) (value : Value) : Frame :=
  match frame with
  | ⟨locals, parent⟩ => ⟨setSlot locals slot value, parent⟩

end Frame

/-- All cells, and how many large integers were made. -/
structure Heap where
  strings : Array String := #[]
  arrays : Array (Array Value) := #[]
  procs : Array Proc := #[]
  objects : Array Instance := #[]
  frames : Array Frame := #[]
  bignums : Nat := 0

namespace Heap

/-- The heap without cells. -/
def empty : Heap := {}

/-- The text of a string cell. -/
def string (heap : Heap) (cell : Ref .string) : String := heap.strings.getD cell.index ""

/-- The elements of an array cell. -/
def array (heap : Heap) (cell : Ref .array) : Array Value := heap.arrays.getD cell.index #[]

/-- The block in a cell. -/
def proc? (heap : Heap) (cell : Ref .proc) : Option Proc := heap.procs[cell.index]?

/-- The object in a cell. -/
def object (heap : Heap) (cell : Ref .object) : Instance :=
  heap.objects.getD cell.index ⟨"", .empty⟩

/-- The frame in a cell. -/
def frame (heap : Heap) (cell : Ref .frame) : Frame := heap.frames.getD cell.index ⟨#[], none⟩

/-- Make a string cell. -/
def newString (heap : Heap) (text : String) : Ref .string × Heap :=
  (⟨heap.strings.size⟩, { heap with strings := heap.strings.push text })

/-- Make an array cell. -/
def newArray (heap : Heap) (items : Array Value) : Ref .array × Heap :=
  (⟨heap.arrays.size⟩, { heap with arrays := heap.arrays.push items })

/-- Make a block cell. -/
def newProc (heap : Heap) (proc : Proc) : Ref .proc × Heap :=
  (⟨heap.procs.size⟩, { heap with procs := heap.procs.push proc })

/-- Make an object without instance variables. -/
def newObject (heap : Heap) (className : String) : Ref .object × Heap :=
  (⟨heap.objects.size⟩, { heap with objects := heap.objects.push ⟨className, .empty⟩ })

/-- Make a frame cell. -/
def newFrame (heap : Heap) (frame : Frame) : Ref .frame × Heap :=
  (⟨heap.frames.size⟩, { heap with frames := heap.frames.push frame })

/-- Make a large integer that differs in identity from all others. -/
def newBignum (heap : Heap) (n : Int) : Value × Heap :=
  (.bignum n heap.bignums, { heap with bignums := heap.bignums + 1 })

/-- Change the text of a string cell. -/
def modifyString (heap : Heap) (cell : Ref .string) (f : String → String) : Heap :=
  { heap with strings := heap.strings.modify cell.index f }

/-- Change the elements of an array cell. -/
def modifyArray (heap : Heap) (cell : Ref .array) (f : Array Value → Array Value) : Heap :=
  { heap with arrays := heap.arrays.modify cell.index f }

/-- Set an instance variable of an object. -/
def setIvar (heap : Heap) (cell : Ref .object) (name : String) (value : Value) : Heap :=
  { heap with objects := heap.objects.modify cell.index fun
      | ⟨className, ivars⟩ => ⟨className, ivars.set name value⟩ }

/-- Set a local variable. -/
def setLocal (heap : Heap) (cell : Ref .frame) (slot : Nat) (value : Value) : Heap :=
  { heap with frames := heap.frames.modify cell.index (·.set slot value) }

/-- The frame a number of levels outward; level zero is the frame itself. -/
def ancestor? (heap : Heap) : (depth : Nat) → Ref .frame → Option (Ref .frame)
  | 0, cell => some cell
  | depth + 1, cell =>
    match (heap.frame cell).parent with
    | some parent => heap.ancestor? depth parent
    | none => none

end Heap

/-- The number fits a fixnum. -/
def isFixnum (n : Int) : Bool := -0x8000000000000000 ≤ n && n < 0x8000000000000000

namespace Value

/-- Only nil and false are not. -/
def isTruthy : Value → Bool
  | nil | bool false => false
  | _ => true

/-- The value is nil. -/
def isNil : Value → Bool
  | nil => true
  | _ => false

/-- The number of an integer. -/
def int? : Value → Option Int
  | fixnum n => some n.toInt
  | bignum n _ => some n
  | _ => none

/-- The name of the class of a value. -/
def className (heap : Heap) : Value → String
  | nil => "NilClass"
  | bool true => "TrueClass"
  | bool false => "FalseClass"
  | fixnum _ => "Fixnum"
  | bignum _ _ => "Bignum"
  | string _ => "String"
  | symbol _ => "Symbol"
  | array _ => "Array"
  | proc _ => "Proc"
  | classRef _ => "Class"
  | object cell => (heap.object cell).className

end Value

end BlockScript
