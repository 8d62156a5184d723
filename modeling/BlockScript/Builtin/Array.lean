import BlockScript.Builtin.Names
import BlockScript.Builtin.Reply

/-!
# Methods of arrays

A negative index counts from the end. Reading outside an array gives nil; writing
past its end fills the gap with nil, up to a largest size. Blocks are called with the
elements that the array had when the call began.
-/

namespace BlockScript.Builtin

/-- The size up to which assignment by index lets an array grow. -/
def maxArraySize : Nat := 0x1000000

/-- The number of a value that has to be a small integer. -/
def indexArg (value : Value) : Run Int :=
  match value with
  | .fixnum n => return n.toInt
  | _ => Run.notConvertible "Integer" value

/-- An index counted from the start. -/
def fromStart (size : Nat) (index : Int) : Int := if index < 0 then index + size else index

/-- The element at an index, or nil. -/
def elementAt (items : Array Value) (index : Int) : Value :=
  let i := fromStart items.size index
  if i < 0 then .nil else items.getD i.toNat .nil

/-- Answer a message to an array. -/
def arrayReply (method : ArrayMethod) (cell : Ref .array) (args : List Value)
    (block : Option (Ref .proc)) : Run Reply := do
  let receiver := Value.array cell
  match method with
  | .length => return .value (.fixnum (Int64.ofNat ((← get).heap.array cell).size))
  | .get =>
    match args with
    | [argument] =>
      let index ← indexArg argument
      return .value (elementAt ((← get).heap.array cell) index)
    | _ => throw (.wrongArity args.length 1)
  | .set =>
    match args with
    | [argument, value] =>
      let index ← indexArg argument
      let i := fromStart ((← get).heap.array cell).size index
      if i < 0 then throw (.indexTooSmall index)
      else if maxArraySize ≤ i then throw (.indexTooBig index)
      else
        Run.modifyHeap (·.modifyArray cell (Frame.setSlot · i.toNat value))
        return .value value
    | _ => throw (.wrongArity args.length 2)
  | .push =>
    Run.modifyHeap (·.modifyArray cell (· ++ args.toArray))
    return .value receiver
  | .first => return .value (((← get).heap.array cell).getD 0 .nil)
  | .last => return .value (((← get).heap.array cell).back?.getD .nil)
  | .pop =>
    let last := ((← get).heap.array cell).back?.getD .nil
    Run.modifyHeap (·.modifyArray cell Array.pop)
    return .value last
  | .each =>
    let block ← Run.requireBlock block
    return .iterate (.each block ((← get).heap.array cell).toList receiver)
  | .map =>
    let block ← Run.requireBlock block
    return .iterate (.map block ((← get).heap.array cell).toList [])
  | .join =>
    let heap := (← get).heap
    let separator ← match args with
      | [] | .nil :: _ => pure ""
      | .string s :: _ => pure (heap.string s)
      | other :: _ => Run.notConvertible "String" other
    let parts := (heap.array cell).toList.map (·.display heap)
    return .value (← Run.newString (separator.intercalate parts))
  | .isEmpty => return .value (.bool ((← get).heap.array cell).isEmpty)
  | .includes =>
    match args with
    | [argument] =>
      let heap := (← get).heap
      return .value (.bool ((heap.array cell).any (·.equals heap argument)))
    | _ => throw (.wrongArity args.length 1)
  | .reverse => return .value (← Run.newArray ((← get).heap.array cell).reverse)
  | .toArray => return .value receiver

end BlockScript.Builtin
