import BlockScript.Builtin.Names
import BlockScript.Builtin.Reply
import BlockScript.Text.Uppercase

/-!
# Methods of strings and symbols

Strings are measured and reversed by characters. Only repetition limits the size of
its result, which it measures in bytes. Repeated text is built by doubling: halving the
count reaches zero within one round more than the count has binary digits.
-/

namespace BlockScript.Text

/-- The text repeated `count` times, in at most `rounds` doublings. -/
def repeatIn (text : String) : (rounds count : Nat) → String
  | 0, _ => ""
  | rounds + 1, count =>
    if count = 0 then "" else
      let half := repeatIn text rounds (count / 2)
      if count % 2 = 0 then half ++ half else half ++ half ++ text

/-- The text repeated `count` times. -/
def repeated (text : String) (count : Nat) : String := repeatIn text (count.log2 + 1) count

end BlockScript.Text

namespace BlockScript.Builtin

/-- The largest string that repetition makes, in bytes. -/
def maxRepeated : Nat := 0x10000000

/-- The text of a value that has to be a string. -/
def stringArg (value : Value) : Run String := do
  match value with
  | .string cell => return (← get).heap.string cell
  | _ => Run.notConvertible "String" value

/-- Answer a message to a string. -/
def stringReply (method : StringMethod) (cell : Ref .string) (args : List Value) :
    Run Reply := do
  let receiver := Value.string cell
  match method with
  | .concat =>
    match args with
    | [argument] =>
      let other ← stringArg argument
      return .value (← Run.newString ((← get).heap.string cell ++ other))
    | _ => throw (.wrongArity args.length 1)
  | .append =>
    match args with
    | [argument] =>
      let other ← stringArg argument
      Run.modifyHeap (·.modifyString cell (· ++ other))
      return .value receiver
    | _ => throw (.wrongArity args.length 1)
  | .length => return .value (.fixnum (Int64.ofNat ((← get).heap.string cell).length))
  | .equal =>
    match args with
    | [argument] => return .value (.bool (receiver.equals (← get).heap argument))
    | _ => throw (.wrongArity args.length 1)
  | .display => return .value receiver
  | .toSymbol => return .value (← Run.intern ((← get).heap.string cell))
  | .upcase => return .value (← Run.newString (Text.upper ((← get).heap.string cell)))
  | .reverse =>
    return .value (← Run.newString (String.ofList ((← get).heap.string cell).toList.reverse))
  | .isEmpty => return .value (.bool ((← get).heap.string cell).isEmpty)
  | .repeated =>
    match args with
    | [.fixnum count] =>
      let text := (← get).heap.string cell
      if count < 0 then throw .negativeArgument
      else if maxRepeated < text.utf8ByteSize * count.toInt.toNat then throw .argumentTooBig
      else return .value (← Run.newString (Text.repeated text count.toInt.toNat))
    | [argument] => Run.notConvertible "Integer" argument
    | _ => throw (.wrongArity args.length 1)
  | .duplicate => return .value (← Run.newString ((← get).heap.string cell))

/-- Answer a message to a symbol. -/
def symbolReply (method : SymbolMethod) (symbol : Symbol) (args : List Value) : Run Reply := do
  match method with
  | .display =>
    Run.expectArgs args 0
    return .value (← Run.newString symbol.name)
  | .toSymbol => return .value (.symbol symbol)

end BlockScript.Builtin
