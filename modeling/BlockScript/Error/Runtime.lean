/-!
# Errors of a running program

A runtime error has a kind, a message and the frames that it passed on its way
out, innermost first. Programs cannot catch errors, so an error is only ever
extended by frames.
-/

namespace BlockScript

/-- What went wrong in a running program. -/
inductive ErrorKind where
  | noMethod
  | argument
  | name
  | type
  | zeroDivision
  | index
  | localJump
  /-- A limit on call depth, steps or stack size was reached. -/
  | limit
  /-- The code is malformed or an invariant of the machine is broken. -/
  | internal
deriving DecidableEq, Repr

/-- The name under which the kind is reported. -/
def ErrorKind.text : ErrorKind → String
  | .noMethod => "NoMethodError"
  | .argument => "ArgumentError"
  | .name => "NameError"
  | .type => "TypeError"
  | .zeroDivision => "ZeroDivisionError"
  | .index => "IndexError"
  | .localJump => "LocalJumpError"
  | .limit => "SystemStackError"
  | .internal => "InternalError"

/-- An error together with the frames it has left, innermost first. -/
structure RuntimeError where
  kind : ErrorKind
  message : String
  callStack : Array String := #[]
deriving DecidableEq, Repr

namespace RuntimeError

/-- An error that shows a broken invariant rather than a fault of the program. -/
def internal (message : String) : RuntimeError := { kind := .internal, message }

/-- Too few operands for an operation, which verified code never has. -/
def stackUnderflow (operation : String) : RuntimeError :=
  internal ("operand stack underflow in " ++ operation)

/-- An operand that denotes no constant of the kind its operation needs. -/
def badConstant (position : UInt32) : RuntimeError :=
  internal ("bad constant pool index " ++ toString position.toNat)

/-- An operand that denotes no code object. -/
def noCode (position : UInt32) : RuntimeError :=
  internal ("no code object " ++ toString position.toNat)

/-- A slot of the code table that was never claimed. -/
def noSlot (slot : UInt32) : RuntimeError :=
  internal ("no code slot " ++ toString slot.toNat)

/-- Control ran past the last operation of a unit. -/
def endedWithoutReturn (unit : String) : RuntimeError :=
  internal ("`" ++ unit ++ "` ended without a return")

/-- A jump to a negative position. -/
def jumpOutside (target : Int) (unit : String) : RuntimeError :=
  internal ("jump to " ++ toString target ++ " in `" ++ unit ++ "`")

/-- A closure level that the frame does not have. -/
def noFrame (depth : UInt32) : RuntimeError :=
  internal ("no enclosing frame at depth " ++ toString depth.toNat)

/-- More calls in progress than the limit allows; the innermost one is named. -/
def callDepth (limit : Nat) (innermost : Option String) : RuntimeError :=
  { kind := .limit
    message := "stack level too deep (call depth limit " ++ toString limit ++ ")" ++
      innermost.elim "" (" in '" ++ · ++ "'") }

/-- More operations executed than the limit allows. -/
def stepLimit (limit : Nat) : RuntimeError :=
  { kind := .limit, message := "execution step limit exceeded (" ++ toString limit ++ ")" }

/-- More operands on a stack than the limit allows. -/
def stackSize (limit : Nat) : RuntimeError :=
  { kind := .limit, message := "stack size limit exceeded (" ++ toString limit ++ ")" }

/-- A call with the wrong number of arguments. -/
def wrongArity (given expected : Nat) : RuntimeError :=
  { kind := .argument
    message := "wrong number of arguments (" ++ toString given ++ " for " ++
      toString expected ++ ")" }

/-- A receiver that has no method of that name. -/
def noMethod (name receiver className : String) : RuntimeError :=
  { kind := .noMethod
    message := "undefined method `" ++ name ++ "' for " ++ receiver ++ ":" ++ className }

/-- An alias for a name that no method has. -/
def noMethodToAlias (name : String) : RuntimeError :=
  { kind := .name, message := "undefined method `" ++ name ++ "' for class `Object'" }

/-- A constant that was never set. -/
def noConstant (name : String) : RuntimeError :=
  { kind := .name, message := "uninitialized constant " ++ name }

/-- A value of another class than the one needed. -/
def notConvertible (className expected : String) : RuntimeError :=
  { kind := .type, message := "can't convert " ++ className ++ " into " ++ expected }

/-- An instance variable set on a value that has none. -/
def noInstanceVariables (name className : String) : RuntimeError :=
  { kind := .type
    message := "can't modify instance variable " ++ name ++ " of " ++ className }

/-- A class that cannot be instantiated. -/
def noAllocator (className : String) : RuntimeError :=
  { kind := .type, message := "allocator undefined for " ++ className }

/-- Two values that have no order. -/
def notComparable (className other : String) : RuntimeError :=
  { kind := .argument, message := "comparison of " ++ className ++ " with " ++ other ++ " failed" }

/-- A division by zero. -/
def dividedByZero : RuntimeError := { kind := .zeroDivision, message := "divided by 0" }

/-- A block was needed and none was given. -/
def noBlock : RuntimeError := { kind := .localJump, message := "no block given (yield)" }

/-- A negative count. -/
def negativeArgument : RuntimeError := { kind := .argument, message := "negative argument" }

/-- A count whose result would be too large. -/
def argumentTooBig : RuntimeError := { kind := .argument, message := "argument too big" }

/-- An index before the start of an array. -/
def indexTooSmall (index : Int) : RuntimeError :=
  { kind := .index, message := "index " ++ toString index ++ " too small for array" }

/-- An index past the largest array. -/
def indexTooBig (index : Int) : RuntimeError :=
  { kind := .index, message := "index " ++ toString index ++ " too big" }

/-- The error after it has left one more frame. -/
def leaving (error : RuntimeError) (frame : String) : RuntimeError :=
  { error with callStack := error.callStack.push frame }

/-- Kind and message, and below them the numbered frames if there are any. -/
def text (error : RuntimeError) : String :=
  "runtime error: " ++ error.kind.text ++ ": " ++ error.message ++
    if error.callStack.isEmpty then "" else
      "\n  call stack:" ++ String.join (error.callStack.toList.zipIdx.map fun (frame, i) =>
        "\n    " ++ toString i ++ ": " ++ frame)

end RuntimeError

end BlockScript
