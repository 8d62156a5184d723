import BlockScript.Builtin.Array
import BlockScript.Builtin.Integer
import BlockScript.Builtin.Text

/-!
# Message dispatch

A message goes first to the built-in methods of the receiver's class, then to the
methods that the program defined, and last to the methods that every object has. An
alias of a built-in method is looked up under the name it was made from.
-/

namespace BlockScript.Builtin

/-- Answer a message by a built-in method of the receiver's class, if it has one of
that name. -/
def classReply (program : Program) (receiver : Value) (name : String) (args : List Value)
    (block : Option (Ref .proc)) : Run (Option Reply) := do
  match receiver with
  | .fixnum n =>
    (named? integerMethods name).mapM (integerReply · receiver n.toInt args block)
  | .bignum n _ => (named? integerMethods name).mapM (integerReply · receiver n args block)
  | .string cell => (named? stringMethods name).mapM (stringReply · cell args)
  | .symbol symbol => (named? symbolMethods name).mapM (symbolReply · symbol args)
  | .array cell => (named? arrayMethods name).mapM (arrayReply · cell args block)
  | .proc cell => (named? procMethods name).mapM fun
    | .call => do
      let (code, activation) ← Run.enterBlock program cell args
      return .enter code activation
    | .arity => do
      let arity := ((← get).heap.proc? cell).elim 0 (·.arity)
      return .value (.fixnum (Int64.ofNat arity))
  | .classRef className => (named? classMethods name).mapM fun
    | .new => do
      if className ≠ "Object" then throw (.noAllocator className)
      Run.expectArgs args 0
      return .value (← Run.newObject className)
    | .name => return .value (← Run.newString className)
  | .nil => (named? nilMethods name).mapM fun
    | .display => return .value (← Run.newString "")
    | .toArray => return .value (← Run.newArray #[])
  | .bool _ | .object _ => return none

/-- Answer a message by a method that every object has. -/
def kernelReply (method : KernelMethod) (receiver : Value) (args : List Value)
    (block : Option (Ref .proc)) : Run Value := do
  match method with
  | .puts =>
    let heap := (← get).heap
    Run.write (if args.isEmpty then "\n" else String.join (args.map (·.lines heap)))
    return .nil
  | .print =>
    let heap := (← get).heap
    Run.write (String.join (args.map (·.display heap)))
    return .nil
  | .p =>
    let heap := (← get).heap
    Run.write (String.join (args.map (·.inspect heap ++ "\n")))
    match args with
    | [] => return .nil
    | [argument] => return argument
    | _ => Run.newArray args.toArray
  | .blockGiven => return .bool (← get).blockGiven
  | .proc => return .proc (← Run.requireBlock block)
  | .isNil => return .bool receiver.isNil
  | .equal =>
    match args with
    | [argument] => return .bool (receiver.equals (← get).heap argument)
    | _ => throw (.wrongArity args.length 1)
  | .notEqual =>
    match args with
    | [argument] => return .bool (!receiver.equals (← get).heap argument)
    | _ => throw (.wrongArity args.length 1)
  | .not => return .bool (!receiver.isTruthy)
  | .same =>
    match args with
    | [argument] => return .bool (receiver.same argument)
    | _ => throw (.wrongArity args.length 1)
  | .inspect => Run.newString (receiver.inspect (← get).heap)
  | .display => Run.newString (receiver.display (← get).heap)
  | .className => return .classRef (receiver.className (← get).heap)

/-- Answer a message by a method that every object has, or fail. -/
def lastReply (receiver : Value) (name : String) (args : List Value)
    (block : Option (Ref .proc)) : Run Reply := do
  match named? kernelMethods name with
  | some method => return .value (← kernelReply method receiver args block)
  | none => Run.noMethod name receiver

/-- Answer a message by the built-in methods alone. -/
def builtinReply (program : Program) (receiver : Value) (name : String) (args : List Value)
    (block : Option (Ref .proc)) : Run Reply := do
  match ← classReply program receiver name args block with
  | some reply => return reply
  | none => lastReply receiver name args block

end BlockScript.Builtin

namespace BlockScript

/-- Answer a message. -/
def Run.dispatch (program : Program) (receiver : Value) (name : String) (args : List Value)
    (block : Option (Ref .proc)) : Run Reply := do
  match ← Builtin.classReply program receiver name args block with
  | some reply => return reply
  | none =>
    match (← get).methods.get? name with
    | some (.compiled code arity) =>
      Run.expectArgs args arity
      Run.enterMethod program code receiver args block
    | some (.builtin original) => Builtin.builtinReply program receiver original args block
    | none => Builtin.lastReply receiver name args block

/-- Bind a new name to what an old one stands for now: a method of the program, or else
a built-in method. -/
def Run.aliasMethod (newName oldName : String) : Run Unit := do
  match (← get).methods.get? oldName with
  | some method => Run.setMethod newName method
  | none =>
    if Builtin.isBuiltin oldName then Run.setMethod newName (.builtin oldName)
    else throw (.noMethodToAlias oldName)

end BlockScript
