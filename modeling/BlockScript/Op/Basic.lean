/-!
# Bytecode operations

The instructions of a code object. Operands that name something are positions in
the constant pool, code operands are positions in the program's code table, and
jump offsets count from the jump itself. `Op.pops` and `Op.pushes` are the declared
effect of an operation on the operand stack; the emitter, the verifier and the
immediate backend all rely on it.
-/

namespace BlockScript

/-- One instruction. Only nil and false are falsy to a conditional jump. -/
inductive Op where
  | pushNil
  | pushTrue
  | pushFalse
  | pushSelf
  | pushFixnum (value : Int64)
  | pushBignum (constant : UInt32)
  /-- A fresh string with the pooled text on every execution. -/
  | pushString (constant : UInt32)
  | pushSymbol (constant : UInt32)
  | pop
  | dup
  | getLocal (index : UInt32)
  | setLocal (index : UInt32)
  /-- A local of the frame `depth` closure levels outward. -/
  | getOuter (index depth : UInt32)
  | setOuter (index depth : UInt32)
  | getIvar (name : UInt32)
  | setIvar (name : UInt32)
  | getGlobal (name : UInt32)
  | setGlobal (name : UInt32)
  | getConst (name : UInt32)
  | setConst (name : UInt32)
  /-- Collapse the topmost values into one array. -/
  | makeArray (count : UInt32)
  /-- Copy an array, make nil empty, wrap anything else. -/
  | toArray
  /-- Call a method; without a receiver the call goes to self. -/
  | send (name argc : UInt32) (receiver : Bool) (block : Option UInt32)
  /-- Call the block given to the enclosing method. -/
  | yield (argc : UInt32)
  /-- A closure over the current frame. -/
  | makeClosure (code : UInt32)
  | defineMethod (name code : UInt32)
  | aliasMethod (newName oldName : UInt32)
  | not
  | jump (offset : Int32)
  | jumpIfFalse (offset : Int32)
  | jumpIfTrue (offset : Int32)
  /-- Leave the unit with the value on top. -/
  | ret
deriving DecidableEq, Repr

namespace Op

/-- Values the operation takes from the stack. -/
def pops : Op → Nat
  | pop | dup | setLocal _ | setOuter _ _ | setIvar _ | setGlobal _ | setConst _ => 1
  | makeArray count => count.toNat
  | send _ argc receiver _ => argc.toNat + receiver.toNat
  | yield argc => argc.toNat
  | toArray | not | jumpIfFalse _ | jumpIfTrue _ | ret => 1
  | _ => 0

/-- Values the operation leaves in their place. -/
def pushes : Op → Nat
  | dup => 2
  | pop | setLocal _ | setOuter _ _ | setIvar _ | setGlobal _ | setConst _ => 0
  | defineMethod _ _ | aliasMethod _ _ | jump _ | jumpIfFalse _ | jumpIfTrue _ | ret => 0
  | _ => 1

/-- The offset of a jump. -/
def jumpOffset? : Op → Option Int32
  | jump offset | jumpIfFalse offset | jumpIfTrue offset => some offset
  | _ => none

/-- The code object that the operation refers to. -/
def codeRef? : Op → Option UInt32
  | makeClosure code | defineMethod _ code => some code
  | send _ _ _ block => block
  | _ => none

end Op

end BlockScript
