import BlockScript.Config
import BlockScript.Machine.Basic
import BlockScript.Scope
import BlockScript.Unit.Stack

/-!
# The code generation contract

A program tree is turned into operations that are issued to a backend one after the
other. Each operation puts at most one value onto an implicit value stack, takes
values that earlier operations put there, or is a directive. The code of branch arms,
loop bodies, method and block bodies and array elements is passed as computations,
which the backend runs against itself at the point where their code belongs.

`Contract` lists what a backend offers. The operations without nested code are the
constructors of `Primitive`.
-/

namespace BlockScript

/-- A computation on the state of a backend that may break off with an error. What it
changed before stays changed. -/
abbrev Gen (σ : Type) := EStateM (Halt CompileError) σ

/-- The shape of a call. -/
inductive Invocation where
  /-- No receiver and no arguments. -/
  | name
  | function (argc : Nat)
  /-- A receiver and no arguments. -/
  | property
  | method (argc : Nat)
deriving DecidableEq, Repr

namespace Invocation

/-- The shape of a call with or without a receiver and with this many arguments. -/
def of : (receiver : Bool) → (argc : Nat) → Invocation
  | false, 0 => name
  | false, argc => function argc
  | true, 0 => property
  | true, argc => method argc

/-- The call has a receiver of its own. -/
def hasReceiver : Invocation → Bool
  | property | method _ => true
  | _ => false

/-- The number of arguments. -/
def argc : Invocation → Nat
  | name | property => 0
  | function argc | method argc => argc

/-- The number of values that the call takes from the stack. -/
def consumed (shape : Invocation) : Nat := shape.argc + shape.hasReceiver.toNat

end Invocation

/-- The operations without nested code. -/
inductive Primitive where
  /-- Drop a value. -/
  | consume
  /-- Source line of the operations to come. -/
  | line (line : UInt32)
  /-- Call the block of the enclosing method. -/
  | yield (hasArgs : Bool)
  | assignLocal (index depth : Nat)
  | retrieveLocal (index depth : Nat)
  | retrieveSelf
  | fixnum (value : Int64)
  | bignum (value : Int)
  /-- A string of its own on every evaluation. -/
  | string (text : String)
  | symbol (name : String)
  /-- Turn an aggregate into an array. -/
  | toArray
  | aliasMethod (newName oldName : String)
  | retrieveConstant (name : String)
  | assignConstant (name : String)
  | loadFalse
  | loadTrue
  | loadNil
  | retrieveIvar (name : String)
  | assignIvar (name : String)
  | assignGlobal (name : String)
  | retrieveGlobal (name : String)
  | negate
deriving DecidableEq, Repr

namespace Primitive

/-- The operation as diagnostics name it. -/
def operation : Primitive → String
  | consume => "consume_current_value"
  | line _ => "line_number"
  | yield _ => "yield_block"
  | assignLocal _ _ => "assign_local_variable"
  | retrieveLocal _ _ => "retrieve_local_variable"
  | retrieveSelf => "retrieve_self"
  | fixnum _ => "create_new_fixnum"
  | bignum _ => "create_new_bignum"
  | string _ => "create_new_string"
  | symbol _ => "create_new_symbol"
  | toArray => "create_new_array"
  | aliasMethod _ _ => "define_alias"
  | retrieveConstant _ => "retrieve_constant"
  | assignConstant _ => "assign_constant"
  | loadFalse => "load_false"
  | loadTrue => "load_true"
  | loadNil => "load_nil"
  | retrieveIvar _ => "retrieve_instance_variable"
  | assignIvar _ => "assign_instance_variable"
  | assignGlobal _ => "assign_global_variable"
  | retrieveGlobal _ => "retrieve_global_variable"
  | negate => "negate_current_value"

/-- What an operation becomes in code. -/
inductive Form where
  | op (op : Op)
  /-- An operation on a pooled constant. -/
  | pooled (constant : Constant) (op : UInt32 → Op)
  | access (index depth : Nat) (assign : Bool)
  | aliasMethod (newName oldName : String)
  | yield (hasArgs : Bool)
  | line (line : UInt32)

/-- The code of an operation. -/
def form : Primitive → Form
  | consume => .op .pop
  | line n => .line n
  | yield hasArgs => .yield hasArgs
  | assignLocal index depth => .access index depth true
  | retrieveLocal index depth => .access index depth false
  | retrieveSelf => .op .pushSelf
  | fixnum value => .op (.pushFixnum value)
  | bignum value => .pooled (.bignum value) .pushBignum
  | string text => .pooled (.string text) .pushString
  | symbol name => .pooled (.symbol name) .pushSymbol
  | toArray => .op .toArray
  | aliasMethod newName oldName => .aliasMethod newName oldName
  | retrieveConstant name => .pooled (.name name) .getConst
  | assignConstant name => .pooled (.name name) .setConst
  | loadFalse => .op .pushFalse
  | loadTrue => .op .pushTrue
  | loadNil => .op .pushNil
  | retrieveIvar name => .pooled (.name name) .getIvar
  | assignIvar name => .pooled (.name name) .setIvar
  | assignGlobal name => .pooled (.name name) .setGlobal
  | retrieveGlobal name => .pooled (.name name) .getGlobal
  | negate => .op .not

end Primitive

/-- The two operators that may skip their right-hand side. -/
inductive Connective where
  | conjunction
  | disjunction
deriving DecidableEq, Repr

/-- The operator as diagnostics name it. -/
def Connective.operation : Connective → String
  | .conjunction => "perform_logical_and"
  | .disjunction => "perform_logical_or"

/-- A literal block at a call site. -/
structure BlockBody (σ : Type) where
  scope : StaticScope
  arity : Nat
  body : Gen σ Unit

/-- What a backend with state `σ` offers. -/
structure Contract (σ : Type) where
  /-- Open the one top-level unit. -/
  startScript : Gen σ Unit
  /-- Close the top-level unit. -/
  endScript : Gen σ Unit
  /-- Open a method unit; what follows goes into its body. -/
  beginMethod (name : String) (arity localCount : Nat) : Gen σ UnitHandle
  /-- Close the innermost method unit by its handle. -/
  endMethod (handle : UnitHandle) : Gen σ Unit
  primitive (p : Primitive) : Gen σ Unit
  /-- Call a method with what is on the stack, and a block if there is one. -/
  invoke (name : String) (shape : Invocation) (block : Option (BlockBody σ)) : Gen σ Unit
  /-- Collapse as many values into one, each produced by the element's computation. -/
  objectArray (count : Nat) (element : Nat → Gen σ Unit) : Gen σ Unit
  /-- Take a condition and go on with one of two arms. -/
  branch (onTrue onFalse : Gen σ Unit) : Gen σ Unit
  /-- Keep the left value or replace it by the right-hand side's. -/
  logical (connective : Connective) (right : Gen σ Unit) : Gen σ Unit
  /-- Repeat the body while the condition holds, which is tested first or last. -/
  loop (condition body : Gen σ Unit) (checkFirst : Bool) : Gen σ Unit
  /-- A block as a value. -/
  closure (scope : StaticScope) (arity : Nat) (body : Gen σ Unit) : Gen σ Unit
  defineMethod (name : String) (arity localCount : Nat) (body : Gen σ Unit) : Gen σ Unit

end BlockScript
