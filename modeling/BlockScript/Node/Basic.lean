import BlockScript.Scope

/-!
# Program trees

The syntax tree of a program after name resolution: local variables are slots at a
closure depth, and every block carries its scope. Each node has exactly one value.
-/

namespace BlockScript

/-- A node of a program tree. -/
inductive Node where
  | nil
  | bool (b : Bool)
  | selfRef
  | fixnum (value : Int64)
  | bignum (value : Int)
  /-- A string of its own on every evaluation. -/
  | string (text : String)
  | symbol (name : String)
  | array (items : List Node)
  /-- Copy an array, wrap anything else. -/
  | toArray (value : Node)
  | getLocal (index depth : Nat)
  /-- An assignment has the assigned value. -/
  | setLocal (index depth : Nat) (value : Node)
  | getIvar (name : String)
  | setIvar (name : String) (value : Node)
  | getGlobal (name : String)
  | setGlobal (name : String) (value : Node)
  | getConstant (name : String)
  | setConstant (name : String) (value : Node)
  /-- A call of the receiver's method, or of self's without a receiver. -/
  | call (receiver : Option Node) (name : String) (args : List Node)
  /-- A call with a literal block. -/
  | callBlock (receiver : Option Node) (name : String) (args : List Node)
      (scope : StaticScope) (arity : Nat) (body : Node)
  | yield (argument : Option Node)
  | ifElse (condition onTrue onFalse : Node)
  | and (left right : Node)
  | or (left right : Node)
  | not (value : Node)
  /-- A loop has the value nil. -/
  | loop (condition body : Node) (checkFirst : Bool)
  /-- Statements have the value of the last one, or nil. -/
  | seq (statements : List Node)
  | method (name : String) (arity localCount : Nat) (body : Node)
  | aliasMethod (newName oldName : String)
  | lambda (scope : StaticScope) (arity : Nat) (body : Node)
  /-- A node and the place where it begins. -/
  | line (position : Position) (body : Node)
deriving Inhabited

namespace Node

/-- A local variable of the innermost frame. -/
def var (index : Nat) : Node := getLocal index 0

/-- Assign a local variable of the innermost frame. -/
def assign (index : Nat) (value : Node) : Node := setLocal index 0 value

/-- An integer literal. -/
def int (value : Int) : Node := fixnum (Int64.ofInt value)

/-- A call with a receiver. -/
def send (receiver : Node) (name : String) (args : List Node) : Node :=
  call (some receiver) name args

/-- A call without a receiver. -/
def function (name : String) (args : List Node) : Node := call none name args

/-- An operator between two operands. -/
def binary (left : Node) (operator : String) (right : Node) : Node :=
  left.send operator [right]

/-- A call with a receiver and a block whose variables are its parameters. -/
def sendBlock (receiver : Node) (name : String) (args : List Node) (parameters : List String)
    (body : Node) : Node :=
  callBlock (some receiver) name args (.ofBlock parameters) parameters.length body

/-- Statements, each on a line of its own from the first line of the file. -/
def script (file : String) (statements : List Node) : Node :=
  seq (statements.zipIdx.map fun (statement, i) => line ⟨file, (i + 1).toUInt32⟩ statement)

end Node

end BlockScript
