/-!
# Names of built-in methods

For each class the method names that it answers to, and which method each name
stands for; several names may stand for one method. Every object also answers to
the names of the last table, unless its class or the program defines them.
-/

namespace BlockScript.Builtin

/-- The arithmetic operators. -/
inductive Arithmetic where
  | add
  | sub
  | mul
  | div
  | mod
deriving DecidableEq, Repr

/-- The order relations. -/
inductive Comparison where
  | less
  | greater
  | atMost
  | atLeast
deriving DecidableEq, Repr

/-- What integers answer to. -/
inductive IntegerMethod where
  | arithmetic (operator : Arithmetic)
  | comparison (relation : Comparison)
  | equal
  | order
  | negate
  | display
  | isZero
  | times
  | successor
  | absolute
  | isEven
  | isOdd
deriving DecidableEq, Repr

/-- What strings answer to. -/
inductive StringMethod where
  | concat
  | append
  | length
  | equal
  | display
  | toSymbol
  | upcase
  | reverse
  | isEmpty
  | repeated
  | duplicate
deriving DecidableEq, Repr

/-- What symbols answer to. -/
inductive SymbolMethod where
  | display
  | toSymbol
deriving DecidableEq, Repr

/-- What arrays answer to. -/
inductive ArrayMethod where
  | length
  | get
  | set
  | push
  | first
  | last
  | each
  | map
  | join
  | isEmpty
  | includes
  | pop
  | reverse
  | toArray
deriving DecidableEq, Repr

/-- What blocks answer to. -/
inductive ProcMethod where
  | call
  | arity
deriving DecidableEq, Repr

/-- What classes answer to. -/
inductive ClassMethod where
  | new
  | name
deriving DecidableEq, Repr

/-- What nil answers to. -/
inductive NilMethod where
  | display
  | toArray
deriving DecidableEq, Repr

/-- What every object answers to. -/
inductive KernelMethod where
  | puts
  | print
  | p
  | blockGiven
  | proc
  | isNil
  | equal
  | notEqual
  | not
  | same
  | inspect
  | display
  | className
deriving DecidableEq, Repr

/-- The method names of integers. -/
def integerMethods : List (String × IntegerMethod) :=
  [("+", .arithmetic .add), ("-", .arithmetic .sub), ("*", .arithmetic .mul),
    ("/", .arithmetic .div), ("%", .arithmetic .mod), ("<", .comparison .less),
    (">", .comparison .greater), ("<=", .comparison .atMost), (">=", .comparison .atLeast),
    ("==", .equal), ("<=>", .order), ("-@", .negate), ("to_s", .display), ("zero?", .isZero),
    ("times", .times), ("succ", .successor), ("abs", .absolute), ("even?", .isEven),
    ("odd?", .isOdd)]

/-- The method names of strings. -/
def stringMethods : List (String × StringMethod) :=
  [("+", .concat), ("<<", .append), ("length", .length), ("size", .length), ("==", .equal),
    ("to_s", .display), ("to_sym", .toSymbol), ("upcase", .upcase), ("reverse", .reverse),
    ("empty?", .isEmpty), ("*", .repeated), ("dup", .duplicate)]

/-- The method names of symbols. -/
def symbolMethods : List (String × SymbolMethod) :=
  [("to_s", .display), ("to_sym", .toSymbol)]

/-- The method names of arrays. -/
def arrayMethods : List (String × ArrayMethod) :=
  [("length", .length), ("size", .length), ("[]", .get), ("[]=", .set), ("<<", .push),
    ("push", .push), ("first", .first), ("last", .last), ("each", .each), ("map", .map),
    ("collect", .map), ("join", .join), ("empty?", .isEmpty), ("include?", .includes),
    ("pop", .pop), ("reverse", .reverse), ("to_a", .toArray)]

/-- The method names of blocks. -/
def procMethods : List (String × ProcMethod) :=
  [("call", .call), ("[]", .call), ("arity", .arity)]

/-- The method names of classes. -/
def classMethods : List (String × ClassMethod) :=
  [("new", .new), ("name", .name)]

/-- The method names of nil. -/
def nilMethods : List (String × NilMethod) :=
  [("to_s", .display), ("to_a", .toArray)]

/-- The method names of every object. -/
def kernelMethods : List (String × KernelMethod) :=
  [("puts", .puts), ("print", .print), ("p", .p), ("block_given?", .blockGiven),
    ("proc", .proc), ("lambda", .proc), ("nil?", .isNil), ("==", .equal), ("!=", .notEqual),
    ("!", .not), ("equal?", .same), ("inspect", .inspect), ("to_s", .display),
    ("class", .className)]

/-- What a name stands for in a table. -/
def named? {α : Type} (table : List (String × α)) (name : String) : Option α :=
  (table.find? (·.1 == name)).map (·.2)

/-- Some class answers to the name by itself. -/
def isBuiltin (name : String) : Bool :=
  (named? integerMethods name).isSome || (named? stringMethods name).isSome ||
    (named? symbolMethods name).isSome || (named? arrayMethods name).isSome ||
    (named? procMethods name).isSome || (named? classMethods name).isSome ||
    (named? nilMethods name).isSome || (named? kernelMethods name).isSome

end BlockScript.Builtin
