import BlockScript.Node.Basic

/-!
# Sample programs

Programs that show the language at work, as trees after name resolution.
-/

namespace BlockScript

/-- A sample program. -/
structure Demo where
  name : String
  description : String
  program : Node

namespace Demo

open Node

/-- Print a value. -/
def puts (value : Node) : Node := function "puts" [value]

/-- A call of the method under definition with a smaller argument. -/
def recurse (k : Int) : Node := function "fib" [binary (var 0) "-" (int k)]

/-- A method that calls itself. -/
def fib : Demo where
  name := "fib"
  description := "recursive method definition and dispatch"
  program := script "fib.kn" [
    method "fib" 1 1
      (ifElse (binary (var 0) "<" (int 2)) (var 0) (binary (recurse 1) "+" (recurse 2))),
    puts (function "fib" [int 20])]

/-- A block body that adds its parameter to a variable around the block. -/
def addToTotal : Node := setLocal 0 1 (binary (getLocal 0 1) "+" (var 0))

/-- A small array. -/
def oneTwoThree : Node := array [int 1, int 2, int 3]

/-- Blocks that share a variable. -/
def closures : Demo where
  name := "closures"
  description := "blocks, yield and lambdas sharing an outer local"
  program := script "closures.kn" [
    method "each_twice" 1 1 (seq [.yield (some (var 0)), .yield (some (var 0))]),
    assign 0 (int 0),
    sendBlock oneTwoThree "each" [] ["n"] addToTotal,
    callBlock none "each_twice" [int 10] (.ofBlock ["n"]) 1 addToTotal,
    puts (var 0),
    assign 1 (lambda (.ofBlock ["n"]) 1 addToTotal),
    send (var 1) "call" [int 4],
    puts (var 0),
    assign 2 (sendBlock oneTwoThree "map" [] ["x"] (binary (var 0) "*" (var 0))),
    puts (send (var 2) "join" [string ", "])]

/-- A variable set to one more than another. -/
def increment (index : Nat) : Node := assign index (binary (var index) "+" (int 1))

/-- Loops of both kinds. -/
def loops : Demo where
  name := "loops"
  description := "pre-test and post-test loops, Integer#times"
  program := script "loops.kn" [
    assign 0 (int 0),
    loop (binary (var 0) "<" (int 5)) (seq [function "print" [var 0], increment 0]) true,
    puts (string ""),
    assign 1 (int 10),
    loop (binary (var 1) "<" (int 3)) (seq [puts (var 1), increment 1]) false,
    sendBlock (int 3) "times" [] ["k"] (puts (binary (var 0) "*" (var 0)))]

/-- Strings that change, names of all kinds, and large integers. -/
def strings : Demo where
  name := "strings"
  description := "mutable strings, symbols, globals, constants, aliases, bignums"
  program := script "strings.kn" [
    assign 0 (string "kiln"),
    assign 1 (string "kiln"),
    binary (var 0) "<<" (string "!"),
    puts (var 0),
    puts (var 1),
    puts (send (symbol "sym") "equal?" [symbol "sym"]),
    .aliasMethod "say" "puts",
    function "say" [string "aliased"],
    setGlobal "$greeting" (string "hi"),
    puts (getGlobal "$greeting"),
    setConstant "Answer" (int 42),
    puts (getConstant "Answer"),
    setIvar "@name" (string "main"),
    puts (getIvar "@name"),
    assign 2 (int 1),
    assign 3 (int 1),
    loop (binary (var 3) "<=" (int 25))
      (seq [assign 2 (binary (var 2) "*" (var 3)), increment 3]) true,
    puts (var 2),
    puts (binary (bignum 123456789012345678901234567890) "+" (int 1))]

/-- All sample programs. -/
def all : List Demo := [fib, closures, loops, strings]

/-- The sample program of a name. -/
def find? (name : String) : Option Demo := all.find? (·.name == name)

end Demo

end BlockScript
