import BlockScript.Builtin.Names
import BlockScript.Builtin.Reply

/-!
# Methods of integers

Arithmetic is exact at every size. Two fixnums are computed with as fixnums while that is
possible; whatever does not fit is computed again with large integers. Division rounds
towards minus infinity, so the remainder has the sign of the divisor.
-/

namespace BlockScript.Builtin

/-! ## Fixnums -/

/-- The sum, if it fits. -/
def checkedAdd (x y : Int64) : Option Int64 :=
  if isFixnum (x.toInt + y.toInt) then some (x + y) else none

/-- The difference, if it fits. -/
def checkedSub (x y : Int64) : Option Int64 :=
  if isFixnum (x.toInt - y.toInt) then some (x - y) else none

/-- The product, if it fits. -/
def checkedMul (x y : Int64) : Option Int64 :=
  if isFixnum (x.toInt * y.toInt) then some (x * y) else none

/-- The quotient or the remainder is out of reach: there is none, or the quotient does not
fit. -/
def divisionOverflows (x y : Int64) : Bool := y == 0 || (x == Int64.minValue && y == -1)

/-- The quotient rounded towards zero, if it fits. -/
def checkedDiv (x y : Int64) : Option Int64 :=
  if divisionOverflows x y then none else some (x / y)

/-- The remainder of a division that rounds towards zero, if the quotient fits. -/
def checkedRem (x y : Int64) : Option Int64 :=
  if divisionOverflows x y then none else some (x % y)

/-- Quotient and remainder of a division that rounds towards minus infinity. -/
def floorDivision (x y : Int64) : Option (Int64 × Int64) := do
  let q ← checkedDiv x y
  let r ← checkedRem x y
  if r ≠ 0 ∧ decide (r < 0) ≠ decide (y < 0) then return (q - 1, r + y) else return (q, r)

/-- The result of an operator as a fixnum, if it is found without large integers. -/
def Arithmetic.short? : Arithmetic → Int64 → Int64 → Option Int64
  | add, x, y => checkedAdd x y
  | sub, x, y => checkedSub x y
  | mul, x, y => checkedMul x y
  | div, x, y => (floorDivision x y).map (·.1)
  | mod, x, y => (floorDivision x y).map (·.2)

/-- The operator has no result for a zero divisor. -/
def Arithmetic.divides : Arithmetic → Bool
  | div | mod => true
  | _ => false

/-! ## Large integers -/

/-- Quotient and remainder of a division that rounds towards minus infinity. -/
def bigFloorDivision (m n : Int) : Int × Int :=
  let q := m.tdiv n
  let r := m.tmod n
  if r ≠ 0 ∧ decide (r < 0) ≠ decide (n < 0) then (q - 1, r + n) else (q, r)

/-- The result of an operator, which a zero divisor has none of. -/
def Arithmetic.result? : Arithmetic → Int → Int → Option Int
  | add, m, n => some (m + n)
  | sub, m, n => some (m - n)
  | mul, m, n => some (m * n)
  | div, m, n => if n = 0 then none else some (bigFloorDivision m n).1
  | mod, m, n => if n = 0 then none else some (bigFloorDivision m n).2

/-! ## Integers of either kind -/

/-- The order of two integers. -/
def compareIntegers (a b : Value) : Option Ordering :=
  match a, b with
  | .fixnum x, .fixnum y => some (compare x y)
  | a, b => return compare (← a.int?) (← b.int?)

/-- The relation holds between two integers that are in this order. -/
def Comparison.holds : Comparison → Ordering → Bool
  | less, order => order == .lt
  | greater, order => order == .gt
  | atMost, order => order != .gt
  | atLeast, order => order != .lt

/-- The order as a number. -/
def orderNumber : Ordering → Int64
  | .lt => -1
  | .eq => 0
  | .gt => 1

/-- Apply an operator to two values that should be integers, as large integers. -/
def bigArithmetic (operator : Arithmetic) (a b : Value) : Run Value :=
  match a.int?, b.int? with
  | none, _ => Run.notConvertible "Integer" a
  | some _, none => Run.notConvertible "Integer" b
  | some m, some n =>
    match operator.result? m n with
    | some result => Run.newInteger result
    | none => throw .dividedByZero

/-- Apply an operator to two values that should be integers. -/
def arithmetic (operator : Arithmetic) (a b : Value) : Run Value :=
  match a, b with
  | .fixnum x, .fixnum y =>
    if operator.divides && y == 0 then throw .dividedByZero
    else match operator.short? x y with
      | some result => return .fixnum result
      | none => bigArithmetic operator a b
  | _, _ => bigArithmetic operator a b

/-- The integer is less than zero. -/
def isNegative (a : Value) : Bool := compareIntegers a (.fixnum 0) == some .lt

/-- The remainder of a division by two is zero. -/
def isEvenValue (a : Value) : Run Bool := return (← arithmetic .mod a (.fixnum 2)) == .fixnum 0

/-- Answer a message to an integer. The method knows the receiver's number. -/
def integerReply (method : IntegerMethod) (receiver : Value) (n : Int) (args : List Value)
    (block : Option (Ref .proc)) : Run Reply := do
  match method with
  | .arithmetic operator =>
    match args with
    | [argument] => return .value (← arithmetic operator receiver argument)
    | _ => throw (.wrongArity args.length 1)
  | .comparison relation =>
    match args with
    | [argument] =>
      match compareIntegers receiver argument with
      | some order => return .value (.bool (relation.holds order))
      | none =>
        let heap := (← get).heap
        throw (.notComparable (receiver.className heap) (argument.inspect heap))
    | _ => throw (.wrongArity args.length 1)
  | .equal =>
    match args with
    | [argument] => return .value (.bool (receiver.equals (← get).heap argument))
    | _ => throw (.wrongArity args.length 1)
  | .order =>
    match args with
    | [argument] =>
      match compareIntegers receiver argument with
      | some order => return .value (.fixnum (orderNumber order))
      | none => return .value .nil
    | _ => throw (.wrongArity args.length 1)
  | .negate => return .value (← arithmetic .sub (.fixnum 0) receiver)
  | .display => return .value (← Run.newString (toString n))
  | .isZero => return .value (.bool (receiver == .fixnum 0))
  | .successor => return .value (← arithmetic .add receiver (.fixnum 1))
  | .absolute =>
    if isNegative receiver then return .value (← arithmetic .sub (.fixnum 0) receiver)
    else return .value receiver
  | .isEven => return .value (.bool (← isEvenValue receiver))
  | .isOdd => return .value (.bool (!(← isEvenValue receiver)))
  | .times =>
    let block ← Run.requireBlock block
    match receiver with
    | .fixnum count => return .iterate (.times block 0 count.toInt.toNat receiver)
    | _ => Run.notConvertible "Fixnum" receiver

end BlockScript.Builtin
