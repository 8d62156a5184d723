import BlockScript.Proofs.Builtin.Integer
import BlockScript.Proofs.Machine.Literals
import BlockScript.Proofs.Value.Bisimilar

/-!
# Integers in a program

The methods of integers compute with numbers: whichever kinds the receiver and the argument are
of, the answer is the one that the numbers have, and a new integer is a fixnum just if it fits
one. Only the absolute value of an integer that is not negative is no new integer but the
receiver itself. As nothing else makes large integers, a machine never holds one that would fit
a fixnum.
-/

namespace BlockScript

variable {program : Program} {world : World} {block : Option (Ref .proc)}

/-! ## Messages to integers -/

/-- The answer is an integer of this number, in the kind that its size asks for. Nothing else is
new in the world, apart from a count of the large integers. -/
def Run.Computes (action : Run Reply) (world : World) (n : Int) : Prop :=
  ∃ value after, action world = .ok (.value value) after ∧ value.Normal n ∧
    (after = world ∨ after = { world with heap := (world.heap.newBignum n).2 })

/-- The answer is this value, and the world stays as it is. -/
def Run.Gives (action : Run Reply) (world : World) (value : Value) : Prop :=
  action world = .ok (.value value) world

namespace Builtin

/-- A method of the receiver's own class answers, whatever the program defines. -/
theorem dispatch_own {receiver : Value} {name : String} {args : List Value} {reply : Run Reply}
    (own : classReply program receiver name args block = some <$> reply) :
    Run.dispatch program receiver name args block = reply := by
  funext world
  simp only [Run.dispatch, own]
  change EStateM.bind (EStateM.map some reply) _ world = _
  simp only [EStateM.bind, EStateM.map]
  cases reply world with
  | ok answer after => rfl
  | error error after => rfl

/-- An integer answers by its own methods, whatever the program defines. -/
theorem dispatch_integer {a : Value} {m : Int} (number : a.int? = some m) {name : String}
    {method : IntegerMethod} (found : named? integerMethods name = some method)
    (args : List Value) :
    Run.dispatch program a name args block = integerReply method a m args block := by
  refine dispatch_own ?_
  cases a with
  | fixnum x =>
      cases number
      simp only [classReply, found]
      rfl
  | bignum x identity =>
      cases number
      simp only [classReply, found]
      rfl
  | _ => cases number

/-- A new integer is of the kind that its size asks for. -/
theorem computes_newInteger (n : Int) :
    Run.Computes (do return .value (← Run.newInteger n)) world n := by
  unfold Run.newInteger
  cases fits : isFixnum n with
  | true => exact ⟨_, _, rfl, .fixnum fits, .inl rfl⟩
  | false => exact ⟨_, _, rfl, .bignum fits, .inr rfl⟩

end Builtin

/-- How integers of the numbers `m` and `n` answer messages. -/
structure Value.IntegerLaws (program : Program) (world : World) (block : Option (Ref .proc))
    (a b : Value) (m n : Int) : Prop where
  add : Run.Computes (Run.dispatch program a "+" [b] block) world (m + n)
  sub : Run.Computes (Run.dispatch program a "-" [b] block) world (m - n)
  mul : Run.Computes (Run.dispatch program a "*" [b] block) world (m * n)
  /-- Nothing is divided by zero. -/
  undivided : n = 0 →
    Run.dispatch program a "/" [b] block world = .error .dividedByZero world ∧
    Run.dispatch program a "%" [b] block world = .error .dividedByZero world
  /-- The quotient is rounded towards minus infinity. -/
  divided : n ≠ 0 → ∃ q r, m = q * n + r ∧ (r = 0 ∨ r.sign = n.sign) ∧ r.natAbs < n.natAbs ∧
    Run.Computes (Run.dispatch program a "/" [b] block) world q ∧
    Run.Computes (Run.dispatch program a "%" [b] block) world r
  order : Run.Gives (Run.dispatch program a "<=>" [b] block) world
    (.fixnum (if m < n then -1 else if m = n then 0 else 1))
  less : Run.Gives (Run.dispatch program a "<" [b] block) world (.bool (m < n))
  greater : Run.Gives (Run.dispatch program a ">" [b] block) world (.bool (n < m))
  atMost : Run.Gives (Run.dispatch program a "<=" [b] block) world (.bool (m ≤ n))
  atLeast : Run.Gives (Run.dispatch program a ">=" [b] block) world (.bool (n ≤ m))
  equal : Run.Gives (Run.dispatch program a "==" [b] block) world (.bool (m = n))
  negate : Run.Computes (Run.dispatch program a "-@" [] block) world (-m)
  successor : Run.Computes (Run.dispatch program a "succ" [] block) world (m + 1)
  /-- An integer that is not negative is its own absolute value. -/
  absolute : if m < 0 then Run.Computes (Run.dispatch program a "abs" [] block) world m.natAbs
    else Run.Gives (Run.dispatch program a "abs" [] block) world a ∧ a.int? = some ↑m.natAbs
  isEven : Run.Gives (Run.dispatch program a "even?" [] block) world (.bool (2 ∣ m))
  isOdd : Run.Gives (Run.dispatch program a "odd?" [] block) world (.bool (¬2 ∣ m))

namespace Builtin

/-- The relation holds between two numbers. -/
def Comparison.relates : Comparison → Int → Int → Bool
  | less, m, n => m < n
  | greater, m, n => n < m
  | atMost, m, n => m ≤ n
  | atLeast, m, n => n ≤ m

/-- A relation holds between two numbers just if it does between numbers in their order. -/
theorem Comparison.holds_compare (relation : Comparison) (m n : Int) :
    relation.holds (compare m n) = relation.relates m n := by
  change relation.holds (compareOfLessAndEq m n) = relation.relates m n
  unfold compareOfLessAndEq
  cases relation <;> simp only [holds, relates] <;> grind

/-- An integer is negated by a subtraction. -/
theorem result_negate {m : Int} : Arithmetic.sub.result? 0 m = some (-m) :=
  congrArg some (Int.zero_sub m)

/-- A quotient that is rounded towards minus infinity leaves a remainder with the sign of the
divisor. -/
theorem floor_spec (m : Int) {n : Int} (divisor : n ≠ 0) :
    m = m.fdiv n * n + m.fmod n ∧ (m.fmod n = 0 ∨ (m.fmod n).sign = n.sign) ∧
      (m.fmod n).natAbs < n.natAbs := by
  rcases Int.lt_or_gt_of_ne divisor with below | above
  · obtain ⟨whole, low, high⟩ := (@Int.fdiv_fmod_unique' m n _ _ below).mp ⟨rfl, rfl⟩
    refine ⟨by rw [Int.mul_comm, Int.add_comm, whole], ?_, by omega⟩
    rcases Int.lt_or_eq_of_le high with negative | zero
    · exact .inr (by rw [Int.sign_eq_neg_one_of_neg negative, Int.sign_eq_neg_one_of_neg below])
    · exact .inl zero
  · obtain ⟨whole, low, high⟩ := (@Int.fdiv_fmod_unique m n _ _ above).mp ⟨rfl, rfl⟩
    refine ⟨by rw [Int.mul_comm, Int.add_comm, whole], ?_, by omega⟩
    rcases Int.lt_or_eq_of_le low with positive | zero
    · exact .inr (by rw [Int.sign_eq_one_of_pos positive, Int.sign_eq_one_of_pos above])
    · exact .inl zero.symm

variable {a b : Value} {m n : Int} (left : a.int? = some m) (right : b.int? = some n)

include left

theorem computes_absolute : if m < 0
    then Run.Computes (integerReply .absolute a m [] block) world m.natAbs
    else Run.Gives (integerReply .absolute a m [] block) world a ∧ a.int? = some ↑m.natAbs := by
  split
  · rename_i negative
    simp only [integerReply, isNegative_int left, negative, decide_true, if_true,
      arithmetic_int (a := .fixnum 0) rfl left result_negate]
    rw [Int.ofNat_natAbs_of_nonpos (Int.le_of_lt negative)]
    exact computes_newInteger (-m)
  · rename_i positive
    simp only [integerReply, isNegative_int left, positive, decide_false, Bool.false_eq_true,
      if_false]
    constructor
    · rfl
    · rw [left, Int.natAbs_of_nonneg (Int.not_lt.mp positive)]

theorem computes_negate : Run.Computes (integerReply .negate a m [] block) world (-m) := by
  simp only [integerReply, arithmetic_int (a := .fixnum 0) rfl left result_negate]
  exact computes_newInteger (-m)

theorem computes_successor :
    Run.Computes (integerReply .successor a m [] block) world (m + 1) := by
  have result : Arithmetic.add.result? m 1 = some (m + 1) := rfl
  simp only [integerReply, arithmetic_int (b := .fixnum 1) left rfl result]
  exact computes_newInteger (m + 1)

theorem gives_even :
    Run.Gives (integerReply .isEven a m [] block) world (.bool (2 ∣ m)) := by
  simp only [integerReply, isEvenValue_int left, Int.dvd_iff_emod_eq_zero]
  rfl

theorem gives_odd :
    Run.Gives (integerReply .isOdd a m [] block) world (.bool (¬2 ∣ m)) := by
  simp only [integerReply, isEvenValue_int left, Int.dvd_iff_emod_eq_zero, decide_not]
  rfl

/-- A division by zero fails, and nothing else happens. -/
theorem refuses_zero {operator : Arithmetic} (zero : b.int? = some 0)
    (divides : operator.divides = true) :
    integerReply (.arithmetic operator) a m [b] block world = .error .dividedByZero world := by
  simp only [integerReply, arithmetic_eq, bigArithmetic, left, zero, result?_zero divides]
  rfl

include right

theorem computes_arithmetic {operator : Arithmetic} {r : Int}
    (result : operator.result? m n = some r) :
    Run.Computes (integerReply (.arithmetic operator) a m [b] block) world r := by
  simp only [integerReply, arithmetic_int left right result]
  exact computes_newInteger r

theorem gives_comparison (relation : Comparison) :
    Run.Gives (integerReply (.comparison relation) a m [b] block) world
      (.bool (relation.relates m n)) := by
  simp only [integerReply, compareIntegers_int left right, relation.holds_compare]
  rfl

theorem gives_order :
    Run.Gives (integerReply .order a m [b] block) world
      (.fixnum (if m < n then -1 else if m = n then 0 else 1)) := by
  simp only [integerReply, compareIntegers_int left right]
  change Run.Gives (return .value (.fixnum (orderNumber (compareOfLessAndEq m n)))) world _
  unfold compareOfLessAndEq
  split
  · rfl
  · split <;> rfl

theorem equals_integer (heap : Heap) : Value.equals heap a b = decide (m = n) := by
  have leaf : Value.equals heap a b = Value.leafEquals heap a b := by
    cases a with
    | fixnum | bignum => rfl
    | _ => cases left
  have no_array : ∀ x y, a = .array x → b ≠ .array y := by
    rintro x y rfl
    cases left
  rw [leaf, Bool.eq_iff_iff, Value.leafEquals_iff no_array, decide_eq_true_iff]
  constructor
  · intro same
    cases same with
    | integer left' right' =>
        rw [left] at left'
        rw [right] at right'
        cases left'
        cases right'
        rfl
    | string | symbol | nil | bool | classRef | proc | object => cases left
  · rintro rfl
    exact .integer left right

theorem gives_equal :
    Run.Gives (integerReply .equal a m [b] block) world (.bool (m = n)) := by
  rw [← equals_integer left right world.heap]
  rfl

end Builtin

/-- Two integers answer each other's messages as their numbers do, whatever kinds they are
of. -/
theorem Value.integerLaws {a b : Value} {m n : Int} (left : a.int? = some m)
    (right : b.int? = some n) : IntegerLaws program world block a b m n := by
  have own (name : String) (method : Builtin.IntegerMethod)
      (found : Builtin.named? Builtin.integerMethods name = some method) (args : List Value) :
      Run.dispatch program a name args block = Builtin.integerReply method a m args block :=
    Builtin.dispatch_integer left found args
  have computes (name : String) (operator : Builtin.Arithmetic)
      (found : Builtin.named? Builtin.integerMethods name = some (.arithmetic operator)) {r : Int}
      (result : operator.result? m n = some r) :
      Run.Computes (Run.dispatch program a name [b] block) world r :=
    own name _ found [b] ▸ Builtin.computes_arithmetic left right result
  have compares (name : String) (relation : Builtin.Comparison)
      (found : Builtin.named? Builtin.integerMethods name = some (.comparison relation)) :
      Run.Gives (Run.dispatch program a name [b] block) world
        (.bool (relation.relates m n)) :=
    own name _ found [b] ▸ Builtin.gives_comparison left right relation
  constructor
  case add => exact computes "+" .add rfl rfl
  case sub => exact computes "-" .sub rfl rfl
  case mul => exact computes "*" .mul rfl rfl
  case undivided =>
    rintro rfl
    constructor
    · rw [own "/" (.arithmetic .div) rfl]
      exact Builtin.refuses_zero left right rfl
    · rw [own "%" (.arithmetic .mod) rfl]
      exact Builtin.refuses_zero left right rfl
  case divided =>
    intro divisor
    obtain ⟨whole, sign, small⟩ := Builtin.floor_spec m divisor
    refine ⟨m.fdiv n, m.fmod n, whole, sign, small, computes "/" .div rfl ?_,
      computes "%" .mod rfl ?_⟩
    · simp only [Builtin.Arithmetic.result?, if_neg divisor, Builtin.bigFloorDivision_eq m divisor]
    · simp only [Builtin.Arithmetic.result?, if_neg divisor, Builtin.bigFloorDivision_eq m divisor]
  case order => exact own "<=>" .order rfl [b] ▸ Builtin.gives_order left right
  case less => exact compares "<" .less rfl
  case greater => exact compares ">" .greater rfl
  case atMost => exact compares "<=" .atMost rfl
  case atLeast => exact compares ">=" .atLeast rfl
  case equal => exact own "==" .equal rfl [b] ▸ Builtin.gives_equal left right
  case negate =>
    rw [own "-@" .negate rfl []]
    exact Builtin.computes_negate left
  case successor =>
    rw [own "succ" .successor rfl []]
    exact Builtin.computes_successor left
  case absolute =>
    rw [own "abs" .absolute rfl []]
    exact Builtin.computes_absolute left
  case isEven => exact own "even?" .isEven rfl [] ▸ Builtin.gives_even left
  case isOdd => exact own "odd?" .isOdd rfl [] ▸ Builtin.gives_odd left

/-! ## Steps on fixnums -/

/-- Every step from two fixnums to a result is exact: what does not fit is never used, and
nothing that is added to correct a quotient or a remainder goes over a limit. -/
structure Builtin.Steady (x y : Int64) : Prop where
  add (r : Int64) : checkedAdd x y = some r → r.toInt = x.toInt + y.toInt
  sub (r : Int64) : checkedSub x y = some r → r.toInt = x.toInt - y.toInt
  mul (r : Int64) : checkedMul x y = some r → r.toInt = x.toInt * y.toInt
  quotient (q : Int64) : checkedDiv x y = some q → q.toInt = x.toInt.tdiv y.toInt
  remainder (r : Int64) : checkedRem x y = some r → r.toInt = x.toInt.tmod y.toInt
  correction (q r : Int64) : checkedDiv x y = some q → checkedRem x y = some r →
    r ≠ 0 ∧ decide (r < 0) ≠ decide (y < 0) →
    isFixnum (q.toInt - 1) = true ∧ isFixnum (r.toInt + y.toInt) = true

theorem Builtin.steady (x y : Int64) : Steady x y where
  add _ := checkedAdd_exact
  sub _ := checkedSub_exact
  mul _ := checkedMul_exact
  quotient _ h := (checkedDiv_exact h).2
  remainder _ := checkedRem_exact
  correction _ _ := correction_fits

/-! ## Large integers in a machine -/

/-- A large integer that a machine holds is one that no fixnum could stand for. -/
theorem Machine.steps_large {limits : Limits} (main : Code) (count : Nat) {n : Int}
    {identity : Nat}
    (held : ((step program limits)^[count] (start main .new)).Holds (.bignum n identity)) :
    isFixnum n = false := by
  have begins : (start main .new).Knows fun value =>
      ∀ n identity, value = .bignum n identity → isFixnum n = false := by
    refine knows_iff.mpr ⟨by rintro _ ⟨⟩ _ _ ⟨⟩, ?_⟩
    rintro _ held n identity rfl
    rcases start_holds held with plain | same
    · cases plain
    · cases same
  have knows := @steps_knows program limits _
    (fun _ value => ∀ n identity, value = .bignum n identity → isFixnum n = false)
    (fun _ _ _ _ large => large)
    (by
      rintro heap table _ (⟨⟨⟩⟩ | _ | _ | _ | _ | large | _) n identity ⟨⟩
      exact large) begins count
  exact (knows_iff.mp knows).2 _ held n identity rfl

/-- Integer arithmetic is exact. Two integers of either kind answer messages as their numbers do;
no step on fixnums overflows; and in no state of a run on a fresh machine is there a large integer
that would fit a fixnum. -/
theorem Value.arithmetic_exact {a b : Value} {m n : Int} (left : a.int? = some m)
    (right : b.int? = some n) (program : Program) (world : World) (block : Option (Ref .proc)) :
    IntegerLaws program world block a b m n ∧
    (∀ x y, Builtin.Steady x y) ∧
    ∀ (limits : Limits) (main : Code) (count : Nat) (number : Int) (identity : Nat),
      ((Machine.step program limits)^[count] (Machine.start main .new)).Holds
        (.bignum number identity) → isFixnum number = false := by
  refine ⟨integerLaws left right, Builtin.steady, ?_⟩
  intro limits main count number identity
  exact Machine.steps_large main count

/-- The quotient of the least fixnum by minus one fits no fixnum, though there is no remainder. -/
theorem Value.least_by_minus_one :
    Run.Computes (Run.dispatch .empty (.fixnum Int64.minValue) "/" [.fixnum (-1)] none) .new
        0x8000000000000000 ∧
      Run.Computes (Run.dispatch .empty (.fixnum Int64.minValue) "%" [.fixnum (-1)] none) .new 0 := by
  have least : (Value.fixnum Int64.minValue).int? = some (-0x8000000000000000) := rfl
  have unit : (Value.fixnum (-1)).int? = some (-1) := rfl
  obtain ⟨laws, -⟩ := arithmetic_exact least unit .empty .new none
  obtain ⟨q, r, whole, -, small, quotient, remainder⟩ := laws.divided (by decide)
  obtain rfl : r = 0 := by omega
  obtain rfl : q = 0x8000000000000000 := by omega
  exact ⟨quotient, remainder⟩

/-- The absolute value of a large integer that would fit a fixnum is that large integer. -/
theorem Value.absolute_keeps_kind :
    Run.Gives (Run.dispatch .empty (.bignum 7 0) "abs" [] none) .new (.bignum 7 0) ∧
      ¬(Value.bignum 7 0).Normal 7 := by
  constructor
  · rfl
  · intro normal
    cases normal with
    | bignum large => cases large

end BlockScript
