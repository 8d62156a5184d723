import BlockScript.Builtin.Integer
import Mathlib.Algebra.GroupWithZero.Nat

/-!
# Exactness of integer arithmetic

Computing with fixnums while that is possible changes nothing: `arithmetic_eq` says that the
result is the one that large integers give, whatever the operands are. No step on the way
overflows, not even where a division that rounds towards zero is corrected to one that rounds
towards minus infinity. So each operation on integers is one on numbers, and what it makes is a
fixnum just if the number fits one.
-/

namespace BlockScript

/-! ## Fixnums -/

theorem isFixnum_iff {n : Int} :
    isFixnum n = true ↔ -0x8000000000000000 ≤ n ∧ n < 0x8000000000000000 := by
  simp [isFixnum]

theorem isFixnum_toInt (x : Int64) : isFixnum x.toInt = true :=
  isFixnum_iff.mpr ⟨x.le_toInt, x.toInt_lt⟩

/-- A number that fits comes through sixty-four bits unchanged. -/
theorem bmod_of_isFixnum {n : Int} (fits : isFixnum n = true) : n.bmod (2 ^ 64) = n := by
  obtain ⟨low, high⟩ := isFixnum_iff.mp fits
  apply Int.bmod_eq_of_le <;> omega

theorem toInt_ofInt_of_isFixnum {n : Int} (fits : isFixnum n = true) :
    (Int64.ofInt n).toInt = n := by
  rw [Int64.toInt_ofInt]
  exact bmod_of_isFixnum fits

/-- An integer of this number, in the kind that its size asks for. -/
inductive Value.Normal : Int → Value → Prop where
  | fixnum {n : Int} (fits : isFixnum n = true) : Normal n (.fixnum (Int64.ofInt n))
  | bignum {n : Int} {identity : Nat} (large : isFixnum n = false) : Normal n (.bignum n identity)

theorem Value.Normal.int? {n : Int} {value : Value} (h : value.Normal n) : value.int? = some n := by
  cases h with
  | fixnum fits => exact congrArg some (toInt_ofInt_of_isFixnum fits)
  | bignum large => rfl

namespace Builtin

/-! ## Checked operations -/

theorem checkedAdd_exact {x y r : Int64} (h : checkedAdd x y = some r) :
    r.toInt = x.toInt + y.toInt := by
  unfold checkedAdd at h
  split at h
  · cases h
    rw [Int64.toInt_add]
    exact bmod_of_isFixnum ‹_›
  · cases h

theorem checkedSub_exact {x y r : Int64} (h : checkedSub x y = some r) :
    r.toInt = x.toInt - y.toInt := by
  unfold checkedSub at h
  split at h
  · cases h
    rw [Int64.toInt_sub]
    exact bmod_of_isFixnum ‹_›
  · cases h

theorem checkedMul_exact {x y r : Int64} (h : checkedMul x y = some r) :
    r.toInt = x.toInt * y.toInt := by
  unfold checkedMul at h
  split at h
  · cases h
    rw [Int64.toInt_mul]
    exact bmod_of_isFixnum ‹_›
  · cases h

theorem divisionOverflows_eq_false {x y : Int64} (h : divisionOverflows x y = false) :
    y.toInt ≠ 0 ∧ (x ≠ Int64.minValue ∨ y ≠ -1) := by
  simp only [divisionOverflows, Bool.or_eq_false_iff, beq_eq_false_iff_ne, Bool.and_eq_false_imp,
    beq_iff_eq] at h
  refine ⟨fun zero => h.1 (Int64.toInt_inj.mp zero), ?_⟩
  by_cases least : x = Int64.minValue
  · exact .inr (h.2 least)
  · exact .inl least

theorem checkedDiv_exact {x y q : Int64} (h : checkedDiv x y = some q) :
    y.toInt ≠ 0 ∧ q.toInt = x.toInt.tdiv y.toInt := by
  unfold checkedDiv at h
  split at h
  · cases h
  · cases h
    obtain ⟨divisor, inside⟩ := divisionOverflows_eq_false (Bool.not_eq_true _ ▸ ‹¬_›)
    refine ⟨divisor, ?_⟩
    rcases inside with least | unit
    · exact Int64.toInt_div_of_ne_left x y least
    · exact Int64.toInt_div_of_ne_right x y unit

theorem checkedRem_exact {x y r : Int64} (h : checkedRem x y = some r) :
    r.toInt = x.toInt.tmod y.toInt := by
  unfold checkedRem at h
  split at h
  · cases h
  · cases h
    exact Int64.toInt_mod x y

/-! ## Division -/

/-- The remainder has to be corrected for a quotient that is rounded towards minus infinity: it
is not zero and has not the sign of the divisor. -/
theorem uneven_iff {n r : Int} :
    (r ≠ 0 ∧ decide (r < 0) ≠ decide (n < 0)) ↔ (0 < r ∧ n < 0) ∨ (r < 0 ∧ 0 ≤ n) := by
  by_cases negative : r < 0 <;> by_cases below : n < 0 <;> simp [negative, below] <;> omega

/-- The remainder of a division that rounds towards zero is less than the divisor. -/
theorem natAbs_tmod_lt (m : Int) {n : Int} (divisor : n ≠ 0) : (m.tmod n).natAbs < n.natAbs := by
  rw [Int.natAbs_tmod]
  exact Nat.mod_lt _ (Int.natAbs_pos.mpr divisor)

/-- A quotient whose remainder lies between zero and the divisor is the one that is rounded
towards minus infinity. -/
theorem floor_unique {m n q r : Int} (whole : r + n * q = m)
    (between : (0 ≤ r ∧ r < n) ∨ (n < r ∧ r ≤ 0)) : q = m.fdiv n ∧ r = m.fmod n := by
  rcases between with ⟨low, high⟩ | ⟨low, high⟩
  · obtain ⟨quotient, remainder⟩ := (Int.fdiv_fmod_unique (by omega)).mpr ⟨whole, low, high⟩
    exact ⟨quotient.symm, remainder.symm⟩
  · obtain ⟨quotient, remainder⟩ := (Int.fdiv_fmod_unique' (by omega)).mpr ⟨whole, low, high⟩
    exact ⟨quotient.symm, remainder.symm⟩

/-- Rounding towards zero and correcting the result is rounding towards minus infinity. -/
theorem bigFloorDivision_eq (m : Int) {n : Int} (divisor : n ≠ 0) :
    bigFloorDivision m n = (m.fdiv n, m.fmod n) := by
  have whole : m.tmod n + n * m.tdiv n = m := Int.tmod_add_mul_tdiv m n
  have small := natAbs_tmod_lt m divisor
  simp only [bigFloorDivision, uneven_iff]
  split
  · rename_i uneven
    have less : m.tmod n + n + n * (m.tdiv n - 1) = m := by
      rw [Int.mul_sub, Int.mul_one]
      omega
    obtain ⟨quotient, remainder⟩ := floor_unique less (by omega)
    rw [quotient, remainder]
  · rename_i even
    obtain ⟨quotient, remainder⟩ := floor_unique whole (by omega)
    rw [← quotient, ← remainder]

/-- The same condition on fixnums. -/
theorem uneven_toInt {y r : Int64} :
    (r ≠ 0 ∧ decide (r < 0) ≠ decide (y < 0)) ↔
      (0 < r.toInt ∧ y.toInt < 0) ∨ (r.toInt < 0 ∧ 0 ≤ y.toInt) := by
  rw [← uneven_iff]
  simp only [Int64.lt_iff_toInt_lt, Int64.toInt_zero, ne_eq, ← Int64.toInt_inj]

/-- Where a quotient of fixnums is corrected, the correction does not overflow: the quotient is
the least fixnum only if it leaves no remainder. -/
theorem correction_fits {x y q r : Int64} (quotient : checkedDiv x y = some q)
    (remainder : checkedRem x y = some r) (uneven : r ≠ 0 ∧ decide (r < 0) ≠ decide (y < 0)) :
    isFixnum (q.toInt - 1) = true ∧ isFixnum (r.toInt + y.toInt) = true := by
  obtain ⟨divisor, quotient_eq⟩ := checkedDiv_exact quotient
  have remainder_eq := checkedRem_exact remainder
  have whole : r.toInt + y.toInt * q.toInt = x.toInt := by
    rw [quotient_eq, remainder_eq]
    exact Int.tmod_add_mul_tdiv _ _
  have small : r.toInt.natAbs < y.toInt.natAbs := remainder_eq ▸ natAbs_tmod_lt _ divisor
  have x_low := x.le_toInt
  have x_high := x.toInt_lt
  have q_low := q.le_toInt
  have q_high := q.toInt_lt
  have y_low := y.le_toInt
  have y_high := y.toInt_lt
  rw [uneven_toInt] at uneven
  refine ⟨?_, isFixnum_iff.mpr (by omega)⟩
  have above_least : q.toInt ≠ -0x8000000000000000 := by
    intro least
    rw [least] at whole
    omega
  exact isFixnum_iff.mpr (by omega)

/-- A division of fixnums rounds towards minus infinity. -/
theorem floorDivision_exact {x y q r : Int64} (h : floorDivision x y = some (q, r)) :
    y.toInt ≠ 0 ∧ q.toInt = x.toInt.fdiv y.toInt ∧ r.toInt = x.toInt.fmod y.toInt := by
  simp only [floorDivision, Option.bind_eq_bind, Option.bind_eq_some_iff] at h
  obtain ⟨q', quotient, r', remainder, h⟩ := h
  obtain ⟨divisor, quotient_eq⟩ := checkedDiv_exact quotient
  have remainder_eq := checkedRem_exact remainder
  have rounded := bigFloorDivision_eq x.toInt divisor
  simp only [bigFloorDivision, uneven_iff, ← quotient_eq, ← remainder_eq, ← uneven_toInt] at rounded
  refine ⟨divisor, ?_⟩
  split at h
  · rename_i uneven
    rw [if_pos uneven, Prod.mk.injEq] at rounded
    obtain ⟨quotient_fits, remainder_fits⟩ := correction_fits quotient remainder uneven
    cases h
    rw [Int64.toInt_sub, Int64.toInt_add, Int64.toInt_one, bmod_of_isFixnum quotient_fits,
      bmod_of_isFixnum remainder_fits]
    exact rounded
  · rename_i even
    rw [if_neg even, Prod.mk.injEq] at rounded
    cases h
    exact rounded

/-! ## Integers of either kind -/

/-- What is found without large integers is exact. -/
theorem short?_exact {operator : Arithmetic} {x y r : Int64} (h : operator.short? x y = some r) :
    operator.result? x.toInt y.toInt = some r.toInt := by
  cases operator with
  | add => exact congrArg some (checkedAdd_exact h).symm
  | sub => exact congrArg some (checkedSub_exact h).symm
  | mul => exact congrArg some (checkedMul_exact h).symm
  | div =>
      obtain ⟨⟨q, r⟩, found, rfl⟩ := Option.map_eq_some_iff.mp h
      obtain ⟨divisor, quotient, -⟩ := floorDivision_exact found
      simp only [Arithmetic.result?, if_neg divisor, bigFloorDivision_eq _ divisor, quotient]
  | mod =>
      obtain ⟨⟨q, r⟩, found, rfl⟩ := Option.map_eq_some_iff.mp h
      obtain ⟨divisor, -, remainder⟩ := floorDivision_exact found
      simp only [Arithmetic.result?, if_neg divisor, bigFloorDivision_eq _ divisor, remainder]

/-- An operator that refuses a zero divisor has no result for it. -/
theorem result?_zero {operator : Arithmetic} (divides : operator.divides = true) (m : Int) :
    operator.result? m 0 = none := by
  cases operator with
  | div | mod => rfl
  | add | sub | mul => cases divides

/-- A number that fits becomes the fixnum that it is the number of. -/
theorem newInteger_toInt (x : Int64) : Run.newInteger x.toInt = return .fixnum x := by
  rw [Run.newInteger, if_pos (isFixnum_toInt x), Int64.ofInt_toInt]

/-- Computing with fixnums where that is possible gives what large integers give. -/
theorem arithmetic_eq (operator : Arithmetic) (a b : Value) :
    arithmetic operator a b = bigArithmetic operator a b := by
  unfold arithmetic
  split
  · rename_i x y
    split
    · rename_i refused
      rw [Bool.and_eq_true, beq_iff_eq] at refused
      obtain ⟨divides, rfl⟩ := refused
      have none := result?_zero divides x.toInt
      simp only [bigArithmetic, Value.int?, Int64.toInt_zero, none]
    · split
      · rename_i r found
        simp only [bigArithmetic, Value.int?, short?_exact found, newInteger_toInt]
      · rfl
  · rfl

/-- An operator on two integers makes the integer of its result. -/
theorem arithmetic_int {operator : Arithmetic} {a b : Value} {m n r : Int}
    (left : a.int? = some m) (right : b.int? = some n) (result : operator.result? m n = some r) :
    arithmetic operator a b = Run.newInteger r := by
  simp only [arithmetic_eq, bigArithmetic, left, right, result]

/-- Fixnums are ordered as their numbers are. -/
theorem compare_toInt (x y : Int64) : compare x y = compare x.toInt y.toInt := by
  change compareOfLessAndEq x y = compareOfLessAndEq x.toInt y.toInt
  simp only [compareOfLessAndEq, Int64.lt_iff_toInt_lt, Int64.toInt_inj]

/-- The order of two values is that of their numbers, if both are integers. -/
theorem compareIntegers_eq (a b : Value) :
    compareIntegers a b = a.int?.bind fun m => b.int?.map (compare m) := by
  unfold compareIntegers
  split
  · exact congrArg some (compare_toInt _ _)
  · cases a.int? <;> cases b.int? <;> rfl

theorem compareIntegers_int {a b : Value} {m n : Int} (left : a.int? = some m)
    (right : b.int? = some n) : compareIntegers a b = some (compare m n) := by
  rw [compareIntegers_eq, left, right]
  rfl

theorem isNegative_int {a : Value} {n : Int} (number : a.int? = some n) :
    isNegative a = decide (n < 0) := by
  rw [isNegative, compareIntegers_int number rfl]
  change (some (compareOfLessAndEq n 0) == some .lt) = decide (n < 0)
  unfold compareOfLessAndEq
  split
  · rename_i negative
    rw [decide_eq_true negative]
    rfl
  · rename_i negative
    rw [decide_eq_false negative]
    split <;> rfl

/-- Whether an integer is even is found without making one. -/
theorem isEvenValue_int {a : Value} {n : Int} (number : a.int? = some n) :
    isEvenValue a = return decide (n % 2 = 0) := by
  have result : Arithmetic.mod.result? n 2 = some (n % 2) := by
    rw [Arithmetic.result?, if_neg (by decide), bigFloorDivision_eq n (by decide),
      Int.fmod_eq_emod_of_nonneg n (by decide)]
  rw [isEvenValue, arithmetic_int number rfl result]
  have either : n % 2 = 0 ∨ n % 2 = 1 := by omega
  rcases either with even | odd
  · rw [even]
    rfl
  · rw [odd]
    rfl

end Builtin

end BlockScript
