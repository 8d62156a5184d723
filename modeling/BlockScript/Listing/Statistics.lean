import BlockScript.Listing.Basic

/-!
# Program statistics

How large a program is and which operations it uses most. Operations are ranked by
their number and, among equals, by their name.

A share of a total is computed in double precision and shown with one decimal place.
The double is read exactly as a quotient of integers; a tie goes to the even last digit.
-/

namespace BlockScript.Text

/-- The integer nearest to `num / den`, the even one of two that are equally near. -/
def divNearestEven (num den : Nat) : Nat :=
  let q := num / den
  let twice := 2 * (num % den)
  if twice > den ∨ (twice = den ∧ q % 2 = 1) then q + 1 else q

/-- A finite, non-negative double as an exact quotient. -/
def quotientOfBits (bits : UInt64) : Nat × Nat :=
  let unit := 1 <<< 52
  let biased := bits.toNat / unit % 2048
  let fraction := bits.toNat % unit
  let (mantissa, exponent) := if biased = 0 then (fraction, 1) else (fraction + unit, biased)
  if exponent ≥ 1075 then (mantissa <<< (exponent - 1075), 1)
  else (mantissa, 1 <<< (1075 - exponent))

/-- A finite, non-negative double with one decimal place. -/
def onePlace (x : Float) : String :=
  let (num, den) := quotientOfBits x.toBits
  let tenths := divNearestEven (10 * num) den
  toString (tenths / 10) ++ "." ++ toString (tenths % 10)

/-- How many hundredths of the total the part is, with one decimal place. An empty
total counts as one. -/
def percent (part total : Nat) : String :=
  onePlace (Float.ofNat part / Float.ofNat (max total 1) * 100.0)

end BlockScript.Text

namespace BlockScript.Listing

open Text

/-- Count one more use of a word. -/
def countWord (word : String) : List (String × Nat) → List (String × Nat)
  | [] => [(word, 1)]
  | (w, n) :: rest => if w = word then (w, n + 1) :: rest else (w, n) :: countWord word rest

/-- Every operation that the program uses and how often, the most frequent first. -/
def frequencies (program : Program) : List (String × Nat) :=
  let counts := program.code.foldl (fun counts code =>
    code.ops.foldl (fun counts op => countWord (mnemonic op) counts) counts) []
  counts.mergeSort fun (w, n) (v, k) => k < n || (n == k && w ≤ v)

/-- The sizes of a program and its ten most frequent operations. -/
def statisticsText (program : Program) : String :=
  let total := program.code.foldl (· + ·.ops.size) 0
  unlines <|
    ["=== BYTECODE STATISTICS ===", "",
      "Code objects:     " ++ toString program.code.size,
      "Constants:        " ++ toString program.constants.size,
      "Instructions:     " ++ toString total, "",
      "Op frequency:"] ++
    ((frequencies program).take 10).map fun (word, count) =>
      "  " ++ padRight 14 word ++ " " ++ padLeft 4 (toString count) ++ " (" ++
        padLeft 5 (percent count total) ++ "%)"

end BlockScript.Listing
