/-!
# Sets of code points given by ranges

A property of characters is stored as a table of closed ranges. Membership asks
whether some range of the table holds the code point; nothing depends on the
order of the ranges.
-/

namespace BlockScript.Text

/-- A set of code points: the union of closed ranges. -/
abbrev Ranges := Array (Nat × Nat)

/-- The character lies in one of the ranges. -/
def Ranges.holds (table : Ranges) (c : Char) : Bool :=
  table.any fun (low, high) => low ≤ c.toNat && c.toNat ≤ high

end BlockScript.Text
