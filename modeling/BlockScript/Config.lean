/-!
# Configuration of code generation

Which imbalances are errors, and how large the open units, the constant pool and
the code table may grow. The plain configuration has every check on.
-/

namespace BlockScript

/-- What a yield with an argument does when no value was prepared for it. -/
inductive YieldMode where
  /-- The missing argument is a stack underflow. -/
  | strict
  /-- The yield passes no arguments. -/
  | lenient
deriving DecidableEq, Repr

/-- The checks and limits of a backend. -/
structure Config where
  /-- Refuse a stack imbalance instead of going on with a corrected depth. -/
  checkStack : Bool := true
  yieldMode : YieldMode := .strict
  /-- Open units plus control-flow regions that are being generated. -/
  maxNesting : Nat := 256
  /-- Entries of the constant pool, and of the code table. -/
  maxPoolEntries : Nat := 65535
  /-- Verify every code object as its unit closes. -/
  verifyUnits : Bool := true
deriving DecidableEq, Repr

/-- Every check on and the usual limits. -/
def Config.strict : Config := {}

end BlockScript
