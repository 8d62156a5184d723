import BlockScript.Error.Compile

/-!
# Depth of a unit's value stack

While a unit is generated, only the number of values on its stack is known. A
strict tracker refuses every imbalance; a lenient one corrects the depth and goes
on, so that generation never stops over it.
-/

namespace BlockScript

/-- The current and the greatest depth of one unit's stack. -/
structure DepthTracker where
  depth : Nat := 0
  maxDepth : Nat := 0
  strict : Bool
deriving DecidableEq, Repr

namespace DepthTracker

/-- An empty stack. -/
def new (strict : Bool) : DepthTracker := { strict }

/-- Put values onto the stack. -/
def produce (tracker : DepthTracker) (count : Nat) : DepthTracker :=
  let depth := tracker.depth + count
  { tracker with depth, maxDepth := max tracker.maxDepth depth }

/-- Take values from the stack on behalf of an operation. -/
def consume (tracker : DepthTracker) (operation : String) (count : Nat) (line : Option UInt32) :
    Except CompileError DepthTracker :=
  if count ≤ tracker.depth then .ok { tracker with depth := tracker.depth - count }
  else if tracker.strict then
    .error (.violation (.stackUnderflow operation count tracker.depth) line)
  else .ok { tracker with depth := 0 }

/-- Rewind to an earlier depth, as between the arms of a branch. -/
def resetTo (tracker : DepthTracker) (depth : Nat) : DepthTracker := { tracker with depth }

/-- A depth read as a signed number of 64 bits, in which the upper half of the range is
negative. -/
def signed (depth : Nat) : Int :=
  if depth < 0x8000000000000000 then depth else depth - 0x10000000000000000

/-- The net change since an earlier depth. -/
def deltaSince (tracker : DepthTracker) (before : Nat) : Int :=
  signed tracker.depth - signed before

/-- How many values a callback may leave. -/
structure Allowance where
  least : Int
  most : Int
deriving DecidableEq, Repr

/-- Exactly one value. -/
def Allowance.one : Allowance := ⟨1, 1⟩

/-- At most one value. -/
def Allowance.atMostOne : Allowance := ⟨0, 1⟩

/-- The number of values is allowed. -/
def Allowance.admits (allowed : Allowance) (produced : Int) : Bool :=
  allowed.least ≤ produced && produced ≤ allowed.most

/-- The allowance as messages name it. -/
def Allowance.text (allowed : Allowance) : String :=
  if allowed.least = allowed.most then "exactly 1" else "0 or 1"

/-- Check the net effect of a callback. -/
def expectDelta (tracker : DepthTracker) (construct : String) (before : Nat)
    (allowed : Allowance) (line : Option UInt32) : Except CompileError Unit :=
  let produced := tracker.deltaSince before
  if allowed.admits produced || !tracker.strict then .ok ()
  else .error (.violation (.callbackResult construct allowed.text produced) line)

/-- How many surplus values must be discarded before the unit returns one. -/
def surplus (tracker : DepthTracker) (unit : String) (line : Option UInt32) :
    Except CompileError Nat :=
  if tracker.depth ≤ 1 then .ok 0
  else if tracker.strict then .error (.violation (.unbalancedUnit unit tracker.depth) line)
  else .ok (tracker.depth - 1)

end DepthTracker

end BlockScript
