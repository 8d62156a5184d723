import BlockScript.Code.Basic
import BlockScript.Error.Verify

/-!
# Stack verification

The verifier assigns a stack height to every operation that control can reach. All
paths to an operation must agree on its height, no operation may take more values
than there are, control must stay inside the code, and a return must find exactly
one value. What it accepts runs without ever missing an operand.

The reachable operations are explored from a list of pending arrivals, the most
recent first. An arrival either meets a height assigned before or assigns one, and
assigning adds at most two arrivals; so twice the number of operations and one more
arrivals settle the code.
-/

namespace BlockScript

namespace Verifier

/-- The heights assigned so far and the greatest height seen. -/
structure Heights where
  assigned : Array (Option Nat)
  greatest : Nat
deriving DecidableEq, Repr

/-- The position a jump leads to, if that lies inside the code. -/
def jumpTarget (size ip : Nat) (offset : Int32) : Except VerifyFault Nat :=
  let target := (ip : Int) + offset.toInt
  if 0 ≤ target ∧ target < size then .ok target.toNat else .error (.jumpOutside ip target)

/-- The position after an operation, if that lies inside the code. -/
def fallThrough (size ip : Nat) : Except VerifyFault Nat :=
  if ip + 1 < size then .ok (ip + 1) else .error (.fallsOff ip)

/-- Where control goes after an operation that is reached with a height: to the next
one before a jump's target, and nowhere from a return. -/
def successors (size ip height : Nat) : Op → Except VerifyFault (List Nat)
  | .ret => if height = 1 then .ok [] else .error (.returnHeight ip height)
  | .jump offset => return [← jumpTarget size ip offset]
  | .jumpIfFalse offset | .jumpIfTrue offset => do
    let target ← jumpTarget size ip offset
    let next ← fallThrough size ip
    return [next, target]
  | _ => return [← fallThrough size ip]

/-- Check one operation that is reached with a height. The result is the height after
it and where control goes. -/
def visit (size ip height : Nat) (op : Op) : Except VerifyFault (Nat × List Nat) :=
  if height < op.pops then .error (.underflow ip op height) else do
    let next ← successors size ip height op
    return (height - op.pops + op.pushes, next)

/-- Settle pending arrivals, each a position and the height it is reached with. -/
def explore (ops : Array Op) :
    (rounds : Nat) → List (Nat × Nat) → Heights → Except VerifyFault Heights
  | _, [], heights => .ok heights
  | 0, _ :: _, heights => .ok heights
  | rounds + 1, (ip, height) :: pending, heights =>
    match heights.assigned[ip]?.join with
    | some seen =>
      if seen = height then explore ops rounds pending heights
      else .error (.inconsistent ip seen height)
    | none =>
      match ops[ip]? with
      | none => explore ops rounds pending heights
      | some op => do
        let (after, next) ← visit ops.size ip height op
        explore ops rounds (next.map (·, after) ++ pending)
          { assigned := heights.assigned.setIfInBounds ip (some height)
            greatest := max heights.greatest (max after height) }

/-- The heights of all reachable operations. -/
def heights (ops : Array Op) : Except VerifyFault Heights :=
  if ops.isEmpty then .error .emptyCode
  else explore ops (2 * ops.size + 1) [(0, 0)] ⟨Array.replicate ops.size none, 0⟩

end Verifier

/-- The greatest stack height that the code reaches, or the rule that it breaks. -/
def Code.verify (code : Code) : Except VerifyError Nat :=
  match Verifier.heights code.ops with
  | .ok heights => .ok heights.greatest
  | .error fault => .error ⟨code.name, fault⟩

/-- Every code operand of the code object lies inside a table of that size. -/
def Code.verifyRefs (size : Nat) (code : Code) : Except VerifyError Unit :=
  match code.ops.toList.findSome? fun op => op.codeRef?.filter (size ≤ ·.toNat) with
  | some target => .error ⟨code.name, .missingCode target⟩
  | none => .ok ()

/-- Verify every code object and then its code operands, in table order. -/
def Program.verify (program : Program) : Except VerifyError Unit :=
  program.code.toList.forM fun code => do
    let _ ← code.verify
    code.verifyRefs program.code.size

end BlockScript
