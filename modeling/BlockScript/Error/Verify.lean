import BlockScript.Op.Text

/-!
# Findings of the verifier

Why a code object was refused: the position that breaks a rule and what was found
there.
-/

namespace BlockScript

/-- A rule of verified code that some position breaks. -/
inductive VerifyFault where
  | emptyCode
  /-- Two paths reach a position with different heights. -/
  | inconsistent (ip seen height : Nat)
  | underflow (ip : Nat) (op : Op) (height : Nat)
  | returnHeight (ip height : Nat)
  | jumpOutside (ip : Nat) (target : Int)
  | fallsOff (ip : Nat)
  | missingCode (target : UInt32)
deriving DecidableEq, Repr

/-- The finding in words. -/
def VerifyFault.message : VerifyFault → String
  | .emptyCode => "empty code object"
  | .inconsistent ip seen height =>
      "inconsistent stack height at ip=" ++ toString ip ++ ": " ++ toString seen ++
        " on one path, " ++ toString height ++ " on another"
  | .underflow ip op height =>
      "stack underflow at ip=" ++ toString ip ++ ", op=" ++ op.text ++ ", needed " ++
        toString op.pops ++ " items, had " ++ toString height
  | .returnHeight ip height =>
      "return at ip=" ++ toString ip ++ " with " ++ toString height ++ " values on the stack"
  | .jumpOutside ip target =>
      "jump at ip=" ++ toString ip ++ " targets " ++ toString target ++ " outside the code"
  | .fallsOff ip => "control falls off the end after ip=" ++ toString ip
  | .missingCode target => "reference to missing code object " ++ toString target.toNat

/-- A finding and the name of the code object that it is about. -/
structure VerifyError where
  unit : String
  fault : VerifyFault
deriving DecidableEq, Repr

/-- The finding with the unit it is about. -/
def VerifyError.text (error : VerifyError) : String :=
  "stack-check error in `" ++ error.unit ++ "`: " ++ error.fault.message

end BlockScript
