import BlockScript.Error.Runtime
import BlockScript.Error.Verify

/-!
# Errors of code generation

Everything that a backend reports. A `Violation` means that the sequence of
operations itself was wrong: repeating it fails in the same way. The other errors
are unresolved names, exhausted limits, errors of a program that runs while it is
being issued, findings of the verifier and unreadable artifacts.
-/

namespace BlockScript

/-- A breach of the code generation contract by its caller. -/
inductive Violation where
  | stackUnderflow (operation : String) (needed available : Nat)
  | unbalancedUnit (unit : String) (depth : Nat)
  | unbalancedBranch (onTrue onFalse : Int)
  | callbackResult (construct expected : String) (produced : Int)
  | callbackLeakedUnit (construct : String)
  | handleMismatch (innermost : String)
  | foreignHandle
  | wrongUnitKind (unit : String)
  | noOpenUnit
  | scriptAlreadyStarted
  | unclosedUnit (unit : String)
  | yieldWithoutBlock
  | scopeDepth (depth available : Nat)
deriving DecidableEq, Repr

/-- The breach in words. -/
def Violation.message : Violation → String
  | .stackUnderflow operation needed available =>
      "stack underflow: " ++ operation ++ " needs " ++ toString needed ++ " value(s), " ++
        toString available ++ " available"
  | .unbalancedUnit unit depth =>
      unit ++ " ended with " ++ toString depth ++ " values on the stack (expected 0 or 1)"
  | .unbalancedBranch onTrue onFalse =>
      "branch arms disagree: true arm leaves " ++ toString onTrue ++ ", false arm leaves " ++
        toString onFalse
  | .callbackResult construct expected produced =>
      construct ++ " callback must produce " ++ expected ++ " value(s), produced " ++
        toString produced
  | .callbackLeakedUnit construct =>
      "callback for " ++ construct ++ " opened or closed a unit without balancing it"
  | .handleMismatch innermost =>
      "handle does not belong to the innermost open unit `" ++ innermost ++ "`"
  | .foreignHandle => "handle was issued by a different compiler instance"
  | .wrongUnitKind unit => "end_method cannot close the " ++ unit
  | .noOpenUnit => "no unit is open"
  | .scriptAlreadyStarted => "script already started"
  | .unclosedUnit unit => "script ended while `" ++ unit ++ "` is still open"
  | .yieldWithoutBlock => "yield outside of any method body"
  | .scopeDepth depth available =>
      "scope depth " ++ toString depth ++ " exceeds the " ++ toString available ++
        " enclosing frame(s) reachable here"

/-- The breach by name alone. -/
def Violation.label : Violation → String
  | .stackUnderflow _ _ _ => "StackUnderflow"
  | .unbalancedUnit _ _ => "UnbalancedUnit"
  | .unbalancedBranch _ _ => "UnbalancedBranch"
  | .callbackResult _ _ _ => "CallbackResult"
  | .callbackLeakedUnit _ => "CallbackLeakedUnit"
  | .handleMismatch _ => "HandleMismatch"
  | .foreignHandle => "ForeignHandle"
  | .wrongUnitKind _ => "WrongUnitKind"
  | .noOpenUnit => "NoOpenUnit"
  | .scriptAlreadyStarted => "ScriptAlreadyStarted"
  | .unclosedUnit _ => "UnclosedUnit"
  | .yieldWithoutBlock => "YieldWithoutBlock"
  | .scopeDepth _ _ => "ScopeDepth"

/-- What a name that could not be resolved would have been bound to. -/
inductive BindingKind where
  | constant
  | globalVariable
  | instanceVariable
  | method
deriving DecidableEq, Repr

/-- The binding as messages name it. -/
def BindingKind.text : BindingKind → String
  | .constant => "constant"
  | .globalVariable => "global variable"
  | .instanceVariable => "instance variable"
  | .method => "method"

/-- What is limited by a configuration. -/
inductive Resource where
  | nestingDepth
  | constantPool
  | codeObjects
deriving DecidableEq, Repr

/-- The resource as messages name it. -/
def Resource.text : Resource → String
  | .nestingDepth => "nesting depth"
  | .constantPool => "constant pool"
  | .codeObjects => "code object count"

/-- Why an operation of the contract failed. -/
inductive CompileError where
  | violation (kind : Violation) (line : Option UInt32)
  | resolution (kind : BindingKind) (name : String) (line : Option UInt32)
  | exhausted (resource : Resource) (limit : Nat)
  /-- Raised by the program itself, which ran while it was issued. -/
  | runtime (error : RuntimeError) (line : Option UInt32)
  /-- The artifact was asked for, or work continued, after an earlier failure. -/
  | aborted (cause : CompileError)
  | verify (error : VerifyError)
  | artifact (message : String)
deriving DecidableEq, Repr

namespace CompileError

/-- The line in parentheses, if it is known. -/
def atLine : Option UInt32 → String
  | some line => " (line " ++ toString line.toNat ++ ")"
  | none => ""

/-- The error in words. -/
def message : CompileError → String
  | violation kind line => "contract violation" ++ atLine line ++ ": " ++ kind.message
  | resolution kind name line => "unresolved " ++ kind.text ++ " `" ++ name ++ "`" ++ atLine line
  | exhausted resource limit =>
      "resource exhausted: " ++ resource.text ++ " exceeds limit of " ++ toString limit
  | runtime error line => error.text ++ atLine line
  | aborted cause => "compilation aborted: " ++ cause.message
  | verify error => error.text
  | artifact message => "artifact encoding failed: " ++ message

/-- The breach of contract behind the error, also when work was aborted over it. -/
def violation? : CompileError → Option Violation
  | violation kind _ => some kind
  | aborted cause => cause.violation?
  | _ => none

/-- The kind of error by name. -/
def label : CompileError → String
  | violation _ _ => "ContractViolation"
  | resolution _ _ _ => "Resolution"
  | exhausted _ _ => "ResourceExhausted"
  | runtime _ _ => "Runtime"
  | aborted _ => "Aborted"
  | verify _ => "Verify"
  | artifact _ => "Artifact"

/-- What within its kind the error is about, by name. -/
def detail? : CompileError → Option String
  | runtime error _ => some error.kind.text
  | resolution kind _ _ => some kind.text
  | exhausted resource _ => some resource.text
  | error => error.violation?.map Violation.label

/-- The error is itself a breach of contract. -/
def isViolation : CompileError → Bool
  | violation _ _ => true
  | _ => false

/-- The error only reports that an earlier one stopped the work. -/
def isAborted : CompileError → Bool
  | aborted _ => true
  | _ => false

end CompileError

end BlockScript
