/-!
# Static scopes

The variables of one scope, as name resolution found them. Code generation takes
from a scope the size of a block's frame and the names for a listing; it never
looks for free variables itself.
-/

namespace BlockScript

/-- What owns the frame of a scope. -/
inductive ScopeKind where
  /-- A method or script body, with a fresh frame. -/
  | «local»
  /-- A block body, whose frame can reach the one around it. -/
  | block
deriving DecidableEq, Repr

/-- A scope and its variables in slot order. -/
structure StaticScope where
  kind : ScopeKind
  names : List String
deriving DecidableEq, Repr

namespace StaticScope

/-- The scope of a block with these variables. -/
def ofBlock (names : List String) : StaticScope := ⟨.block, names⟩

/-- The scope of a body with these variables. -/
def ofBody (names : List String) : StaticScope := ⟨.local, names⟩

/-- The number of variables. -/
def size (scope : StaticScope) : Nat := scope.names.length

/-- The slot of the first variable of that name. -/
def indexOf? (scope : StaticScope) (name : String) : Option Nat :=
  scope.names.findIdx? (· == name)

end StaticScope

/-- A place in a source file. Lines are counted from 1. -/
structure Position where
  file : String
  line : UInt32
deriving DecidableEq, Repr

/-- The file, a colon and the line. -/
def Position.text (position : Position) : String :=
  position.file ++ ":" ++ toString position.line.toNat

end BlockScript
