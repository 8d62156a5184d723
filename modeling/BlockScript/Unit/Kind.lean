/-!
# Kinds of compilation units

A unit is a body that is compiled on its own: the script, a method or a block.
-/

namespace BlockScript

/-- What a unit is the body of. -/
inductive UnitKind where
  | script
  | method
  | closure
deriving DecidableEq, Repr

/-- The kind as it is named in messages and listings. -/
def UnitKind.text : UnitKind → String
  | .script => "script"
  | .method => "method"
  | .closure => "closure"

/-- A unit as messages refer to it: its kind and its name in quotes. -/
def UnitKind.describe (kind : UnitKind) (name : String) : String :=
  kind.text ++ " `" ++ name ++ "`"

end BlockScript
