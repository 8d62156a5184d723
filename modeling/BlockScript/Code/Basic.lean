import BlockScript.Constant
import BlockScript.Op.Basic
import BlockScript.Unit.Kind

/-!
# Code objects and programs

A code object is one compiled unit. Its line table lists the positions at which a
new source line begins; the line of a position is the one of the last entry that
is not after it. A program is a table of code objects, the script first, and the
constants that their operations refer to.
-/

namespace BlockScript

/-- A source line begins at this position. -/
structure LineEntry where
  ip : UInt32
  line : UInt32
deriving DecidableEq, Repr

/-- The lines of a code object in the order of their positions. -/
abbrev LineTable := Array LineEntry

namespace LineTable

/-- Halve the stretch `base, …, base + size - 1` until one entry is left: the last one
not after `ip`, or the first one. `rounds` only has to reach `size`. -/
def narrow (table : LineTable) (ip : UInt32) : (rounds base size : Nat) → Nat
  | 0, base, _ => base
  | rounds + 1, base, size =>
    if size ≤ 1 then base else
      let half := size / 2
      let middle := base + half
      let after := (table[middle]?).any (ip < ·.ip)
      narrow table ip rounds (if after then base else middle) (size - half)

/-- The line in effect at a position, if an entry lies at or before it. -/
def lineAt (table : LineTable) (ip : UInt32) : Option UInt32 :=
  let found := narrow table ip table.size 0 table.size
  match table[found]? with
  | none => none
  | some entry =>
    if entry.ip ≤ ip then some entry.line
    else if found = 0 then none
    else (table[found - 1]?).map (·.line)

end LineTable

/-- A compiled unit: the body of the script, of a method or of a block. -/
structure Code where
  name : String
  kind : UnitKind
  arity : UInt32 := 0
  /-- The size a frame starts with; frames grow on demand. -/
  localCount : UInt32 := 0
  /-- Variable names from the scope of a block. -/
  locals : List String := []
  ops : Array Op := #[]
  lines : LineTable := #[]
  maxStack : UInt32 := 0
deriving DecidableEq, Repr

namespace Code

/-- What stands in a slot of the code table until its unit is closed. -/
def placeholder : Code := { name := "", kind := .closure }

/-- The source line in effect at a position. -/
def lineFor (code : Code) (ip : Nat) : Option UInt32 := code.lines.lineAt ip.toUInt32

end Code

/-- A compiled program. The script body is the first code object. -/
structure Program where
  code : Array Code := #[]
  constants : Pool := .empty
deriving DecidableEq, Repr

namespace Program

/-- The program without code and constants. -/
def empty : Program := {}

/-- The code object at a position. -/
def code? (program : Program) (position : UInt32) : Option Code :=
  program.code[position.toNat]?

/-- The script body. -/
def main? (program : Program) : Option Code := program.code[0]?

/-- The position of the first code object of that name. -/
def find? (program : Program) (name : String) : Option Nat :=
  program.code.findIdx? (·.name == name)

/-- Claim the next slot of the code table. -/
def reserve : Program → UInt32 × Program
  | ⟨code, constants⟩ => (code.size.toUInt32, ⟨code.push .placeholder, constants⟩)

/-- Fill a slot that was claimed. -/
def install? (program : Program) (slot : UInt32) (code : Code) : Option Program :=
  if slot.toNat < program.code.size then
    some { program with code := program.code.setIfInBounds slot.toNat code }
  else none

/-- Give back a slot and every slot after it. -/
def release (slot : UInt32) : Program → Program
  | ⟨code, constants⟩ => ⟨code.take slot.toNat, constants⟩

end Program

end BlockScript
