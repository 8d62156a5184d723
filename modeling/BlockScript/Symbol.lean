/-!
# Symbols

A symbol table gives every name one symbol, numbered in the order of first use.
Numbers have 32 bits: what is entered after 2^32 names gets a number that was
given out before, and to look such a name up finds the entry with that number.
Symbols are compared by number alone, so symbols of two tables may be equal by
accident; identity also asks for the entry.
-/

namespace BlockScript

/-- An interned name. -/
structure Symbol where
  /-- The table that issued the symbol. -/
  table : Nat
  number : UInt32
  name : String
deriving DecidableEq, Repr

namespace Symbol

/-- The number as it is shown. -/
def id (symbol : Symbol) : Nat := symbol.number.toNat

/-- Equality of symbols as values. -/
def eqv (a b : Symbol) : Bool := a.number = b.number

/-- The same entry of the same table. -/
def same (a b : Symbol) : Bool := a.number = b.number && a.table = b.table && a.name = b.name

end Symbol

/-- The names interned so far, in the order in which they were entered. -/
structure SymbolTable where
  /-- Tells this table from every other one. -/
  identity : Nat := 0
  names : Array String := #[]
deriving DecidableEq, Repr

namespace SymbolTable

/-- The number of symbols. -/
def size (table : SymbolTable) : Nat := table.names.size

/-- The symbol that was entered under a number first. -/
def symbol? (table : SymbolTable) (number : UInt32) : Option Symbol :=
  table.names[number.toNat]?.map (⟨table.identity, number, ·⟩)

/-- The symbol of a name that is already interned: the one with the number of the name's entry. -/
def lookup? (table : SymbolTable) (name : String) : Option Symbol :=
  (table.names.findIdx? (· == name)).bind fun position => table.symbol? position.toUInt32

/-- The symbol of a name, which joins the table if it is new. -/
def intern (table : SymbolTable) (name : String) : Symbol × SymbolTable :=
  match table.lookup? name with
  | some symbol => (symbol, table)
  | none =>
    (⟨table.identity, table.size.toUInt32, name⟩, { table with names := table.names.push name })

end SymbolTable

end BlockScript
