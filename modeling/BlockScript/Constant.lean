import BlockScript.Error.Compile

/-!
# Constants and the constant pool

Names and literals that operations refer to by position. Interning a constant that
the pool holds already gives its position again, so a pool that only grew by
interning has no duplicates. A pool that was read from an artifact may have some;
then the last position counts.
-/

namespace BlockScript

/-- A pooled name or literal. -/
inductive Constant where
  /-- The name of a method, variable or constant. -/
  | name (text : String)
  | string (text : String)
  | symbol (text : String)
  | bignum (value : Int)
deriving DecidableEq, Repr

/-- The text of a constant that has one. -/
def Constant.text? : Constant → Option String
  | name text | string text | symbol text => some text
  | bignum _ => none

/-- The constants of a program, referred to by position. -/
structure Pool where
  entries : Array Constant := #[]
deriving DecidableEq, Repr

namespace Pool

/-- The pool without entries. -/
def empty : Pool := ⟨#[]⟩

/-- The number of entries. -/
def size (pool : Pool) : Nat := pool.entries.size

/-- The constant at a position. -/
def get? (pool : Pool) (position : UInt32) : Option Constant := pool.entries[position.toNat]?

/-- The text of the constant at a position. -/
def text? (pool : Pool) (position : UInt32) : Option String :=
  (pool.get? position).bind Constant.text?

/-- The last position below `bound` that holds the constant. -/
def lastBelow (entries : Array Constant) (constant : Constant) : Nat → Option Nat
  | 0 => none
  | bound + 1 =>
    if entries[bound]? = some constant then some bound else lastBelow entries constant bound

/-- The position that interning the constant would give. -/
def find? (pool : Pool) (constant : Constant) : Option Nat :=
  lastBelow pool.entries constant pool.size

/-- The position of a constant, which joins the pool if it is new and the pool has
fewer entries than the limit. -/
def intern (pool : Pool) (constant : Constant) (limit : Nat) :
    Except CompileError (UInt32 × Pool) :=
  match pool.find? constant with
  | some position => .ok (position.toUInt32, pool)
  | none =>
    if pool.size < limit then .ok (pool.size.toUInt32, ⟨pool.entries.push constant⟩)
    else .error (.exhausted .constantPool limit)

end Pool

end BlockScript
