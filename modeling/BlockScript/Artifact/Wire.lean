/-!
# Wire formats

How values are laid out as bytes. A format pairs a writer with a reader that takes
its value off the front of the remaining bytes, so formats compose and a reader
never looks past its own value. Lengths and tags are numbers in groups of seven
bits, least significant first; every byte but the last of a number has its top bit
set. Signed numbers are folded so that small magnitudes stay short.
-/

namespace BlockScript.Artifact

/-- A sequence of bytes. -/
abbrev Bytes := List UInt8

/-- The first thing that is wrong with an artifact, read from the front. -/
inductive DecodeFault where
  | endOfInput
  /-- A number with too many groups, or too large for its width. -/
  | badNumber
  | badBool
  | badOption
  | badText
  /-- A tag or sign that no value has. -/
  | badTag
deriving DecidableEq, Repr

/-- The fault in words. -/
def DecodeFault.message : DecodeFault → String
  | .endOfInput => "Hit the end of buffer, expected more data"
  | .badNumber =>
      "Found a varint that didn't terminate. Is the usize too big for this platform?"
  | .badBool => "Found a bool that wasn't 0 or 1"
  | .badOption => "Found an Option discriminant that wasn't 0 or 1"
  | .badText => "Tried to parse invalid utf-8"
  | .badTag => "Serde Deserialization Error"

/-- A reader takes a value off the front of the remaining bytes. -/
abbrev Reader := StateT Bytes (Except DecodeFault)

/-- How values of a type are written and read. -/
structure Wire (α : Type) where
  write : α → Bytes
  read : Reader α

namespace Wire

/-- Take one byte. -/
def readByte : Reader UInt8 := fun
  | [] => .error .endOfInput
  | byte :: rest => .ok (byte, rest)

/-- Take a stretch of bytes. -/
def readBytes (count : Nat) : Reader Bytes := fun input =>
  if count ≤ input.length then .ok (input.splitAt count) else .error .endOfInput

/-- One byte as it is. -/
def byte : Wire UInt8 := ⟨fun b => [b], readByte⟩

/-- A number in at most `groups` groups of seven bits. -/
def writeGroups : (groups : Nat) → Nat → Bytes
  | 0, _ => []
  | groups + 1, n =>
    if n < 128 then [n.toUInt8] else (n % 128 + 128).toUInt8 :: writeGroups groups (n / 128)

/-- Read a number in at most `groups` groups. The top group may not exceed `topGroup` if
all groups are used. -/
def readGroups (topGroup : Nat) : (groups : Nat) → Reader Nat
  | 0 => throw .badNumber
  | groups + 1 => do
    let byte ← readByte
    let n := byte.toNat
    if n < 128 then
      if groups = 0 ∧ topGroup < n then throw .badNumber else return n
    else return n - 128 + 128 * (← readGroups topGroup groups)

/-- A 32-bit number. -/
def word : Wire UInt32 where
  write n := writeGroups 5 n.toNat
  read := return (← readGroups 15 5).toUInt32

/-- A length, below 2 to the 64. -/
def length : Wire Nat := ⟨writeGroups 10, readGroups 1 10⟩

/-- Signed numbers in the order 0, -1, 1, -2, 2, …. -/
def fold (n : Int) : Nat := if 0 ≤ n then 2 * n.toNat else 2 * n.natAbs - 1

/-- The signed number at a place of that order. -/
def unfold (n : Nat) : Int := if n % 2 = 0 then (n / 2 : Nat) else -((n / 2 : Nat) + 1)

/-- A signed 32-bit number. -/
def int32 : Wire Int32 where
  write n := writeGroups 5 (fold n.toInt)
  read := return Int32.ofInt (unfold (← readGroups 15 5))

/-- A signed 64-bit number. -/
def int64 : Wire Int64 where
  write n := writeGroups 10 (fold n.toInt)
  read := return Int64.ofInt (unfold (← readGroups 1 10))

/-- A truth value as the byte 0 or 1. -/
def bool : Wire Bool where
  write b := [if b then 1 else 0]
  read := do
    match ← readByte with
    | 0 => return false
    | 1 => return true
    | _ => throw .badBool

/-- An absent value as the byte 0, a present one after the byte 1. -/
def option {α : Type} (wire : Wire α) : Wire (Option α) where
  write
    | none => [0]
    | some value => 1 :: wire.write value
  read := do
    match ← readByte with
    | 0 => return none
    | 1 => return some (← wire.read)
    | _ => throw .badOption

/-- Read several values in a row. -/
def readMany {α : Type} (read : Reader α) : Nat → Reader (List α)
  | 0 => return []
  | count + 1 => do
    let head ← read
    return head :: (← readMany read count)

/-- A list after its length. -/
def list {α : Type} (wire : Wire α) : Wire (List α) where
  write values := length.write values.length ++ values.flatMap wire.write
  read := do readMany wire.read (← length.read)

/-- An array after its size. -/
def array {α : Type} (wire : Wire α) : Wire (Array α) where
  write values := wire.list.write values.toList
  read := return (← wire.list.read).toArray

/-- Text in UTF-8 after the number of its bytes. -/
def text : Wire String where
  write s := length.write s.utf8ByteSize ++ s.toUTF8.toList
  read := do
    let bytes ← readBytes (← length.read)
    match String.fromUTF8? ⟨bytes.toArray⟩ with
    | some s => return s
    | none => throw .badText

/-- The digits of a natural number to base 2 to the 32, least significant first and
without leading zeros. -/
def digits : (rounds : Nat) → Nat → List UInt32
  | 0, _ => []
  | rounds + 1, n => if n = 0 then [] else n.toUInt32 :: digits rounds (n / 0x100000000)

/-- The natural number with these digits. -/
def ofDigits : List UInt32 → Nat
  | [] => 0
  | d :: rest => d.toNat + 0x100000000 * ofDigits rest

/-- An integer of any size: its sign as one byte, then the digits of its magnitude. -/
def integer : Wire Int where
  write n :=
    (if n < 0 then 255 else if n = 0 then 0 else 1) ::
      word.list.write (digits (n.natAbs.log2 / 32 + 1) n.natAbs)
  read := do
    let sign : Int ← match ← readByte with
      | 255 => pure (-1)
      | 0 => pure 0
      | 1 => pure 1
      | _ => throw .badTag
    return sign * ofDigits (← word.list.read)

end Wire

end BlockScript.Artifact
