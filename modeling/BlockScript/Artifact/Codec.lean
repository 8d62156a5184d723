import BlockScript.Artifact.Wire
import BlockScript.Code.Basic

/-!
# Program artifacts

The byte form of a program: its code objects, then its constants. Every variant is
written as a tag, counted from zero in the order of its declaration, and its
operands follow in order. Bytes after the last constant are not read.
-/

namespace BlockScript.Artifact

open Wire

/-- Write a tag and the operands after it. -/
def tagged (tag : Nat) (operands : Bytes := []) : Bytes := word.write tag.toUInt32 ++ operands

/-- The kinds of units. -/
def unitKind : Wire UnitKind where
  write
    | .script => tagged 0
    | .method => tagged 1
    | .closure => tagged 2
  read := do
    match (← word.read).toNat with
    | 0 => return .script
    | 1 => return .method
    | 2 => return .closure
    | _ => throw .badTag

/-- Write one operation. -/
def writeOp : Op → Bytes
  | .pushNil => tagged 0
  | .pushTrue => tagged 1
  | .pushFalse => tagged 2
  | .pushSelf => tagged 3
  | .pushFixnum value => tagged 4 (int64.write value)
  | .pushBignum constant => tagged 5 (word.write constant)
  | .pushString constant => tagged 6 (word.write constant)
  | .pushSymbol constant => tagged 7 (word.write constant)
  | .pop => tagged 8
  | .dup => tagged 9
  | .getLocal index => tagged 10 (word.write index)
  | .setLocal index => tagged 11 (word.write index)
  | .getOuter index depth => tagged 12 (word.write index ++ word.write depth)
  | .setOuter index depth => tagged 13 (word.write index ++ word.write depth)
  | .getIvar name => tagged 14 (word.write name)
  | .setIvar name => tagged 15 (word.write name)
  | .getGlobal name => tagged 16 (word.write name)
  | .setGlobal name => tagged 17 (word.write name)
  | .getConst name => tagged 18 (word.write name)
  | .setConst name => tagged 19 (word.write name)
  | .makeArray count => tagged 20 (word.write count)
  | .toArray => tagged 21
  | .send name argc receiver block => tagged 22
      (word.write name ++ word.write argc ++ bool.write receiver ++ (option word).write block)
  | .yield argc => tagged 23 (word.write argc)
  | .makeClosure code => tagged 24 (word.write code)
  | .defineMethod name code => tagged 25 (word.write name ++ word.write code)
  | .aliasMethod newName oldName => tagged 26 (word.write newName ++ word.write oldName)
  | .not => tagged 27
  | .jump offset => tagged 28 (int32.write offset)
  | .jumpIfFalse offset => tagged 29 (int32.write offset)
  | .jumpIfTrue offset => tagged 30 (int32.write offset)
  | .ret => tagged 31

/-- Read one operation. -/
def readOp : Reader Op := do
  match (← word.read).toNat with
  | 0 => return .pushNil
  | 1 => return .pushTrue
  | 2 => return .pushFalse
  | 3 => return .pushSelf
  | 4 => return .pushFixnum (← int64.read)
  | 5 => return .pushBignum (← word.read)
  | 6 => return .pushString (← word.read)
  | 7 => return .pushSymbol (← word.read)
  | 8 => return .pop
  | 9 => return .dup
  | 10 => return .getLocal (← word.read)
  | 11 => return .setLocal (← word.read)
  | 12 => return .getOuter (← word.read) (← word.read)
  | 13 => return .setOuter (← word.read) (← word.read)
  | 14 => return .getIvar (← word.read)
  | 15 => return .setIvar (← word.read)
  | 16 => return .getGlobal (← word.read)
  | 17 => return .setGlobal (← word.read)
  | 18 => return .getConst (← word.read)
  | 19 => return .setConst (← word.read)
  | 20 => return .makeArray (← word.read)
  | 21 => return .toArray
  | 22 => return .send (← word.read) (← word.read) (← bool.read) (← (option word).read)
  | 23 => return .yield (← word.read)
  | 24 => return .makeClosure (← word.read)
  | 25 => return .defineMethod (← word.read) (← word.read)
  | 26 => return .aliasMethod (← word.read) (← word.read)
  | 27 => return .not
  | 28 => return .jump (← int32.read)
  | 29 => return .jumpIfFalse (← int32.read)
  | 30 => return .jumpIfTrue (← int32.read)
  | 31 => return .ret
  | _ => throw .badTag

/-- The operations. -/
def op : Wire Op := ⟨writeOp, readOp⟩

/-- The constants. -/
def constant : Wire Constant where
  write
    | .name s => tagged 0 (text.write s)
    | .string s => tagged 1 (text.write s)
    | .symbol s => tagged 2 (text.write s)
    | .bignum n => tagged 3 (integer.write n)
  read := do
    match (← word.read).toNat with
    | 0 => return .name (← text.read)
    | 1 => return .string (← text.read)
    | 2 => return .symbol (← text.read)
    | 3 => return .bignum (← integer.read)
    | _ => throw .badTag

/-- The entries of a line table: a position and its line. -/
def lineEntry : Wire LineEntry where
  write entry := word.write entry.ip ++ word.write entry.line
  read := return ⟨← word.read, ← word.read⟩

/-- The code objects, field by field. -/
def code : Wire Code where
  write c :=
    text.write c.name ++ unitKind.write c.kind ++ word.write c.arity ++
      word.write c.localCount ++ text.list.write c.locals ++ op.array.write c.ops ++
      lineEntry.array.write c.lines ++ word.write c.maxStack
  read := return {
    name := ← text.read
    kind := ← unitKind.read
    arity := ← word.read
    localCount := ← word.read
    locals := ← text.list.read
    ops := ← op.array.read
    lines := ← lineEntry.array.read
    maxStack := ← word.read }

/-- Whole programs. -/
def program : Wire Program where
  write p := code.array.write p.code ++ constant.array.write p.constants.entries
  read := return { code := ← code.array.read, constants := ⟨← constant.array.read⟩ }

end BlockScript.Artifact

namespace BlockScript

open Artifact in
/-- The bytes of a program. -/
def Program.toBytes (p : Program) : Bytes := program.write p

open Artifact in
/-- The program at the front of the bytes. -/
def Program.ofBytes? (bytes : Bytes) : Except DecodeFault Program :=
  (program.read bytes).map (·.1)

/-- The program at the front of the bytes, with an unreadable artifact reported as an
error of code generation. -/
def Program.ofBytes (bytes : Artifact.Bytes) : Except CompileError Program :=
  (Program.ofBytes? bytes).mapError fun fault => .artifact fault.message

end BlockScript
