import BlockScript.Code.Basic
import BlockScript.Text.Layout
import BlockScript.Text.Quoted

/-!
# Program listings

A program as text, one operation to a line. Operands are resolved through the
constant pool, source lines are marked where they begin, and the target of every
jump carries a mark.
-/

namespace BlockScript.Listing

open Text

/-- The constant at a position as an operand shows it. -/
def constantText (pool : Pool) (position : UInt32) : String :=
  match pool.get? position with
  | some (.name s) => s
  | some (.string s) => quote s
  | some (.symbol s) => ":" ++ s
  | some (.bignum n) => toString n
  | none => "<bad constant " ++ toString position.toNat ++ ">"

/-- A jump with its offset, its direction and its target. -/
def jumpText (mnemonic : String) (offset : Int32) (ip : Nat) : String :=
  padRight 11 mnemonic ++ " " ++ signed offset.toInt ++ (if offset < 0 then " ↑" else " ↓") ++
    " (→ " ++ zeroPad 4 (ip + offset.toInt) ++ ")"

/-- The word that names an operation in listings. -/
def mnemonic : Op → String
  | .pushNil => "PUSH_NIL"
  | .pushTrue => "PUSH_TRUE"
  | .pushFalse => "PUSH_FALSE"
  | .pushSelf => "PUSH_SELF"
  | .pushFixnum _ => "PUSH_FIXNUM"
  | .pushBignum _ => "PUSH_BIGNUM"
  | .pushString _ => "PUSH_STRING"
  | .pushSymbol _ => "PUSH_SYMBOL"
  | .pop => "POP"
  | .dup => "DUP"
  | .getLocal _ => "GET_LOCAL"
  | .setLocal _ => "SET_LOCAL"
  | .getOuter _ _ => "GET_OUTER"
  | .setOuter _ _ => "SET_OUTER"
  | .getIvar _ => "GET_IVAR"
  | .setIvar _ => "SET_IVAR"
  | .getGlobal _ => "GET_GLOBAL"
  | .setGlobal _ => "SET_GLOBAL"
  | .getConst _ => "GET_CONST"
  | .setConst _ => "SET_CONST"
  | .makeArray _ => "MAKE_ARRAY"
  | .toArray => "TO_ARRAY"
  | .send _ _ _ _ => "SEND"
  | .yield _ => "YIELD"
  | .makeClosure _ => "MAKE_CLOSURE"
  | .defineMethod _ _ => "DEFINE"
  | .aliasMethod _ _ => "ALIAS"
  | .not => "NOT"
  | .jump _ => "JUMP"
  | .jumpIfFalse _ => "JUMP_FALSE"
  | .jumpIfTrue _ => "JUMP_TRUE"
  | .ret => "RETURN"

/-- One operation with its operands. -/
def opText (pool : Pool) (ip : Nat) (op : Op) : String :=
  let word := mnemonic op
  let column := padRight 12 word
  let constant := constantText pool
  let number (n : UInt32) := toString n.toNat
  match op with
  | .pushFixnum value => word ++ " " ++ toString value.toInt
  | .pushBignum c | .pushString c | .pushSymbol c => word ++ " " ++ constant c
  | .getLocal i | .setLocal i => column ++ number i
  | .getOuter i depth | .setOuter i depth => column ++ number i ++ " ^" ++ number depth
  | .getIvar c | .setIvar c | .getGlobal c | .setGlobal c | .getConst c | .setConst c =>
      column ++ constant c
  | .makeArray count =>
      column ++ number count ++ "          ; ( x1..x" ++ number count ++ " -- aggregate )"
  | .send name argc receiver block =>
      column ++ constant name ++ " argc=" ++ number argc ++ (if receiver then "" else " (self)") ++
        block.elim "" (" &code[" ++ number · ++ "]")
  | .yield argc => column ++ "argc=" ++ number argc
  | .makeClosure code => word ++ " code[" ++ number code ++ "]"
  | .defineMethod name code => column ++ constant name ++ " = code[" ++ number code ++ "]"
  | .aliasMethod newName oldName => column ++ constant newName ++ " " ++ constant oldName
  | .jump offset | .jumpIfFalse offset | .jumpIfTrue offset => jumpText word offset ip
  | _ => word

/-- The positions that jumps lead to, inside the code or not. -/
def jumpTargets (ops : Array Op) : List Int :=
  ops.toList.zipIdx.filterMap fun (op, ip) => op.jumpOffset?.map fun offset => ip + offset.toInt

/-- The lines of one operation: the source lines that begin here, a rule above a jump
target, and the operation itself. -/
def entry (pool : Pool) (targets : List Int) (lines : List LineEntry) (ip : Nat) (op : Op) :
    List String :=
  let target := targets.contains (ip : Int)
  lines.map (fun l => "      ; line " ++ toString l.line.toNat) ++
    (if target then ["      ┌──────────────────────────────────"] else []) ++
    [zeroPad 4 ip ++ " " ++ (if target then "► " else "  ") ++ opText pool ip op]

/-- List operations from a position on. The line entries not yet shown come along; those
at or before the position are due. -/
def entries (pool : Pool) (targets : List Int) :
    (ip : Nat) → List LineEntry → List Op → List String
  | _, _, [] => []
  | ip, lines, op :: rest =>
    let isDue (l : LineEntry) : Bool := l.ip.toNat ≤ ip
    entry pool targets (lines.takeWhile isDue) ip op ++
      entries pool targets (ip + 1) (lines.dropWhile isDue) rest

/-- The operations of a code object. -/
def codeText (pool : Pool) (code : Code) : String :=
  unlines (entries pool (jumpTargets code.ops) 0 code.lines.toList code.ops.toList)

/-- The heading of a code object. -/
def heading (position : Nat) (code : Code) : String :=
  let rule := "════════════════════════════════════════"
  unlines <|
    [rule, " code[" ++ toString position ++ "] " ++ code.kind.describe code.name,
      " arity " ++ toString code.arity.toNat ++ ", " ++ toString code.localCount.toNat ++
        " locals, max stack " ++ toString code.maxStack.toNat ++ ", " ++
        toString code.ops.size ++ " instructions"] ++
    (if code.locals.isEmpty then [] else [" locals: " ++ ", ".intercalate code.locals]) ++
    [rule]

/-- The whole program, every code object in table order. -/
def programText (program : Program) : String :=
  "=== BYTECODE PROGRAM ===\n\n" ++ String.join (program.code.toList.zipIdx.map
    fun (code, position) => heading position code ++ codeText program.constants code ++ "\n")

end BlockScript.Listing
