import BlockScript.Op.Basic

/-!
# Operations as text

The form in which diagnostics quote an operation: its name and, in parentheses or
braces, its operands.
-/

namespace BlockScript.Op

/-- Named operands in braces. -/
def fields (name : String) (operands : List (String × String)) : String :=
  name ++ " \x7b " ++ ", ".intercalate (operands.map fun (n, v) => n ++ ": " ++ v) ++ " \x7d"

/-- One operand in parentheses. -/
def operand (name value : String) : String := name ++ "(" ++ value ++ ")"

/-- A position in a table as an operand. -/
def index (n : UInt32) : String := toString n.toNat

/-- The block operand of a call. -/
def blockText : Option UInt32 → String
  | none => "None"
  | some code => operand "Some" (index code)

/-- The operation with its operands. -/
def text : Op → String
  | pushNil => "PushNil"
  | pushTrue => "PushTrue"
  | pushFalse => "PushFalse"
  | pushSelf => "PushSelf"
  | pushFixnum value => operand "PushFixnum" (toString value.toInt)
  | pushBignum constant => operand "PushBignum" (index constant)
  | pushString constant => operand "PushString" (index constant)
  | pushSymbol constant => operand "PushSymbol" (index constant)
  | pop => "Pop"
  | dup => "Dup"
  | getLocal i => operand "GetLocal" (index i)
  | setLocal i => operand "SetLocal" (index i)
  | getOuter i depth => fields "GetOuter" [("index", index i), ("depth", index depth)]
  | setOuter i depth => fields "SetOuter" [("index", index i), ("depth", index depth)]
  | getIvar name => operand "GetIvar" (index name)
  | setIvar name => operand "SetIvar" (index name)
  | getGlobal name => operand "GetGlobal" (index name)
  | setGlobal name => operand "SetGlobal" (index name)
  | getConst name => operand "GetConst" (index name)
  | setConst name => operand "SetConst" (index name)
  | makeArray count => operand "MakeArray" (index count)
  | toArray => "ToArray"
  | send name argc receiver block => fields "Send"
      [("name", index name), ("argc", index argc), ("receiver", toString receiver),
        ("block", blockText block)]
  | yield argc => fields "Yield" [("argc", index argc)]
  | makeClosure code => operand "MakeClosure" (index code)
  | defineMethod name code => fields "DefineMethod" [("name", index name), ("code", index code)]
  | aliasMethod newName oldName =>
      fields "Alias" [("new_name", index newName), ("old_name", index oldName)]
  | not => "Not"
  | jump offset => operand "Jump" (toString offset.toInt)
  | jumpIfFalse offset => operand "JumpIfFalse" (toString offset.toInt)
  | jumpIfTrue offset => operand "JumpIfTrue" (toString offset.toInt)
  | ret => "Return"

end BlockScript.Op
