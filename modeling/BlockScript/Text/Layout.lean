/-!
# Text in columns

Padding of words and numbers to a least width, as listings need it. Text that is
already wide enough is left alone. A padded number keeps its sign in front of the
zeros and counts it towards the width.
-/

namespace BlockScript.Text

/-- Blanks after the text up to the width. -/
def padRight (width : Nat) (text : String) : String :=
  text ++ String.ofList (List.replicate (width - text.length) ' ')

/-- Blanks before the text up to the width. -/
def padLeft (width : Nat) (text : String) : String :=
  String.ofList (List.replicate (width - text.length) ' ') ++ text

/-- A number with zeros after its sign up to the width. -/
def zeroPad (width : Nat) (n : Int) : String :=
  let sign := if n < 0 then "-" else ""
  let digits := toString n.natAbs
  sign ++ String.ofList (List.replicate (width - sign.length - digits.length) '0') ++ digits

/-- A number that always shows its sign. -/
def signed (n : Int) : String :=
  if n < 0 then toString n else "+" ++ toString n

/-- The texts one after the other, each closed by a line feed. -/
def unlines (lines : List String) : String :=
  String.join (lines.map (· ++ "\n"))

end BlockScript.Text
