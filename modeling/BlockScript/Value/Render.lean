import BlockScript.Text.Quoted
import BlockScript.Value.Basic

/-!
# Values as text

`inspect` shows a value to a programmer, `display` prints it. Both end on cyclic
values: a container that is met again inside itself is abbreviated, while one that
is merely shared is shown in full wherever it occurs. The path of open containers
never holds one twice, so it is no longer than the number of cells, and that number
bounds the depth of the recursion.
-/

namespace BlockScript.Value

/-- The text of a value that is not made of other values. -/
def leafText (heap : Heap) : Value → String
  | nil => ""
  | bool b => toString b
  | fixnum n => toString n.toInt
  | bignum n _ => toString n
  | string cell => heap.string cell
  | symbol s => s.name
  | proc cell => "#<Proc:code[" ++ toString ((heap.proc? cell).elim 0 (·.code.toNat)) ++ "]>"
  | classRef name => name
  | array _ | object _ => ""

/-- The class of the top-level object, which is shown by that name alone. -/
def mainClass : String := "main"

/-- Show a value inside the containers on the path. -/
def inspectInside (heap : Heap) : (depth : Nat) → (path : List Value) → Value → String
  | 0, _, _ => ""
  | depth + 1, path, value =>
    match value with
    | nil => "nil"
    | string cell => Text.quote (heap.string cell)
    | symbol s => ":" ++ s.name
    | array cell =>
      if value ∈ path then "[...]" else
        let parts := (heap.array cell).toList.map (inspectInside heap depth (value :: path))
        "[" ++ ", ".intercalate parts ++ "]"
    | object cell =>
      let obj := heap.object cell
      if obj.className = mainClass then mainClass
      else if obj.ivars.entries.isEmpty then "#<" ++ obj.className ++ ">"
      else if value ∈ path then "#<" ++ obj.className ++ " ...>"
      else
        let parts := obj.ivars.sorted.map fun (name, item) =>
          name ++ "=" ++ inspectInside heap depth (value :: path) item
        "#<" ++ obj.className ++ " " ++ ", ".intercalate parts ++ ">"
    | other => other.leafText heap

/-- One more than the number of containers: no path is longer. -/
def depthBound (heap : Heap) : Nat := heap.arrays.size + heap.objects.size + 2

/-- A value as a programmer sees it. -/
def inspect (heap : Heap) (value : Value) : String :=
  inspectInside heap (depthBound heap) [] value

/-- A value as it is printed. -/
def display (heap : Heap) (value : Value) : String :=
  match value with
  | array _ => value.inspect heap
  | object cell =>
    let name := (heap.object cell).className
    if name = mainClass then mainClass else "#<" ++ name ++ ">"
  | other => other.leafText heap

/-- The lines that printing a value gives, each with its line feed. The elements of an
array stand on lines of their own, an empty array makes an empty line, and text that
ends a line gets no second line feed. -/
def linesInside (heap : Heap) : (depth : Nat) → (path : List Value) → Value → String
  | 0, _, _ => ""
  | depth + 1, path, value =>
    match value with
    | array cell =>
      if value ∈ path then "[...]\n" else
        let items := (heap.array cell).toList
        if items.isEmpty then "\n"
        else String.join (items.map (linesInside heap depth (value :: path)))
    | other =>
      let text := other.display heap
      if text.endsWith "\n" then text else text ++ "\n"

/-- The lines that printing a value gives. -/
def lines (heap : Heap) (value : Value) : String :=
  linesInside heap (depthBound heap) [] value

end BlockScript.Value
