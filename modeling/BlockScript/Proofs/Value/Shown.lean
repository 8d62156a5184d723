import BlockScript.Value.Equality
import BlockScript.Value.Render

/-!
# Blocks in the text of a value

A block is printed with the position of its code object. Nothing else in the text of a value
depends on the blocks of a heap, so a text in which no block is met is the same in a heap
whose blocks have their code objects elsewhere. Equality of values asks for the cell of a
block and never for its code.
-/

namespace BlockScript

/-- The heap with other blocks in it. -/
def Heap.withProcs (heap : Heap) (procs : Array Proc) : Heap := { heap with procs }

namespace Value

/-- A block is met while a value is shown inside the containers on the path. -/
def inspectMeetsProc (heap : Heap) : (depth : Nat) → (path : List Value) → Value → Bool
  | 0, _, _ => false
  | depth + 1, path, value =>
    match value with
    | proc _ => true
    | array cell =>
      value ∉ path && (heap.array cell).toList.any (inspectMeetsProc heap depth (value :: path))
    | object cell =>
      let obj := heap.object cell
      obj.className ≠ mainClass && value ∉ path &&
        obj.ivars.sorted.any fun (_, item) => inspectMeetsProc heap depth (value :: path) item
    | _ => false

/-- A block is met while a value is printed. -/
def displayMeetsProc (heap : Heap) (value : Value) : Bool :=
  match value with
  | proc _ => true
  | array _ => inspectMeetsProc heap (depthBound heap) [] value
  | _ => false

/-- A block is met while a value is printed on lines of its own. -/
def linesMeetProc (heap : Heap) : (depth : Nat) → (path : List Value) → Value → Bool
  | 0, _, _ => false
  | depth + 1, path, value =>
    match value with
    | array cell =>
      value ∉ path && (heap.array cell).toList.any (linesMeetProc heap depth (value :: path))
    | other => other.displayMeetsProc heap

end Value

/-- The ways in which a value becomes text. -/
inductive Rendering where
  | inspect
  | display
  | lines
deriving DecidableEq, Repr

namespace Rendering

/-- The text of a value. -/
def text (heap : Heap) : Rendering → Value → String
  | inspect, value => value.inspect heap
  | display, value => value.display heap
  | lines, value => value.lines heap

/-- The text of a value shows a block. -/
def showsProc (heap : Heap) : Rendering → Value → Bool
  | inspect, value => value.inspectMeetsProc heap (Value.depthBound heap) []
  | display, value => value.displayMeetsProc heap
  | lines, value => value.linesMeetProc heap (Value.depthBound heap) []

end Rendering

namespace Value

variable (heap : Heap) (procs : Array Proc)

theorem inspectInside_withProcs {depth : Nat} {path : List Value} {value : Value}
    (blind : inspectMeetsProc heap depth path value = false) :
    inspectInside (heap.withProcs procs) depth path value = inspectInside heap depth path value := by
  induction depth generalizing path value with
  | zero => rfl
  | succ depth ih =>
      cases value with
      | proc cell => cases blind
      | array cell =>
          by_cases seen : array cell ∈ path
          · simp only [inspectInside, if_pos seen]
          · have blind : ∀ item ∈ (heap.array cell).toList,
                inspectMeetsProc heap depth (array cell :: path) item = false := by
              simpa only [inspectMeetsProc, seen, not_false_eq_true, decide_true, Bool.true_and,
                List.any_eq_false, Bool.not_eq_true] using blind
            have parts : (heap.array cell).toList.map
                  (inspectInside (heap.withProcs procs) depth (array cell :: path)) =
                (heap.array cell).toList.map (inspectInside heap depth (array cell :: path)) :=
              List.map_congr_left fun item inside => ih (blind item inside)
            simp only [inspectInside, if_neg seen]
            exact congrArg (fun parts => "[" ++ ", ".intercalate parts ++ "]") parts
      | object cell =>
          have kept : (heap.withProcs procs).object cell = heap.object cell := rfl
          simp only [inspectInside, kept]
          by_cases main : (heap.object cell).className = mainClass
          · simp only [if_pos main]
          by_cases seen : object cell ∈ path
          · simp only [if_pos seen]
          have blind : ∀ entry ∈ (heap.object cell).ivars.sorted,
              inspectMeetsProc heap depth (object cell :: path) entry.2 = false := by
            simpa [inspectMeetsProc, main, seen] using blind
          have parts : ((heap.object cell).ivars.sorted.map fun (name, item) =>
                name ++ "=" ++ inspectInside (heap.withProcs procs) depth (object cell :: path) item) =
              (heap.object cell).ivars.sorted.map fun (name, item) =>
                name ++ "=" ++ inspectInside heap depth (object cell :: path) item :=
            List.map_congr_left fun entry inside =>
              congrArg (entry.1 ++ "=" ++ ·) (ih (blind entry inside))
          simp only [parts]
      | _ => rfl

theorem display_withProcs {value : Value} (blind : displayMeetsProc heap value = false) :
    value.display (heap.withProcs procs) = value.display heap := by
  cases value with
  | proc cell => cases blind
  | array cell => exact inspectInside_withProcs heap procs blind
  | _ => rfl

theorem linesInside_withProcs {depth : Nat} {path : List Value} {value : Value}
    (blind : linesMeetProc heap depth path value = false) :
    linesInside (heap.withProcs procs) depth path value = linesInside heap depth path value := by
  induction depth generalizing path value with
  | zero => rfl
  | succ depth ih =>
      cases value with
      | array cell =>
          have kept : (heap.withProcs procs).array cell = heap.array cell := rfl
          simp only [linesInside, kept]
          by_cases seen : array cell ∈ path
          · simp only [if_pos seen]
          have blind : ∀ item ∈ (heap.array cell).toList,
              linesMeetProc heap depth (array cell :: path) item = false := by
            simpa only [linesMeetProc, seen, not_false_eq_true, decide_true, Bool.true_and,
              List.any_eq_false, Bool.not_eq_true] using blind
          have parts : (heap.array cell).toList.map
                (linesInside (heap.withProcs procs) depth (array cell :: path)) =
              (heap.array cell).toList.map (linesInside heap depth (array cell :: path)) :=
            List.map_congr_left fun item inside => ih (blind item inside)
          simp only [if_neg seen, parts]
      | proc cell => cases blind
      | _ => rfl

theorem leafEquals_withProcs : leafEquals (heap.withProcs procs) = leafEquals heap := rfl

theorem equalsInside_withProcs (depth : Nat) :
    equalsInside (heap.withProcs procs) depth = equalsInside heap depth := by
  induction depth with
  | zero => rfl
  | succ depth ih =>
      funext pairs a b
      have kept (cell : Ref .array) : (heap.withProcs procs).array cell = heap.array cell := rfl
      cases a <;> cases b <;> simp only [equalsInside, kept, ih, leafEquals_withProcs]

/-- Equality of values does not look at the code of blocks. -/
@[simp] theorem equals_withProcs : equals (heap.withProcs procs) = equals heap := by
  funext a b
  exact congrFun (congrFun (congrFun (equalsInside_withProcs heap procs _) []) a) b

@[simp] theorem className_withProcs : className (heap.withProcs procs) = className heap := rfl

end Value

/-! ## What is met -/

section Met

variable (heap : Heap) (procs : Array Proc)

theorem Value.inspectMeetsProc_withProcs (depth : Nat) :
    inspectMeetsProc (heap.withProcs procs) depth = inspectMeetsProc heap depth := by
  induction depth with
  | zero => rfl
  | succ depth ih =>
      have array (cell : Ref .array) : (heap.withProcs procs).array cell = heap.array cell := rfl
      have object (cell : Ref .object) : (heap.withProcs procs).object cell = heap.object cell := rfl
      funext path value
      cases value <;> simp only [inspectMeetsProc, array, object, ih]

theorem Value.displayMeetsProc_withProcs :
    displayMeetsProc (heap.withProcs procs) = displayMeetsProc heap := by
  funext value
  cases value with
  | array cell => exact congrFun (congrFun (inspectMeetsProc_withProcs heap procs _) []) _
  | _ => rfl

theorem Value.linesMeetProc_withProcs (depth : Nat) :
    linesMeetProc (heap.withProcs procs) depth = linesMeetProc heap depth := by
  induction depth with
  | zero => rfl
  | succ depth ih =>
      have array (cell : Ref .array) : (heap.withProcs procs).array cell = heap.array cell := rfl
      funext path value
      cases value <;> simp only [linesMeetProc, array, ih, displayMeetsProc_withProcs]

/-- Whether a block is met does not depend on the blocks. -/
theorem Rendering.showsProc_withProcs (rendering : Rendering) :
    rendering.showsProc (heap.withProcs procs) = rendering.showsProc heap := by
  funext value
  cases rendering with
  | inspect => exact congrFun (congrFun (Value.inspectMeetsProc_withProcs heap procs _) []) value
  | display => exact congrFun (Value.displayMeetsProc_withProcs heap procs) value
  | lines => exact congrFun (congrFun (Value.linesMeetProc_withProcs heap procs _) []) value

end Met

/-- A text that shows no block does not depend on where the code of blocks is. -/
theorem Rendering.text_withProcs (heap : Heap) (procs : Array Proc) {rendering : Rendering}
    {value : Value} (blind : rendering.showsProc heap value = false) :
    rendering.text (heap.withProcs procs) value = rendering.text heap value := by
  cases rendering with
  | inspect => exact Value.inspectInside_withProcs heap procs blind
  | display => exact Value.display_withProcs heap procs blind
  | lines => exact Value.linesInside_withProcs heap procs blind

end BlockScript
