import BlockScript.Proofs.Machine.Integers

/-!
# Elements of arrays

An element is assigned by an index from the start or, if it is negative, from the end. An index
before the start or past the largest size is refused, whether or not the array has an element
there, and nothing is changed. Any other assignment changes one element; where the array has to
grow for it, nil fills the gap.
-/

namespace BlockScript

namespace Frame

variable {values : Array Value} {slot : Nat} {value : Value}

@[simp]
theorem size_setSlot : (setSlot values slot value).size = max values.size (slot + 1) := by
  unfold setSlot
  split
  · rw [Array.size_setIfInBounds]
    omega
  · rw [Array.size_push, Array.size_append, Array.size_replicate]
    omega

theorem getElem?_setSlot (j : Nat) : (setSlot values slot value)[j]? =
    if j = slot then some value
    else if j < values.size then values[j]?
    else if j < slot then some .nil else none := by
  unfold setSlot
  split
  · rename_i inside
    by_cases here : j = slot
    · subst here
      rw [if_pos rfl, Array.getElem?_setIfInBounds_self_of_lt inside]
    · rw [if_neg here, Array.getElem?_setIfInBounds_ne (Ne.symm here)]
      by_cases old : j < values.size
      · rw [if_pos old]
      · rw [if_neg old, if_neg (by omega), Array.getElem?_eq_none (by omega)]
  · rename_i beyond
    have filled : (values ++ Array.replicate (slot - values.size) Value.nil).size = slot := by
      rw [Array.size_append, Array.size_replicate]
      omega
    rw [Array.getElem?_push, filled]
    by_cases here : j = slot
    · rw [if_pos here, if_pos here]
    · rw [if_neg here, if_neg here, Array.getElem?_append]
      by_cases old : j < values.size
      · rw [if_pos old, if_pos old]
      · rw [if_neg old, if_neg old, Array.getElem?_replicate]
        by_cases gap : j < slot
        · rw [if_pos gap, if_pos (by omega)]
        · rw [if_neg gap, if_neg (by omega)]

end Frame

/-- What an assignment makes of the elements of an array: one element is the new value, those
that were there keep theirs, and nil stands in the gap. -/
structure Builtin.Assigned (before after : Array Value) (i : Nat) (value : Value) : Prop where
  size : after.size = max before.size (i + 1)
  assigned : after[i]? = some value
  kept : ∀ j < before.size, j ≠ i → after[j]? = before[j]?
  gap : ∀ j < i, before.size ≤ j → after[j]? = some .nil

namespace Builtin

variable {program : Program} {world : World} {block : Option (Ref .proc)}

theorem assigned_setSlot (values : Array Value) (i : Nat) (value : Value) :
    Assigned values (Frame.setSlot values i value) i value where
  size := Frame.size_setSlot
  assigned := by rw [Frame.getElem?_setSlot, if_pos rfl]
  kept j inside apart := by rw [Frame.getElem?_setSlot, if_neg apart, if_pos inside]
  gap j before beyond := by
    rw [Frame.getElem?_setSlot, if_neg (by omega), if_neg (by omega), if_pos before]

/-- An array answers by its own methods, whatever the program defines. -/
theorem dispatch_array {name : String} {method : ArrayMethod}
    (found : named? arrayMethods name = some method) (cell : Ref .array) (args : List Value) :
    Run.dispatch program (.array cell) name args block = arrayReply method cell args block :=
  dispatch_own (by simp only [classReply, found]; rfl)

/-- What stands at an index that is not before the start. -/
theorem elementAt_eq {items : Array Value} {raw : Int} {i : Nat}
    (index : fromStart items.size raw = i) : elementAt items raw = items[i]?.getD .nil := by
  unfold elementAt
  rw [index]
  dsimp only
  rw [if_neg (Int.not_lt.mpr (Int.natCast_nonneg i)), Int.toNat_natCast,
    Array.getD_eq_getD_getElem?]

/-- An index that an assignment accepts is still where it was after the assignment. -/
theorem elementAt_assigned {before after : Array Value} {value : Value} {raw : Int} {i : Nat}
    (h : Assigned before after i value) (index : fromStart before.size raw = i) :
    elementAt after raw = value := by
  have same : fromStart after.size raw = i := by
    have size := h.size
    unfold fromStart at index ⊢
    split at index <;> omega
  rw [elementAt_eq same, h.assigned, Option.getD_some]

end Builtin

namespace Heap

variable {heap : Heap} {cell : Ref .array}

/-- To change the elements of an array is to put the changed elements in its cell. -/
theorem modifyArray_eq (allocated : cell.index < heap.arrays.size)
    (f : Array Value → Array Value) : heap.modifyArray cell f =
      { heap with arrays := heap.arrays.setIfInBounds cell.index (f (heap.array cell)) } := by
  have elements : heap.array cell = heap.arrays[cell.index] := by
    rw [array, Array.getD_eq_getD_getElem?, Array.getElem?_eq_getElem allocated, Option.getD_some]
  have arrays : heap.arrays.modify cell.index f =
      heap.arrays.setIfInBounds cell.index (f heap.arrays[cell.index]) := by
    refine Array.ext (by simp) fun i h₁ h₂ => ?_
    rw [Array.getElem_modify, Array.getElem_setIfInBounds]
    split
    · rename_i here
      subst here
      rfl
    · rfl
  rw [modifyArray, arrays, elements]

/-- An array that is changed holds what the change makes of it. -/
theorem array_modifyArray (allocated : cell.index < heap.arrays.size)
    (f : Array Value → Array Value) : (heap.modifyArray cell f).array cell = f (heap.array cell) := by
  rw [modifyArray_eq allocated, array, Array.getD_eq_getD_getElem?,
    Array.getElem?_setIfInBounds_self_of_lt allocated, Option.getD_some]

end Heap

namespace Machine

open Builtin

variable {program : Program} {limits : Limits} {fuel : Nat} {world : World}
variable {block : Option (Ref .proc)} {cell : Ref .array} {raw : Int64} {value : Value}

/-- A message that is answered at once. -/
theorem send_reply {receiver answer : Value} {name : String} {args : List Value} {after : World}
    (reply : Run.dispatch program receiver name args block world = .ok (.value answer) after) :
    send program limits fuel receiver name args block world = .ok answer after := by
  change EStateM.bind (Bounded.ofRun _) _ world = _
  simp only [EStateM.bind, Bounded.ofRun, reply]
  rfl

/-- A message that fails at once. -/
theorem send_refused {receiver : Value} {name : String} {args : List Value} {error : RuntimeError}
    {after : World}
    (reply : Run.dispatch program receiver name args block world = .error error after) :
    send program limits fuel receiver name args block world = .error (.failure error) after := by
  change EStateM.bind (Bounded.ofRun _) _ world = _
  simp only [EStateM.bind, Bounded.ofRun, reply]

/-- An element that is read is answered, and nothing is changed. -/
theorem send_get : send program limits fuel (.array cell) "[]" [.fixnum raw] block world =
    .ok (elementAt (world.heap.array cell) raw.toInt) world :=
  send_reply (by
    have found : named? arrayMethods "[]" = some .get := rfl
    rw [dispatch_array found]
    rfl)

/-- Elements that are pushed are added to the end, however long the array gets. -/
theorem send_push {args : List Value} :
    send program limits fuel (.array cell) "push" args block world = .ok (.array cell)
      { world with heap := world.heap.modifyArray cell (· ++ args.toArray) } :=
  send_reply (by
    have found : named? arrayMethods "push" = some .push := rfl
    rw [dispatch_array found]
    rfl)

/-- How an assignment by index is answered. -/
theorem dispatch_set (i : Int) (index : fromStart (world.heap.array cell).size raw.toInt = i) :
    Run.dispatch program (.array cell) "[]=" [.fixnum raw, value] block world =
      if i < 0 then .error (.indexTooSmall raw.toInt) world
      else if maxArraySize ≤ i then .error (.indexTooBig raw.toInt) world
      else .ok (.value value)
        { world with heap := world.heap.modifyArray cell (Frame.setSlot · i.toNat value) } := by
  subst index
  have found : named? arrayMethods "[]=" = some .set := rfl
  rw [dispatch_array found]
  change (ite (_ < (0 : Int)) (throw _) (ite (_ ≤ _) (throw _) _) : Run Reply) world = _
  split
  · rfl
  · split <;> rfl

/-- Assignment to an element of an array, by any index. An index before the start or past the
largest size is an error that changes nothing, even if the array has an element there. With any
other index just the array changes, by what an assignment to that element makes of it, and the
same index finds the value again. -/
theorem assign_element (allocated : cell.index < world.heap.arrays.size) (raw : Int64)
    (value : Value) (program : Program) (limits : Limits) (fuel : Nat)
    (block : Option (Ref .proc)) :
    let elements := world.heap.array cell
    let i := fromStart elements.size raw.toInt
    let assign := send program limits fuel (.array cell) "[]=" [.fixnum raw, value] block
    (i < 0 → assign world = .error (.failure (.indexTooSmall raw.toInt)) world) ∧
    (maxArraySize ≤ i → assign world = .error (.failure (.indexTooBig raw.toInt)) world) ∧
    (0 ≤ i → i < maxArraySize → ∃ after elements', assign world = .ok value after ∧
      after = { world with heap := { world.heap with
        arrays := world.heap.arrays.setIfInBounds cell.index elements' } } ∧
      after.heap.array cell = elements' ∧ Assigned elements elements' i.toNat value ∧
      send program limits fuel (.array cell) "[]" [.fixnum raw] block after =
        .ok value after) := by
  intro elements i assign
  have reply : Run.dispatch program (.array cell) "[]=" [.fixnum raw, value] block world = _ :=
    dispatch_set i rfl
  refine ⟨fun negative => ?_, fun large => ?_, fun inside small => ?_⟩
  · rw [if_pos negative] at reply
    exact send_refused reply
  · have inside : ¬i < 0 := by omega
    rw [if_neg inside, if_pos large] at reply
    exact send_refused reply
  · rw [if_neg (Int.not_lt.mpr inside), if_neg (Int.not_le.mpr small)] at reply
    have assigned := assigned_setSlot elements i.toNat value
    have held := Heap.array_modifyArray allocated (Frame.setSlot · i.toNat value)
    refine ⟨_, _, send_reply reply, ?_, held, assigned, ?_⟩
    · rw [Heap.modifyArray_eq allocated]
    · rw [send_get, held, elementAt_assigned assigned (Int.toNat_of_nonneg inside).symm]

/-- The last of two elements is assigned by its index from the end. -/
theorem assign_last_element :
    let world := { World.new with heap := { arrays := #[#[.fixnum 1, .fixnum 2]] } }
    let send := send .empty {} 0 (.array ⟨0⟩)
    ∃ after elements, send "[]=" [.fixnum (-1), .fixnum 4] none world = .ok (.fixnum 4) after ∧
      after.heap.array ⟨0⟩ = elements ∧ elements.size = 2 ∧
      elements[0]? = some (.fixnum 1) ∧ elements[1]? = some (.fixnum 4) ∧
      send "[]" [.fixnum (-1)] none after = .ok (.fixnum 4) after := by
  intro world send
  have allocated : (⟨0⟩ : Ref .array).index < world.heap.arrays.size := by decide
  obtain ⟨-, -, accepted⟩ := assign_element allocated (-1) (.fixnum 4) .empty {} 0 none
  obtain ⟨after, elements, assigned, -, held, effect, found⟩ := accepted (by decide) (by decide)
  exact ⟨after, elements, assigned, held, effect.size, effect.kept 0 (by decide) (by decide),
    effect.assigned, found⟩

/-- An array that grew past the largest size by other means: its last element is there to be
read, and it cannot be assigned. -/
theorem existing_element_refused :
    let start := { World.new with heap := { arrays := #[#[]] } }
    let send (name : String) (args : List Value) := send .empty {} 0 (.array ⟨0⟩) name args none
    ∃ filled grown, send "[]=" [.fixnum 0xFFFFFF, .fixnum 1] start = .ok (.fixnum 1) filled ∧
      send "push" [.fixnum 2] filled = .ok (.array ⟨0⟩) grown ∧
      (grown.heap.array ⟨0⟩).size = 0x1000001 ∧
      send "[]" [.fixnum 0x1000000] grown = .ok (.fixnum 2) grown ∧
      send "[]=" [.fixnum 0x1000000, .fixnum 5] grown =
        .error (.failure (.indexTooBig 0x1000000)) grown := by
  intro start send
  let filled : World :=
    { start with heap := start.heap.modifyArray ⟨0⟩ (Frame.setSlot · 0xFFFFFF (.fixnum 1)) }
  let grown : World := { filled with heap := filled.heap.modifyArray ⟨0⟩ (· ++ #[.fixnum 2]) }
  have there {world : World} {f : Array Value → Array Value} (h : 0 < world.heap.arrays.size) :
      (world.heap.modifyArray ⟨0⟩ f).array ⟨0⟩ = f (world.heap.array ⟨0⟩) :=
    Heap.array_modifyArray h f
  have first : filled.heap.array ⟨0⟩ = Frame.setSlot #[] 0xFFFFFF (.fixnum 1) := there (by decide)
  have first_size : (filled.heap.array ⟨0⟩).size = 0x1000000 := by
    rw [first, Frame.size_setSlot]
    rfl
  have second : grown.heap.array ⟨0⟩ = filled.heap.array ⟨0⟩ ++ #[.fixnum 2] :=
    there (by simp [filled, Heap.modifyArray, start])
  have size : (grown.heap.array ⟨0⟩).size = 0x1000001 := by
    rw [second, Array.size_append, first_size]
    rfl
  have index : fromStart (grown.heap.array ⟨0⟩).size (0x1000000 : Int64).toInt = 0x1000000 := by
    rw [size]
    rfl
  have last : elementAt (grown.heap.array ⟨0⟩) (0x1000000 : Int64).toInt = .fixnum 2 := by
    rw [elementAt_eq (i := 0x1000000) index, second,
      Array.getElem?_append_right (Nat.le_of_eq first_size), first_size, Nat.sub_self]
    rfl
  exact ⟨filled, grown, send_reply (dispatch_set 0xFFFFFF rfl), send_push, size,
    send_get.trans (by rw [last]), send_refused (dispatch_set _ index)⟩

end Machine
end BlockScript
