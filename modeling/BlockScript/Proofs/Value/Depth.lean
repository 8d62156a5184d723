import Mathlib.Data.Finset.Prod
import BlockScript.Value.Equality
import BlockScript.Value.Render

/-!
# Rendering and comparing values ends

Values are rendered and compared to a greatest depth. It is never reached: the containers on a
path are different ones, and so are the pairs of arrays that are being compared, so a path is no
longer than the number of containers, and there are no more pairs than pairs of arrays. What is
below the last one is a container that is met again, however the cells of the heap refer to one
another. A larger depth therefore gives the same text and the same answer.
-/

namespace BlockScript

namespace Heap

variable (heap : Heap)

/-- The arrays of the heap. -/
def arrayValues : Finset Value :=
  (Finset.range heap.arrays.size).image fun index => .array ⟨index⟩

/-- The objects of the heap. -/
def objectValues : Finset Value :=
  (Finset.range heap.objects.size).image fun index => .object ⟨index⟩

theorem card_arrayValues : heap.arrayValues.card ≤ heap.arrays.size :=
  Finset.card_image_le.trans_eq (Finset.card_range _)

theorem card_objectValues : heap.objectValues.card ≤ heap.objects.size :=
  Finset.card_image_le.trans_eq (Finset.card_range _)

variable {heap}

theorem array_mem {cell : Ref .array} (inside : cell.index < heap.arrays.size) :
    Value.array cell ∈ heap.arrayValues :=
  Finset.mem_image.mpr ⟨cell.index, Finset.mem_range.mpr inside, rfl⟩

theorem object_mem {cell : Ref .object} (inside : cell.index < heap.objects.size) :
    Value.object cell ∈ heap.objectValues :=
  Finset.mem_image.mpr ⟨cell.index, Finset.mem_range.mpr inside, rfl⟩

theorem array_outside {cell : Ref .array} (outside : ¬cell.index < heap.arrays.size) :
    heap.array cell = #[] :=
  Array.getD_eq_getD_getElem?.trans (by rw [Array.getElem?_eq_none (by omega), Option.getD_none])

theorem object_outside {cell : Ref .object} (outside : ¬cell.index < heap.objects.size) :
    (heap.object cell).ivars = .empty := by
  have missing : heap.object cell = ⟨"", .empty⟩ :=
    Array.getD_eq_getD_getElem?.trans (by rw [Array.getElem?_eq_none (by omega), Option.getD_none])
  rw [missing]

end Heap

namespace Value

variable {heap : Heap}

/-- The path is made of different members of the set. -/
structure Path (members : Finset Value) (path : List Value) : Prop where
  nodup : path.Nodup
  subset : ∀ value ∈ path, value ∈ members

namespace Path

variable {members : Finset Value} {path : List Value}

theorem nil : Path members [] := ⟨.nil, nofun⟩

theorem cons (h : Path members path) {value : Value} (member : value ∈ members)
    (fresh : value ∉ path) : Path members (value :: path) :=
  ⟨h.nodup.cons fresh, List.forall_mem_cons.mpr ⟨member, h.subset⟩⟩

theorem length_le (h : Path members path) : path.length ≤ members.card := by
  rw [← List.toFinset_card_of_nodup h.nodup]
  exact Finset.card_le_card fun value member => h.subset value (List.mem_toFinset.mp member)

end Path

/-- Below a path of containers there is depth enough for all others. -/
theorem inspectInside_succ {depth : Nat} {path : List Value}
    (h : Path (heap.arrayValues ∪ heap.objectValues) path)
    (deep : (heap.arrayValues ∪ heap.objectValues).card < depth + path.length) (value : Value) :
    inspectInside heap (depth + 1) path value = inspectInside heap depth path value := by
  induction depth generalizing path value with
  | zero =>
      have := h.length_le
      omega
  | succ depth ih =>
      have inner {value : Value} (member : value ∈ heap.arrayValues ∪ heap.objectValues)
          (fresh : value ∉ path) : inspectInside heap (depth + 1) (value :: path) =
            inspectInside heap depth (value :: path) :=
        funext (ih (h.cons member fresh) (by rw [List.length_cons]; omega))
      cases value with
      | array cell =>
          rw [inspectInside, inspectInside]
          dsimp only
          by_cases met : Value.array cell ∈ path
          · rw [if_pos met, if_pos met]
          · rw [if_neg met, if_neg met]
            by_cases inside : cell.index < heap.arrays.size
            · rw [inner (Finset.mem_union_left _ (Heap.array_mem inside)) met]
            · rw [Heap.array_outside inside]
              rfl
      | object cell =>
          rw [inspectInside, inspectInside]
          dsimp only
          by_cases met : Value.object cell ∈ path
          · rw [if_pos met, if_pos met]
          · rw [if_neg met, if_neg met]
            by_cases inside : cell.index < heap.objects.size
            · rw [inner (Finset.mem_union_right _ (Heap.object_mem inside)) met]
            · rw [Heap.object_outside inside]
              rfl
      | _ => rfl

theorem linesInside_succ {depth : Nat} {path : List Value} (h : Path heap.arrayValues path)
    (deep : heap.arrayValues.card < depth + path.length) (value : Value) :
    linesInside heap (depth + 1) path value = linesInside heap depth path value := by
  induction depth generalizing path value with
  | zero =>
      have := h.length_le
      omega
  | succ depth ih =>
      cases value with
      | array cell =>
          rw [linesInside, linesInside]
          dsimp only
          by_cases met : Value.array cell ∈ path
          · rw [if_pos met, if_pos met]
          · rw [if_neg met, if_neg met]
            by_cases inside : cell.index < heap.arrays.size
            · have inner : linesInside heap (depth + 1) (.array cell :: path) =
                  linesInside heap depth (.array cell :: path) :=
                funext (ih (h.cons (Heap.array_mem inside) met) (by rw [List.length_cons]; omega))
              rw [inner]
            · rw [Heap.array_outside inside]
              rfl
      | _ => rfl

/-- There are no more different pairs of arrays than the heap has. -/
theorem length_le_pairs {pairs : List (Nat × Nat)} (nodup : pairs.Nodup)
    (subset : ∀ pair ∈ pairs,
      pair ∈ Finset.range heap.arrays.size ×ˢ Finset.range heap.arrays.size) :
    pairs.length ≤ heap.arrays.size * heap.arrays.size := by
  rw [← List.toFinset_card_of_nodup nodup]
  have sub : pairs.toFinset ⊆ Finset.range heap.arrays.size ×ˢ Finset.range heap.arrays.size :=
    fun pair member => subset pair (List.mem_toFinset.mp member)
  simpa using Finset.card_le_card sub

/-- Beside the pairs that are being compared there is depth enough for all others. -/
theorem equalsInside_succ {depth : Nat} {pairs : List (Nat × Nat)} (nodup : pairs.Nodup)
    (subset : ∀ pair ∈ pairs,
      pair ∈ Finset.range heap.arrays.size ×ˢ Finset.range heap.arrays.size)
    (deep : heap.arrays.size * heap.arrays.size < depth + pairs.length) (a b : Value) :
    equalsInside heap (depth + 1) pairs a b = equalsInside heap depth pairs a b := by
  induction depth generalizing pairs a b with
  | zero =>
      have few := length_le_pairs nodup subset
      omega
  | succ depth ih =>
      match a, b with
      | .array x, .array y =>
          rw [equalsInside, equalsInside]
          dsimp only
          by_cases same : x = y
          · rw [if_pos same, if_pos same]
          · rw [if_neg same, if_neg same]
            by_cases met : (x.index, y.index) ∈ pairs
            · rw [if_pos met, if_pos met]
            · rw [if_neg met, if_neg met]
              by_cases inside : x.index < heap.arrays.size ∧ y.index < heap.arrays.size
              · have inner (u v : Value) :=
                  ih (nodup.cons met) (List.forall_mem_cons.mpr
                    ⟨by simpa using inside, subset⟩) (by rw [List.length_cons]; omega) u v
                simp only [inner]
              · rcases not_and_or.mp inside with outside | outside <;>
                  simp [Heap.array_outside outside]
      | .array _, .nil | .array _, .bool _ | .array _, .fixnum _ | .array _, .bignum _ _
      | .array _, .string _ | .array _, .symbol _ | .array _, .proc _ | .array _, .classRef _
      | .array _, .object _ | .nil, _ | .bool _, _ | .fixnum _, _ | .bignum _ _, _ | .string _, _
      | .symbol _, _ | .proc _, _ | .classRef _, _ | .object _, _ => rfl

end Value

/-- The depths to which values of the heap are rendered and compared are never reached. -/
structure Heap.Settles (heap : Heap) : Prop where
  inspect (value : Value) {depth : Nat} : Value.depthBound heap ≤ depth →
    Value.inspectInside heap depth [] value = value.inspect heap
  lines (value : Value) {depth : Nat} : Value.depthBound heap ≤ depth →
    Value.linesInside heap depth [] value = value.lines heap
  equals (a b : Value) {depth : Nat} : heap.arrays.size * heap.arrays.size + 2 ≤ depth →
    Value.equalsInside heap depth [] a b = a.equals heap b

theorem Heap.settles (heap : Heap) : heap.Settles where
  inspect value depth enough := by
    have arrays := heap.card_arrayValues
    have objects := heap.card_objectValues
    have both := Finset.card_union_le heap.arrayValues heap.objectValues
    refine Nat.le_induction (P := fun depth _ =>
      Value.inspectInside heap depth [] value = value.inspect heap) rfl ?_ depth enough
    intro depth enough ih
    unfold Value.depthBound at enough
    rw [Value.inspectInside_succ .nil (by rw [List.length_nil]; omega), ih]
  lines value depth enough := by
    have arrays := heap.card_arrayValues
    refine Nat.le_induction (P := fun depth _ =>
      Value.linesInside heap depth [] value = value.lines heap) rfl ?_ depth enough
    intro depth enough ih
    unfold Value.depthBound at enough
    rw [Value.linesInside_succ .nil (by rw [List.length_nil]; omega), ih]
  equals a b depth enough := by
    refine Nat.le_induction (P := fun depth _ =>
      Value.equalsInside heap depth [] a b = a.equals heap b) rfl ?_ depth enough
    intro depth enough ih
    rw [Value.equalsInside_succ .nil nofun (by rw [List.length_nil]; omega), ih]

end BlockScript
