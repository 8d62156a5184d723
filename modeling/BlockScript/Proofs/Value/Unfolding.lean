import Mathlib.Data.List.Forall2
import BlockScript.Builtin.Dispatch
import BlockScript.Proofs.Value.Depth

/-!
# Rendering cyclic values

Containers and their parts form a graph, in which parts may be shared and which may have cycles.
Unfolded from one value the graph is a tree, and a branch of it is cut where a value lies below
itself, and only there: what is shared between two branches is unfolded in both. As the
containers on a branch are different ones and the heap has finitely many, the tree is finite.
What is shown and what is printed of a value are folds of such trees, which know of no path.
-/

namespace BlockScript

/-- A tree of values in which branches may be cut. -/
inductive Unfolding where
  /-- A value below itself. -/
  | again (value : Value)
  | node (value : Value) (parts : List Unfolding)

namespace Unfolding

variable {β γ : Type}

mutual

/-- Work out a result for the tree from the results for its branches. -/
def fold (node : Value → List β → β) (again : Value → β) : Unfolding → β
  | .again value => again value
  | .node value parts => node value (foldAll node again parts)

/-- The results for several trees. -/
def foldAll (node : Value → List β → β) (again : Value → β) : List Unfolding → List β
  | [] => []
  | tree :: rest => fold node again tree :: foldAll node again rest

end

mutual

/-- A function that commutes with the nodes commutes with the fold. -/
theorem fold_fusion {node : Value → List β → β} {again : Value → β} {node' : Value → List γ → γ}
    {again' : Value → γ} {f : β → γ} (cut : ∀ value, f (again value) = again' value)
    (inner : ∀ value results, f (node value results) = node' value (results.map f)) :
    ∀ tree : Unfolding, f (tree.fold node again) = tree.fold node' again'
  | .again value => by rw [fold, fold, cut]
  | .node value parts => by rw [fold, fold, inner, foldAll_fusion cut inner]

theorem foldAll_fusion {node : Value → List β → β} {again : Value → β}
    {node' : Value → List γ → γ} {again' : Value → γ} {f : β → γ}
    (cut : ∀ value, f (again value) = again' value)
    (inner : ∀ value results, f (node value results) = node' value (results.map f)) :
    ∀ trees : List Unfolding, (foldAll node again trees).map f = foldAll node' again' trees
  | [] => rfl
  | tree :: rest => by
      rw [foldAll, foldAll, List.map_cons, fold_fusion cut inner, foldAll_fusion cut inner]

end

end Unfolding

mutual

/-- The value below these ancestors unfolds to the tree. -/
inductive Unfolds (parts : Value → List Value) : List Value → Value → Unfolding → Prop where
  | again {ancestors : List Value} {value : Value} (above : value ∈ ancestors) :
      Unfolds parts ancestors value (.again value)
  | node {ancestors : List Value} {value : Value} {trees : List Unfolding}
      (fresh : value ∉ ancestors)
      (below : UnfoldEach parts (value :: ancestors) (parts value) trees) :
      Unfolds parts ancestors value (.node value trees)

/-- Each of the values unfolds to the tree in its place. -/
inductive UnfoldEach (parts : Value → List Value) :
    List Value → List Value → List Unfolding → Prop where
  | nil {ancestors : List Value} : UnfoldEach parts ancestors [] []
  | cons {ancestors : List Value} {value : Value} {values : List Value} {tree : Unfolding}
      {trees : List Unfolding} (first : Unfolds parts ancestors value tree)
      (rest : UnfoldEach parts ancestors values trees) :
      UnfoldEach parts ancestors (value :: values) (tree :: trees)

end

namespace Value

/-- The tree, and no other, is what the value unfolds to. -/
def UnfoldsTo (parts : Value → List Value) (value : Value) (tree : Unfolding) : Prop :=
  ∀ other, Unfolds parts [] value other ↔ other = tree

section Renders

variable {β : Type} {parts : Value → List Value} {node : Value → List β → β} {again : Value → β}
  {render : Nat → List Value → Value → β}

theorem unfoldEach_render {path values : List Value} {result : Value → β}
    (each : ∀ value ∈ values, ∃ tree, (∀ other, Unfolds parts path value other ↔ other = tree) ∧
      result value = tree.fold node again) :
    ∃ trees, (∀ others, UnfoldEach parts path values others ↔ others = trees) ∧
      values.map result = Unfolding.foldAll node again trees := by
  induction values with
  | nil =>
      refine ⟨[], fun others => ⟨fun h => ?_, fun h => h ▸ .nil⟩, rfl⟩
      cases h
      rfl
  | cons value values ih =>
      obtain ⟨tree, unique, first⟩ := each value (List.mem_cons_self ..)
      obtain ⟨trees, uniques, rest⟩ := ih fun value member => each value (List.mem_cons_of_mem _ member)
      refine ⟨tree :: trees, fun others => ⟨fun h => ?_, fun h => ?_⟩, ?_⟩
      · cases h with
        | cons head tail => rw [(unique _).mp head, (uniques _).mp tail]
      · exact h ▸ .cons ((unique tree).mpr rfl) ((uniques trees).mpr rfl)
      · rw [List.map_cons, first, rest, Unfolding.foldAll]

/-- A bounded rendering that goes through the parts of each value that is not on the path folds
the one tree that the value unfolds to, if the containers are finitely many and the bound leaves
room for those that are not on the path. -/
theorem unfolds_render {containers : Finset Value}
    (finite : ∀ value, parts value ≠ [] → value ∈ containers)
    (step : ∀ depth path value, (∀ above ∈ path, parts above ≠ []) →
      render (depth + 1) path value = if value ∈ path then again value
        else node value ((parts value).map (render depth (value :: path))))
    {depth : Nat} {path : List Value} (different : Path containers path)
    (opened : ∀ above ∈ path, parts above ≠ []) (deep : containers.card < depth + path.length)
    (value : Value) :
    ∃ tree, (∀ other, Unfolds parts path value other ↔ other = tree) ∧
      render depth path value = tree.fold node again := by
  induction depth generalizing path value with
  | zero =>
      have := different.length_le
      omega
  | succ depth ih =>
      rw [step depth path value opened]
      by_cases met : value ∈ path
      · refine ⟨.again value, fun other => ⟨fun h => ?_, fun h => h ▸ .again met⟩, if_pos met⟩
        cases h with
        | again => rfl
        | node fresh => exact absurd met fresh
      · have each (part : Value) (member : part ∈ parts value) : ∃ tree,
            (∀ other, Unfolds parts (value :: path) part other ↔ other = tree) ∧
              render depth (value :: path) part = tree.fold node again := by
          have opens : parts value ≠ [] := List.ne_nil_of_mem member
          exact ih (different.cons (finite value opens) met)
            (List.forall_mem_cons.mpr ⟨opens, opened⟩) (by rw [List.length_cons]; omega) part
        obtain ⟨trees, uniques, rendered⟩ := unfoldEach_render each
        refine ⟨.node value trees, fun other => ⟨fun h => ?_, fun h => ?_⟩, ?_⟩
        · cases h with
          | again above => exact absurd above met
          | node fresh below => rw [(uniques _).mp below]
        · exact h ▸ .node met ((uniques trees).mpr rfl)
        · rw [if_neg met, rendered, Unfolding.fold]

end Renders

variable (heap : Heap)

/-! ## What is shown of a value -/

/-- What is shown inside a value: the elements of an array, and the instance variables of an
object other than the top-level one in the order of their names. -/
def inspectParts : Value → List Value
  | array cell => (heap.array cell).toList
  | object cell =>
    if (heap.object cell).className = mainClass then []
    else (heap.object cell).ivars.sorted.map (·.2)
  | _ => []

/-- A value with the texts of its parts. -/
def inspectNode (value : Value) (texts : List String) : String :=
  match value with
  | nil => "nil"
  | string cell => Text.quote (heap.string cell)
  | symbol s => ":" ++ s.name
  | array _ => "[" ++ ", ".intercalate texts ++ "]"
  | object cell =>
    let obj := heap.object cell
    if obj.className = mainClass then mainClass
    else if obj.ivars.entries.isEmpty then "#<" ++ obj.className ++ ">"
    else
      let named := List.zipWith (fun name text => name ++ "=" ++ text)
        (obj.ivars.sorted.map (·.1)) texts
      "#<" ++ obj.className ++ " " ++ ", ".intercalate named ++ ">"
  | other => other.leafText heap

/-- A container inside itself. -/
def inspectAgain : Value → String
  | array _ => "[...]"
  | object cell => "#<" ++ (heap.object cell).className ++ " ...>"
  | _ => ""

/-- What is shown of a value, read off the tree. -/
def shownTree : Unfolding → String := Unfolding.fold (inspectNode heap) (inspectAgain heap)

/-- What is printed of a value, read off the tree: objects are printed without their parts. -/
def printedTree : Unfolding → String
  | .node (.object cell) _ =>
    let name := (heap.object cell).className
    if name = mainClass then mainClass else "#<" ++ name ++ ">"
  | .node (.array cell) parts => shownTree heap (.node (.array cell) parts)
  | .node value _ => value.leafText heap
  | .again value => inspectAgain heap value

/-! ## The lines that are printed of a value -/

/-- The values that are printed on lines of their own. -/
def lineParts : Value → List Value
  | array cell => (heap.array cell).toList
  | _ => []

/-- The lines of a value, given the lines of its parts. -/
def linesNode (value : Value) (lines : List (List String)) : List String :=
  match value with
  | array _ => if lines.isEmpty then [""] else lines.flatten
  | other => [other.display heap]

/-- The lines of a value, read off the tree. -/
def linesTree : Unfolding → List String := Unfolding.fold (linesNode heap) fun _ => ["[...]"]

/-- A line with its line feed, if it does not end in one. -/
def ended (line : String) : String := if line.endsWith "\n" then line else line ++ "\n"

/-- The text of the lines. -/
def textOfLines (lines : List String) : String := String.join (lines.map ended)

variable {heap}

theorem sorted_eq_nil {ivars : Table Value} : ivars.sorted = [] ↔ ivars.entries = [] := by
  rw [← List.length_eq_zero_iff, ivars.listing_sorted.each.length_eq, List.length_eq_zero_iff]

theorem inspectInside_step (depth : Nat) (path : List Value) (value : Value)
    (opened : ∀ above ∈ path, inspectParts heap above ≠ []) :
    inspectInside heap (depth + 1) path value = if value ∈ path then inspectAgain heap value
      else inspectNode heap value
        ((inspectParts heap value).map (inspectInside heap depth (value :: path))) := by
  -- a value without parts is not on the path
  have fresh (closed : inspectParts heap value = []) : value ∉ path :=
    fun met => opened value met closed
  cases value with
  | array cell => rfl
  | object cell =>
      rw [inspectInside]
      dsimp only
      by_cases top : (heap.object cell).className = mainClass
      · rw [if_pos top, if_neg (fresh (if_pos top)), inspectNode]
        exact (if_pos top).symm
      by_cases empty : (heap.object cell).ivars.entries.isEmpty = true
      · have noParts : inspectParts heap (.object cell) = [] := by
          rw [inspectParts, if_neg top, sorted_eq_nil.mpr (List.isEmpty_iff.mp empty), List.map_nil]
        rw [if_neg top, if_pos empty, if_neg (fresh noParts), inspectNode]
        dsimp only
        rw [if_neg top, if_pos empty]
      · rw [if_neg top, if_neg empty, inspectNode, inspectParts, if_neg top]
        dsimp only
        rw [if_neg top, if_neg empty, List.map_map, List.zipWith_map, List.zipWith_self]
        rfl
  | _ => rw [if_neg (fresh rfl)]; rfl

/-- The parts of an object are its instance variables, each once and in the order of their
names, and they are shown in that order. -/
theorem inspectNode_object {cell : Ref .object} (own : (heap.object cell).className ≠ mainClass) :
    ∃ named, (heap.object cell).ivars.Listing named ∧
      inspectParts heap (.object cell) = named.map (·.2) ∧
      ∀ texts, inspectNode heap (.object cell) texts =
        if named = [] then "#<" ++ (heap.object cell).className ++ ">"
        else "#<" ++ (heap.object cell).className ++ " " ++ ", ".intercalate
          (List.zipWith (fun name text => name ++ "=" ++ text) (named.map (·.1)) texts) ++ ">" := by
  refine ⟨(heap.object cell).ivars.sorted, Table.listing_sorted _, if_neg own, fun texts => ?_⟩
  rw [inspectNode]
  dsimp only
  rw [if_neg own]
  exact ite_congr (propext (List.isEmpty_iff.trans sorted_eq_nil.symm)) (fun _ => rfl) fun _ => rfl

theorem mem_containers (value : Value) (opens : inspectParts heap value ≠ []) :
    value ∈ heap.arrayValues ∪ heap.objectValues := by
  cases value with
  | array cell =>
      refine Finset.mem_union_left _ (Heap.array_mem (by_contra fun outside => opens ?_))
      rw [inspectParts, Heap.array_outside outside]
  | object cell =>
      refine Finset.mem_union_right _ (Heap.object_mem (by_contra fun outside => opens ?_))
      rw [inspectParts, Heap.object_outside outside, Table.empty, sorted_eq_nil.mpr rfl]
      exact ite_self _
  | _ => exact absurd rfl opens

theorem inspect_unfolds (value : Value) :
    ∃ tree, value.UnfoldsTo (inspectParts heap) tree ∧ value.inspect heap = shownTree heap tree := by
  have arrays := heap.card_arrayValues
  have objects := heap.card_objectValues
  have both := Finset.card_union_le heap.arrayValues heap.objectValues
  exact unfolds_render mem_containers inspectInside_step .nil nofun
    (by rw [List.length_nil, depthBound]; omega) value

theorem display_unfolds {value : Value} {tree : Unfolding}
    (unfolds : value.UnfoldsTo (inspectParts heap) tree)
    (shown : value.inspect heap = shownTree heap tree) :
    value.display heap = printedTree heap tree := by
  cases (unfolds tree).mpr rfl with
  | again above => cases above
  | node fresh below =>
      cases value with
      | array cell => exact shown
      | _ => rfl

theorem lineParts_mem (value : Value) (opens : lineParts heap value ≠ []) :
    value ∈ heap.arrayValues := by
  cases value with
  | array cell =>
      refine Heap.array_mem (by_contra fun outside => opens ?_)
      rw [lineParts, Heap.array_outside outside]
  | _ => exact absurd rfl opens

variable (heap) in
/-- The text of a value's lines, given the text of the lines of its parts. -/
def linesText (value : Value) (texts : List String) : String :=
  match value with
  | array _ => if texts.isEmpty then "\n" else String.join texts
  | other => ended (other.display heap)

theorem textOfLines_flatten (lines : List (List String)) :
    textOfLines lines.flatten = String.join (lines.map textOfLines) := by
  induction lines with
  | nil => rfl
  | cons first rest ih =>
      rw [List.flatten_cons, List.map_cons, String.join_cons, ← ih, textOfLines, List.map_append,
        String.join_append]
      rfl

theorem textOfLines_node (value : Value) (lines : List (List String)) :
    textOfLines (linesNode heap value lines) = linesText heap value (lines.map textOfLines) := by
  have single (line : String) : textOfLines [line] = ended line :=
    String.join_cons.trans String.append_empty
  cases value with
  | array cell =>
      rw [linesNode, linesText, List.isEmpty_map]
      split
      · decide +kernel
      · exact textOfLines_flatten lines
  | _ => exact single _

theorem linesInside_step (depth : Nat) (path : List Value) (value : Value)
    (opened : ∀ above ∈ path, lineParts heap above ≠ []) :
    linesInside heap (depth + 1) path value = if value ∈ path then "[...]\n"
      else linesText heap value
        ((lineParts heap value).map (linesInside heap depth (value :: path))) := by
  -- only arrays are on the path
  have fresh (closed : lineParts heap value = []) : value ∉ path :=
    fun met => opened value met closed
  cases value with
  | array cell =>
    rw [linesInside, linesText, lineParts]
    dsimp only
    rw [List.isEmpty_map]
  | _ => rw [if_neg (fresh rfl)]; rfl

theorem lines_unfolds (value : Value) :
    ∃ tree, value.UnfoldsTo (lineParts heap) tree ∧
      value.lines heap = textOfLines (linesTree heap tree) := by
  have deep : heap.arrayValues.card < depthBound heap + ([] : List Value).length := by
    have arrays := heap.card_arrayValues
    rw [List.length_nil, depthBound]
    omega
  obtain ⟨tree, unfolds, rendered⟩ :=
    unfolds_render lineParts_mem linesInside_step .nil nofun deep value
  refine ⟨tree, unfolds, Eq.trans rendered ?_⟩
  exact (Unfolding.fold_fusion (fun _ => by decide +kernel) textOfLines_node tree).symm

/-! ## The methods that render values -/

variable (heap) in
/-- What stands between the elements of an array when they are joined. -/
def joinSeparator : List Value → Except RuntimeError String
  | [] | .nil :: _ => .ok ""
  | .string cell :: _ => .ok (heap.string cell)
  | other :: _ => .error (.notConvertible (other.className heap) "String")

theorem unfoldsTo_map {parts : Value → List Value} {tree : Value → Unfolding}
    (unfolds : ∀ value, UnfoldsTo parts value (tree value)) (values : List Value) :
    List.Forall₂ (UnfoldsTo parts) values (values.map tree) :=
  List.forall₂_map_right_iff.mpr (List.forall₂_same.mpr fun value _ => unfolds value)

theorem join_eq (world : World) (cell : Ref .array) (args : List Value)
    (block : Option (Ref .proc)) :
    Builtin.arrayReply .join cell args block world =
      match joinSeparator world.heap args with
      | .ok separator =>
        let parts := (world.heap.array cell).toList.map (·.display world.heap)
        .ok (.value (.string ⟨world.heap.strings.size⟩))
          { world with heap := (world.heap.newString (separator.intercalate parts)).2 }
      | .error error => .error error world := by
  match args with
  | [] | .nil :: _ | .string _ :: _ => rfl
  | .bool _ :: _ | .fixnum _ :: _ | .bignum _ _ :: _ | .symbol _ :: _ | .array _ :: _
  | .proc _ :: _ | .classRef _ :: _ | .object _ :: _ => rfl

/-- On every heap values are shown and printed, arrays are joined and the lines of values are
printed from the trees that the values unfold to, each of which is finite and the only one. The
parts of an object are all its instance variables, in the order of their names. -/
theorem rendering_unfolds (world : World) :
    (∀ cell : Ref .object, (world.heap.object cell).className ≠ mainClass →
      ∃ named, (world.heap.object cell).ivars.Listing named ∧
        inspectParts world.heap (.object cell) = named.map (·.2) ∧
        ∀ texts, inspectNode world.heap (.object cell) texts =
          if named = [] then "#<" ++ (world.heap.object cell).className ++ ">"
          else "#<" ++ (world.heap.object cell).className ++ " " ++ ", ".intercalate
            (List.zipWith (fun name text => name ++ "=" ++ text) (named.map (·.1)) texts) ++ ">") ∧
    (∀ value : Value, ∃ tree, value.UnfoldsTo (inspectParts world.heap) tree ∧
      value.inspect world.heap = shownTree world.heap tree ∧
      value.display world.heap = printedTree world.heap tree) ∧
    (∀ (cell : Ref .array) (args : List Value) (block : Option (Ref .proc)), ∃ trees,
      List.Forall₂ (UnfoldsTo (inspectParts world.heap)) (world.heap.array cell).toList trees ∧
      Builtin.arrayReply .join cell args block world =
        match joinSeparator world.heap args with
        | .ok separator =>
          let text := separator.intercalate (trees.map (printedTree world.heap))
          .ok (.value (.string ⟨world.heap.strings.size⟩))
            { world with heap := (world.heap.newString text).2 }
        | .error error => .error error world) ∧
    (∀ (receiver : Value) (args : List Value) (block : Option (Ref .proc)), ∃ trees,
      List.Forall₂ (UnfoldsTo (lineParts world.heap)) args trees ∧
      Builtin.kernelReply .puts receiver args block world =
        let lines := if args.isEmpty then [""] else (trees.map (linesTree world.heap)).flatten
        .ok .nil { world with output := world.output ++ textOfLines lines }) := by
  have inspects (value : Value) : ∃ tree, value.UnfoldsTo (inspectParts world.heap) tree ∧
      value.inspect world.heap = shownTree world.heap tree := inspect_unfolds value
  have prints (value : Value) : ∃ tree, value.UnfoldsTo (lineParts world.heap) tree ∧
      value.lines world.heap = textOfLines (linesTree world.heap tree) := lines_unfolds value
  choose tree unfolds shown using inspects
  choose lineTree lineUnfolds printed using prints
  have displayed (value : Value) : value.display world.heap = printedTree world.heap (tree value) :=
    display_unfolds (unfolds value) (shown value)
  refine ⟨fun cell => inspectNode_object,
    fun value => ⟨tree value, unfolds value, shown value, displayed value⟩,
    fun cell args block => ⟨_, unfoldsTo_map unfolds _, ?_⟩,
    fun receiver args block => ⟨_, unfoldsTo_map lineUnfolds _, ?_⟩⟩
  · rw [join_eq, List.map_map, List.map_congr_left fun value _ => displayed value]
    rfl
  · have text : textOfLines (if args.isEmpty then [""]
          else ((args.map lineTree).map (linesTree world.heap)).flatten) =
        if args.isEmpty then "\n" else String.join (args.map (·.lines world.heap)) := by
      split
      · decide +kernel
      · rw [textOfLines_flatten, List.map_map, List.map_map,
          List.map_congr_left fun value _ => printed value]
        rfl
    dsimp only
    rw [text]
    rfl

/-- What is shared is shown twice, and what is inside itself is abbreviated. -/
example : inspect { arrays := #[#[nil], #[array ⟨0⟩, array ⟨0⟩, array ⟨1⟩]] } (array ⟨1⟩) =
    "[[nil], [nil], [...]]" := by decide +kernel

end Value

end BlockScript
