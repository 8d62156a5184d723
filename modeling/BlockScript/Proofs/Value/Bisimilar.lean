import Mathlib.Data.List.Forall2
import BlockScript.Proofs.Value.Depth

/-!
# Equality on cyclic heaps

Two values are bisimilar if some relation pairs them that pairs arrays with arrays of the same
length whose elements it pairs, and other values only if they are equal as they stand. Equality
decides this on every heap. A pair that is still being compared counts as equal, and pairs that
have been compared are forgotten; so a comparison that finds no difference is read as follows:
to any number of levels, values are alike if the pairs under way are alike to that many levels.
-/

namespace BlockScript.Value

variable (heap : Heap)

/-! ## Bisimilar values -/

/-- Values other than arrays are equal as they stand. -/
inductive SameLeaf : Value → Value → Prop where
  | nil : SameLeaf nil nil
  | bool (b : Bool) : SameLeaf (bool b) (bool b)
  /-- Integers by number, whether small or large. -/
  | integer {a b : Value} {n : Int} (left : a.int? = some n) (right : b.int? = some n) : SameLeaf a b
  | string {s t : Ref .string} (text : heap.string s = heap.string t) :
      SameLeaf (string s) (string t)
  | symbol {s t : Symbol} (number : s.number = t.number) : SameLeaf (symbol s) (symbol t)
  | classRef (name : String) : SameLeaf (classRef name) (classRef name)
  | proc (cell : Ref .proc) : SameLeaf (proc cell) (proc cell)
  | object (cell : Ref .object) : SameLeaf (object cell) (object cell)

/-- The values are equal as they stand, or arrays of the same length with related elements. -/
inductive Matches (R : Value → Value → Prop) : Value → Value → Prop where
  | arrays {x y : Ref .array}
      (elements : List.Forall₂ R (heap.array x).toList (heap.array y).toList) :
      Matches R (array x) (array y)
  | leaves {a b : Value} (same : SameLeaf heap a b) : Matches R a b

/-- Related values match. -/
def Bisimulation (R : Value → Value → Prop) : Prop := ∀ a b, R a b → Matches heap R a b

/-- Some bisimulation relates the values. -/
def Bisimilar (a b : Value) : Prop := ∃ R, Bisimulation heap R ∧ R a b

variable {heap}

theorem Matches.mono {R R' : Value → Value → Prop} (sub : ∀ a b, R a b → R' a b) {a b : Value}
    (h : Matches heap R a b) : Matches heap R' a b := by
  cases h with
  | arrays elements => exact .arrays (elements.imp sub)
  | leaves same => exact .leaves same

theorem SameLeaf.symm {a b : Value} (h : SameLeaf heap a b) : SameLeaf heap b a := by
  cases h with
  | nil => exact .nil
  | bool b => exact .bool b
  | integer left right => exact .integer right left
  | string text => exact .string text.symm
  | symbol number => exact .symbol number.symm
  | classRef name => exact .classRef name
  | proc cell => exact .proc cell
  | object cell => exact .object cell

theorem SameLeaf.trans {a b c : Value} (h₁ : SameLeaf heap a b) (h₂ : SameLeaf heap b c) :
    SameLeaf heap a c := by
  cases h₁ with
  | integer left right =>
      cases h₂ with
      | integer left' right' =>
          cases right.symm.trans left'
          exact .integer left right'
      | _ => cases right
  | string text =>
      cases h₂ with
      | string text' => exact .string (text.trans text')
      | integer left => cases left
  | symbol number =>
      cases h₂ with
      | symbol number' => exact .symbol (number.trans number')
      | integer left => cases left
  | _ => exact h₂

/-- An array is equal to nothing as it stands. -/
theorem SameLeaf.not_array {x : Ref .array} {b : Value} : ¬SameLeaf heap (array x) b := by
  intro h
  cases h with
  | integer left => cases left

theorem matches_refl {R : Value → Value → Prop} (refl : ∀ a, R a a) (a : Value) :
    Matches heap R a a := by
  cases a with
  | array x => exact .arrays (List.forall₂_same.mpr fun a _ => refl a)
  | nil => exact .leaves .nil
  | bool b => exact .leaves (.bool b)
  | fixnum n => exact .leaves (.integer rfl rfl)
  | bignum n identity => exact .leaves (.integer rfl rfl)
  | string s => exact .leaves (.string rfl)
  | symbol s => exact .leaves (.symbol rfl)
  | proc cell => exact .leaves (.proc cell)
  | classRef name => exact .leaves (.classRef name)
  | object cell => exact .leaves (.object cell)

theorem Matches.symm {R : Value → Value → Prop} {a b : Value} (h : Matches heap R a b) :
    Matches heap (flip R) b a := by
  cases h with
  | arrays elements => exact .arrays elements.flip
  | leaves same => exact .leaves same.symm

theorem forall₂_comp {α : Type} {R R' : α → α → Prop} {as bs cs : List α}
    (h₁ : List.Forall₂ R as bs) (h₂ : List.Forall₂ R' bs cs) :
    List.Forall₂ (Relation.Comp R R') as cs := by
  induction h₁ generalizing cs with
  | nil =>
      cases h₂
      exact .nil
  | cons first _ ih =>
      cases h₂ with
      | cons first' rest' => exact .cons ⟨_, first, first'⟩ (ih rest')

theorem Matches.trans {R R' : Value → Value → Prop} {a b c : Value} (h₁ : Matches heap R a b)
    (h₂ : Matches heap R' b c) : Matches heap (Relation.Comp R R') a c := by
  cases h₁ with
  | arrays elements =>
      cases h₂ with
      | arrays elements' => exact .arrays (forall₂_comp elements elements')
      | leaves same => exact absurd same SameLeaf.not_array
  | leaves same =>
      cases h₂ with
      | arrays elements => exact absurd same.symm SameLeaf.not_array
      | leaves same' => exact .leaves (same.trans same')

variable (heap) in
theorem bisimilar_equivalence : Equivalence (Bisimilar heap) where
  refl a := ⟨Eq, fun a b same => same ▸ matches_refl (fun _ => rfl) a, rfl⟩
  symm := by
    rintro a b ⟨R, bisimulation, related⟩
    exact ⟨flip R, fun a b related => (bisimulation b a related).symm, related⟩
  trans := by
    rintro a b c ⟨R, bisimulation, related⟩ ⟨R', bisimulation', related'⟩
    refine ⟨Relation.Comp R R', ?_, b, related, related'⟩
    rintro a c ⟨b, related, related'⟩
    exact (bisimulation a b related).trans (bisimulation' b c related')

/-! ## Comparisons that end -/

mutual

/-- A comparison, without a bound on its depth, ends with this result while the pairs of arrays
are being compared. -/
inductive Compares (heap : Heap) : List (Nat × Nat) → Value → Value → Bool → Prop where
  | leaf {pairs : List (Nat × Nat)} {a b : Value} (other : ∀ x y, a = array x → b ≠ array y) :
      Compares heap pairs a b (leafEquals heap a b)
  | itself {pairs : List (Nat × Nat)} {x : Ref .array} : Compares heap pairs (array x) (array x) true
  | underway {pairs : List (Nat × Nat)} {x y : Ref .array} (differ : x ≠ y)
      (met : (x.index, y.index) ∈ pairs) : Compares heap pairs (array x) (array y) true
  | lengths {pairs : List (Nat × Nat)} {x y : Ref .array} (differ : x ≠ y)
      (fresh : (x.index, y.index) ∉ pairs)
      (unequal : (heap.array x).toList.length ≠ (heap.array y).toList.length) :
      Compares heap pairs (array x) (array y) false
  | elements {pairs : List (Nat × Nat)} {x y : Ref .array} {result : Bool} (differ : x ≠ y)
      (fresh : (x.index, y.index) ∉ pairs)
      (equal : (heap.array x).toList.length = (heap.array y).toList.length)
      (inTurn : ComparesAll heap ((x.index, y.index) :: pairs)
        ((heap.array x).toList.zip (heap.array y).toList) result) :
      Compares heap pairs (array x) (array y) result

/-- The elements are compared in turn until two of them differ. -/
inductive ComparesAll (heap : Heap) : List (Nat × Nat) → List (Value × Value) → Bool → Prop where
  | nil {pairs : List (Nat × Nat)} : ComparesAll heap pairs [] true
  | stop {pairs : List (Nat × Nat)} {a b : Value} {rest : List (Value × Value)}
      (differ : Compares heap pairs a b false) : ComparesAll heap pairs ((a, b) :: rest) false
  | next {pairs : List (Nat × Nat)} {a b : Value} {rest : List (Value × Value)} {result : Bool}
      (equal : Compares heap pairs a b true) (others : ComparesAll heap pairs rest result) :
      ComparesAll heap pairs ((a, b) :: rest) result

end

theorem comparesAll_of_forall {pairs : List (Nat × Nat)} {equal : Value → Value → Bool}
    {items : List (Value × Value)}
    (h : ∀ a b, (a, b) ∈ items → Compares heap pairs a b (equal a b)) :
    ComparesAll heap pairs items (items.all fun (a, b) => equal a b) := by
  induction items with
  | nil => exact .nil
  | cons item rest ih =>
      obtain ⟨a, b⟩ := item
      have first := h a b (List.mem_cons_self ..)
      have others := ih fun a b member => h a b (List.mem_cons_of_mem _ member)
      rw [List.all_cons]
      dsimp only
      cases outcome : equal a b with
      | true =>
          rw [outcome] at first
          exact .next first others
      | false =>
          rw [outcome] at first
          exact .stop first

theorem ComparesAll.forall {pairs : List (Nat × Nat)} {items : List (Value × Value)}
    (h : ComparesAll heap pairs items true) :
    ∀ item ∈ items, Compares heap pairs item.1 item.2 true := by
  induction items with
  | nil => exact nofun
  | cons item rest ih =>
      cases h with
      | next equal others => exact List.forall_mem_cons.mpr ⟨equal, ih others⟩

theorem equalsInside_leaf {depth : Nat} {pairs : List (Nat × Nat)} {a b : Value}
    (other : ∀ x y, a = array x → b ≠ array y) :
    equalsInside heap (depth + 1) pairs a b = leafEquals heap a b := by
  unfold equalsInside
  split
  · exact absurd rfl (other _ _ rfl)
  · rfl

/-- The comparison ends within the depth that is left beside the pairs under way. -/
theorem compares_equalsInside {depth : Nat} {pairs : List (Nat × Nat)} (nodup : pairs.Nodup)
    (subset : ∀ pair ∈ pairs,
      pair ∈ Finset.range heap.arrays.size ×ˢ Finset.range heap.arrays.size)
    (deep : heap.arrays.size * heap.arrays.size < depth + pairs.length) (a b : Value) :
    Compares heap pairs a b (equalsInside heap depth pairs a b) := by
  induction depth generalizing pairs a b with
  | zero =>
      have few := length_le_pairs nodup subset
      omega
  | succ depth ih =>
      by_cases arrays : ∃ x y, a = array x ∧ b = array y
      · obtain ⟨x, y, rfl, rfl⟩ := arrays
        rw [equalsInside]
        dsimp only
        by_cases same : x = y
        · subst same
          rw [if_pos rfl]
          exact .itself
        rw [if_neg same]
        by_cases met : (x.index, y.index) ∈ pairs
        · rw [if_pos met]
          exact .underway same met
        rw [if_neg met]
        by_cases equal : (heap.array x).toList.length = (heap.array y).toList.length
        · rw [beq_iff_eq.mpr equal, Bool.true_and]
          refine .elements same met equal (comparesAll_of_forall fun u v member => ?_)
          -- both arrays have elements, so they are in the heap
          have inside : x.index < heap.arrays.size ∧ y.index < heap.arrays.size := by
            obtain ⟨left, right⟩ := List.of_mem_zip member
            constructor <;> refine by_contra fun outside => ?_
            · simp [Heap.array_outside outside] at left
            · simp [Heap.array_outside outside] at right
          exact ih (nodup.cons met) (List.forall_mem_cons.mpr ⟨by simpa using inside, subset⟩)
            (by rw [List.length_cons]; omega) u v
        · rw [beq_eq_false_iff_ne.mpr equal, Bool.false_and]
          exact .lengths same met equal
      · have other : ∀ x y, a = array x → b ≠ array y :=
          fun x y left right => arrays ⟨x, y, left, right⟩
        rw [equalsInside_leaf other]
        exact .leaf other

/-! ## Soundness -/

theorem ref_eq {kind : CellKind} {x y : Ref kind} (h : (x.index == y.index) = true) : x = y :=
  congrArg Ref.mk (beq_iff_eq.mp h)

theorem sameLeaf_of_same {a b : Value} (other : ∀ x y, a = array x → b ≠ array y)
    (small : ∀ m i n j, a = bignum m i → b ≠ bignum n j) (h : a.same b = true) : SameLeaf heap a b := by
  unfold same at h
  split at h
  · exact .nil
  · cases beq_iff_eq.mp h
    exact .bool _
  · cases beq_iff_eq.mp h
    exact .integer rfl rfl
  · exact absurd rfl (small _ _ _ _ rfl)
  · cases ref_eq h
    exact .string rfl
  · exact .symbol (of_decide_eq_true (Bool.and_eq_true_iff.mp (Bool.and_eq_true_iff.mp h).1).1)
  · exact absurd rfl (other _ _ rfl)
  · cases ref_eq h
    exact .proc _
  · cases beq_iff_eq.mp h
    exact .classRef _
  · cases ref_eq h
    exact .object _
  · cases h

theorem sameLeaf_of_leafEquals {a b : Value} (other : ∀ x y, a = array x → b ≠ array y)
    (h : leafEquals heap a b = true) : SameLeaf heap a b := by
  unfold leafEquals at h
  split at h
  · exact .integer (congrArg some (beq_iff_eq.mp h)) rfl
  · exact .integer (congrArg some (beq_iff_eq.mp h)) rfl
  · exact .integer rfl (congrArg some (beq_iff_eq.mp h))
  · exact .string (beq_iff_eq.mp h)
  · exact .symbol (of_decide_eq_true h)
  · rename_i bignums _ _ _ _
    exact sameLeaf_of_same other bignums h

theorem int?_cases {a : Value} {n : Int} (h : a.int? = some n) :
    (∃ m : Int64, a = fixnum m ∧ m.toInt = n) ∨ ∃ identity, a = bignum n identity := by
  cases a with
  | fixnum m => exact .inl ⟨m, rfl, Option.some.inj h⟩
  | bignum m identity => exact .inr ⟨identity, congrArg (bignum · identity) (Option.some.inj h)⟩
  | _ => cases h

theorem SameLeaf.leafEquals {a b : Value} (h : SameLeaf heap a b) :
    leafEquals heap a b = true := by
  cases h with
  | @integer a b n left right =>
      rcases int?_cases left with ⟨m, rfl, value⟩ | ⟨identity, rfl⟩ <;>
        rcases int?_cases right with ⟨k, rfl, value'⟩ | ⟨identity', rfl⟩
      · exact beq_iff_eq.mpr (Int64.toInt_inj.mp (value.trans value'.symm))
      · exact beq_iff_eq.mpr value
      · exact beq_iff_eq.mpr value'
      · exact beq_self_eq_true n
  | string text => exact beq_iff_eq.mpr text
  | symbol number => exact decide_eq_true number
  | nil => rfl
  | bool b => exact beq_self_eq_true b
  | classRef name => exact beq_self_eq_true name
  | proc cell => exact beq_self_eq_true cell.index
  | object cell => exact beq_self_eq_true cell.index

/-- The check of values that are not both arrays decides whether they are equal as they stand. -/
theorem leafEquals_iff {a b : Value} (other : ∀ x y, a = array x → b ≠ array y) :
    leafEquals heap a b = true ↔ SameLeaf heap a b :=
  ⟨sameLeaf_of_leafEquals other, SameLeaf.leafEquals⟩

variable (heap) in
/-- The values match to this many levels. -/
def Upto : Nat → Value → Value → Prop
  | 0 => fun _ _ => True
  | levels + 1 => Matches heap (Upto levels)

theorem upto_refl (levels : Nat) (a : Value) : Upto heap levels a a := by
  induction levels generalizing a with
  | zero => exact trivial
  | succ levels ih => exact matches_refl ih a

theorem Upto.pred {levels : Nat} {a b : Value} (h : Upto heap (levels + 1) a b) :
    Upto heap levels a b := by
  induction levels generalizing a b with
  | zero => exact trivial
  | succ levels ih => exact h.mono fun _ _ => ih

/-- Values between which a comparison finds no difference match to any number of levels to which
the pairs under way match. -/
theorem Compares.upto {levels : Nat} {pairs : List (Nat × Nat)} {a b : Value}
    (h : Compares heap pairs a b true)
    (underway : ∀ pair ∈ pairs, Upto heap levels (array ⟨pair.1⟩) (array ⟨pair.2⟩)) :
    Upto heap levels a b := by
  induction levels generalizing pairs a b with
  | zero => exact trivial
  | succ levels ih =>
      generalize outcome : true = result at h
      cases h with
      | leaf other => exact .leaves ((leafEquals_iff other).mp outcome.symm)
      | itself => exact upto_refl _ _
      | underway _ met => exact underway _ met
      | lengths => cases outcome
      | elements differ fresh equal inTurn =>
          subst outcome
          -- the arrays match to one level less, by this very comparison
          have here := ih (.elements differ fresh equal inTurn) fun pair member =>
            (underway pair member).pred
          refine .arrays (List.forall₂_iff_zip.mpr ⟨equal, fun {u v} member => ?_⟩)
          exact ih (inTurn.forall _ member) (List.forall_mem_cons.mpr
            ⟨here, fun pair member => (underway pair member).pred⟩)

/-- Matching to every number of levels is a bisimulation. -/
theorem bisimulation_upto : Bisimulation heap fun a b => ∀ levels, Upto heap levels a b := by
  intro a b h
  cases h 1 with
  | leaves same => exact .leaves same
  | @arrays x y elements =>
      refine .arrays (List.forall₂_iff_zip.mpr ⟨elements.length_eq, fun {u v} member levels => ?_⟩)
      cases h (levels + 1) with
      | arrays elements => exact (List.forall₂_iff_zip.mp elements).2 member
      | leaves same => exact absurd same SameLeaf.not_array

/-! ## Completeness -/

/-- No comparison finds a difference between values that a bisimulation relates. -/
theorem equalsInside_of_bisimulation {R : Value → Value → Prop} (bisimulation : Bisimulation heap R)
    {depth : Nat} {pairs : List (Nat × Nat)} {a b : Value} (related : R a b) :
    equalsInside heap depth pairs a b = true := by
  induction depth generalizing pairs a b with
  | zero => rfl
  | succ depth ih =>
      cases bisimulation a b related with
      | @arrays x y elements =>
          rw [equalsInside]
          dsimp only
          split
          · rfl
          split
          · rfl
          rw [beq_iff_eq.mpr elements.length_eq, Bool.true_and, List.all_eq_true]
          rintro ⟨u, v⟩ member
          exact ih ((List.forall₂_iff_zip.mp elements).2 member)
      | leaves same =>
          have other : ∀ x y, a = array x → b ≠ array y := by
            rintro x y rfl rfl
            exact SameLeaf.not_array same
          rw [equalsInside_leaf other]
          exact (leafEquals_iff other).mpr same

/-- On every heap the comparison of any two values ends, with the answer whether they are
bisimilar; so equality is an equivalence. -/
theorem equals_bisimilar (heap : Heap) :
    (∀ a b : Value, Compares heap [] a b (a.equals heap b) ∧
      (a.equals heap b = true ↔ Bisimilar heap a b)) ∧
    Equivalence fun a b : Value => a.equals heap b = true := by
  have ends (a b : Value) : Compares heap [] a b (a.equals heap b) :=
    compares_equalsInside .nil nofun (by rw [List.length_nil]; omega) a b
  have decides (a b : Value) : a.equals heap b = true ↔ Bisimilar heap a b := by
    constructor
    · intro equal
      have noDifference := equal ▸ ends a b
      exact ⟨_, bisimulation_upto, fun levels => noDifference.upto nofun⟩
    · rintro ⟨R, bisimulation, related⟩
      exact equalsInside_of_bisimulation bisimulation related
  refine ⟨fun a b => ⟨ends a b, decides a b⟩, ?_⟩
  simp only [decides]
  exact bisimilar_equivalence heap

/-- An array that contains only itself equals two arrays that contain each other. -/
example : equals { arrays := #[#[array ⟨0⟩], #[array ⟨2⟩], #[array ⟨1⟩]] }
    (array ⟨0⟩) (array ⟨1⟩) = true := by decide +kernel

end BlockScript.Value
