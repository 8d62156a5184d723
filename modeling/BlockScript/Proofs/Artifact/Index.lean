import BlockScript.Constant
import Mathlib.Data.List.Induction
import Mathlib.Logic.Function.Basic

/-!
# Pools with an index

Interning does not search the pool: beside the constants it keeps an index, which gives each one
its position. The index is not part of an artifact and is made again when one is read, by entering
the constants in their order. Either way the index gives what a search of the pool would give, so
a pool that grew by interning gets the index back that it had.
-/

namespace BlockScript.Pool

/-- Where a constant is, if it is known. -/
abbrev Index := Constant → Option UInt32

/-- A pool and the index that interning looks into. -/
structure Indexed where
  pool : Pool := .empty
  index : Index := fun _ => none

variable {pool : Pool} {constant : Constant}

namespace Indexed

/-- The position of a constant, which is entered if it is new and there is room for it. -/
def intern (known : Indexed) (constant : Constant) (limit : Nat) :
    Except CompileError (UInt32 × Indexed) :=
  match known.index constant with
  | some position => .ok (position, known)
  | none =>
    let position := known.pool.size
    if position < limit then
      .ok (position.toUInt32, ⟨⟨known.pool.entries.push constant⟩,
        Function.update known.index constant (some position.toUInt32)⟩)
    else .error (.exhausted .constantPool limit)

/-- Enter the constants from the first one on; a later position replaces an earlier one. -/
def enter (constants : List Constant) : Index :=
  constants.zipIdx.foldl
    (fun index entry => Function.update index entry.1 (some entry.2.toUInt32)) fun _ => none

/-- The pool of an artifact, with its index made again. -/
def rebuild (pool : Pool) : Indexed := ⟨pool, enter pool.entries.toList⟩

/-- The pools that grow by interning. -/
inductive Grown : Indexed → Prop
  | empty : Grown {}
  | intern {known known' : Indexed} {constant : Constant} {limit : Nat} {position : UInt32} :
      Grown known → known.intern constant limit = .ok (position, known') → Grown known'

theorem enter_append (constants : List Constant) (constant : Constant) :
    enter (constants ++ [constant]) =
      Function.update (enter constants) constant (some constants.length.toUInt32) := by
  simp [enter, List.zipIdx_append]

end Indexed

/-- A search that starts lower down does not look at what lies above. -/
theorem lastBelow_append (constants more : List Constant) {bound : Nat}
    (inside : bound ≤ constants.length) :
    lastBelow (constants ++ more).toArray constant bound = lastBelow constants.toArray constant bound := by
  induction bound with
  | zero => rfl
  | succ bound ih =>
      have here : (constants ++ more).toArray[bound]? = constants.toArray[bound]? := by
        simp [List.getElem?_append_left inside]
      rw [lastBelow, lastBelow, here, ih (Nat.le_of_succ_le inside)]

namespace Indexed

/-- The index that is made again gives what a search gives. -/
theorem enter_eq (constants : List Constant) (constant : Constant) :
    enter constants constant =
      (lastBelow constants.toArray constant constants.length).map Nat.toUInt32 := by
  induction constants using List.reverseRecOn with
  | nil => rfl
  | append_singleton constants last ih =>
      have here : (constants ++ [last]).toArray[constants.length]? = some last := by simp
      rw [enter_append, List.length_append, List.length_singleton, lastBelow, here,
        lastBelow_append constants [last] (Nat.le_refl _)]
      by_cases same : constant = last
      · simp [same]
      · rw [Function.update_of_ne same, ih, if_neg fun h => same (Option.some.inj h).symm]

theorem rebuild_index (pool : Pool) (constant : Constant) :
    (rebuild pool).index constant = (pool.find? constant).map Nat.toUInt32 :=
  enter_eq pool.entries.toList constant

/-- Interning with the index that is made again is interning by a search. -/
theorem intern_rebuild (pool : Pool) (constant : Constant) (limit : Nat) :
    (rebuild pool).intern constant limit =
      (pool.intern constant limit).map fun result => (result.1, rebuild result.2) := by
  unfold intern Pool.intern
  rw [rebuild_index]
  cases pool.find? constant with
  | some position => rfl
  | none =>
      change (if pool.size < limit then _ else _) = _
      split
      · have entered : enter (pool.entries.push constant).toList =
            Function.update (enter pool.entries.toList) constant (some pool.size.toUInt32) := by
          rw [Array.toList_push, enter_append, Array.length_toList, size]
        exact congrArg (fun index => Except.ok (_, Indexed.mk _ index)) entered.symm
      · rfl

namespace Grown

variable {known : Indexed} (grown : known.Grown)
include grown

/-- Making the index again changes nothing. -/
theorem rebuild_eq : rebuild known.pool = known := by
  induction grown with
  | empty => rfl
  | @intern known known' constant limit position _ interned ih =>
      rw [← ih, intern_rebuild] at interned
      cases run : known.pool.intern constant limit with
      | error error => simp [run, Except.map] at interned
      | ok result =>
          simp only [run, Except.map, Except.ok.injEq, Prod.mk.injEq] at interned
          rw [← interned.2]
          rfl

/-- No constant is pooled twice, so each one is found where it is. -/
theorem index_eq {position : Nat} {constant : Constant}
    (found : known.pool.entries[position]? = some constant) :
    known.index constant = some position.toUInt32 := by
  induction grown generalizing position constant with
  | empty => simp [Pool.empty] at found
  | @intern known known' new limit _ _ interned ih =>
      unfold Indexed.intern at interned
      split at interned
      · cases interned
        exact ih found
      · rename_i unknown
        dsimp only at interned
        split at interned
        · cases interned
          rw [Array.getElem?_push] at found
          split at found
          · rename_i last
            cases found
            rw [last]
            exact Function.update_self ..
          · have other : constant ≠ new := fun same => by simp [← same, ih found] at unknown
            exact (Function.update_of_ne other ..).trans (ih found)
        · cases interned

/-- Every constant of the pool is interned to its position, and none is added. -/
theorem intern_eq {position : Nat} {constant : Constant}
    (found : known.pool.entries[position]? = some constant) (limit : Nat) :
    known.intern constant limit = .ok (position.toUInt32, known) := by
  rw [Indexed.intern, grown.index_eq found]

/-- The same by a search of the pool. -/
theorem pool_intern_eq {position : Nat} {constant : Constant}
    (found : known.pool.entries[position]? = some constant) (limit : Nat) :
    known.pool.intern constant limit = .ok (position.toUInt32, known.pool) := by
  have indexed := grown.intern_eq found limit
  rw [← grown.rebuild_eq, intern_rebuild] at indexed
  cases run : known.pool.intern constant limit with
  | error error => simp [run, Except.map] at indexed
  | ok result =>
      obtain ⟨position', pool⟩ := result
      simp only [run, Except.map, Except.ok.injEq, Prod.mk.injEq] at indexed
      obtain ⟨rfl, same⟩ := indexed
      rw [show pool = known.pool from congrArg Indexed.pool same]

end Grown

end Indexed

end BlockScript.Pool
