import BlockScript.Proofs.Artifact.RoundTrip
import BlockScript.Proofs.Backend.Reached
import BlockScript.Proofs.Backend.Shaped

/-!
# Constants and their indices

A pool is kept twice: as the list of its constants, and as the index that interning looks into.
Interning changes both, a refused constant changes neither, and an artifact carries the list alone,
from which the index is made again. The two never part: the index gives of every constant where the
list has it last. As long as constants come to the pool by interning no constant is there twice, so
constants and indices determine each other. A pool that was read from other bytes may have a
constant at several places; the index gives one of them.

An index has 32 bits, so a pool of more than 2 ^ 32 constants has places that no index denotes.
-/

namespace BlockScript.Pool

variable {pool pool' : Pool} {constant : Constant}

/-- Where a constant is found, it is. -/
theorem getElem?_of_find? {position : Nat} (found : pool.find? constant = some position) :
    pool.entries[position]? = some constant :=
  lastBelow_some found

/-- What is not found is not there. -/
theorem not_mem_of_find? (missing : pool.find? constant = none) : constant ∉ pool.entries := by
  intro member
  obtain ⟨position, found⟩ := Array.mem_iff_getElem?.mp member
  exact lastBelow_none missing position (Array.getElem?_eq_some_iff.mp found).1 found

theorem find?_eq_none : pool.find? constant = none ↔ constant ∉ pool.entries := by
  refine ⟨not_mem_of_find?, fun missing => ?_⟩
  cases found : pool.find? constant with
  | none => rfl
  | some position => exact absurd (Array.mem_of_getElem? (getElem?_of_find? found)) missing

/-- A constant that is in one place only is found there. -/
theorem find?_of_getElem? (nodup : pool.entries.toList.Nodup) {position : Nat}
    (here : pool.entries[position]? = some constant) : pool.find? constant = some position := by
  cases found : pool.find? constant with
  | none => exact absurd (Array.mem_of_getElem? here) (not_mem_of_find? found)
  | some other =>
      have there := getElem?_of_find? found
      rw [← Array.getElem?_toList] at here there
      obtain ⟨inside, -⟩ := List.getElem?_eq_some_iff.mp there
      rw [(List.getElem?_inj inside nodup).mp (there.trans here.symm)]

/-- No constant of the pool is lost or moved by interning. -/
theorem intern_extends {limit : Nat} {index : UInt32}
    (run : pool.intern constant limit = .ok (index, pool')) :
    pool.entries.toList <+: pool'.entries.toList := by
  unfold intern at run
  split at run
  · cases run
    exact List.prefix_refl _
  · split at run
    · cases run
      rw [Array.toList_push]
      exact List.prefix_append _ _
    · cases run

/-- In a pool that indices can count, an index denotes the constant at its position. -/
theorem get?_toUInt32 (countable : pool.size ≤ 2 ^ 32) {position : Nat}
    (here : pool.entries[position]? = some constant) :
    pool.get? position.toUInt32 = some constant := by
  have inside : position < UInt32.size :=
    Nat.lt_of_lt_of_le (Array.getElem?_eq_some_iff.mp here).1 countable
  rw [get?, Program.toNat_toUInt32 inside]
  exact here

namespace Indexed

variable {known known' later : Indexed} {limit : Nat} {index : UInt32}

/-! ## What may become of a pool -/

/-- What a pool may become at once: a constant is interned or refused, or the pool is written as
part of a program, whose lengths the format can count, and read again. -/
inductive Passes : Indexed → Indexed → Prop where
  | interned {known known' : Indexed} {constant : Constant} {limit : Nat} {index : UInt32}
      (run : known.intern constant limit = .ok (index, known')) : Passes known known'
  | refused {known : Indexed} {constant : Constant} {limit : Nat} {error : CompileError}
      (run : known.intern constant limit = .error error) : Passes known known
  | reloaded {known : Indexed} {program loaded : Program}
      (holds : program.constants = known.pool) (fits : program.Fits)
      (read : Program.ofBytes program.toBytes = .ok loaded) :
      Passes known (rebuild loaded.constants)

/-- What a pool may become by any number of requests. -/
abbrev Becomes : Indexed → Indexed → Prop := Relation.ReflTransGen Passes

/-- The index is the one that would be made from the constants. -/
def Made (known : Indexed) : Prop := rebuild known.pool = known

theorem made_rebuild (pool : Pool) : (rebuild pool).Made := rfl

theorem made_empty : Made {} := rfl

namespace Made

variable (made : known.Made)
include made

/-- The index gives where the constant is found. -/
theorem index_eq (constant : Constant) :
    known.index constant = (known.pool.find? constant).map Nat.toUInt32 := by
  rw [← rebuild_index, made]

/-- Interning by the index is interning by a search of the pool. -/
theorem pool_intern (constant : Constant) (limit : Nat) :
    known.pool.intern constant limit =
      (known.intern constant limit).map fun result => (result.1, result.2.pool) := by
  have same := intern_rebuild known.pool constant limit
  rw [made] at same
  rw [same]
  cases known.pool.intern constant limit <;> rfl

theorem pool_intern_ok (run : known.intern constant limit = .ok (index, known')) :
    known.pool.intern constant limit = .ok (index, known'.pool) := by
  rw [made.pool_intern, run]
  rfl

theorem intern (run : known.intern constant limit = .ok (index, known')) : known'.Made := by
  have same := intern_rebuild known.pool constant limit
  rw [made, run, made.pool_intern_ok run] at same
  exact (Prod.mk.inj (Except.ok.inj same)).2.symm

/-- Reading a pool that was written changes nothing, the index included. -/
theorem reload {program loaded : Program} (holds : program.constants = known.pool)
    (fits : program.Fits) (read : Program.ofBytes program.toBytes = .ok loaded) :
    rebuild loaded.constants = known := by
  have whole := (Artifact.carries_program fits).exact []
  rw [List.append_nil] at whole
  rw [Program.ofBytes, Program.ofBytes?, Program.toBytes, whole] at read
  obtain rfl : program = loaded := Except.ok.inj read
  rw [holds, made]

/-- So a pool stays as it is, or a constant is interned. -/
theorem passes (passes : known.Passes known') : known' = known ∨
    ∃ constant limit index, known.intern constant limit = .ok (index, known') := by
  cases passes with
  | interned run => exact .inr ⟨_, _, _, run⟩
  | refused run => exact .inl rfl
  | reloaded holds fits read => exact .inl (made.reload holds fits read)

end Made

/-! ## What stays on the way -/

/-- The index still is the one that would be made, no entry has changed or moved, what was found is
found in the same place, and there are no duplicates unless there were some before. -/
structure Keeps (known known' : Indexed) : Prop where
  made : known'.Made
  entries : known.pool.entries.toList <+: known'.pool.entries.toList
  within : known.pool.Within known'.pool
  nodup : known.pool.entries.toList.Nodup → known'.pool.entries.toList.Nodup

theorem Made.keeps_intern (made : known.Made)
    (run : known.intern constant limit = .ok (index, known')) : Keeps known known' where
  made := made.intern run
  entries := intern_extends (made.pool_intern_ok run)
  within := (intern_within (made.pool_intern_ok run)).1
  nodup := nodup_intern (made.pool_intern_ok run)

theorem Becomes.keeps (becomes : known.Becomes known') (made : known.Made) :
    Keeps known known' := by
  induction becomes with
  | refl => exact ⟨made, List.prefix_refl _, Within.refl _, id⟩
  | tail _ passes ih =>
      rcases ih.made.passes passes with rfl | ⟨constant, limit, index, run⟩
      · exact ih
      · have next := ih.made.keeps_intern run
        exact ⟨next.made, ih.entries.trans next.entries, ih.within.trans next.within,
          fun nodup => next.nodup (ih.nodup nodup)⟩

/-! ## What interning gives -/

namespace Made

variable (made : known.Made)
include made

/-- The index that interning gives is that of a place where the constant is. -/
theorem intern_denotes (run : known.intern constant limit = .ok (index, known')) :
    (∃ position : Nat, known'.pool.entries[position]? = some constant ∧ position.toUInt32 = index) ∧
      (known'.pool.size ≤ 2 ^ 32 → known'.pool.get? index = some constant) := by
  obtain ⟨-, position, found, rfl⟩ := intern_within (made.pool_intern_ok run)
  have here := getElem?_of_find? found
  exact ⟨⟨position, here, rfl⟩, fun countable => get?_toUInt32 countable here⟩

/-- Interning it again, whatever has been asked for since, gives the same index. -/
theorem intern_again (run : known.intern constant limit = .ok (index, known'))
    (becomes : known'.Becomes later) (limit' : Nat) :
    later.intern constant limit' = .ok (index, later) := by
  have made' := made.intern run
  obtain ⟨-, position, found, rfl⟩ := intern_within (made.pool_intern_ok run)
  have keeps := becomes.keeps made'
  rw [Indexed.intern, keeps.made.index_eq, keeps.within constant position found]
  rfl

/-- A constant is refused exactly when it is new and the pool holds as many as the limit. -/
theorem intern_refused (constant : Constant) (limit : Nat) (error : CompileError) :
    known.intern constant limit = .error error ↔
      constant ∉ known.pool.entries ∧ limit ≤ known.pool.size ∧
        error = .exhausted .constantPool limit := by
  unfold Indexed.intern
  rw [made.index_eq, ← find?_eq_none]
  cases known.pool.find? constant with
  | some position => simp
  | none =>
      dsimp only [Option.map_none]
      by_cases room : known.pool.size < limit
      · simp [room]
      · simp [room, Nat.le_of_not_lt room, eq_comm]

end Made

/-- Without duplicates the index gives exactly the positions. -/
theorem Made.index_iff (made : known.Made) (nodup : known.pool.entries.toList.Nodup)
    (constant : Constant) (index : UInt32) : known.index constant = some index ↔
      ∃ position : Nat, known.pool.entries[position]? = some constant ∧
        position.toUInt32 = index := by
  rw [made.index_eq, Option.map_eq_some_iff]
  constructor
  · rintro ⟨position, found, same⟩
    exact ⟨position, getElem?_of_find? found, same⟩
  · rintro ⟨position, here, same⟩
    exact ⟨position, find?_of_getElem? nodup here, same⟩

/-- If indices can count the pool, they and the constants determine each other. -/
theorem Made.index_get? (made : known.Made) (nodup : known.pool.entries.toList.Nodup)
    (countable : known.pool.size ≤ 2 ^ 32) (constant : Constant) (index : UInt32) :
    known.index constant = some index ↔ known.pool.get? index = some constant := by
  rw [made.index_iff nodup]
  constructor
  · rintro ⟨position, here, rfl⟩
    exact get?_toUInt32 countable here
  · intro here
    exact ⟨index.toNat, here, UInt32.ofNat_toNat⟩

/-- Whatever is asked of a pool that began empty, in any order and with any limits, its constants
are distinct and its index gives exactly their positions, so that constants and indices determine
each other as long as 32 bits can number them. What interning gives then denotes the constant; it is
given again ever after, no entry changes or moves, and only a new constant is refused, when the pool
holds as many constants as the limit. In a pool that was read from any bytes, duplicates or not, what
interning gives still denotes the constant. The index never changes what interning comes to. -/
theorem interning_consistent (known : Indexed) :
    (Becomes {} known →
      known.pool.entries.toList.Nodup ∧
      (∀ constant index, known.index constant = some index ↔
        ∃ position : Nat, known.pool.entries[position]? = some constant ∧
          position.toUInt32 = index) ∧
      (known.pool.size ≤ 2 ^ 32 → ∀ constant index,
        known.index constant = some index ↔ known.pool.get? index = some constant) ∧
      (∀ later, known.Becomes later →
        known.pool.entries.toList <+: later.pool.entries.toList) ∧
      ∀ constant limit,
        (∀ index known', known.intern constant limit = .ok (index, known') →
          (∃ position : Nat, known'.pool.entries[position]? = some constant ∧
            position.toUInt32 = index) ∧
          (known'.pool.size ≤ 2 ^ 32 → known'.pool.get? index = some constant) ∧
          ∀ later, known'.Becomes later → ∀ limit',
            later.intern constant limit' = .ok (index, later)) ∧
        (∀ error, known.intern constant limit = .error error ↔
          constant ∉ known.pool.entries ∧ limit ≤ known.pool.size ∧
            error = .exhausted .constantPool limit) ∧
        known.pool.intern constant limit =
          (known.intern constant limit).map fun result => (result.1, result.2.pool)) ∧
    ∀ bytes program, Program.ofBytes bytes = .ok program →
      (rebuild program.constants).Becomes known → ∀ constant limit,
        (∀ index known', known.intern constant limit = .ok (index, known') →
          (∃ position : Nat, known'.pool.entries[position]? = some constant ∧
            position.toUInt32 = index) ∧
          (known'.pool.size ≤ 2 ^ 32 → known'.pool.get? index = some constant)) ∧
        known.pool.intern constant limit =
          (known.intern constant limit).map fun result => (result.1, result.2.pool) := by
  constructor
  · intro becomes
    have keeps := becomes.keeps made_empty
    have made := keeps.made
    have nodup := keeps.nodup List.nodup_nil
    refine ⟨nodup, made.index_iff nodup, made.index_get? nodup,
      fun later becomes => (becomes.keeps made).entries, fun constant limit => ⟨?_, ?_, ?_⟩⟩
    · intro index known' run
      obtain ⟨place, denotes⟩ := made.intern_denotes run
      exact ⟨place, denotes, fun later becomes => made.intern_again run becomes⟩
    · exact made.intern_refused constant limit
    · exact made.pool_intern constant limit
  · intro bytes program read becomes constant limit
    have made := (becomes.keeps (made_rebuild program.constants)).made
    exact ⟨fun index known' run => made.intern_denotes run, made.pool_intern constant limit⟩

/-- The pool of the numbers below this one, each entered at its own position. -/
def Numbered (known : Indexed) (count : Nat) : Prop :=
  known.pool.entries.toList = (List.range count).map fun number => .bignum number

/-- The number that comes next is entered at the end. -/
theorem Made.intern_numbered (made : known.Made) {count : Nat} (numbered : known.Numbered count) :
    ∃ known', known.intern (.bignum count) (count + 1) = .ok (count.toUInt32, known') ∧
      known'.Numbered (count + 1) := by
  have size : known.pool.size = count := by
    rw [Pool.size, ← Array.length_toList, numbered, List.length_map, List.length_range]
  have new : .bignum count ∉ known.pool.entries := by
    rw [← Array.mem_toList_iff, numbered, List.mem_map]
    rintro ⟨number, below, same⟩
    cases same
    exact Nat.lt_irrefl _ (List.mem_range.mp below)
  have unknown : known.index (.bignum count) = none := by
    rw [made.index_eq, find?_eq_none.mpr new]
    rfl
  refine ⟨⟨⟨known.pool.entries.push (.bignum count)⟩,
    Function.update known.index (.bignum count) (some count.toUInt32)⟩, ?_, ?_⟩
  · rw [Indexed.intern, unknown]
    dsimp only
    rw [size, if_pos (Nat.lt_succ_self count)]
  · rw [Numbered, Array.toList_push, numbered, List.range_succ, List.map_append]
    rfl

theorem becomes_numbered (count : Nat) : ∃ known, Becomes {} known ∧ known.Numbered count := by
  induction count with
  | zero => exact ⟨{}, .refl, rfl⟩
  | succ count ih =>
      obtain ⟨known, becomes, numbered⟩ := ih
      obtain ⟨known', run, numbered'⟩ :=
        (becomes.keeps made_empty).made.intern_numbered numbered
      exact ⟨known', becomes.tail (.interned run), numbered'⟩

/-- Interning one constant more than there are indices gives the index of another constant. -/
theorem index_denotes_another : ∃ known known' constant limit index other,
    Becomes {} known ∧ known.intern constant limit = .ok (index, known') ∧
      known'.pool.get? index = some other ∧ other ≠ constant := by
  obtain ⟨known, becomes, numbered⟩ := becomes_numbered (2 ^ 32)
  obtain ⟨known', run, numbered'⟩ := (becomes.keeps made_empty).made.intern_numbered numbered
  have wrapped : (2 ^ 32 : Nat).toUInt32 = 0 := by decide +kernel
  rw [wrapped] at run
  refine ⟨known, known', .bignum (2 ^ 32 : Nat), 2 ^ 32 + 1, 0, .bignum 0, becomes, run, ?_, ?_⟩
  · rw [Pool.get?, ← Array.getElem?_toList, numbered', List.getElem?_map,
      List.getElem?_range (i := UInt32.toNat 0) (by decide)]
    rfl
  · decide

end Indexed

end BlockScript.Pool
