import Mathlib.Data.List.Flatten
import Mathlib.Data.List.Nodup
import Mathlib.Logic.Relation
import BlockScript.Code.Basic
import BlockScript.Proofs.Backend.Lasting
import BlockScript.Proofs.Backend.Lineage

/-!
# The shape of what is on a bench

A unit claims its slot when it opens, and its body is referred to only after the unit has closed,
by an operation of the unit around it. So what a body refers to has a later slot, and it is one
that was claimed and filled before any unit was opened that is still open inside the body's own
unit. Whenever innermost units are discarded with all slots from theirs on, what is left refers to
what is left. `Bench.Shaped` says this of finished bodies and of those under construction alike.
-/

/-! ## The shape of a program

The bodies of a program form a forest. A body refers to the blocks that are made in it and to the
methods that are defined in it, all of which have later positions, and no body is referred to
twice. The script is the first body and the only one of its kind.
-/

namespace BlockScript

/-- The body that the operation refers to, and of which kind it has to be. -/
def Op.inner? : Op → Option (UInt32 × UnitKind)
  | makeClosure code | send _ _ _ (some code) => some (code, .closure)
  | defineMethod _ code => some (code, .method)
  | _ => none

namespace Code

/-- What the operations of a body refer to, one after the other. -/
def inner (code : Code) : List (UInt32 × UnitKind) := code.ops.toList.filterMap Op.inner?

/-- The positions that the operations of a body refer to. -/
def references (code : Code) : List UInt32 := code.inner.map (·.1)

end Code

namespace Program

/-- The positions that operations of the program refer to. -/
def references (program : Program) : List UInt32 := program.code.toList.flatMap Code.references

/-- Some operation of the body at `outer` refers to the one at `inner`. -/
def Refers (program : Program) (outer inner : UInt32) : Prop :=
  ∃ code, program.code? outer = some code ∧ inner ∈ code.references

/-- The script comes first, no slot is left open, and each operation refers to a body of its own,
which comes later and is of the kind that the operation is for. -/
structure Shaped (program : Program) : Prop where
  script : ∃ body, program.main? = some body ∧ body.kind = .script
  single : ∀ position code, program.code[position]? = some code → code.kind = .script →
    position = 0
  filled : ∀ code ∈ program.code, code ≠ .placeholder
  inner : ∀ position code, program.code[position]? = some code →
    ∀ target kind, (target, kind) ∈ code.inner →
      position < target.toNat ∧ ∃ body, program.code? target = some body ∧ body.kind = kind
  once : program.references.Nodup
  pool : program.constants.entries.toList.Nodup

/-- No body lies in two others or, however deep, in itself. -/
structure Forest (program : Program) : Prop where
  parent : ∀ outer outer' inner, program.Refers outer inner → program.Refers outer' inner →
    outer = outer'
  acyclic : ∀ position, ¬Relation.TransGen program.Refers position position

variable {program : Program}

theorem Shaped.refers_lt (h : program.Shaped) {outer inner : UInt32}
    (refers : program.Refers outer inner) : outer < inner := by
  obtain ⟨code, found, member⟩ := refers
  obtain ⟨⟨target, kind⟩, listed, rfl⟩ := List.mem_map.mp member
  exact UInt32.lt_iff_toNat_lt.mpr (h.inner _ code found target kind listed).1

theorem Shaped.forest (h : program.Shaped) : program.Forest where
  parent := by
    rintro outer outer' inner ⟨code, found, member⟩ ⟨code', found', member'⟩
    obtain ⟨inside, at_outer⟩ := Array.getElem?_eq_some_iff.mp found
    obtain ⟨inside', at_outer'⟩ := Array.getElem?_eq_some_iff.mp found'
    by_contra differ
    have apart : outer.toNat ≠ outer'.toNat := fun same => differ (UInt32.toNat_inj.mp same)
    -- what two bodies refer to is disjoint
    have disjoint {i j : Nat} (hi : i < program.code.size) (hj : j < program.code.size)
        (lt : i < j) : List.Disjoint program.code[i].references program.code[j].references := by
      have pairs := (List.nodup_flatMap.mp h.once).2
      exact List.pairwise_iff_getElem.mp pairs i j (by simpa using hi) (by simpa using hj) lt
    rcases Nat.lt_or_gt_of_ne apart with lt | gt
    · exact disjoint inside inside' lt (at_outer ▸ member) (at_outer' ▸ member')
    · exact disjoint inside' inside gt (at_outer' ▸ member') (at_outer ▸ member)
  acyclic := by
    have lt {outer inner : UInt32} (path : Relation.TransGen program.Refers outer inner) :
        outer < inner := by
      induction path with
      | single refers => exact h.refers_lt refers
      | tail _ refers ih => exact UInt32.lt_trans ih (h.refers_lt refers)
    exact fun position path => UInt32.lt_irrefl position (lt path)

end Program

/-! ## Bodies and builders -/

namespace Code

theorem inner_push (code : Code) (op : Op) :
    ({ code with ops := code.ops.push op } : Code).inner = code.inner ++ op.inner?.toList := by
  simp only [inner, Array.toList_push, List.filterMap_append, List.filterMap_cons, List.filterMap_nil]
  cases op.inner? <;> rfl

theorem mem_references {code : Code} {target : UInt32} :
    target ∈ code.references ↔ ∃ kind, (target, kind) ∈ code.inner := by
  simp [references]

end Code

namespace Builder

variable {builder builder' : Builder}

theorem inner_emit {operation : String} {op : Op} (run : builder.emit operation op = .ok builder') :
    builder'.code.inner = builder.code.inner ++ op.inner?.toList := by
  obtain ⟨stack, -, rfl⟩ := emit_ok run
  exact builder.code.inner_push op

theorem inner_emitTimes {operation : String} {op : Op} (plain : op.inner? = none) {count : Nat}
    (run : emitTimes operation op count builder = .ok builder') :
    builder'.code.inner = builder.code.inner := by
  induction count generalizing builder with
  | zero =>
      cases run
      rfl
  | succ count ih =>
      obtain ⟨middle, first, rest⟩ := Verifier.bind_ok run
      rw [ih rest, inner_emit first, plain, Option.toList_none, List.append_nil]

/-- Closing a unit adds no references to its body. -/
theorem inner_finish {code : Code} (run : builder.finish = .ok code) :
    code.inner = builder.code.inner := by
  obtain ⟨surplus, popped, valued, closed, -, pops, pushes, closes, rfl⟩ := finish_ok run
  have kept : valued.code.inner = popped.code.inner := by
    rcases pushes with ⟨-, pushes⟩ | ⟨-, rfl⟩
    · exact (inner_emit pushes).trans (List.append_nil _)
    · rfl
  exact (inner_emit closes).trans
    ((List.append_nil _).trans (kept.trans (inner_emitTimes rfl pops)))

/-- An operation that is overwritten by a jump refers to nothing any more. -/
theorem inner_patchHere (builder : Builder) (patch : JumpPatch) :
    (builder.patchHere patch).code.inner.Sublist builder.code.inner := by
  have overwrite (jump : Op) (plain : jump.inner? = none) (ops : List Op) (ip : Nat) :
      ((ops.set ip jump).filterMap Op.inner?).Sublist (ops.filterMap Op.inner?) := by
    induction ops generalizing ip with
    | nil => exact List.Sublist.refl _
    | cons op rest ih =>
        cases ip with
        | zero =>
            rw [List.set_cons_zero, List.filterMap_cons_none plain]
            exact (List.sublist_cons_self op rest).filterMap _
        | succ ip =>
            rw [List.set_cons_succ, List.filterMap_cons, List.filterMap_cons]
            split
            · exact ih ip
            · exact (ih ip).cons_cons _
  have jump : (patch.kind.op (offset patch.ip builder.label)).inner? = none := by
    cases patch.kind <;> rfl
  rw [patchHere_eq, Code.inner, Array.toList_setIfInBounds]
  exact overwrite _ jump _ _

end Builder

namespace Pool

variable {pool pool' : Pool} {constant : Constant}

theorem lastBelow_none {entries : Array Constant} {bound : Nat}
    (h : lastBelow entries constant bound = none) : ∀ i < bound, entries[i]? ≠ some constant := by
  induction bound with
  | zero => exact nofun
  | succ bound ih =>
      unfold lastBelow at h
      split at h
      · cases h
      · rename_i differ
        intro i lt
        rcases Nat.lt_succ_iff_lt_or_eq.mp lt with lt | rfl
        · exact ih h i lt
        · exact differ

/-- Only a constant that the pool does not have joins it. -/
theorem nodup_intern {limit : Nat} {position : UInt32}
    (run : pool.intern constant limit = .ok (position, pool'))
    (nodup : pool.entries.toList.Nodup) : pool'.entries.toList.Nodup := by
  unfold intern at run
  split at run
  · cases run
    exact nodup
  · rename_i missing
    split at run
    · cases run
      rw [Array.toList_push]
      refine List.nodup_append'.mpr ⟨nodup, List.nodup_singleton _, fun other member last => ?_⟩
      cases List.mem_singleton.mp last
      obtain ⟨i, found⟩ := List.mem_iff_getElem?.mp member
      rw [Array.getElem?_toList] at found
      exact lastBelow_none missing i (Array.getElem?_eq_some_iff.mp found).1 found
    · cases run

end Pool

namespace Bench

/-- The bodies that are under construction. -/
def drafts (bench : Bench) : List Code :=
  bench.units.units.filterMap fun unit => unit.payload.map (·.builder.code)

/-- What finished bodies and those under construction refer to. -/
def references (bench : Bench) : List UInt32 :=
  (bench.program.code.toList ++ bench.drafts).flatMap Code.references

/-- The body, finished or under construction, belongs to the slot. -/
inductive Draft (bench : Bench) : Nat → Code → Prop where
  | installed {position : Nat} {code : Code} (found : bench.program.code[position]? = some code) :
      Draft bench position code
  | recorded {unit : OpenUnit (Option Recording)} {recording : Recording}
      (opened : unit ∈ bench.units.units) (payload : unit.payload = some recording) :
      Draft bench recording.slot.toNat recording.builder.code

/-- The slot has been filled, with a body of that kind. -/
def Filled (bench : Bench) (target : UInt32) (kind : UnitKind) : Prop :=
  ∃ body, bench.program.code? target = some body ∧ body.kind = kind ∧ body.ops ≠ #[]

/-- The body of one slot may refer to that of another: it comes later, but before the slots of
all units that were opened later and are still open. -/
structure Inside (bench : Bench) (position : Nat) (target : UInt32) (kind : UnitKind) : Prop where
  later : position < target.toNat
  filled : bench.Filled target kind
  early : ∀ slot ∈ slots bench.places, position < slot → target.toNat < slot

/-- A body that was recorded inside the innermost unit and that nothing refers to yet. -/
structure Loose (bench : Bench) (target : UInt32) (kind : UnitKind) : Prop where
  filled : bench.Filled target kind
  behind : ∀ slot ∈ slots bench.places, slot < target.toNat
  free : target ∉ bench.references

/-- Finished bodies and those under construction refer to bodies of their own. -/
structure Shaped (bench : Bench) : Prop where
  sharing : bench.sharing = false
  proper : bench.Proper false
  tabled : bench.Tabled
  recorded : ∀ unit ∈ bench.units.units, ∃ recording, unit.payload = some recording ∧
    recording.builder.code.kind = unit.kind
  /-- A method is defined inside some unit. -/
  outermost : ∀ unit, bench.units.units.getLast? = some unit → unit.kind ≠ .method
  inner : ∀ position code, bench.Draft position code →
    ∀ target kind, (target, kind) ∈ code.inner → bench.Inside position target kind
  once : bench.references.Nodup
  pool : bench.program.constants.entries.toList.Nodup

variable {bench bench' : Bench}

theorem mem_references {target : UInt32} : target ∈ bench.references ↔
    ∃ position code kind, bench.Draft position code ∧ (target, kind) ∈ code.inner := by
  constructor
  · intro member
    obtain ⟨code, listed, member⟩ := List.mem_flatMap.mp member
    obtain ⟨kind, member⟩ := Code.mem_references.mp member
    rcases List.mem_append.mp listed with listed | listed
    · obtain ⟨position, found⟩ := List.mem_iff_getElem?.mp listed
      exact ⟨position, code, kind, .installed (by simpa using found), member⟩
    · obtain ⟨unit, opened, carries⟩ := List.mem_filterMap.mp listed
      obtain ⟨recording, payload, rfl⟩ := Option.map_eq_some_iff.mp carries
      exact ⟨_, _, kind, .recorded opened payload, member⟩
  · rintro ⟨position, code, kind, draft, member⟩
    refine List.mem_flatMap.mpr ⟨code, ?_, Code.mem_references.mpr ⟨kind, member⟩⟩
    cases draft with
    | installed found => exact List.mem_append_left _ (Array.mem_def.mp (Array.mem_of_getElem? found))
    | recorded opened payload =>
        exact List.mem_append_right _ (List.mem_filterMap.mpr ⟨_, opened, by rw [payload]; rfl⟩)

/-- The slot of an open unit is empty. -/
theorem Tabled.not_filled (h : bench.Tabled) {slot : UInt32} {kind : UnitKind}
    (claimed : slot.toNat ∈ slots bench.places) : ¬bench.Filled slot kind := by
  rintro ⟨body, found, -, filled⟩
  exact filled ((h.empty slot.toNat body found).mpr claimed)

theorem mem_slots {position : Nat} {units : List (OpenUnit (Option Recording))} :
    position ∈ slots (units.map place) ↔
      ∃ unit ∈ units, ∃ recording, unit.payload = some recording ∧ recording.slot.toNat = position := by
  simp only [slots, List.filterMap_map, List.mem_filterMap, Function.comp_apply, place,
    Option.map_eq_some_iff]

theorem Filled.lt {target : UInt32} {kind : UnitKind} (h : bench.Filled target kind) :
    target.toNat < bench.program.code.size := by
  obtain ⟨body, found, -⟩ := h
  exact (Array.getElem?_eq_some_iff.mp found).1

theorem Filled.congr {target : UInt32} {kind : UnitKind} (h : bench.Filled target kind)
    (same : bench'.program.code[target.toNat]? = bench.program.code[target.toNat]?) :
    bench'.Filled target kind :=
  let ⟨body, found, filled⟩ := h
  ⟨body, same.trans found, filled⟩

/-- The innermost unit has the last of the claimed slots. -/
theorem Tabled.innermost (h : bench.Tabled) {unit : OpenUnit (Option Recording)}
    {outer : List (OpenUnit (Option Recording))} {recording : Recording}
    (hunits : bench.units.units = unit :: outer) (payload : unit.payload = some recording) :
    slots bench.places = recording.slot.toNat :: slots (outer.map place) ∧
      ∀ slot ∈ slots (outer.map place), slot < recording.slot.toNat := by
  have split : slots bench.places = recording.slot.toNat :: slots (outer.map place) := by
    rw [places, hunits, List.map_cons, place, payload]
    rfl
  have ordered := h.ordered
  rw [split] at ordered
  exact ⟨split, (List.pairwise_cons.mp ordered).1⟩

/-! ## Recording -/

theorem drafts_of_units {unit : OpenUnit (Option Recording)}
    {outer : List (OpenUnit (Option Recording))} {recording : Recording}
    (hunits : bench.units.units = unit :: outer) (payload : unit.payload = some recording) :
    bench.drafts = recording.builder.code ::
      outer.filterMap fun unit => unit.payload.map (·.builder.code) := by
  rw [drafts, hunits, List.filterMap_cons_some (b := recording.builder.code) (by rw [payload]; rfl)]

/-- The innermost recording goes on: it may lose references, and gain ones to loose bodies. -/
theorem Shaped.setBuilder (h : bench.Shaped) {slot : UInt32} {builder builder' : Builder}
    (found : bench.recording? = some ⟨slot, builder⟩)
    (kind : builder'.code.kind = builder.code.kind) {added : List (UInt32 × UnitKind)}
    (inner : builder'.code.inner.Sublist (builder.code.inner ++ added))
    (loose : ∀ entry ∈ added, bench.Loose entry.1 entry.2) (distinct : (added.map (·.1)).Nodup) :
    (bench.setBuilder builder').Shaped := by
  obtain ⟨unit, outer, hunits, payload⟩ := recording?_eq_some.mp found
  have opened : unit ∈ bench.units.units := hunits ▸ List.mem_cons_self ..
  have units := setBuilder_units hunits payload builder'
  have places := places_setBuilder bench builder'
  have inside {position : Nat} {target : UInt32} {kind : UnitKind}
      (inside : bench.Inside position target kind) :
      (bench.setBuilder builder').Inside position target kind :=
    ⟨inside.later, inside.filled, places ▸ inside.early⟩
  refine {
    sharing := h.sharing, proper := h.proper.setBuilder builder'
    tabled := h.tabled.congr rfl places rfl rfl, recorded := ?recorded
    outermost := ?outermost, inner := ?inner, once := ?once, pool := h.pool }
  case recorded =>
    intro other member
    rw [units] at member
    rcases List.mem_cons.mp member with rfl | member
    · obtain ⟨recording, payload', same⟩ := h.recorded unit opened
      cases payload.symm.trans payload'
      exact ⟨_, rfl, kind.trans same⟩
    · exact h.recorded other (hunits ▸ List.mem_cons_of_mem _ member)
  case outermost =>
    intro other last
    have outermost := h.outermost
    rw [hunits] at outermost
    rw [units] at last
    cases outer with
    | nil =>
        cases last
        exact outermost unit rfl
    | cons next outer => exact outermost other last
  case inner =>
    intro position code draft target kind member
    cases draft with
    | installed found => exact inside (h.inner position code (.installed found) target kind member)
    | @recorded other recording opened' payload' =>
        rw [units] at opened'
        rcases List.mem_cons.mp opened' with rfl | opened'
        · cases payload'
          rcases List.mem_append.mp (inner.subset member) with old | new
          · exact inside (h.inner _ _ (.recorded opened payload) target kind old)
          · have loose := loose _ new
            obtain ⟨split, before⟩ := h.tabled.innermost hunits payload
            have here : slot.toNat ∈ slots bench.places := split ▸ List.mem_cons_self ..
            refine inside ⟨loose.behind _ here, loose.filled, fun other claimed gt => ?_⟩
            rw [split] at claimed
            rcases List.mem_cons.mp claimed with rfl | claimed
            · exact absurd gt (Nat.lt_irrefl _)
            · exact absurd (before other claimed) (Nat.lt_asymm gt)
        · exact inside (h.inner _ _ (.recorded (hunits ▸ List.mem_cons_of_mem _ opened') payload')
            target kind member)
  case once =>
    have once := h.once
    rw [references, drafts_of_units hunits payload, List.flatMap_append, List.flatMap_cons] at once
    rw [references, drafts_of_units units rfl, List.flatMap_append, List.flatMap_cons]
    have program : (bench.setBuilder builder').program = bench.program := rfl
    have wider : builder'.code.references.Sublist
        (builder.code.references ++ added.map (·.1)) := by
      rw [Code.references, Code.references, ← List.map_append]
      exact inner.map _
    refine List.Nodup.sublist (List.Sublist.append (List.Sublist.refl _)
      (wider.append (List.Sublist.refl _))) ?_
    have apart : List.Disjoint (added.map (·.1)) bench.references := by
      intro target member
      obtain ⟨entry, listed, rfl⟩ := List.mem_map.mp member
      exact (loose entry listed).free
    rw [references, drafts_of_units hunits payload, List.flatMap_append, List.flatMap_cons] at apart
    refine ((List.nodup_append'.mpr ⟨distinct, once, apart⟩).perm ?_)
    refine List.perm_iff_count.mpr fun target => ?_
    simp only [List.count_append, program]
    omega

/-- Neither the level of control flow matters nor the line, and the constants only have to be
different. -/
theorem Shaped.rest (h : bench.Shaped) (nesting : Nat) (line : Option UInt32) {constants : Pool}
    (pool : constants.entries.toList.Nodup) :
    Shaped { bench with
      units := { bench.units with nesting }
      program := { bench.program with constants }
      line } where
  sharing := h.sharing
  proper := ⟨h.proper.fresh, h.proper.distinct, h.proper.script⟩
  tabled := h.tabled.congr rfl rfl rfl rfl
  recorded := h.recorded
  outermost := h.outermost
  inner position code draft target kind member := by
    have before : bench.Draft position code := by
      cases draft with
      | installed found => exact .installed found
      | recorded opened payload => exact .recorded opened payload
    have inside := h.inner position code before target kind member
    exact ⟨inside.later, inside.filled, inside.early⟩
  once := h.once
  pool := pool

/-! ## Units that open and close -/

theorem Shaped.open (h : bench.Shaped) {kind : UnitKind} {name : String} {handle : UnitHandle}
    {units : UnitStack (Option Recording)} {builder : Builder}
    (room : bench.program.code.size < bench.config.maxPoolEntries)
    (hopen : bench.units.open kind name (some ⟨bench.program.code.size.toUInt32, builder⟩) =
      .ok (handle, units))
    (empty : builder.code.ops = #[]) (same : builder.code.kind = kind)
    (around : kind = .method → bench.units.units ≠ []) :
    Shaped { bench with units, program := bench.program.reserve.2 } := by
  have later := lasts_openUnit room hopen (fun _ => rfl) h.proper
  have tabled := (later.table h.tabled).1
  obtain ⟨-, rfl⟩ := UnitStack.open_ok hopen
  have next : bench.program.code.size.toUInt32.toNat = bench.program.code.size :=
    Program.toNat_toUInt32 (Nat.lt_of_lt_of_le room h.tabled.limit)
  have none : builder.code.inner = [] := by rw [Code.inner, empty]; rfl
  refine ⟨h.sharing, later.proper, tabled, ?_, ?_, ?_, ?_, h.pool⟩
  · intro unit member
    rcases List.mem_cons.mp member with rfl | member
    · exact ⟨_, rfl, same⟩
    · exact h.recorded unit member
  · intro unit last
    cases outer : bench.units.units with
    | nil =>
        rw [outer] at last around
        cases last
        exact fun method => around method rfl
    | cons next outer' =>
        have outermost := h.outermost unit
        rw [outer] at last outermost
        exact outermost last
  · intro position code draft target kind' member
    have before : bench.Draft position code := by
      cases draft with
      | installed found =>
          have found : (bench.program.code.push .placeholder)[position]? = some code := found
          rw [Array.getElem?_push] at found
          split at found
          · cases found
            exact absurd member List.not_mem_nil
          · exact .installed found
      | recorded opened payload =>
          rcases List.mem_cons.mp opened with rfl | opened
          · cases payload
            exact absurd member (none ▸ List.not_mem_nil)
          · exact .recorded opened payload
    have inside := h.inner position code before target kind' member
    have lt := inside.filled.lt
    refine ⟨inside.later, inside.filled.congr ?_, fun slot claimed gt => ?_⟩
    · exact Array.getElem?_push_lt lt ▸ (Array.getElem?_eq_getElem lt).symm
    · rcases mem_slots_cons.mp claimed with new | claimed
      · rw [← Option.some.inj new]
        exact Nat.lt_of_lt_of_eq lt next.symm
      · exact inside.early slot claimed gt
  · have empty : builder.code.references = [] := by rw [Code.references, none]; rfl
    have table : bench.program.reserve.2.code.toList = bench.program.code.toList ++ [.placeholder] :=
      Array.toList_push
    have once := h.once
    rw [references, List.flatMap_append] at once
    rw [references, drafts_of_units rfl rfl, List.flatMap_append, List.flatMap_cons, empty, table,
      List.flatMap_append]
    exact (List.append_nil _).symm ▸ once

/-- Units are discarded, and their slots are given back from the outermost one on. -/
theorem Shaped.release (h : bench.Shaped) (dropped : List (OpenUnit (Option Recording)))
    {rest : List (OpenUnit (Option Recording))} (hunits : bench.units.units = dropped ++ rest)
    {slot : UInt32} (claimed : slot.toNat ∈ slots (dropped.map place))
    (least : ∀ position ∈ slots (dropped.map place), slot.toNat ≤ position) :
    (release { bench with units := { bench.units with units := rest } } slot).Shaped := by
  have later := lasts_release dropped hunits claimed least h.proper
  have split : slots bench.places = slots (dropped.map place) ++ slots (rest.map place) := by
    rw [places, hunits, List.map_append, slots_append]
  have ordered := h.tabled.ordered
  rw [split] at ordered
  have before : ∀ position ∈ slots (rest.map place), position < slot.toNat :=
    fun position member => (List.pairwise_append.mp ordered).2.2 _ claimed position member
  refine ⟨h.sharing, later.proper, (later.table h.tabled).1,
    fun unit member => h.recorded unit (hunits ▸ List.mem_append_right _ member), ?_, ?_, ?_, h.pool⟩
  · intro unit last
    refine h.outermost unit ?_
    have last : rest.getLast? = some unit := last
    rw [hunits, List.getLast?_append, last]
    rfl
  · intro position code draft target kind member
    have kept : bench.Draft position code ∧ position < slot.toNat := by
      cases draft with
      | installed found =>
          have found : (bench.program.release slot).code[position]? = some code := found
          rw [Program.getElem?_release] at found
          split at found
          · exact ⟨.installed found, ‹_›⟩
          · cases found
      | recorded opened payload =>
          exact ⟨.recorded (hunits ▸ List.mem_append_right _ opened) payload,
            before _ (mem_slots.mpr ⟨_, opened, _, payload, rfl⟩)⟩
    have inside := h.inner position code kept.1 target kind member
    have early := inside.early slot.toNat (split ▸ List.mem_append_left _ claimed) kept.2
    refine ⟨inside.later, inside.filled.congr ?_, fun other member => ?_⟩
    · exact (Program.getElem?_release ..).trans (if_pos early)
    · exact inside.early other (split ▸ List.mem_append_right _ member)
  · refine List.Nodup.sublist (List.Sublist.flatMap ?_ _) h.once
    refine List.Sublist.append ?_ ?_
    · show ((bench.program.code.extract 0 slot.toNat).toList).Sublist _
      rw [Array.toList_extract]
      exact (List.take_sublist _ _).trans (List.drop_sublist _ _)
    · rw [drafts, drafts, hunits]
      exact (List.sublist_append_right _ _).filterMap _

theorem flatMap_set {α β : Type} {f : α → List β} {old : α} (nothing : f old = []) (new : α)
    {items : List α} {i : Nat} (found : items[i]? = some old) :
    ((items.set i new).flatMap f).Perm (f new ++ items.flatMap f) := by
  induction items generalizing i with
  | nil => cases found
  | cons item rest ih =>
      cases i with
      | zero =>
          cases found
          rw [List.set_cons_zero, List.flatMap_cons, List.flatMap_cons, nothing, List.nil_append]
      | succ i =>
          rw [List.set_cons_succ, List.flatMap_cons, List.flatMap_cons]
          exact ((ih found).append_left _).trans (List.perm_append_comm_assoc ..)

/-- The innermost unit is closed, and its slot is filled. Nothing refers to it yet. -/
theorem Shaped.fill (h : bench.Shaped) {unit : OpenUnit (Option Recording)}
    {rest : List (OpenUnit (Option Recording))} {slot : UInt32} {builder : Builder}
    (hunits : bench.units.units = unit :: rest) (payload : unit.payload = some ⟨slot, builder⟩)
    {code : Code} (finished : builder.finish = .ok code)
    (same : bench' = { bench with
      units := { bench.units with units := rest }
      program := bench.program.fill slot code }) :
    bench'.Shaped ∧ bench'.Loose slot unit.kind := by
  have filled := Builder.ops_of_finish finished
  have later := lasts_fill hunits payload filled h.proper
  rw [if_neg (h.sharing ▸ Bool.false_ne_true), ← same] at later
  obtain ⟨split, before⟩ := h.tabled.innermost hunits payload
  have opened : unit ∈ bench.units.units := hunits ▸ List.mem_cons_self ..
  have claimed : slot.toNat ∈ slots bench.places := split ▸ List.mem_cons_self ..
  have inside := h.tabled.claimed _ claimed
  have places : bench'.places = rest.map place := by rw [same]; rfl
  have looked (position : Nat) : bench'.program.code[position]? =
      if slot.toNat = position then some code else bench.program.code[position]? := by
    rw [same]
    exact Program.getElem?_fill inside code position
  have references : bench'.references.Perm bench.references := by
    obtain ⟨old, found⟩ : ∃ old, bench.program.code[slot.toNat]? = some old :=
      ⟨_, Array.getElem?_eq_getElem inside⟩
    have nothing : old.references = [] := by
      rw [Code.references, Code.inner, (h.tabled.empty _ old found).mpr claimed]
      rfl
    have table : bench'.program.code.toList = bench.program.code.toList.set slot.toNat code := by
      rw [same]
      exact Array.toList_setIfInBounds ..
    have drafts : bench'.drafts = rest.filterMap fun unit => unit.payload.map (·.builder.code) := by
      rw [same]
      rfl
    have moved : code.references = builder.code.references := by
      rw [Code.references, Code.references, Builder.inner_finish finished]
    rw [Bench.references, Bench.references, table, drafts, drafts_of_units hunits payload,
      List.flatMap_append, List.flatMap_append, List.flatMap_cons, ← moved]
    refine ((flatMap_set nothing code (Array.getElem?_toList ▸ found)).append_right _).trans ?_
    rw [List.append_assoc]
    exact List.perm_append_comm_assoc ..
  have kind : code.kind = unit.kind := by
    obtain ⟨recording, payload', kind⟩ := h.recorded unit opened
    cases payload.symm.trans payload'
    exact (Builder.kind_finish finished).trans kind
  refine ⟨{
      sharing := ?sharing, proper := later.proper, tabled := (later.table h.tabled).1
      recorded := ?recorded, outermost := ?outermost, inner := ?inner
      once := references.nodup_iff.mpr h.once, pool := ?pool },
    { filled := ⟨code, ?filled, kind, filled⟩, behind := ?behind, free := ?free }⟩
  case sharing =>
    rw [same]
    exact h.sharing
  case recorded =>
    intro other member
    rw [same] at member
    exact h.recorded other (hunits ▸ List.mem_cons_of_mem _ member)
  case outermost =>
    intro other last
    rw [same] at last
    have outermost := h.outermost other
    rw [hunits] at outermost
    cases rest with
    | nil => cases last
    | cons next rest => exact outermost last
  case inner =>
    intro position body draft target kind member
    -- the body that was finished refers to what was recorded
    obtain ⟨earlier, draft, inner⟩ : ∃ earlier, bench.Draft position earlier ∧
        body.inner = earlier.inner := by
      cases draft with
      | installed found =>
          rw [looked] at found
          split at found
          · rename_i here
            cases found
            exact ⟨_, here ▸ .recorded opened payload, Builder.inner_finish finished⟩
          · exact ⟨body, .installed found, rfl⟩
      | recorded opened' payload' =>
          rw [same] at opened'
          exact ⟨_, .recorded (hunits ▸ List.mem_cons_of_mem _ opened') payload', rfl⟩
    have inside := h.inner position earlier draft target kind (inner ▸ member)
    refine ⟨inside.later, inside.filled.congr ?_, fun other member => ?_⟩
    · rw [looked, if_neg]
      exact fun here => h.tabled.not_filled (here ▸ claimed) inside.filled
    · rw [places] at member
      exact inside.early other (split ▸ List.mem_cons_of_mem _ member)
  case pool =>
    rw [same]
    exact h.pool
  case filled =>
    exact (looked slot.toNat).trans (if_pos rfl)
  case behind =>
    rw [places]
    exact before
  case free =>
    intro member
    obtain ⟨position, body, kind, draft, member⟩ := mem_references.mp (references.mem_iff.mp member)
    exact h.tabled.not_filled claimed (h.inner position body draft slot kind member).filled

end Bench

end BlockScript
