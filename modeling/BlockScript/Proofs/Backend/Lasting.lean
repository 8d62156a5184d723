import BlockScript.Proofs.Backend.BenchOutcomes
import BlockScript.Proofs.Contract.Straight

/-!
# What outlasts an operation

Whether an operation succeeds or fails, the units that were open before it and still are lie
where they did, their recordings have at most been appended to, and the level of control flow
is the one from before. The code table is kept in order: a slot is empty as long as its unit
is open, units further inward have later slots, and the code objects that may be shared are
the ones in the table. What was installed before a unit was opened stays as it is at least
until the unit is gone.

All of this is one relation between a bench and a later one, `Bench.Lasts`. It is reflexive
and transitive, and every change that a backend makes to its bench is in it, so it holds
between the benches before and after any sequence of operations.
-/

/-! ## How operations without nested code are recorded

Recording such an operation takes few steps: the unit is looked up, constants join the pool and
an operation of the machine is appended, past which control goes. So what these steps have, and
what is kept when computations are put together, every operation has that neither opens nor
closes a unit, unless it sets a line.
-/

namespace BlockScript.Bench

/-- A property of computations on a bench that is kept when they are put together, and that the
steps have by which an operation without nested code is recorded. -/
structure Appending (P : ∀ {α : Type}, BenchM α → Prop) : Prop where
  pure : ∀ {α : Type} (value : α), P (Pure.pure value : BenchM α)
  bind : ∀ {α γ : Type} {first : BenchM α} {next : α → BenchM γ}, P first →
    (∀ value, P (next value)) → P (first >>= next)
  look : P (get : BenchM Bench)
  fail : ∀ {α : Type} (kind : Violation) (line : Option UInt32),
    P (throw (.violation kind line) : BenchM α)
  target : P target
  intern : ∀ constant : Constant, P (intern constant)
  emit : ∀ (operation : String) {op : Op}, op.falls = true → op.jumpOffset? = none →
    P (emit operation op)

namespace Appending

section Relation

variable {R : Bench → Bench → Prop} [IsPreorder Bench R] {bench bench' : Bench}

theorem unmoved {error : CompileError} (h : bench.Unmoved error bench') : R bench bench' :=
  h.2 ▸ refl_of R bench

theorem moves_target : Moves R Bench.target :=
  fun bench => ends_target.mono (fun _ _ h => h.1 ▸ refl_of R bench) fun _ _ => unmoved

/-- Only two of the steps change the bench. -/
theorem of_moves
    (pools : ∀ (bench : Bench) (constants : Pool),
      R bench { bench with program := { bench.program with constants } })
    (emits : ∀ (operation : String) {op : Op}, op.falls = true → op.jumpOffset? = none →
      Moves R (Bench.emit operation op)) : Appending (fun {α} (action : BenchM α) => Moves R action) where
  pure value := .pure value
  bind h₁ h₂ := h₁.bind h₂
  look := fun bench => refl_of R bench
  fail _ _ := .throws _
  target := moves_target
  intern _ := fun bench => ends_intern.mono
    (fun _ _ ⟨constants, _, same⟩ => same ▸ pools bench constants) fun _ _ => unmoved
  emit := emits

end Relation

variable {P : ∀ {α : Type}, BenchM α → Prop} (appending : Appending P)

theorem ite {α : Type} {c : Prop} [Decidable c] {yes no : BenchM α} (h₁ : P yes) (h₂ : P no) :
    P (if c then yes else no) := by
  split
  · exact h₁
  · exact h₂

include appending

theorem checkScopeDepth (depth : Nat) : P (checkScopeDepth depth) :=
  appending.bind appending.look fun _ => ite (appending.fail _ _) (appending.pure ())

theorem emitPooled (operation : String) (constant : Constant) {op : UInt32 → Op}
    (falls : ∀ position, (op position).falls = true)
    (straight : ∀ position, (op position).jumpOffset? = none) :
    P (emitPooled operation constant op) :=
  appending.bind appending.target fun _ => appending.bind (appending.intern constant)
    fun position => appending.emit operation (falls position) (straight position)

theorem emitSend (operation name : String) (shape : Invocation) (block : Option UInt32) :
    P (emitSend operation name shape block) :=
  appending.bind appending.target fun _ => appending.bind (appending.intern _)
    fun _ => appending.emit operation rfl rfl

theorem emitYield (operation : String) (hasArgs : Bool) : P (emitYield operation hasArgs) :=
  have emits (lenient : Bool) : P (do
      let builder ← Bench.target
      let drop := hasArgs && builder.depth == 0 && lenient
      Bench.emit operation (.yield (if hasArgs && !drop then 1 else 0))) :=
    appending.bind appending.target fun _ => appending.emit operation rfl rfl
  appending.bind appending.look fun _ =>
    ite (appending.bind (appending.fail _ _) fun _ => emits _) (emits _)

/-- Setting a line is more than appending. -/
theorem emitPrimitive (p : Primitive) (marks : ∀ line, p = .line line → P (emitPrimitive p)) :
    P (emitPrimitive p) := by
  have acts := p.acts_form
  unfold Bench.emitPrimitive
  split <;> rename_i form <;> rw [form] at acts
  · exact appending.emit _ acts.2.falls acts.2.straight
  · exact appending.emitPooled _ _ (fun position => (acts.2 position).falls)
      fun position => (acts.2 position).straight
  · exact appending.bind (appending.checkScopeDepth _) fun _ =>
      appending.emit _ acts.2.falls acts.2.straight
  · exact appending.bind appending.target fun _ => appending.bind (appending.intern _)
      fun _ => appending.bind (appending.intern _) fun _ => appending.emit _ rfl rfl
  · exact appending.emitYield _ _
  · rename_i line
    obtain rfl : p = .line line := by
      cases p <;> cases form
      rfl
    exact marks line rfl

end Appending

end BlockScript.Bench

/-! ## Places and tables -/

namespace BlockScript

/-- The operations that were recorded stand at the start of those that are recorded now. -/
def Recording.Extends : Option Recording → Option Recording → Prop
  | none, none => True
  | some before, some after =>
    after.slot = before.slot ∧ before.builder.code.ops.toList <+: after.builder.code.ops.toList
  | _, _ => False

theorem Recording.Extends.refl (recording : Option Recording) :
    Recording.Extends recording recording := by
  cases recording with
  | none => trivial
  | some recording => exact ⟨rfl, List.prefix_rfl⟩

theorem Recording.Extends.trans (a b c : Option Recording) (h₁ : Recording.Extends a b)
    (h₂ : Recording.Extends b c) : Recording.Extends a c := by
  cases a <;> cases b <;> cases c <;> first | exact h₁.elim | exact h₂.elim | skip
  · trivial
  · exact ⟨h₂.1.trans h₁.1, h₁.2.trans h₂.2⟩

/-- A recording keeps its slot. -/
theorem Recording.Extends.slot {before after : Option Recording}
    (h : Recording.Extends before after) : after.map (·.slot) = before.map (·.slot) := by
  cases before <;> cases after <;> first | exact h.elim | skip
  · rfl
  · exact congrArg some h.1

namespace Bench

/-- Units are told apart by their numbers, and the script is executed or recorded, whichever
the backend does. -/
structure Proper (executes : Bool) (bench : Bench) : Prop where
  fresh : bench.units.Fresh
  distinct : bench.units.ids.Nodup
  script : ∀ unit ∈ bench.units.units, unit.kind = .script → unit.payload.isNone = executes

/-- The number of a unit, and the position that it has claimed in the code table. -/
def place (unit : OpenUnit (Option Recording)) : Nat × Option Nat :=
  (unit.id, unit.payload.map (·.slot.toNat))

/-- The places of the open units, innermost first. -/
def places (bench : Bench) : List (Nat × Option Nat) := bench.units.units.map place

/-- The positions among the places. -/
def slots (places : List (Nat × Option Nat)) : List Nat := places.filterMap (·.2)

/-- The code table is in order: exactly the slots of open units are empty, those of inner
units come later, and what may be shared is in its slot. -/
structure Tabled (bench : Bench) : Prop where
  limit : bench.config.maxPoolEntries ≤ UInt32.size
  size : bench.program.code.size ≤ bench.config.maxPoolEntries
  ordered : (slots bench.places).Pairwise (· > ·)
  claimed : ∀ position ∈ slots bench.places, position < bench.program.code.size
  empty : ∀ (position : Nat) code, bench.program.code[position]? = some code →
    (code.ops = #[] ↔ position ∈ slots bench.places)
  recorded : ∀ entry ∈ bench.recorded,
    bench.program.code[entry.2.toNat]? = some entry.1 ∧ entry.1.ops ≠ #[]

/-- The position holds what was there before the units at these places were opened. -/
def Before (bench : Bench) (inner : List (Nat × Option Nat)) (position : Nat) : Prop :=
  position < bench.program.code.size ∧ ∀ slot ∈ slots inner, position < slot

/-- What was in the table before the units inside some unit were opened is still there as
long as that unit is open, and still was there before what is inside it then. -/
def Stands (bench bench' : Bench) : Prop :=
  ∀ inner inner' outer, bench.places = inner ++ outer → bench'.places = inner' ++ outer →
    ∀ position, bench.Before inner position →
      bench'.Before inner' position ∧ bench'.program.code[position]? = bench.program.code[position]?

/-- A bench after operations that succeeded or failed. -/
structure Later (executes : Bool) (bench bench' : Bench) : Prop where
  proper : bench'.Proper executes
  config : bench'.config = bench.config
  sharing : bench'.sharing = bench.sharing
  nesting : bench'.units.nesting = bench.units.nesting
  units : bench.units.Evolves Recording.Extends bench'.units
  table : bench.Tabled → bench'.Tabled ∧ bench.Stands bench'

/-- The same, as far as the bench was proper at all. -/
def Lasts (executes : Bool) (bench bench' : Bench) : Prop :=
  bench.Proper executes → bench.Later executes bench'

variable {executes : Bool} {bench bench' bench'' : Bench}

theorem place_eq_of_slot {unit unit' : OpenUnit (Option Recording)} (id : unit'.id = unit.id)
    (slot : unit'.payload.map (·.slot) = unit.payload.map (·.slot)) : place unit' = place unit := by
  have position := congrArg (Option.map UInt32.toNat) slot
  rw [Option.map_map, Option.map_map] at position
  exact Prod.ext id position

section Between

variable {E : Option Recording → Option Recording → Prop}
  (slots : ∀ before after, E before after → after.map (·.slot) = before.map (·.slot))
  (proper : bench.Proper executes) (first : bench.units.Evolves E bench'.units)
  (second : bench'.units.Evolves E bench''.units)
include slots proper first second

/-- Units that are open at two times are open in between. -/
theorem places_between {outer : List (Nat × Option Nat)} (early : outer <:+ bench.places)
    (late : outer <:+ bench''.places) : outer <:+ bench'.places := by
  obtain ⟨units, hunits, rfl⟩ := List.suffix_map_iff.mp early
  obtain ⟨units'', hunits'', heq⟩ := List.suffix_map_iff.mp late
  cases units'' with
  | nil => exact heq ▸ List.nil_suffix
  | cons unit'' rest'' =>
      cases units with
      | nil => cases heq
      | cons unit rest =>
          have same : unit.id = unit''.id := congrArg Prod.fst (List.cons.inj heq).1
          have issued : unit''.id < bench'.units.nextId := by
            rw [← same]
            exact Nat.lt_of_lt_of_le (proper.fresh unit (hunits.subset (List.mem_cons_self ..)))
              first.nextId
          obtain ⟨unit', suffix, id, -, -, kept⟩ := second.kept unit'' rest'' hunits'' issued
          rw [heq, List.map_cons, ← place_eq_of_slot id (slots _ _ kept).symm]
          exact suffix.map place

theorem Stands.trans (h₁ : bench.Stands bench') (h₂ : bench'.Stands bench'') :
    bench.Stands bench'' := by
  intro inner inner'' outer before after position under
  obtain ⟨inner', between⟩ := places_between slots proper first second
    ⟨inner, before.symm⟩ ⟨inner'', after.symm⟩
  obtain ⟨under', same⟩ := h₁ inner inner' outer before between.symm position under
  obtain ⟨under'', same'⟩ := h₂ inner' inner'' outer between.symm after position under'
  exact ⟨under'', same'.trans same⟩

end Between

theorem Stands.refl (bench : Bench) : bench.Stands bench := by
  intro inner inner' outer before after position under
  rw [before] at after
  rw [← List.append_cancel_right after]
  exact ⟨under, rfl⟩

instance : IsPreorder Bench (Lasts executes) where
  refl bench proper := ⟨proper, rfl, rfl, rfl, .refl Recording.Extends.refl _,
    fun tabled => ⟨tabled, .refl bench⟩⟩
  trans bench bench' bench'' h₁ h₂ proper := by
    have first := h₁ proper
    have second := h₂ first.proper
    refine ⟨second.proper, second.config.trans first.config,
      second.sharing.trans first.sharing, second.nesting.trans first.nesting,
      first.units.trans Recording.Extends.trans second.units, fun tabled => ?_⟩
    obtain ⟨tabled', stands⟩ := first.table tabled
    obtain ⟨tabled'', stands'⟩ := second.table tabled'
    exact ⟨tabled'', stands.trans (fun _ _ => Recording.Extends.slot) proper first.units
      second.units stands'⟩

/-- Nothing was recorded on a new bench. -/
theorem proper_new (config : Config) (owner : Nat) (sharing : Bool) :
    (Bench.new config owner sharing).Proper executes where
  fresh := by simp [UnitStack.Fresh, Bench.new, UnitStack.new]
  distinct := List.nodup_nil
  script := by simp [Bench.new, UnitStack.new]

theorem tabled_new {config : Config} (limit : config.maxPoolEntries ≤ UInt32.size) (owner : Nat)
    (sharing : Bool) : (Bench.new config owner sharing).Tabled where
  limit := limit
  size := Nat.zero_le _
  ordered := .nil
  claimed := by simp [slots, places, Bench.new, UnitStack.new]
  empty := by simp [Bench.new, Program.empty]
  recorded := by simp [Bench.new]

/-! ## Changes that leave the places and the table as they are -/

/-- The order of the table does not depend on anything else. -/
theorem Tabled.congr (h : bench.Tabled) (config : bench'.config = bench.config)
    (places : bench'.places = bench.places) (code : bench'.program.code = bench.program.code)
    (recorded : bench'.recorded = bench.recorded) : bench'.Tabled where
  limit := config ▸ h.limit
  size := by
    rw [config, code]
    exact h.size
  ordered := places ▸ h.ordered
  claimed := by
    rw [places, code]
    exact h.claimed
  empty := by
    rw [places, code]
    exact h.empty
  recorded := by
    rw [recorded, code]
    exact h.recorded

theorem Stands.of_eq (places : bench'.places = bench.places)
    (code : bench'.program.code = bench.program.code) : bench.Stands bench' := by
  intro inner inner' outer before after position under
  rw [places, before] at after
  rw [← List.append_cancel_right after, Before, code]
  exact ⟨under, rfl⟩

/-- Neither the pool nor the current line matters. -/
theorem lasts_rest (constants : Pool) (line : Option UInt32) :
    bench.Lasts executes { bench with program := { bench.program with constants }, line } :=
  fun proper => ⟨⟨proper.fresh, proper.distinct, proper.script⟩, rfl, rfl, rfl,
    .refl Recording.Extends.refl _, fun tabled => ⟨tabled.congr rfl rfl rfl rfl, .of_eq rfl rfl⟩⟩

theorem Proper.setBuilder (h : bench.Proper executes) (builder : Builder) :
    (bench.setBuilder builder).Proper executes := by
  refine ⟨h.fresh.mapTop _, (UnitStack.ids_mapTop ..).symm ▸ h.distinct, ?_⟩
  obtain ⟨config, ⟨owner, nextId, units, nesting, maxNesting⟩, program, line, sharing, recorded⟩ :=
    bench
  cases units with
  | nil => exact h.script
  | cons unit outer =>
      obtain ⟨id, kind, name, payload⟩ := unit
      intro unit member
      rcases List.mem_cons.mp member with rfl | member
      · have top := h.script _ (List.mem_cons_self ..)
        cases payload <;> exact top
      · exact h.script unit (List.mem_cons_of_mem _ member)

theorem places_setBuilder (bench : Bench) (builder : Builder) :
    (bench.setBuilder builder).places = bench.places := by
  obtain ⟨config, ⟨owner, nextId, units, nesting, maxNesting⟩, program, line, sharing, recorded⟩ :=
    bench
  cases units with
  | nil => rfl
  | cons unit outer =>
      obtain ⟨id, kind, name, payload⟩ := unit
      cases payload <;> rfl

/-- The innermost recording is appended to. -/
theorem lasts_setBuilder {recording : Recording} (found : bench.recording? = some recording)
    {builder : Builder}
    (appended : recording.builder.code.ops.toList <+: builder.code.ops.toList) :
    bench.Lasts executes (bench.setBuilder builder) := by
  intro proper
  obtain ⟨unit, outer, hunits, payload⟩ := recording?_eq_some.mp found
  refine ⟨proper.setBuilder builder, rfl, rfl, (UnitStack.mapTop_rest ..).2.2.1, ?_,
    fun tabled => ⟨tabled.congr rfl (places_setBuilder ..) rfl rfl,
      .of_eq (places_setBuilder ..) rfl⟩⟩
  refine UnitStack.evolves_mapTop Recording.Extends.refl hunits ?_
  rw [payload]
  exact ⟨rfl, appended⟩

/-! ## Units that are opened -/

theorem slots_append (inner outer : List (Nat × Option Nat)) :
    slots (inner ++ outer) = slots inner ++ slots outer := List.filterMap_append

theorem mem_slots_cons {id position : Nat} {slot : Option Nat} {places : List (Nat × Option Nat)} :
    position ∈ slots ((id, slot) :: places) ↔ slot = some position ∨ position ∈ slots places := by
  cases slot with
  | none => simp [slots]
  | some slot => simp [slots, eq_comm]

theorem Proper.open (h : bench.Proper executes) {kind : UnitKind} {name : String}
    {payload : Option Recording} {handle : UnitHandle} {units : UnitStack (Option Recording)}
    (hopen : bench.units.open kind name payload = .ok (handle, units))
    (script : kind = .script → payload.isNone = executes) (program : Program) :
    Proper executes { bench with units, program } := by
  refine ⟨h.fresh.open hopen, ?_, ?_⟩
  · show units.ids.Nodup
    rw [UnitStack.ids_open hopen, List.nodup_cons]
    exact ⟨fun member => absurd (h.fresh.lt member) (Nat.lt_irrefl _), h.distinct⟩
  · obtain ⟨-, rfl⟩ := UnitStack.open_ok hopen
    intro unit member
    rcases List.mem_cons.mp member with rfl | member
    · exact script
    · exact h.script unit member

/-- A unit that is executed has no slot. -/
theorem lasts_open {kind : UnitKind} {name : String} {handle : UnitHandle}
    {units : UnitStack (Option Recording)}
    (hopen : bench.units.open kind name none = .ok (handle, units)) :
    bench.Lasts true { bench with units } := by
  intro proper
  have proper' := proper.open hopen (fun _ => rfl) bench.program
  have evolves := UnitStack.evolves_open Recording.Extends.refl hopen
  obtain ⟨-, rfl⟩ := UnitStack.open_ok hopen
  refine ⟨proper', rfl, rfl, rfl, evolves, fun tabled => ⟨?_, ?_⟩⟩
  · exact ⟨tabled.limit, tabled.size, tabled.ordered, tabled.claimed, tabled.empty,
      tabled.recorded⟩
  · intro inner inner' outer before after position under
    have after : (bench.units.nextId, none) :: bench.places = inner' ++ outer := after
    rw [before, ← List.cons_append] at after
    rw [← List.append_cancel_right after]
    exact ⟨under, rfl⟩

/-- A unit that is recorded has the next slot. -/
theorem lasts_openUnit {kind : UnitKind} {name : String} {handle : UnitHandle}
    {units : UnitStack (Option Recording)} {builder : Builder}
    (room : bench.program.code.size < bench.config.maxPoolEntries)
    (hopen : bench.units.open kind name (some ⟨bench.program.code.size.toUInt32, builder⟩) =
      .ok (handle, units)) (script : kind = .script → executes = false) :
    bench.Lasts executes { bench with units, program := bench.program.reserve.2 } := by
  intro proper
  have proper' := proper.open hopen (fun h => (script h).symm) bench.program.reserve.2
  have evolves := UnitStack.evolves_open Recording.Extends.refl hopen
  obtain ⟨-, rfl⟩ := UnitStack.open_ok hopen
  refine ⟨proper', rfl, rfl, rfl, evolves, fun tabled => ?_⟩
  have next : bench.program.code.size.toUInt32.toNat = bench.program.code.size :=
    Program.toNat_toUInt32 (Nat.lt_of_lt_of_le room tabled.limit)
  let bench' : Bench := { bench with
    units := { bench.units with
      nextId := bench.units.nextId + 1
      units := { id := bench.units.nextId, kind, name
                 payload := some ⟨bench.program.code.size.toUInt32, builder⟩ } ::
        bench.units.units }
    program := bench.program.reserve.2 }
  have places : bench'.places =
      (bench.units.nextId, some bench.program.code.size) :: bench.places := by
    show (_, some bench.program.code.size.toUInt32.toNat) :: _ = _
    rw [next]
    rfl
  have size : bench'.program.code.size = bench.program.code.size + 1 := Program.size_reserve _
  have below : ∀ position < bench.program.code.size,
      bench'.program.code[position]? = bench.program.code[position]? :=
    fun position lt => by
      show (bench.program.code.push .placeholder)[position]? = _
      rw [Array.getElem?_push_lt lt, Array.getElem?_eq_getElem lt]
  refine ⟨?_, ?_⟩
  · refine ⟨tabled.limit, size ▸ room, ?_, ?_, ?_, ?_⟩
    · rw [places]
      exact List.pairwise_cons.mpr ⟨fun _ member => tabled.claimed _ member, tabled.ordered⟩
    · intro position member
      rw [places, mem_slots_cons, Option.some.injEq] at member
      rw [size]
      rcases member with rfl | member
      · exact Nat.lt_succ_self _
      · exact Nat.lt_succ_of_lt (tabled.claimed position member)
    · intro position code hcode
      rw [places, mem_slots_cons, Option.some.injEq]
      rcases Nat.lt_or_ge position bench.program.code.size with lt | ge
      · rw [below position lt] at hcode
        rw [tabled.empty position code hcode]
        exact ⟨.inr, fun h => h.resolve_left (Nat.ne_of_gt lt)⟩
      · have hcode : (bench.program.code.push .placeholder)[position]? = some code := hcode
        rw [Array.getElem?_push] at hcode
        split at hcode
        · rename_i last
          cases hcode
          exact ⟨fun _ => .inl last.symm, fun _ => rfl⟩
        · rw [Array.getElem?_eq_none ge] at hcode
          cases hcode
    · intro entry member
      obtain ⟨found, recorded⟩ := tabled.recorded entry member
      exact ⟨(below _ (Array.getElem?_eq_some_iff.mp found).1).trans found, recorded⟩
  · intro inner inner' outer before after position under
    rw [places, before, ← List.cons_append] at after
    rw [← List.append_cancel_right after]
    refine ⟨⟨size ▸ Nat.lt_succ_of_lt under.1, fun slot member => ?_⟩, below position under.1⟩
    rw [mem_slots_cons, Option.some.injEq] at member
    rcases member with rfl | member
    · exact under.1
    · exact under.2 slot member

/-! ## Units that are closed or discarded -/

theorem Proper.drop (h : bench.Proper executes) {dropped rest : List (OpenUnit (Option Recording))}
    (hunits : bench.units.units = dropped ++ rest) (program : Program)
    (recorded : List (Code × UInt32)) :
    Proper executes { bench with units := { bench.units with units := rest }, program, recorded } := by
  refine ⟨fun unit member => h.fresh unit (hunits ▸ List.mem_append_right _ member), ?_,
    fun unit member => h.script unit (hunits ▸ List.mem_append_right _ member)⟩
  have distinct := h.distinct
  rw [UnitStack.ids, hunits, List.map_append] at distinct
  exact (List.nodup_append.mp distinct).2.1

theorem evolves_drop {dropped rest : List (OpenUnit (Option Recording))}
    (hunits : bench.units.units = dropped ++ rest) :
    bench.units.Evolves Recording.Extends { bench.units with units := rest } :=
  ⟨Nat.le_refl _, rfl, fun unit _ suffix _ => ⟨unit, suffix.trans ⟨dropped, hunits.symm⟩,
    rfl, rfl, rfl, .refl _⟩⟩

/-- The table stands if it only changes where units that are gone had their slots. -/
theorem Stands.drop {dropped rest : List (OpenUnit (Option Recording))}
    (hunits : bench.units.units = dropped ++ rest) {program : Program}
    {recorded : List (Code × UInt32)}
    (same : ∀ position, bench.Before (dropped.map place) position →
      position < program.code.size ∧ program.code[position]? = bench.program.code[position]?) :
    bench.Stands { bench with
      units := { bench.units with units := rest }, program, recorded } := by
  intro inner inner' outer before after position under
  have split : bench.places = dropped.map place ++ rest.map place := by
    rw [places, hunits, List.map_append]
  have after : rest.map place = inner' ++ outer := after
  rw [split, after, ← List.append_assoc] at before
  have heq := List.append_cancel_right before
  rw [← heq, Before, slots_append] at under
  obtain ⟨lt, early⟩ := under
  obtain ⟨lt', same⟩ :=
    same position ⟨lt, fun slot member => early slot (List.mem_append_left _ member)⟩
  exact ⟨⟨lt', fun slot member => early slot (List.mem_append_right _ member)⟩, same⟩

/-- Units that are executed are dropped. -/
theorem lasts_drop (dropped : List (OpenUnit (Option Recording)))
    {rest : List (OpenUnit (Option Recording))}
    (hunits : bench.units.units = dropped ++ rest) (executed : slots (dropped.map place) = []) :
    bench.Lasts executes { bench with units := { bench.units with units := rest } } := by
  intro proper
  refine ⟨proper.drop hunits bench.program bench.recorded, rfl, rfl, rfl, evolves_drop hunits,
    fun tabled => ⟨?_, Stands.drop hunits fun _ under => ⟨under.1, rfl⟩⟩⟩
  have same : slots (rest.map place) = slots bench.places := by
    rw [places, hunits, List.map_append, slots_append, executed]
    rfl
  refine ⟨tabled.limit, tabled.size, ?_, ?_, ?_, tabled.recorded⟩
  · show (slots (rest.map place)).Pairwise _
    exact same ▸ tabled.ordered
  · show ∀ position ∈ slots (rest.map place), _
    exact same ▸ tabled.claimed
  · show ∀ position code, _ → (_ ↔ position ∈ slots (rest.map place))
    exact same ▸ tabled.empty

/-- Units are dropped, and their slots are given back from the outermost one on. -/
theorem lasts_release (dropped : List (OpenUnit (Option Recording)))
    {rest : List (OpenUnit (Option Recording))}
    (hunits : bench.units.units = dropped ++ rest) {slot : UInt32}
    (claimed : slot.toNat ∈ slots (dropped.map place))
    (least : ∀ position ∈ slots (dropped.map place), slot.toNat ≤ position) :
    bench.Lasts executes (release { bench with units := { bench.units with units := rest } } slot) := by
  intro proper
  refine ⟨proper.drop hunits _ _, rfl, rfl, rfl, evolves_drop hunits, fun tabled => ?_⟩
  have split : slots bench.places = slots (dropped.map place) ++ slots (rest.map place) := by
    rw [places, hunits, List.map_append, slots_append]
  have inside : slot.toNat < bench.program.code.size :=
    tabled.claimed _ (split ▸ List.mem_append_left _ claimed)
  have ordered := tabled.ordered
  rw [split] at ordered
  obtain ⟨-, ordered, apart⟩ := List.pairwise_append.mp ordered
  have earlier : ∀ position ∈ slots (rest.map place), position < slot.toNat :=
    fun position member => apart _ claimed position member
  have size : (bench.program.release slot).code.size = slot.toNat := by
    rw [Program.size_release, Nat.min_eq_left (Nat.le_of_lt inside)]
  refine ⟨{
      limit := tabled.limit, size := ?size, ordered, claimed := ?claimed
      empty := ?empty, recorded := ?recorded },
    Stands.drop hunits fun position under => ?stands⟩
  case size =>
    show (bench.program.release slot).code.size ≤ _
    have := tabled.size
    show _ ≤ bench.config.maxPoolEntries
    omega
  case claimed =>
    show ∀ position ∈ slots (rest.map place), position < (bench.program.release slot).code.size
    rw [size]
    exact earlier
  case empty =>
    show ∀ position code, (bench.program.release slot).code[position]? = some code →
      (code.ops = #[] ↔ position ∈ slots (rest.map place))
    intro position code hcode
    rw [Program.getElem?_release] at hcode
    split at hcode
    · rename_i lt
      rw [tabled.empty position code hcode, split, List.mem_append]
      exact or_iff_right fun member => absurd (least position member) (Nat.not_le_of_lt lt)
    · cases hcode
  case recorded =>
    intro entry member
    obtain ⟨member, lt⟩ := List.mem_filter.mp member
    have lt : entry.2.toNat < slot.toNat := UInt32.lt_iff_toNat_lt.mp (of_decide_eq_true lt)
    obtain ⟨found, recorded⟩ := tabled.recorded entry member
    show (bench.program.release slot).code[entry.2.toNat]? = _ ∧ _
    rw [Program.getElem?_release, if_pos lt]
    exact ⟨found, recorded⟩
  case stands =>
    have lt := under.2 _ claimed
    rw [Program.getElem?_release, if_pos lt, size]
    exact ⟨lt, rfl⟩

/-- The innermost unit is closed, and its slot is filled. -/
theorem lasts_fill {unit : OpenUnit (Option Recording)}
    {rest : List (OpenUnit (Option Recording))} {slot : UInt32} {builder : Builder}
    (hunits : bench.units.units = unit :: rest) (payload : unit.payload = some ⟨slot, builder⟩)
    {code : Code} (recorded : code.ops ≠ #[]) :
    bench.Lasts executes { bench with
      units := { bench.units with units := rest }
      program := bench.program.fill slot code
      recorded := if bench.sharing then (code, slot) :: bench.recorded else bench.recorded } := by
  intro proper
  have hunits : bench.units.units = [unit] ++ rest := hunits
  refine ⟨proper.drop hunits _ _, rfl, rfl, rfl, evolves_drop hunits, fun tabled => ?_⟩
  have here : slots ([unit].map place) = [slot.toNat] := by simp [slots, place, payload]
  have split : slots bench.places = slot.toNat :: slots (rest.map place) := by
    rw [places, hunits, List.map_append, slots_append, here]
    rfl
  have inside : slot.toNat < bench.program.code.size :=
    tabled.claimed _ (split ▸ List.mem_cons_self ..)
  have ordered := tabled.ordered
  rw [split] at ordered
  obtain ⟨earlier, ordered⟩ := List.pairwise_cons.mp ordered
  have size : (bench.program.fill slot code).code.size = bench.program.code.size :=
    Program.size_fill ..
  have filled := Program.getElem?_fill inside code
  refine ⟨{
      limit := tabled.limit, size := ?size, ordered, claimed := ?claimed
      empty := ?empty, recorded := ?recorded },
    Stands.drop hunits fun position under => ?stands⟩
  case size =>
    show (bench.program.fill slot code).code.size ≤ _
    exact size ▸ tabled.size
  case claimed =>
    show ∀ position ∈ slots (rest.map place), position < (bench.program.fill slot code).code.size
    rw [size]
    exact fun position member => tabled.claimed position (split ▸ List.mem_cons_of_mem _ member)
  case empty =>
    show ∀ position other, (bench.program.fill slot code).code[position]? = some other →
      (other.ops = #[] ↔ position ∈ slots (rest.map place))
    intro position other hother
    rw [filled] at hother
    split at hother
    · rename_i heq
      cases hother
      exact ⟨fun empty => absurd empty recorded,
        fun member => absurd (earlier position member) (heq ▸ Nat.lt_irrefl _)⟩
    · rename_i elsewhere
      rw [tabled.empty position other hother, split, List.mem_cons]
      exact or_iff_right (Ne.symm elsewhere)
  case recorded =>
    have kept : ∀ entry ∈ bench.recorded,
        (bench.program.fill slot code).code[entry.2.toNat]? = some entry.1 ∧ entry.1.ops ≠ #[] := by
      intro entry member
      obtain ⟨found, nonempty⟩ := tabled.recorded entry member
      refine ⟨?_, nonempty⟩
      rw [filled, if_neg, found]
      intro heq
      exact nonempty ((tabled.empty _ _ found).mpr (split ▸ heq ▸ List.mem_cons_self ..))
    intro entry member
    show (bench.program.fill slot code).code[entry.2.toNat]? = _ ∧ _
    by_cases sharing : bench.sharing
    · simp only [sharing, if_true] at member
      rcases List.mem_cons.mp member with rfl | member
      · exact ⟨by rw [filled, if_pos rfl], recorded⟩
      · exact kept entry member
    · simp only [sharing] at member
      exact kept entry member
  case stands =>
    have lt := under.2 _ (here ▸ List.mem_singleton.mpr rfl)
    rw [size, filled, if_neg (Nat.ne_of_gt lt)]
    exact ⟨under.1, rfl⟩

/-- A slot that was claimed for a unit that could not be opened is given back, and the bench is
as it was before. -/
theorem Tabled.giveBack (tabled : bench.Tabled)
    (room : bench.program.code.size < bench.config.maxPoolEntries) :
    release { bench with program := bench.program.reserve.2 } bench.program.code.size.toUInt32 =
      bench := by
  have next : bench.program.code.size.toUInt32.toNat = bench.program.code.size :=
    Program.toNat_toUInt32 (Nat.lt_of_lt_of_le room tabled.limit)
  have code : (bench.program.reserve.2.release bench.program.code.size.toUInt32).code =
      bench.program.code := by
    refine Array.ext_getElem? fun position => ?_
    rw [Program.getElem?_release, next]
    split
    · rename_i lt
      show (bench.program.code.push .placeholder)[position]? = _
      rw [Array.getElem?_push_lt lt, Array.getElem?_eq_getElem lt]
    · rename_i ge
      rw [Array.getElem?_eq_none (Nat.le_of_not_lt ge)]
  have recorded : bench.recorded.filter (·.2 < bench.program.code.size.toUInt32) =
      bench.recorded := by
    refine List.filter_eq_self.mpr fun entry member => decide_eq_true ?_
    rw [UInt32.lt_iff_toNat_lt, next]
    exact (Array.getElem?_eq_some_iff.mp (tabled.recorded entry member).1).1
  have program : bench.program.reserve.2.release bench.program.code.size.toUInt32 = bench.program :=
    congrArg (Program.mk · bench.program.constants) code
  unfold release
  dsimp only
  rw [program, recorded]

theorem lasts_giveBack (room : bench.program.code.size < bench.config.maxPoolEntries) :
    bench.Lasts executes (release { bench with program := bench.program.reserve.2 }
      bench.program.code.size.toUInt32) := by
  refine fun proper => ⟨⟨proper.fresh, proper.distinct, proper.script⟩, rfl, rfl, rfl,
    .refl Recording.Extends.refl _, fun tabled => ?_⟩
  rw [tabled.giveBack room]
  exact ⟨tabled, .refl bench⟩

/-- What is discarded are innermost units, and their slots are given back from the first one on. -/
theorem abandon_cases (bench : Bench) (count : Nat) : ∃ dropped rest,
    bench.units.units = dropped ++ rest ∧
      (slots (dropped.map place) = [] ∧
          bench.abandon count = { bench with units := { bench.units with units := rest } } ∨
        ∃ slot, slot.toNat ∈ slots (dropped.map place) ∧
          (∀ position ∈ slots (dropped.map place), slot.toNat ≤ position) ∧
          bench.abandon count =
            release { bench with units := { bench.units with units := rest } } slot) := by
  let surplus := bench.units.size - count
  have slots_eq : slots ((bench.units.units.take surplus).map place) =
      (((bench.units.units.take surplus).filterMap fun unit => unit.payload.map (·.slot)).map
        (·.toNat)) := by
    rw [slots, List.filterMap_map, List.map_filterMap]
    congr 1
    funext unit
    simp [place, Function.comp_def]
  refine ⟨bench.units.units.take surplus, bench.units.units.drop surplus,
    (List.take_append_drop ..).symm, ?_⟩
  unfold abandon UnitStack.truncate
  simp only
  split
  · rename_i lowest hmin
    rw [List.filterMap_reverse] at hmin
    obtain ⟨member, least⟩ := List.min?_eq_some_iff.mp hmin
    refine .inr ⟨lowest, ?_, ?_, rfl⟩
    · rw [slots_eq]
      exact List.mem_map_of_mem (List.mem_reverse.mp member)
    · intro position hposition
      rw [slots_eq] at hposition
      obtain ⟨slot, hslot, rfl⟩ := List.mem_map.mp hposition
      exact UInt32.le_iff_toNat_le.mp (least slot (List.mem_reverse.mpr hslot))
  · rename_i hmin
    rw [List.min?_eq_none_iff, List.filterMap_reverse, List.reverse_eq_nil_iff] at hmin
    refine .inl ⟨?_, rfl⟩
    rw [slots_eq, hmin]
    rfl

theorem units_abandon (bench : Bench) (count : Nat) : (bench.abandon count).units.units =
    bench.units.units.drop (bench.units.size - count) := by
  unfold abandon
  simp only
  split <;> rfl

theorem lasts_abandon (bench : Bench) (count : Nat) : bench.Lasts executes (bench.abandon count) := by
  obtain ⟨dropped, rest, hunits, ⟨executed, heq⟩ | ⟨slot, claimed, least, heq⟩⟩ :=
    bench.abandon_cases count
  · exact heq ▸ lasts_drop dropped hunits executed
  · exact heq ▸ lasts_release dropped hunits claimed least

/-! ## The operations of a bench -/

theorem moves_build {α : Type} {action : Builder → Except CompileError (α × Builder)}
    (checked : ∀ builder, Checked (action builder))
    (appends : ∀ builder value builder', action builder = .ok (value, builder') →
      builder.code.ops.toList <+: builder'.code.ops.toList) : Moves (Lasts executes) (build action) := by
  refine fun bench => (ends_build checked).mono ?_ fun _ _ => Appending.unmoved
  rintro value _ ⟨slot, builder, builder', found, run, rfl⟩
  exact lasts_setBuilder found (appends builder value builder' run)

end Bench

/-- Appending an operation appends it. -/
theorem Builder.toList_of_emit {builder builder' : Builder} {operation : String} {op : Op}
    (h : builder.emit operation op = .ok builder') :
    builder'.code.ops.toList = builder.code.ops.toList ++ [op] := by
  obtain ⟨stack, -, rfl⟩ := emit_ok h
  exact Array.toList_push

namespace Bench

variable {executes : Bool} {bench bench' : Bench}

theorem moves_emit (operation : String) (op : Op) : Moves (Lasts executes) (emit operation op) := by
  refine moves_build (fun builder => .bind (builder.checked_emit _ _) fun _ => .ok _) ?_
  intro builder _ builder' run
  obtain ⟨_, hemit, heq⟩ := Verifier.bind_ok run
  cases heq
  exact Builder.toList_of_emit hemit ▸ List.prefix_append ..

theorem lasts_appending : Appending (fun {α} (action : BenchM α) => Moves (Lasts executes) action) :=
  .of_moves (fun bench constants => lasts_rest constants bench.line)
    fun operation op _ _ => moves_emit operation op

/-- Without a recording there is no builder to change. -/
theorem modifyBuilder_of_none (h : bench.recording? = none) (f : Builder → Builder) :
    modifyBuilder f bench = .ok () bench := by
  obtain ⟨config, ⟨owner, nextId, units, nesting, maxNesting⟩, program, line, sharing, recorded⟩ :=
    bench
  cases units with
  | nil => rfl
  | cons unit outer =>
      obtain ⟨id, kind, name, payload⟩ := unit
      cases payload with
      | none => rfl
      | some recording => cases h

/-- A change of the builder that leaves the operations as they are. -/
theorem moves_modifyBuilder {f : Builder → Builder}
    (same : ∀ builder, (f builder).code.ops = builder.code.ops) :
    Moves (Lasts executes) (modifyBuilder f) := by
  intro bench
  cases found : bench.recording? with
  | some recording =>
      refine (ends_modifyBuilder found f).weaken ?_
      rintro _ _ rfl
      exact lasts_setBuilder found (same _ ▸ List.prefix_rfl)
  | none =>
      unfold Ends
      rw [modifyBuilder_of_none found]
      exact refl_of (Lasts executes) bench

theorem moves_setLine (line : UInt32) : Moves (Lasts executes) (setLine line) :=
  Appending.moves_target.bind fun _ => moves_modifyBuilder fun _ => rfl

theorem moves_emitPrimitive (p : Primitive) : Moves (Lasts executes) (emitPrimitive p) :=
  lasts_appending.emitPrimitive p fun line marked => marked ▸
    (moves_setLine line).bind fun _ => .modifies fun _ => lasts_rest _ _

theorem moves_openUnit {kind : UnitKind} (script : kind = .script → executes = false)
    (name : String) (arity localCount : Nat) (locals : List String) :
    Moves (Lasts executes) (openUnit kind name arity localCount locals) := by
  refine fun bench => ends_openUnit.mono ?_ ?_
  · rintro handle _ ⟨builder, units, room, -, hopen, rfl⟩
    exact lasts_openUnit room hopen script
  · rintro error _ ⟨-, rfl | ⟨room, rfl⟩⟩
    · exact refl_of (Lasts executes) _
    · exact lasts_giveBack room

theorem Installs.lasts {unit : OpenUnit (Option Recording)}
    {units : UnitStack (Option Recording)} {handle : UnitHandle} {kind : UnitKind}
    {line : Option UInt32} (closed : bench.units.close handle kind line = .ok (unit, units))
    {slot : UInt32} {builder : Builder} (payload : unit.payload = some ⟨slot, builder⟩)
    {code : Code} (finished : builder.finish = .ok code) {installed : UInt32}
    (h : Installs { bench with units } slot code installed bench') : bench.Lasts executes bench' := by
  obtain ⟨-, -, -, hunits, heq⟩ := UnitStack.close_ok closed
  cases h with
  | shared recorded =>
      rw [heq]
      refine lasts_release [unit] hunits ?_ ?_ <;> simp [slots, place, payload]
  | fills inside =>
      rw [heq]
      exact lasts_fill hunits payload (Builder.ops_of_finish finished)

theorem moves_closeUnit (handle : UnitHandle) (kind : UnitKind) :
    Moves (Lasts executes) (closeUnit handle kind) := by
  refine fun bench => (ends_closeUnit handle kind).mono ?_ ?_
  · rintro installed bench' ⟨unit, units, slot, builder, code, closed, payload, finished, -, h⟩
    exact h.lasts closed payload finished
  · intro error bench' h
    cases h with
    | refused static => exact refl_of (Lasts executes) bench
    | executed static closed payload =>
        obtain ⟨-, -, -, hunits, heq⟩ := UnitStack.close_ok closed
        rw [heq]
        refine lasts_drop [_] hunits ?_
        simp [slots, place, payload]
    | discarded fresh static closed payload =>
        obtain ⟨-, -, -, hunits, heq⟩ := UnitStack.close_ok closed
        rw [heq]
        refine lasts_release [_] hunits ?_ ?_ <;> simp [slots, place, payload]

/-! ## Operations that neither open nor close a unit -/

/-- A relation for which neither what is recorded matters, nor the pool or the current line. -/
structure Superficial (R : Bench → Bench → Prop) : Prop where
  setBuilder : ∀ bench builder, R bench (bench.setBuilder builder)
  rest : ∀ (bench : Bench) (constants : Pool) (line : Option UInt32),
    R bench { bench with program := { bench.program with constants }, line }

namespace Superficial

variable {R : Bench → Bench → Prop} [IsPreorder Bench R]

variable (superficial : Superficial R)
include superficial

theorem build {α : Type} {action : Builder → Except CompileError (α × Builder)}
    (checked : ∀ builder, Checked (action builder)) : Moves R (build action) := by
  refine fun bench => (ends_build checked).mono ?_ fun _ _ => Appending.unmoved
  rintro _ _ ⟨_, _, builder, -, -, rfl⟩
  exact superficial.setBuilder bench builder

theorem emit (operation : String) (op : Op) : Moves R (emit operation op) :=
  superficial.build fun builder => .bind (builder.checked_emit _ _) fun _ => .ok _

theorem modifyBuilder (f : Builder → Builder) : Moves R (modifyBuilder f) := by
  intro bench
  cases found : bench.recording? with
  | some recording =>
      refine (ends_modifyBuilder found f).weaken ?_
      rintro _ _ rfl
      exact superficial.setBuilder bench _
  | none =>
      unfold Ends
      rw [modifyBuilder_of_none found]
      exact refl_of R bench

theorem appending : Appending (fun {α} (action : BenchM α) => Moves R action) :=
  .of_moves (fun bench constants => superficial.rest bench constants bench.line)
    fun operation op _ _ => superficial.emit operation op

theorem setLine (line : UInt32) : Moves R (setLine line) :=
  Appending.moves_target.bind fun _ => superficial.modifyBuilder _

theorem emitPrimitive (p : Primitive) : Moves R (emitPrimitive p) :=
  superficial.appending.emitPrimitive p fun line marked => marked ▸
    (superficial.setLine line).bind fun _ => .modifies fun bench =>
      superficial.rest bench bench.program.constants _

end Superficial

/-- The same units are open. -/
def Still (bench bench' : Bench) : Prop := bench'.units.ids = bench.units.ids

instance : IsPreorder Bench Still where
  refl _ := rfl
  trans _ _ _ h₁ h₂ := h₂.trans h₁

theorem Still.size (h : bench.Still bench') : bench'.units.size = bench.units.size := by
  simpa [UnitStack.ids, UnitStack.size] using congrArg List.length h

theorem still : Superficial Still where
  setBuilder _ _ := UnitStack.ids_mapTop ..
  rest _ _ _ := rfl

end Bench

end BlockScript
