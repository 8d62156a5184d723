import BlockScript.Proofs.Backend.Lasting
import BlockScript.Proofs.Backend.Scoped
import BlockScript.Proofs.Machine.Settled

/-!
# Benches whose references are settled

On a grounded bench every finished code object and every operation that was recorded so far
finds what it refers to, and finds it early enough: what lies in the table before the slots of
some innermost units refers to nothing behind them, and neither do the operations recorded in
the unit around them. So when units are discarded with everything that was installed since they
were opened, whatever is left refers to what is left.

The one step that may break this is the closing of a unit whose code object equals one that
was recorded inside it. The slot of the unit is then given back in favour of the later one,
which is thereby given back as well. `Bench.Clashes` says that the innermost unit is about to
do so.
-/

namespace BlockScript

/-- A recording keeps its slot. -/
def Recording.SameSlot (before after : Option Recording) : Prop :=
  after.map (·.slot) = before.map (·.slot)

theorem Recording.SameSlot.refl (recording : Option Recording) :
    Recording.SameSlot recording recording := rfl

theorem Recording.SameSlot.trans (a b c : Option Recording) (h₁ : Recording.SameSlot a b)
    (h₂ : Recording.SameSlot b c) : Recording.SameSlot a c :=
  Eq.trans h₂ h₁

/-- An operation that refers to nothing finds its constants. -/
theorem Op.Plain.pooled {op : Op} (h : op.Plain) (pool : Pool) : op.Pooled pool :=
  (h { constants := pool } (fun _ => 0) 0).pooled

/-- An operation that refers to nothing finds what it refers to. -/
theorem Op.Plain.finds {op : Op} (h : op.Plain) (table : UInt32 → Option Code) (around : Nat) :
    op.Finds table around := by
  obtain ⟨-, outward, links⟩ := h .empty (fun _ => 0) 0
  have absent (position : UInt32) : ¬Program.empty.Has position := by
    rintro ⟨code, found⟩
    simp [Program.code?, Program.empty] at found
  refine ⟨Nat.le_trans outward (Nat.zero_le _), fun target names => ?_⟩
  cases op with
  | makeClosure code => exact absurd links.1 (absent _)
  | send name argc receiver block => exact absurd (links target names).1 (absent _)
  | defineMethod name code => exact absurd links.1 (absent _)
  | _ => cases names

/-- The script is the outermost unit and the only one that is executed. -/
structure UnitStack.Staged (script : Option UnitHandle) (stack : UnitStack (Option Recording)) :
    Prop where
  executed : ∀ unit outer, (unit :: outer) <:+ stack.units → (unit.payload = none ↔ outer = [])
  outermost : ∀ unit, [unit] <:+ stack.units → ∃ handle, script = some handle ∧
    stack.owner = handle.owner ∧ unit.id = handle.id ∧ unit.kind = .script

/-- Nothing changes about the script when units inside it are gone. -/
theorem UnitStack.Staged.of_suffix {script : Option UnitHandle}
    {stack later : UnitStack (Option Recording)} (staged : stack.Staged script)
    (suffix : later.units <:+ stack.units) (owner : later.owner = stack.owner) :
    later.Staged script := by
  refine ⟨fun unit outer inside => staged.executed unit outer (inside.trans suffix),
    fun unit inside => ?_⟩
  obtain ⟨handle, known, same, rest⟩ := staged.outermost unit (inside.trans suffix)
  exact ⟨handle, known, owner.trans same, rest⟩

namespace Bench

/-- What the table held before the units at these places were opened. -/
def seen (bench : Bench) (inner : List (Nat × Option Nat)) (position : UInt32) : Option Code :=
  if ∀ slot ∈ slots inner, position.toNat < slot then bench.program.code? position else none

/-- Finishing the innermost unit gives a code object that was recorded inside the unit. -/
def Clashes (bench : Bench) : Prop :=
  ∃ recording, bench.recording? = some recording ∧
    ∃ entry ∈ bench.recorded, recording.slot < entry.2 ∧ recording.builder.finish = .ok entry.1

instance (bench : Bench) : Decidable bench.Clashes :=
  inferInstanceAs (Decidable (∃ recording ∈ bench.recording?, ∃ entry ∈ bench.recorded,
    recording.slot < entry.2 ∧ recording.builder.finish = .ok entry.1))

/-- The innermost unit is still open later if closing it would clash. -/
def Spares (bench bench' : Bench) : Prop :=
  bench.Clashes → ∀ unit ∈ bench.units.top?, unit.id ∈ bench'.units.ids

instance (bench bench' : Bench) : Decidable (bench.Spares bench') :=
  inferInstanceAs (Decidable (bench.Clashes → ∀ unit ∈ bench.units.top?, unit.id ∈ bench'.units.ids))

/-- Everything that was recorded finds what it refers to, also when the innermost units and what
was installed since they were opened are discarded. -/
structure Grounded (bench : Bench) : Prop where
  proper : bench.Proper true
  tabled : bench.Tabled
  verifies : bench.config.verifyUnits = true
  constants : bench.program.constants.size ≤ bench.config.maxPoolEntries
  pooled : ∀ position code, bench.program.code? position = some code →
    ∀ op ∈ code.ops, op.Pooled bench.program.constants
  verified : ∀ position code, bench.program.code? position = some code → code.ops ≠ #[] →
    ∃ heights, Verifier.heights code.ops = .ok heights
  installed : ∀ inner outer, bench.places = inner ++ outer →
    ∀ position code, bench.seen inner position = some code → code.ops ≠ #[] →
      ∃ around, Settled (bench.seen inner) position around
  opened : ∀ inner unit outer slot builder, bench.units.units = inner ++ unit :: outer →
    unit.payload = some ⟨slot, builder⟩ → builder.All fun op =>
      op.Pooled bench.program.constants ∧
        op.Finds (bench.seen (inner.map place)) (enclosing (unit :: outer))

/-- The innermost unit may record the operation: it finds its constants, frames and code. -/
structure Admits (bench : Bench) (op : Op) : Prop where
  pooled : op.Pooled bench.program.constants
  finds : op.Finds bench.program.code? (enclosing bench.units.units)

/-- Units keep their places, and what was installed before a unit was opened stays as it is at
least until the unit is gone. -/
structure Keeps (bench bench' : Bench) : Prop where
  proper : bench.Proper true
  units : bench.units.Evolves Recording.SameSlot bench'.units
  stands : bench.Stands bench'

/-- The units and the code table are in order. -/
structure InOrder (bench : Bench) : Prop where
  proper : bench.Proper true
  tabled : bench.Tabled

/-- Order is kept, and with it what was there before, whatever the recordings hold. -/
def Upholds (bench bench' : Bench) : Prop := bench.InOrder → bench'.InOrder ∧ bench.Keeps bench'

/-- A grounded bench that came from another one. -/
structure Sustained (bench bench' : Bench) : Prop where
  grounded : bench'.Grounded
  keeps : bench.Keeps bench'
  staged : ∀ script, bench.units.Staged script → bench'.units.Staged script

variable {bench bench' bench'' : Bench} {inner inner' outer : List (Nat × Option Nat)}
  {position slot : UInt32} {code : Code} {builder builder' : Builder}

/-- An operation that refers to nothing may always be recorded. -/
theorem admits_plain {op : Op} (plain : op.Plain) (bench : Bench) : bench.Admits op :=
  ⟨plain.pooled _, plain.finds _ _⟩

/-! ## What is seen from a unit -/

theorem seen_eq_some : bench.seen inner position = some code ↔
    (∀ slot ∈ slots inner, position.toNat < slot) ∧ bench.program.code? position = some code := by
  unfold seen
  split <;> simp_all

theorem seen_of_slots (empty : slots inner = []) : bench.seen inner = bench.program.code? := by
  funext position
  unfold seen
  rw [empty]
  exact if_pos (by simp)

theorem seen_nil (bench : Bench) : bench.seen [] = bench.program.code? := seen_of_slots rfl

theorem seen_congr (same : bench'.program.code = bench.program.code)
    (inner : List (Nat × Option Nat)) : bench'.seen inner = bench.seen inner := by
  funext position
  unfold seen Program.code?
  rw [same]

theorem retains_seen (less : ∀ slot ∈ slots inner', slot ∈ slots inner) :
    Retains (bench.seen inner) (bench.seen inner') := by
  intro position code found _
  obtain ⟨early, found⟩ := seen_eq_some.mp found
  exact seen_eq_some.mpr ⟨fun slot member => early slot (less slot member), found⟩

/-- What stands is seen later as it was seen before. -/
theorem Stands.retains (h : bench.Stands bench') (before : bench.places = inner ++ outer)
    (after : bench'.places = inner' ++ outer) :
    Retains (bench.seen inner) (bench'.seen inner') := by
  intro position code found _
  obtain ⟨early, found⟩ := seen_eq_some.mp found
  obtain ⟨⟨-, early'⟩, same⟩ := h inner inner' outer before after position.toNat
    ⟨(Array.getElem?_eq_some_iff.mp found).1, early⟩
  exact seen_eq_some.mpr ⟨early', same.trans found⟩

/-! ## Benches that follow each other -/

theorem Keeps.refl (proper : bench.Proper true) : bench.Keeps bench :=
  ⟨proper, .refl Recording.SameSlot.refl _, .refl bench⟩

theorem Keeps.trans (h₁ : bench.Keeps bench') (h₂ : bench'.Keeps bench'') :
    bench.Keeps bench'' where
  proper := h₁.proper
  units := h₁.units.trans Recording.SameSlot.trans h₂.units
  stands := h₁.stands.trans (fun _ _ => id) h₁.proper h₁.units h₂.units h₂.stands

theorem Later.keeps (h : bench.Later true bench') (proper : bench.Proper true)
    (tabled : bench.Tabled) : bench.Keeps bench' :=
  ⟨proper, h.units.mono fun _ _ => Recording.Extends.slot, (h.table tabled).2⟩

instance : IsPreorder Bench Upholds where
  refl _ order := ⟨order, .refl order.proper⟩
  trans _ _ _ h₁ h₂ order := by
    obtain ⟨order', keeps⟩ := h₁ order
    obtain ⟨order'', keeps'⟩ := h₂ order'
    exact ⟨order'', keeps.trans keeps'⟩

theorem Lasts.upholds (h : bench.Lasts true bench') : bench.Upholds bench' := fun order =>
  have later := h order.proper
  ⟨⟨later.proper, (later.table order.tabled).1⟩, later.keeps order.proper order.tabled⟩

theorem moves_upholds {α : Type} {action : BenchM α} (h : Moves (Lasts true) action) :
    Moves Upholds action :=
  h.mono fun _ _ => Lasts.upholds

theorem upholds_setBuilder (bench : Bench) (builder : Builder) :
    bench.Upholds (bench.setBuilder builder) := by
  have places := bench.places_setBuilder builder
  refine fun order => ⟨⟨order.proper.setBuilder builder, order.tabled.congr rfl places rfl rfl⟩,
    order.proper, ?_, .of_eq places rfl⟩
  cases hunits : bench.units.units with
  | nil =>
      have still : (bench.setBuilder builder).units = bench.units := by
        obtain ⟨config, ⟨owner, nextId, units, nesting, maxNesting⟩, program, line, sharing,
          recorded⟩ := bench
        cases hunits
        rfl
      exact still ▸ .refl Recording.SameSlot.refl _
  | cons unit outer =>
      refine UnitStack.evolves_mapTop Recording.SameSlot.refl hunits ?_
      cases unit.payload <;> rfl

theorem upholds_nesting (bench : Bench) (nesting : Nat) :
    bench.Upholds { bench with units := { bench.units with nesting } } := fun order =>
  ⟨⟨⟨order.proper.fresh, order.proper.distinct, order.proper.script⟩,
    order.tabled.congr rfl rfl rfl rfl⟩, order.proper,
    .of_units_eq Recording.SameSlot.refl rfl rfl rfl, .of_eq rfl rfl⟩

/-- What may be shared is in no slot that is claimed. -/
theorem Tabled.recorded_lt (h : bench.Tabled) (claimed : slot.toNat ∈ slots bench.places)
    {entry : Code × UInt32} (recorded : entry ∈ bench.recorded) (early : entry.2 ≤ slot) :
    entry.2.toNat < slot.toNat := by
  obtain ⟨found, nonempty⟩ := h.recorded entry recorded
  refine Nat.lt_of_le_of_ne (UInt32.le_iff_toNat_le.mp early) fun same => ?_
  exact nonempty ((h.empty _ _ found).mpr (same ▸ claimed))

/-- A unit that is open again later was never gone. -/
theorem Spares.earlier (issued : bench.Keeps bench') (kept : bench'.Keeps bench'')
    (spares : bench.Spares bench'') : bench.Spares bench' := by
  intro clashes unit top
  obtain ⟨unit'', member, same⟩ := List.mem_map.mp (spares clashes unit top)
  obtain ⟨inner, rest, before⟩ := List.append_of_mem member
  have old : unit''.id < bench'.units.nextId := by
    rw [same]
    exact Nat.lt_of_lt_of_le (issued.proper.fresh unit (List.mem_of_mem_head? top))
      issued.units.nextId
  obtain ⟨unit', suffix, id, -⟩ := kept.units.kept unit'' rest ⟨inner, before.symm⟩ old
  exact List.mem_map.mpr ⟨unit', suffix.subset (List.mem_cons_self ..), id.trans same⟩

/-- A unit that clashes is not spared by being closed. -/
theorem Spares.apart (spares : bench.Spares bench') (proper : bench.Proper true)
    {unit : OpenUnit (Option Recording)} (hunits : bench.units.units = unit :: bench'.units.units) :
    ¬bench.Clashes := by
  intro clashes
  have distinct := proper.distinct
  rw [UnitStack.ids, hunits, List.map_cons, List.nodup_cons] at distinct
  exact distinct.1 (spares clashes unit (congrArg List.head? hunits))

theorem Sustained.refl (h : bench.Grounded) : bench.Sustained bench :=
  ⟨h, .refl h.proper, fun _ => id⟩

theorem Sustained.trans (h₁ : bench.Sustained bench') (h₂ : bench'.Sustained bench'') :
    bench.Sustained bench'' :=
  ⟨h₂.grounded, h₁.keeps.trans h₂.keeps, fun script staged => h₂.staged script (h₁.staged script staged)⟩

namespace Grounded

variable (h : bench.Grounded)

include h

/-- What is known of the innermost recording. -/
theorem recording (found : bench.recording? = some ⟨slot, builder⟩) :
    builder.All bench.Admits := by
  obtain ⟨unit, outer, hunits, payload⟩ := recording?_eq_some.mp found
  intro op hop
  obtain ⟨pooled, finds⟩ := h.opened [] unit outer slot builder hunits payload op hop
  rw [List.map_nil, seen_nil, ← hunits] at finds
  exact ⟨pooled, finds⟩

/-! ## Changes that leave the places and the table as they are -/

/-- The pool may grow, and the current line may change. -/
theorem rest {constants : Pool} (room : constants.size ≤ bench.config.maxPoolEntries)
    (kept : ∀ position constant, bench.program.constants.get? position = some constant →
      constants.get? position = some constant) (line : Option UInt32) :
    bench.Sustained { bench with program := { bench.program with constants }, line } := by
  have later := lasts_rest constants line h.proper
  refine ⟨⟨later.proper, (later.table h.tabled).1, h.verifies, room, ?_, h.verified, ?_, ?_⟩,
    later.keeps h.proper h.tabled, fun _ => id⟩
  · exact fun position code found op hop => (h.pooled position code found op hop).mono kept
  · exact h.installed
  · exact fun inner unit outer slot builder hunits payload op hop =>
      (h.opened inner unit outer slot builder hunits payload op hop).imp (·.mono kept) id

/-- The innermost recording may become any that finds what it refers to. -/
theorem setBuilder (found : bench.recording? = some ⟨slot, builder⟩)
    (all : builder'.All bench.Admits) : bench.Sustained (bench.setBuilder builder') := by
  obtain ⟨unit, outer, hunits, payload⟩ := recording?_eq_some.mp found
  have hset := setBuilder_units hunits payload builder'
  have places := bench.places_setBuilder builder'
  obtain ⟨order, keeps⟩ := bench.upholds_setBuilder builder' ⟨h.proper, h.tabled⟩
  refine ⟨⟨order.proper, order.tabled, h.verifies, h.constants, h.pooled, h.verified, ?_, ?_⟩,
    keeps, ?_⟩
  · rw [places]
    exact h.installed
  · intro inner unit' outer' slot' builder'' hunits' payload'
    rw [hset] at hunits'
    cases inner with
    | nil =>
        cases hunits'
        cases payload'
        intro op hop
        obtain ⟨pooled, finds⟩ := all op hop
        refine ⟨pooled, ?_⟩
        show op.Finds (bench.seen []) _
        rw [seen_nil]
        rw [hunits] at finds
        simpa only [enclosing_cons] using finds
    | cons first inner =>
        obtain ⟨rfl, rest⟩ := List.cons.inj hunits'
        have old := h.opened (unit :: inner) unit' outer' slot' builder''
          (hunits.trans (congrArg _ rest)) payload'
        have same : place { unit with payload := some ⟨slot, builder'⟩ } = place unit := by
          simp only [place, payload, Option.map_some]
        rw [List.map_cons, same]
        exact old
  · intro script staged
    have owner := (bench.setBuilder_rest builder').2.1
    refine ⟨fun unit' outer' suffix => ?_, fun unit' suffix => ?_⟩
    · rw [hset] at suffix
      rcases List.suffix_cons_iff.mp suffix with heq | suffix
      · cases heq
        have top := staged.executed unit outer (hunits ▸ List.suffix_rfl)
        rw [payload] at top
        simpa using top
      · exact staged.executed unit' outer' (hunits ▸ suffix.trans (List.suffix_cons ..))
    · rw [hset] at suffix
      rcases List.suffix_cons_iff.mp suffix with heq | suffix
      · cases heq
        have top := staged.executed unit [] (hunits ▸ List.suffix_rfl)
        rw [payload] at top
        simp at top
      · obtain ⟨handle, known, same, rest⟩ := staged.outermost unit'
          (hunits ▸ suffix.trans (List.suffix_cons ..))
        exact ⟨handle, known, owner.trans same, rest⟩

/-! ## Units that are discarded -/

/-- The innermost units are discarded, and nothing is left of the table but what was there before
them. -/
theorem drop {dropped : List (OpenUnit (Option Recording))}
    (hunits : bench.units.units = dropped ++ bench'.units.units)
    (lasts : bench.Lasts true bench')
    (constants : bench'.program.constants = bench.program.constants)
    (below : ∀ position code, bench'.program.code? position = some code →
      bench.seen (dropped.map place) position = some code) : bench.Sustained bench' := by
  have later := lasts h.proper
  obtain ⟨tabled, stands⟩ := later.table h.tabled
  have split : bench.places = dropped.map place ++ bench'.places := by
    rw [places, hunits, List.map_append]
    rfl
  have old {position : UInt32} {code : Code} (found : bench'.program.code? position = some code) :
      bench.program.code? position = some code := (seen_eq_some.mp (below _ _ found)).2
  refine ⟨{
      proper := later.proper, tabled, verifies := later.config ▸ h.verifies
      constants := ?constants, pooled := ?pooled, verified := ?verified
      installed := ?installed, opened := ?opened },
    later.keeps h.proper h.tabled, fun script staged => ?staged⟩
  case constants =>
    rw [constants, later.config]
    exact h.constants
  case pooled =>
    rw [constants]
    exact fun position code found => h.pooled position code (old found)
  case verified =>
    exact fun position code found => h.verified position code (old found)
  case installed =>
    intro inner outer hplaces position code found recorded
    obtain ⟨early, found⟩ := seen_eq_some.mp found
    have before : bench.places = (dropped.map place ++ inner) ++ outer := by
      rw [split, hplaces, List.append_assoc]
    have seen : bench.seen (dropped.map place ++ inner) position = some code := by
      obtain ⟨under, found⟩ := seen_eq_some.mp (below _ _ found)
      refine seen_eq_some.mpr ⟨fun slot member => ?_, found⟩
      rw [slots_append] at member
      exact (List.mem_append.mp member).elim (under slot) (early slot)
    obtain ⟨around, settled⟩ := h.installed _ outer before position code seen recorded
    exact ⟨around, settled.mono (stands.retains before hplaces)⟩
  case opened =>
    intro inner unit outer slot builder hinner payload op hop
    have whole : bench.units.units = (dropped ++ inner) ++ unit :: outer := by
      rw [hunits, hinner, List.append_assoc]
    have before : bench.places = (dropped ++ inner).map place ++ (unit :: outer).map place := by
      rw [places, whole, List.map_append]
    have after : bench'.places = inner.map place ++ (unit :: outer).map place := by
      rw [places, hinner, List.map_append]
    obtain ⟨pooled, finds⟩ := h.opened _ unit outer slot builder whole payload op hop
    exact ⟨constants ▸ pooled, finds.mono (stands.retains before after)⟩
  case staged => exact staged.of_suffix ⟨dropped, hunits.symm⟩ later.units.owner

/-- Units that are executed are discarded. -/
theorem discard {dropped rest : List (OpenUnit (Option Recording))}
    (hunits : bench.units.units = dropped ++ rest) (executed : slots (dropped.map place) = []) :
    bench.Sustained { bench with units := { bench.units with units := rest } } := by
  refine h.drop hunits (lasts_drop dropped hunits executed) rfl ?_
  rw [seen_of_slots executed]
  exact fun _ _ => id

/-- Units are discarded together with their slots. -/
theorem release {dropped rest : List (OpenUnit (Option Recording))}
    (hunits : bench.units.units = dropped ++ rest) {slot : UInt32}
    (claimed : slot.toNat ∈ slots (dropped.map place))
    (least : ∀ position ∈ slots (dropped.map place), slot.toNat ≤ position) :
    bench.Sustained
      (Bench.release { bench with units := { bench.units with units := rest } } slot) := by
  refine h.drop hunits (lasts_release dropped hunits claimed least) rfl ?_
  intro position code found
  have found : (bench.program.release slot).code[position.toNat]? = some code := found
  rw [Program.getElem?_release] at found
  split at found
  · rename_i lt
    exact seen_eq_some.mpr ⟨fun other member => Nat.lt_of_lt_of_le lt (least other member), found⟩
  · cases found

theorem abandon (count : Nat) : bench.Sustained (bench.abandon count) := by
  obtain ⟨dropped, rest, hunits, ⟨executed, heq⟩ | ⟨slot, claimed, least, heq⟩⟩ :=
    bench.abandon_cases count
  · exact heq ▸ h.discard hunits executed
  · exact heq ▸ h.release hunits claimed least

/-- A slot that was claimed for a unit that could not be opened is given back. -/
theorem giveBack (room : bench.program.code.size < bench.config.maxPoolEntries) :
    bench.Sustained (Bench.release { bench with program := bench.program.reserve.2 }
      bench.program.code.size.toUInt32) := by
  refine @drop bench _ h [] rfl (lasts_giveBack room) rfl fun position code found => ?_
  have next : bench.program.code.size.toUInt32.toNat = bench.program.code.size :=
    Program.toNat_toUInt32 (Nat.lt_of_lt_of_le room h.tabled.limit)
  have found : (bench.program.reserve.2.release bench.program.code.size.toUInt32).code[
      position.toNat]? = some code := found
  rw [Program.getElem?_release, next] at found
  rw [List.map_nil, seen_nil]
  split at found
  · rename_i lt
    have found : (bench.program.code.push .placeholder)[position.toNat]? = some code := found
    rwa [Array.getElem?_push_lt lt, ← Array.getElem?_eq_getElem lt] at found
  · cases found

/-! ## Units that are opened -/

/-- A unit is opened with nothing recorded yet, and the table holds nothing more that is
finished. -/
theorem enclose {unit : OpenUnit (Option Recording)}
    (hunits : bench'.units.units = unit :: bench.units.units) (lasts : bench.Lasts true bench')
    (constants : bench'.program.constants = bench.program.constants)
    (fresh : ∀ slot builder, unit.payload = some ⟨slot, builder⟩ → builder.code.ops = #[])
    (old : ∀ position code, bench'.program.code? position = some code → code.ops ≠ #[] →
      bench.program.code? position = some code) : bench'.Grounded ∧ bench.Keeps bench' := by
  have later := lasts h.proper
  obtain ⟨tabled, stands⟩ := later.table h.tabled
  have places : bench'.places = place unit :: bench.places := by
    rw [Bench.places, hunits]
    rfl
  have inside {inner outer : List (Nat × Option Nat)} (before : bench.places = inner ++ outer) :
      Retains (bench.seen inner) (bench'.seen (place unit :: inner)) :=
    stands.retains before (places.trans (congrArg _ before))
  refine ⟨{
      proper := later.proper, tabled, verifies := later.config ▸ h.verifies
      constants := ?constants, pooled := ?pooled, verified := ?verified
      installed := ?installed, opened := ?opened },
    later.keeps h.proper h.tabled⟩
  case constants =>
    rw [constants, later.config]
    exact h.constants
  case pooled =>
    intro position code found op hop
    have recorded : code.ops ≠ #[] := fun empty => by simp [empty] at hop
    exact constants ▸ h.pooled position code (old position code found recorded) op hop
  case verified =>
    exact fun position code found recorded =>
      h.verified position code (old position code found recorded) recorded
  case installed =>
    intro inner outer hplaces position code found recorded
    obtain ⟨early, held⟩ := seen_eq_some.mp found
    have held := old position code held recorded
    cases inner with
    | nil =>
        obtain ⟨around, settled⟩ := h.installed [] _ rfl position code
          (seen_nil bench ▸ held) recorded
        exact ⟨around, (settled.mono (inside rfl)).mono (retains_seen (by simp [slots]))⟩
    | cons first inner =>
        rw [places] at hplaces
        obtain ⟨rfl, before⟩ := List.cons.inj hplaces
        have seen : bench.seen inner position = some code :=
          seen_eq_some.mpr ⟨fun slot member => early slot (mem_slots_cons.mpr (.inr member)), held⟩
        obtain ⟨around, settled⟩ := h.installed inner outer before position code seen recorded
        exact ⟨around, settled.mono (inside before)⟩
  case opened =>
    intro inner found outer slot builder hinner payload
    cases inner with
    | nil =>
        rw [hunits] at hinner
        obtain ⟨rfl, -⟩ := List.cons.inj hinner
        intro op hop
        rw [fresh slot builder payload] at hop
        simp at hop
    | cons first inner =>
        rw [hunits] at hinner
        obtain ⟨rfl, split⟩ := List.cons.inj hinner
        have before : bench.places = inner.map place ++ (found :: outer).map place := by
          rw [Bench.places, split]
          exact List.map_append
        intro op hop
        obtain ⟨pooled, finds⟩ := h.opened inner found outer slot builder split payload op hop
        exact ⟨constants ▸ pooled, finds.mono (inside before)⟩

/-- A unit that is executed is opened. -/
theorem openExecuted {kind : UnitKind} {name : String} {handle : UnitHandle}
    {units : UnitStack (Option Recording)}
    (hopen : bench.units.open kind name none = .ok (handle, units)) :
    Grounded { bench with units } ∧ bench.Keeps { bench with units } := by
  have hunits : units.units = ⟨bench.units.nextId, kind, name, none⟩ :: bench.units.units := by
    obtain ⟨-, rfl⟩ := UnitStack.open_ok hopen
    rfl
  refine h.enclose hunits (lasts_open hopen) rfl ?_ ?_
  · rintro slot builder ⟨⟩
  · exact fun _ _ found _ => found

/-- A unit is opened in a slot of its own. Some unit must be open around it. -/
theorem openRecorded {kind : UnitKind} {name : String} {handle : UnitHandle}
    {units : UnitStack (Option Recording)} (inner : kind ≠ .script) (empty : builder.code.ops = #[])
    (room : bench.program.code.size < bench.config.maxPoolEntries)
    (hopen : bench.units.open kind name (some ⟨bench.program.code.size.toUInt32, builder⟩) =
      .ok (handle, units)) (around : bench.units.units ≠ []) :
    bench.Sustained { bench with units, program := bench.program.reserve.2 } := by
  have hunits : units.units = ⟨bench.units.nextId, kind, name,
      some ⟨bench.program.code.size.toUInt32, builder⟩⟩ :: bench.units.units := by
    obtain ⟨-, rfl⟩ := UnitStack.open_ok hopen
    rfl
  have owner : units.owner = bench.units.owner := by
    obtain ⟨-, rfl⟩ := UnitStack.open_ok hopen
    rfl
  have grounded := @enclose _ { bench with units, program := bench.program.reserve.2 } h _ hunits
    (lasts_openUnit room hopen (absurd · inner)) rfl (by rintro _ _ ⟨⟩; exact empty) ?_
  · refine ⟨grounded.1, grounded.2, fun script staged => ⟨?_, ?_⟩⟩
    · intro unit outer suffix
      rcases List.suffix_cons_iff.mp (hunits ▸ suffix) with heq | suffix
      · obtain ⟨rfl, rfl⟩ := List.cons.inj heq
        simpa using around
      · exact staged.executed unit outer suffix
    · intro unit suffix
      rcases List.suffix_cons_iff.mp (hunits ▸ suffix) with heq | suffix
      · exact absurd (List.cons.inj heq).2.symm around
      · obtain ⟨handle, known, same, rest⟩ := staged.outermost unit suffix
        exact ⟨handle, known, owner.trans same, rest⟩
  · intro position code found recorded
    have found : (bench.program.code.push .placeholder)[position.toNat]? = some code := found
    rw [Array.getElem?_push] at found
    split at found
    · cases found
      exact absurd rfl recorded
    · exact found

/-! ## Units that are closed -/

section Close

variable {unit : OpenUnit (Option Recording)} {rest : List (OpenUnit (Option Recording))}
  (hunits : bench.units.units = unit :: rest) (payload : unit.payload = some ⟨slot, builder⟩)
  (finished : builder.finish = .ok code)

include hunits payload finished

/-- A finished code object finds what was found when it was recorded. -/
theorem finds_finished : ∀ op ∈ code.ops, op.Pooled bench.program.constants ∧
    op.Finds bench.program.code? (enclosing (unit :: rest)) := by
  have all := h.recording (recording?_eq_some.mpr ⟨unit, rest, hunits, payload⟩)
  have admits := all.finish (admits_plain .pop bench) (admits_plain .pushNil bench)
    (admits_plain .ret bench) finished
  intro op hop
  obtain ⟨pooled, finds⟩ := admits op hop
  exact ⟨pooled, hunits ▸ finds⟩

/-- The code object of a unit that is closed fills the unit's slot. -/
theorem fill {heights : Verifier.Heights} (verified : Verifier.heights code.ops = .ok heights)
    {recorded : List (Code × UInt32)}
    (recorded_eq : recorded = if bench.sharing then (code, slot) :: bench.recorded else bench.recorded)
    (hbench : bench' = { bench with
      units := { bench.units with units := rest }
      program := bench.program.fill slot code
      recorded }) :
    bench.Sustained bench' ∧ Settled (bench'.seen []) slot (enclosing (unit :: rest)) := by
  subst recorded_eq
  have nonempty := Builder.ops_of_finish finished
  have later : bench.Later true bench' := hbench ▸ lasts_fill hunits payload nonempty h.proper
  obtain ⟨tabled, stands⟩ := later.table h.tabled
  have places_eq : bench.places = place unit :: bench'.places := by
    rw [places, hunits, hbench]
    rfl
  have here : slot.toNat ∈ slots bench.places := by
    rw [places_eq, place, payload]
    exact mem_slots_cons.mpr (.inl rfl)
  have inside := h.tabled.claimed _ here
  have outside : ∀ position ∈ slots bench'.places, position < slot.toNat := by
    have ordered := h.tabled.ordered
    rw [places_eq, place, payload] at ordered
    exact (List.pairwise_cons.mp ordered).1
  -- The table has changed in one place, where nothing was finished before.
  have filled (position : UInt32) : bench'.program.code? position =
      if position = slot then some code else bench.program.code? position := by
    rw [hbench]
    refine (Program.getElem?_fill inside code _).trans ?_
    simp only [UInt32.toNat_inj, eq_comm]
    rfl
  have waiting {other : Code} (found : bench.program.code? slot = some other) : other.ops = #[] :=
    (h.tabled.empty _ _ found).mpr here
  have retains : Retains bench.program.code? bench'.program.code? := by
    intro position other found recorded
    rw [filled, if_neg, found]
    rintro rfl
    exact recorded (waiting found)
  have finds := h.finds_finished hunits payload finished
  have settled : Settled (bench'.seen []) slot (enclosing (unit :: rest)) := by
    rw [seen_nil]
    exact .of_finds ((filled slot).trans (if_pos rfl)) nonempty
      fun op hop => (finds op hop).2.mono retains
  refine ⟨⟨{
      proper := later.proper, tabled, verifies := later.config ▸ h.verifies
      constants := ?constants, pooled := ?pooled, verified := ?verified
      installed := ?installed, opened := ?opened },
    later.keeps h.proper h.tabled, fun script staged => ?staged⟩, settled⟩
  case constants =>
    rw [later.config, hbench]
    exact h.constants
  case pooled =>
    intro position other found op hop
    have constants : bench'.program.constants = bench.program.constants := by rw [hbench]; rfl
    rw [filled] at found
    rw [constants]
    split at found
    · cases found
      exact (finds op hop).1
    · exact h.pooled position other found op hop
  case verified =>
    intro position other found recorded
    rw [filled] at found
    split at found
    · cases found
      exact ⟨heights, verified⟩
    · exact h.verified position other found recorded
  case installed =>
    intro inner outer hplaces position other found recorded
    by_cases empty : slots inner = []
    · -- No slot is excluded, so all of the table is seen.
      rw [seen_of_slots empty] at found ⊢
      rw [← seen_nil]
      by_cases same : position = slot
      · exact ⟨_, same ▸ settled⟩
      · rw [filled, if_neg same] at found
        obtain ⟨around, old⟩ := h.installed [] _ rfl position other
          (seen_nil bench ▸ found) recorded
        rw [seen_nil] at old ⊢
        exact ⟨around, old.mono retains⟩
    · -- What lies before another open unit lies before the unit that is closed.
      obtain ⟨early, held⟩ := seen_eq_some.mp found
      obtain ⟨first, member⟩ := List.exists_mem_of_ne_nil _ empty
      have lt : position.toNat < slot.toNat := by
        refine Nat.lt_trans (early first member) (outside first ?_)
        rw [hplaces, slots_append]
        exact List.mem_append_left _ member
      have elsewhere : position ≠ slot := fun eq => Nat.lt_irrefl _ (eq ▸ lt)
      rw [filled, if_neg elsewhere] at held
      have before : bench.places = (place unit :: inner) ++ outer :=
        places_eq.trans (congrArg _ hplaces)
      have seen : bench.seen (place unit :: inner) position = some other := by
        refine seen_eq_some.mpr ⟨fun slot' member => ?_, held⟩
        rw [place, payload] at member
        rcases mem_slots_cons.mp member with heq | member
        · exact Option.some.inj heq ▸ lt
        · exact early slot' member
      obtain ⟨around, old⟩ := h.installed _ outer before position other seen recorded
      exact ⟨around, old.mono (stands.retains before hplaces)⟩
  case opened =>
    intro inner found outer slot' builder' hinner payload'
    have hrest : rest = inner ++ found :: outer := by rw [← hinner, hbench]
    have whole : bench.units.units = (unit :: inner) ++ found :: outer :=
      hunits.trans (congrArg _ hrest)
    have before : bench.places = (unit :: inner).map place ++ (found :: outer).map place := by
      rw [places, whole, List.map_append]
    have after : bench'.places = inner.map place ++ (found :: outer).map place := by
      rw [places, hinner, List.map_append]
    intro op hop
    obtain ⟨pooled, finds⟩ := h.opened _ found outer slot' builder' whole payload' op hop
    exact ⟨by rw [hbench]; exact pooled, finds.mono (stands.retains before after)⟩
  case staged =>
    refine staged.of_suffix ?_ later.units.owner
    rw [hunits, hbench]
    exact List.suffix_cons ..

/-- The code object of a unit that is closed was recorded before the unit was opened. -/
theorem share {existing : UInt32} (recorded : (code, existing) ∈ bench.recorded)
    (early : existing ≤ slot) (hbench : bench' =
      Bench.release { bench with units := { bench.units with units := rest } } slot) :
    bench.Sustained bench' ∧ Settled (bench'.seen []) existing (enclosing (unit :: rest)) := by
  have here : slots ([unit].map place) = [slot.toNat] := by simp [slots, place, payload]
  have sustained : bench.Sustained bench' :=
    hbench ▸ h.release (show _ = [unit] ++ rest from hunits) (here ▸ List.mem_singleton_self _)
      (by rw [here]; simp)
  refine ⟨sustained, ?_⟩
  obtain ⟨found, nonempty⟩ := h.tabled.recorded _ recorded
  have claimed : slot.toNat ∈ slots bench.places := by
    rw [places, hunits, List.map_cons, place, payload]
    exact mem_slots_cons.mpr (.inl rfl)
  have before : bench.places = [unit].map place ++ rest.map place := by
    rw [places, hunits]
    rfl
  have after : bench'.places = [] ++ rest.map place := by
    rw [hbench]
    rfl
  have lt := h.tabled.recorded_lt claimed recorded early
  have seen : bench.seen ([unit].map place) existing = some code := by
    refine seen_eq_some.mpr ⟨fun slot' member => ?_, found⟩
    rw [here, List.mem_singleton] at member
    exact member ▸ lt
  -- What the table says from before the unit, and the recording of the frames around it.
  obtain ⟨most, settled⟩ := h.installed _ _ before existing code seen nonempty
  have finds := h.finds_finished hunits payload finished
  have around : Settled bench.program.code? existing (enclosing (unit :: rest)) :=
    .of_finds found nonempty fun op hop => (finds op hop).2
  refine (Settled.merge ?_ around settled).mono (sustained.keeps.stands.retains before after)
  intro position first second hfirst hsecond
  exact Option.some.inj (hfirst.symm.trans (seen_eq_some.mp hsecond).2)

end Close

end Grounded

end Bench

end BlockScript
