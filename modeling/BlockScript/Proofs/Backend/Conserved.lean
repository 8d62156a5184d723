import BlockScript.Proofs.Backend.Issued

/-!
# What every step on a bench conserves

Code that is recorded stays whole: nothing in it waits for a target but jumps that were torn off
when an operation failed. So when the unit is closed, its code object passes the verifier, or
one of those jumps stands in it. Units around an operation that is under way are held: what is
recorded there may be incomplete, as long as they are not closed.

`Bench.Conserves` says this of two benches, the second one later. It is reflexive and transitive,
and each step on a bench is in it, apart from the jumps of operations with nested code.
-/

namespace BlockScript

variable {α : Type} {torn torn' : JumpPatch → Prop}

/-! ## Recordings and code objects -/

/-- A recording keeps its slot, and its builder is carried on. -/
def Recording.Carries (torn : JumpPatch → Prop) : Option Recording → Option Recording → Prop
  | none, none => True
  | some before, some after =>
    after.slot = before.slot ∧ before.builder.Carries torn after.builder
  | _, _ => False

namespace Recording.Carries

theorem refl (recording : Option Recording) : Recording.Carries torn recording recording := by
  cases recording with
  | none => trivial
  | some recording => exact ⟨rfl, .refl _⟩

theorem trans (a b c : Option Recording) (h₁ : Recording.Carries torn a b)
    (h₂ : Recording.Carries torn b c) : Recording.Carries torn a c := by
  cases a <;> cases b <;> cases c <;> first | exact h₁.elim | exact h₂.elim | skip
  · trivial
  · exact ⟨h₂.1.trans h₁.1, h₁.2.trans h₂.2⟩

theorem mono (weaker : ∀ patch, torn patch → torn' patch) (a b : Option Recording)
    (h : Recording.Carries torn a b) : Recording.Carries torn' a b := by
  cases a <;> cases b <;> first | exact h.elim | skip
  · trivial
  · exact ⟨h.1, h.2.mono weaker⟩

end Recording.Carries

/-- The code object is verified and needs as much stack as it says. The exceptions are a slot that
is still to be filled, code that is too long for the offsets of its jumps, and a torn jump. -/
def Code.Passes (torn : JumpPatch → Prop) (code : Code) : Prop :=
  code = .placeholder ∨ 2 ^ 31 ≤ code.ops.size ∨ code.verify = .ok code.maxStack.toNat ∨
    ∃ patch, torn patch ∧ code.ops[patch.ip]? = some (patch.kind.op 0)

/-- What is finished of a whole builder passes. -/
theorem Builder.Whole.passes {builder : Builder} {code : Code} (h : builder.Whole torn)
    (run : builder.finish = .ok code) : code.Passes torn := by
  by_cases short : code.ops.size < 2 ^ 31
  · exact .inr (.inr (h.finish run short))
  · exact .inr (.inl (Nat.le_of_not_lt short))

/-! ## Benches -/

namespace Bench

/-- Recordings are whole, apart from those of units that are held, and what is installed passes. -/
structure Unspoilt (torn : JumpPatch → Prop) (held : List Nat) (bench : Bench) : Prop where
  checks : bench.config.checkStack = true
  units : ∀ unit ∈ bench.units.units, unit.id ∉ held → ∀ recording,
    unit.payload = some recording → recording.builder.Whole torn
  table : ∀ code ∈ bench.program.code, code.Passes torn

/-- A bench after some steps. What is held has to be held until then. -/
structure Conserves (torn : JumpPatch → Prop) (bench bench' : Bench) : Prop where
  numbered : bench.units.Numbered → bench'.units.Numbered
  units : bench.units.Evolves (Recording.Carries torn) bench'.units
  unspoilt : bench.units.Numbered → ∀ held ⊆ bench.units.ids, held ⊆ bench'.units.ids →
    bench.Unspoilt torn held → bench'.Unspoilt torn held

instance : IsPreorder Bench (Conserves torn) where
  refl _ := ⟨id, .refl Recording.Carries.refl _, fun _ _ _ _ => id⟩
  trans bench bench' bench'' h₁ h₂ := by
    refine ⟨h₂.numbered ∘ h₁.numbered, h₁.units.trans Recording.Carries.trans h₂.units, ?_⟩
    intro numbered held early late unspoilt
    have between := h₁.units.between numbered.fresh h₂.units early late
    exact h₂.unspoilt (h₁.numbered numbered) held between late
      (h₁.unspoilt numbered held early between unspoilt)

namespace Conserves

variable {bench bench' : Bench}

/-- Units are closed or discarded, and nothing is installed. -/
theorem fewer (units : bench.units.Fewer bench'.units) (config : bench'.config = bench.config)
    (table : ∀ code ∈ bench'.program.code, code ∈ bench.program.code ∨ code = .placeholder) :
    bench.Conserves torn bench' where
  numbered numbered := numbered.fewer units
  units := units.evolves Recording.Carries.refl
  unspoilt _ _ _ _ unspoilt := ⟨config ▸ unspoilt.checks,
    fun unit member => unspoilt.units unit (units.units.subset member),
    fun code member => (table code member).elim (unspoilt.table code) .inl⟩

/-- The innermost recording is carried on. -/
theorem setBuilder {recording : Recording} (found : bench.recording? = some recording)
    {builder : Builder} (carries : recording.builder.Carries torn builder) :
    bench.Conserves torn (bench.setBuilder builder) := by
  obtain ⟨unit, outer, hunits, payload⟩ := recording?_eq_some.mp found
  refine ⟨fun numbered => numbered.mapTop _,
    UnitStack.evolves_mapTop Recording.Carries.refl hunits ?_, fun _ held _ _ unspoilt => ?_⟩
  · rw [payload]
    exact ⟨rfl, carries⟩
  · refine ⟨unspoilt.checks, fun other member free recording' holds => ?_, unspoilt.table⟩
    rw [setBuilder_units hunits payload] at member
    rcases List.mem_cons.mp member with rfl | member
    · cases holds
      exact (unspoilt.units unit (hunits ▸ List.mem_cons_self ..) free _ payload).carries carries
    · exact unspoilt.units other (hunits ▸ List.mem_cons_of_mem _ member) free _ holds

/-- A unit is opened. -/
theorem opened {kind : UnitKind} {name : String} {payload : Option Recording}
    {handle : UnitHandle} {units : UnitStack (Option Recording)}
    (hopen : bench.units.open kind name payload = .ok (handle, units))
    (whole : bench.config.checkStack = true → ∀ recording, payload = some recording →
      recording.builder.Whole torn) {program : Program}
    (table : ∀ code ∈ program.code, code ∈ bench.program.code ∨ code = .placeholder) :
    bench.Conserves torn { bench with units, program } := by
  refine ⟨fun numbered => numbered.open hopen,
    UnitStack.evolves_open Recording.Carries.refl hopen, fun _ held _ _ unspoilt => ?_⟩
  obtain ⟨-, rfl⟩ := UnitStack.open_ok hopen
  refine ⟨unspoilt.checks, fun unit member free recording holds => ?_, fun code member => ?_⟩
  · rcases List.mem_cons.mp member with rfl | member
    · exact whole unspoilt.checks recording holds
    · exact unspoilt.units unit member free recording holds
  · exact (table code member).elim (unspoilt.table code) .inl

/-- A unit is closed and its code object installed. It was not held, so its recording is whole. -/
theorem closed {handle : UnitHandle} {kind : UnitKind} {line : Option UInt32}
    {unit : OpenUnit (Option Recording)} {units : UnitStack (Option Recording)}
    (closed : bench.units.close handle kind line = .ok (unit, units)) {recording : Recording}
    (payload : unit.payload = some recording) {code : Code}
    (finished : recording.builder.finish = .ok code) (config : bench'.config = bench.config)
    (rest : bench'.units = units)
    (table : ∀ other ∈ bench'.program.code, other ∈ bench.program.code ∨ other = code) :
    bench.Conserves torn bench' := by
  have gone := UnitStack.Fewer.of_close closed
  have ids := UnitStack.ids_close closed
  obtain ⟨-, -, -, hunits, -⟩ := UnitStack.close_ok closed
  subst rest
  refine ⟨fun numbered => numbered.fewer gone, gone.evolves Recording.Carries.refl,
    fun numbered held _ late unspoilt => ?_⟩
  have free : unit.id ∉ held := by
    have distinct := numbered.distinct
    rw [ids, List.nodup_cons] at distinct
    exact fun member => distinct.1 (late member)
  have whole := unspoilt.units unit (hunits ▸ List.mem_cons_self ..) free recording payload
  refine ⟨config ▸ unspoilt.checks, fun unit member => unspoilt.units unit (gone.units.subset member),
    fun other member => ?_⟩
  rcases table other member with member | rfl
  · exact unspoilt.table other member
  · exact whole.passes finished

end Conserves

/-! ## The code table -/

theorem mem_release {program : Program} {slot : UInt32} {code : Code}
    (member : code ∈ (program.release slot).code) : code ∈ program.code := by
  obtain ⟨position, found⟩ := Array.mem_iff_getElem?.mp member
  rw [Program.getElem?_release] at found
  split at found
  · exact Array.mem_of_getElem? found
  · cases found

theorem mem_reserve {program : Program} {code : Code} (member : code ∈ program.reserve.2.code) :
    code ∈ program.code ∨ code = .placeholder :=
  Array.mem_push.mp member

theorem mem_fill {program : Program} {slot : UInt32} {code filled : Code}
    (member : code ∈ (program.fill slot filled).code) : code ∈ program.code ∨ code = filled :=
  Array.mem_or_eq_of_mem_setIfInBounds member

/-! ## The steps on a bench -/

theorem conserves_enterRegion (bench : Bench) : bench.Conserves torn bench.enterRegion :=
  .fewer ⟨List.suffix_rfl, rfl, rfl⟩ rfl fun _ => .inl

theorem conserves_exitRegion (bench : Bench) : bench.Conserves torn bench.exitRegion :=
  .fewer ⟨List.suffix_rfl, rfl, rfl⟩ rfl fun _ => .inl

theorem conserves_abandon (bench : Bench) (count : Nat) :
    bench.Conserves torn (bench.abandon count) := by
  have drops : bench.units.Fewer (bench.units.truncate count).2 :=
    ⟨List.drop_suffix .., rfl, rfl⟩
  unfold abandon
  dsimp only
  split
  · exact .fewer drops rfl fun _ member => .inl (mem_release member)
  · exact .fewer drops rfl fun _ => .inl

theorem conserves_rest (bench : Bench) (constants : Pool) (line : Option UInt32) :
    bench.Conserves torn
      { bench with program := { bench.program with constants }, line } :=
  .fewer ⟨List.suffix_rfl, rfl, rfl⟩ rfl fun _ => .inl

theorem conserves_emit (operation : String) {op : Op} (falls : op.falls = true)
    (straight : op.jumpOffset? = none) : Moves (Conserves torn) (emit operation op) := by
  refine fun bench => ends_emit.mono ?_ fun _ _ => Appending.unmoved
  rintro _ _ ⟨slot, builder, builder', found, run, rfl⟩
  exact .setBuilder found (.of_grows (.emit run falls straight))

theorem conserves_appending :
    Appending (fun {α} (action : BenchM α) => Moves (Conserves torn) action) :=
  .of_moves (fun bench constants => conserves_rest bench constants bench.line)
    fun operation _ => conserves_emit operation

theorem conserves_setLine (line : UInt32) : Moves (Conserves torn) (setLine line) := by
  refine fun bench => ends_setLine.mono ?_ fun _ _ => Appending.unmoved
  rintro _ _ ⟨slot, builder, found, rfl⟩
  exact .setBuilder found (.of_grows (.congr rfl rfl))

theorem conserves_openUnit (kind : UnitKind) (name : String) (arity localCount : Nat)
    (locals : List String) :
    Moves (Conserves torn) (openUnit kind name arity localCount locals) := by
  refine fun bench => (ends_openUnit.ensured ensures_openUnit).mono ?_ ?_
  · rintro handle _ ⟨-, builder, units, -, ops, stack, hopen, rfl⟩
    refine .opened hopen (fun checks recording holds => ?_) fun _ => mem_reserve
    cases holds
    exact .of_sound (Builder.sound_new ops (checks ▸ stack))
  · rintro error _ ⟨-, rfl | ⟨-, rfl⟩⟩
    · exact refl_of (Conserves torn) _
    · exact .fewer ⟨List.suffix_rfl, rfl, rfl⟩ rfl fun _ member =>
        mem_reserve (mem_release member)

theorem conserves_closeUnit (handle : UnitHandle) (kind : UnitKind) :
    Moves (Conserves torn) (closeUnit handle kind) := by
  refine fun bench => (ends_closeUnit handle kind).mono ?_ ?_
  · rintro installed bench' ⟨unit, units, slot, builder, code, closed, payload, finished, -, h⟩
    cases h with
    | shared recorded =>
        exact .closed closed payload finished rfl rfl fun _ member => .inl (mem_release member)
    | fills inside => exact .closed closed payload finished rfl rfl fun _ => mem_fill
  · intro error bench' failed
    cases failed with
    | refused static => exact refl_of (Conserves torn) bench
    | executed static closed payload => exact .fewer (.of_close closed) rfl fun _ => .inl
    | discarded generated static closed payload =>
        exact .fewer (.of_close closed) rfl fun _ member => .inl (mem_release member)

end Bench

end BlockScript
