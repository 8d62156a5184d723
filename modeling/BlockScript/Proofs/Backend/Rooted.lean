import BlockScript.Proofs.Backend.Sketch

/-!
# The outermost unit

The outermost unit is opened when no unit is open, and closed when no other unit is. Whatever is
recorded, and whatever happens to the units inside it, leaves it as it is.
-/

namespace BlockScript.Bench

variable {α : Type} {bench bench' : Bench}

/-- The number and the kind of the outermost unit. -/
def root? (bench : Bench) : Option (Nat × UnitKind) :=
  bench.units.units.getLast?.map fun unit => (unit.id, unit.kind)

theorem root?_eq_none : bench.root? = none ↔ bench.units.units = [] := by
  simp [root?]

theorem exists_root (h : bench.units.units ≠ []) : ∃ id kind, bench.root? = some (id, kind) ∧
    ∃ unit ∈ bench.units.units, unit.id = id ∧ unit.kind = kind := by
  refine ⟨_, _, ?_, bench.units.units.getLast h, List.getLast_mem h, rfl, rfl⟩
  simp [root?, List.getLast?_eq_some_getLast h]

/-- The only unit is the outermost one. -/
theorem root?_of_single {unit : OpenUnit (Option Recording)} (h : bench.units.units = [unit]) :
    bench.root? = some (unit.id, unit.kind) := by
  simp [root?, h]

/-- The outermost unit is the same. -/
def SameRoot (bench bench' : Bench) : Prop := bench'.root? = bench.root?

theorem SameRoot.of_units (h : bench'.units.units = bench.units.units) : bench.SameRoot bench' := by
  simp [SameRoot, root?, h]

theorem sameRoot : Superficial SameRoot where
  setBuilder bench builder := by
    obtain ⟨config, ⟨owner, nextId, units, nesting, maxNesting⟩, program, line, sharing, recorded⟩ :=
      bench
    cases units with
    | nil => rfl
    | cons unit outer =>
        cases outer with
        | nil => rfl
        | cons next outer => rfl
  rest _ _ _ := rfl

/-! ## Units inside it -/

/-- A unit that is opened is the outermost one only if there was none. -/
theorem sameRoot_opened {unit : OpenUnit (Option Recording)}
    (h : bench'.units.units = unit :: bench.units.units) (inside : bench.units.units ≠ []) :
    bench.SameRoot bench' := by
  obtain ⟨outer, rest, units⟩ := List.exists_cons_of_ne_nil inside
  simp [SameRoot, root?, h, units]

/-- A unit of another kind than the outermost one is not the outermost one. -/
theorem sameRoot_closed {unit : OpenUnit (Option Recording)}
    (h : bench.units.units = unit :: bench'.units.units) {id : Nat} {kind : UnitKind}
    (root : bench.root? = some (id, kind)) (other : unit.kind ≠ kind) : bench.SameRoot bench' := by
  cases units : bench'.units.units with
  | nil =>
      rw [units] at h
      rw [root?_of_single h] at root
      cases root
      exact absurd rfl other
  | cons next rest => simp [SameRoot, root?, h, units]

/-- The outermost unit is discarded last. -/
theorem sameRoot_abandon {count : Nat} (positive : 0 < count) :
    bench.SameRoot (bench.abandon count) := by
  unfold SameRoot root?
  rw [units_abandon, List.getLast?_drop, UnitStack.size]
  split
  · have nothing : bench.units.units = [] := List.length_eq_zero_iff.mp (by omega)
    rw [nothing]
    rfl
  · rfl

theorem root?_abandon_zero (bench : Bench) : (bench.abandon 0).root? = none := by
  simp [root?_eq_none, units_abandon, UnitStack.size]

theorem ends_openUnit_units (bench : Bench) (kind : UnitKind) (name : String)
    (arity localCount : Nat) (locals : List String) :
    Ends (openUnit kind name arity localCount locals) bench
      (fun _ bench' => ∃ unit, bench'.units.units = unit :: bench.units.units ∧ unit.kind = kind)
      fun _ bench' => bench'.units.units = bench.units.units := by
  refine ends_openUnit.mono ?_ ?_
  · rintro handle _ ⟨builder, units, -, -, opened, rfl⟩
    obtain ⟨-, rfl⟩ := UnitStack.open_ok opened
    exact ⟨_, rfl, rfl⟩
  · rintro error _ ⟨-, rfl | ⟨-, rfl⟩⟩ <;> rfl

/-- The innermost unit is closed, whose kind it is. -/
def Closes (kind : UnitKind) (bench bench' : Bench) : Prop :=
  ∃ unit, bench.units.units = unit :: bench'.units.units ∧ unit.kind = kind

theorem Closes.of_close {handle : UnitHandle} {kind : UnitKind} {line : Option UInt32}
    {unit : OpenUnit (Option Recording)} {units : UnitStack (Option Recording)}
    (closed : bench.units.close handle kind line = .ok (unit, units))
    (same : bench'.units.units = units.units) : bench.Closes kind bench' := by
  obtain ⟨-, -, hkind, hunits, -⟩ := UnitStack.close_ok closed
  exact ⟨unit, same ▸ hunits, hkind⟩

theorem ends_closeUnit_units (bench : Bench) (handle : UnitHandle) (kind : UnitKind) :
    Ends (closeUnit handle kind) bench (fun _ => bench.Closes kind)
      fun _ bench' => bench' = bench ∨ bench.Closes kind bench' := by
  refine (ends_closeUnit handle kind).mono ?_ ?_
  · rintro installed bench' ⟨unit, units, slot, builder, code, closed, -, -, -, installs⟩
    refine .of_close closed ?_
    cases installs <;> rfl
  · rintro error bench' failed
    cases failed with
    | refused => exact .inl rfl
    | executed _ closed _ => exact .inr (.of_close closed rfl)
    | discarded _ _ closed _ => exact .inr (.of_close closed rfl)

end BlockScript.Bench
