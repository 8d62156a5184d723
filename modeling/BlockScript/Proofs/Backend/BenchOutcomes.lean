import BlockScript.Proofs.Backend.BenchSteps
import BlockScript.Proofs.Backend.Outcome

/-!
# What the operations of a bench do, whatever the outcome

A failing operation of a bench runs nothing, so its error is never one of a running program.
Most leave the bench as it was. A unit that cannot be opened gives its slot back, and one that
cannot be installed is closed all the same.
-/

namespace BlockScript

/-- The error is one of generating code: neither one of a running program nor the refusal that
follows an earlier error. -/
def CompileError.Static : CompileError → Prop
  | .runtime _ _ | .aborted _ => False
  | _ => True

theorem CompileError.Static.not_aborted {error : CompileError} (h : error.Static) :
    error.isAborted = false := by
  cases error <;> first | rfl | exact h.elim

/-- The error is one of generating code, or a code object was to be installed in a slot that is
not there. -/
def CompileError.Generated (error : CompileError) : Prop :=
  error.Static ∨ ∃ slot line, error = .runtime (.noSlot slot) line

theorem CompileError.Generated.not_aborted {error : CompileError} (h : error.Generated) :
    error.isAborted = false := by
  obtain static | ⟨slot, line, rfl⟩ := h
  · exact static.not_aborted
  · rfl

/-- A failure, if there is one, is one of generating code. -/
def Checked {α : Type} (result : Except CompileError α) : Prop :=
  ∀ error, result = .error error → error.Static

theorem Checked.ok {α : Type} (value : α) : Checked (.ok value) := fun _ h => by cases h

theorem Checked.error {α : Type} {error : CompileError} (h : error.Static) :
    Checked (.error error : Except CompileError α) := fun _ heq => by
  cases heq
  exact h

theorem Checked.bind {α β : Type} {first : Except CompileError α}
    {next : α → Except CompileError β} (h₁ : Checked first) (h₂ : ∀ value, Checked (next value)) :
    Checked (first >>= next) := by
  cases first with
  | error error => exact Checked.error (h₁ error rfl)
  | ok value => exact h₂ value

theorem Checked.ite {α : Type} {c : Prop} [Decidable c] {yes no : Except CompileError α}
    (h₁ : Checked yes) (h₂ : Checked no) : Checked (if c then yes else no) := by
  split
  · exact h₁
  · exact h₂

namespace DepthTracker

theorem checked_consume (tracker : DepthTracker) (operation : String) (count : Nat)
    (line : Option UInt32) : Checked (tracker.consume operation count line) :=
  .ite (.ok _) (.ite (.error trivial) (.ok _))

theorem checked_expectDelta (tracker : DepthTracker) (construct : String) (before : Nat)
    (allowed : Allowance) (line : Option UInt32) :
    Checked (tracker.expectDelta construct before allowed line) :=
  .ite (.ok _) (.error trivial)

theorem checked_surplus (tracker : DepthTracker) (unit : String) (line : Option UInt32) :
    Checked (tracker.surplus unit line) :=
  .ite (.ok _) (.ite (.error trivial) (.ok _))

end DepthTracker

namespace Builder

theorem checked_emit (builder : Builder) (operation : String) (op : Op) :
    Checked (builder.emit operation op) :=
  .bind (builder.stack.checked_consume _ _ _) fun _ => .ok _

theorem checked_emitJump (builder : Builder) (operation : String) (kind : JumpKind) :
    Checked (builder.emitJump operation kind) :=
  .bind (builder.checked_emit _ _) fun _ => .ok _

theorem checked_emitTimes (operation : String) (op : Op) (count : Nat) (builder : Builder) :
    Checked (emitTimes operation op count builder) := by
  induction count generalizing builder with
  | zero => exact .ok _
  | succ count ih => exact .bind (builder.checked_emit _ _) fun appended => ih appended

theorem checked_finish (builder : Builder) : Checked builder.finish := by
  have closes : ∀ valued : Builder, Checked (do
      let closed ← valued.emit "end of unit" .ret
      return { closed.code with maxStack := closed.stack.maxDepth.toUInt32 }) :=
    fun valued => .bind (valued.checked_emit _ _) fun _ => .ok _
  refine .bind (builder.stack.checked_surplus _ _) fun surplus =>
    .bind (checked_emitTimes _ _ _ _) fun popped => .ite ?_ (closes popped)
  exact .bind (popped.checked_emit _ _) closes

/-- A finished code object has an operation that returns. -/
theorem ops_of_finish {builder : Builder} {code : Code} (h : builder.finish = .ok code) :
    code.ops ≠ #[] := by
  obtain ⟨-, -, valued, closed, -, -, -, hclosed, rfl⟩ := finish_ok h
  obtain ⟨stack, -, rfl⟩ := emit_ok hclosed
  exact Array.push_ne_empty

end Builder

theorem Pool.checked_intern (pool : Pool) (constant : Constant) (limit : Nat) :
    Checked (pool.intern constant limit) := by
  unfold intern
  split
  · exact .ok _
  · exact .ite (.ok _) (.error trivial)

theorem UnitStack.checked_open {α : Type} (stack : UnitStack α) (kind : UnitKind) (name : String)
    (payload : α) : Checked (stack.open kind name payload) := by
  rw [open_eq]
  exact .ite (.ok _) (.error trivial)

theorem UnitStack.checked_enter {α : Type} (stack : UnitStack α) : Checked stack.enter := by
  rw [enter_eq]
  exact .ite (.ok _) (.error trivial)

theorem UnitStack.checked_close {α : Type} (stack : UnitStack α) (handle : UnitHandle)
    (kind : UnitKind) (line : Option UInt32) : Checked (stack.close handle kind line) := by
  refine .ite (.error trivial) ?_
  split
  · exact .error trivial
  · exact .ite (.error trivial) (.ite (.error trivial) (.ok _))

namespace Bench

variable {bench : Bench}

/-- The failure is one of generating code, and nothing has changed. -/
def Unmoved (bench : Bench) (error : CompileError) (bench' : Bench) : Prop :=
  error.Static ∧ bench' = bench

theorem ends_target : Ends target bench
    (fun builder bench' => bench' = bench ∧ ∃ slot, bench.recording? = some ⟨slot, builder⟩)
    bench.Unmoved := by
  refine Ends.get ?_
  cases hunits : bench.units.units with
  | nil =>
      simp only [UnitStack.top?, hunits, List.head?_nil]
      exact Ends.throws ⟨trivial, rfl⟩
  | cons unit outer =>
      simp only [UnitStack.top?, hunits, List.head?_cons]
      cases hpayload : unit.payload with
      | none =>
          simp only
          exact Ends.throws ⟨trivial, rfl⟩
      | some recording =>
          simp only
          exact Ends.pure
            ⟨rfl, recording.slot, recording?_eq_some.mpr ⟨unit, outer, hunits, hpayload⟩⟩

/-- What is recorded is found. -/
theorem ends_target_found {recording : Recording} (found : bench.recording? = some recording)
    {failed : CompileError → Bench → Prop} : Ends target bench
      (fun builder bench' => builder = recording.builder ∧ bench' = bench) failed := by
  obtain ⟨unit, outer, hunits, payload⟩ := recording?_eq_some.mp found
  refine Ends.get ?_
  simp only [UnitStack.top?, hunits, List.head?_cons, payload]
  exact Ends.pure ⟨rfl, rfl⟩

theorem ends_modifyBuilder {recording : Recording} (h : bench.recording? = some recording)
    (f : Builder → Builder) {failed : CompileError → Bench → Prop} :
    Ends (modifyBuilder f) bench
      (fun _ bench' => bench' = bench.setBuilder (f recording.builder)) failed := by
  unfold Ends
  rw [modifyBuilder_eq h]

theorem ends_build {α : Type} {action : Builder → Except CompileError (α × Builder)}
    (checked : ∀ builder, Checked (action builder)) : Ends (build action) bench
      (fun value bench' => ∃ slot builder builder',
        bench.recording? = some ⟨slot, builder⟩ ∧ action builder = .ok (value, builder') ∧
        bench' = bench.setBuilder builder') bench.Unmoved := by
  refine ends_target.bind ?_
  rintro builder _ ⟨rfl, slot, hrecording⟩
  cases haction : action builder with
  | error error =>
      simp only
      exact Ends.throws ⟨checked builder error haction, rfl⟩
  | ok result =>
      obtain ⟨value, builder'⟩ := result
      simp only
      refine (ends_modifyBuilder hrecording fun _ => builder').bind ?_
      rintro _ _ rfl
      exact Ends.pure ⟨slot, builder, builder', hrecording, haction, rfl⟩

theorem ends_emit {operation : String} {op : Op} : Ends (emit operation op) bench
    (fun _ bench' => ∃ slot builder builder',
      bench.recording? = some ⟨slot, builder⟩ ∧ builder.emit operation op = .ok builder' ∧
      bench' = bench.setBuilder builder') bench.Unmoved := by
  refine (ends_build fun builder => .bind (builder.checked_emit _ _) fun _ => .ok _).weaken ?_
  rintro _ bench' ⟨slot, builder, builder', hrecording, haction, rfl⟩
  obtain ⟨_, hemit, heq⟩ := Verifier.bind_ok haction
  cases heq
  exact ⟨slot, builder, builder', hrecording, hemit, rfl⟩

theorem ends_setLine {line : UInt32} : Ends (setLine line) bench
    (fun _ bench' => ∃ slot builder, bench.recording? = some ⟨slot, builder⟩ ∧
      bench' = bench.setBuilder (builder.setLine line)) bench.Unmoved := by
  refine ends_target.bind ?_
  rintro builder _ ⟨rfl, slot, found⟩
  refine (ends_modifyBuilder found _).weaken ?_
  rintro _ _ rfl
  exact ⟨slot, builder, found, rfl⟩

theorem ends_intern {constant : Constant} : Ends (intern constant) bench
    (fun position bench' => ∃ constants,
      bench.program.constants.intern constant bench.config.maxPoolEntries =
        .ok (position, constants) ∧
      bench' = { bench with program := { bench.program with constants } }) bench.Unmoved := by
  unfold Ends intern
  cases hintern : bench.program.constants.intern constant bench.config.maxPoolEntries with
  | error error => exact ⟨Pool.checked_intern _ _ _ error hintern, rfl⟩
  | ok result => exact ⟨_, rfl, rfl⟩

theorem ends_checkScopeDepth {depth : Nat} : Ends (checkScopeDepth depth) bench
    (fun _ bench' => bench' = bench ∧ depth ≤ bench.units.reachableDepth) bench.Unmoved :=
  Ends.get (Ends.ite (fun _ => Ends.throws ⟨trivial, rfl⟩) fun h =>
    Ends.pure ⟨rfl, Nat.le_of_not_lt h⟩)

/-- A unit opens in a slot of its own, or the slot is given back. -/
theorem ends_openUnit {kind : UnitKind} {name : String} {arity localCount : Nat}
    {locals : List String} : Ends (openUnit kind name arity localCount locals) bench
    (fun handle bench' => ∃ builder units,
      bench.program.code.size < bench.config.maxPoolEntries ∧ builder.code.ops = #[] ∧
      bench.units.open kind name (some ⟨bench.program.code.size.toUInt32, builder⟩) =
        .ok (handle, units) ∧
      bench' = { bench with units, program := bench.program.reserve.2 })
    fun error bench' => error.Static ∧ (bench' = bench ∨
      bench.program.code.size < bench.config.maxPoolEntries ∧
      bench' = release { bench with program := bench.program.reserve.2 }
        bench.program.code.size.toUInt32) := by
  unfold Ends
  by_cases room : bench.program.code.size < bench.config.maxPoolEntries
  · rw [openUnit_eq room]
    cases hopen : bench.units.open kind name (some ⟨bench.program.code.size.toUInt32,
        bench.opening kind name arity localCount locals⟩) with
    | error error => exact ⟨UnitStack.checked_open _ _ _ _ error hopen, .inr ⟨room, rfl⟩⟩
    | ok result => exact ⟨_, result.2, room, (opening_empty ..).1, hopen, rfl⟩
  · have refused : reserve bench = .error (.exhausted .codeObjects bench.config.maxPoolEntries)
        bench := if_pos (Nat.le_of_not_lt room)
    simp only [openUnit, bind, EStateM.bind, refused]
    exact ⟨trivial, .inl trivial⟩

/-- What installing a code object in a slot gives: the slot of an equal code object that was
recorded before, whereupon the new slot is given back, or the new slot. -/
inductive Installs (bench : Bench) (slot : UInt32) (code : Code) : UInt32 → Bench → Prop
  | shared {existing : UInt32} (recorded : (code, existing) ∈ bench.recorded) :
      Installs bench slot code existing (bench.release slot)
  | fills (inside : slot.toNat < bench.program.code.size) :
      Installs bench slot code slot { bench with
        program := bench.program.fill slot code
        recorded := if bench.sharing then (code, slot) :: bench.recorded else bench.recorded }

/-- Nothing has changed, and the failure is one of generating code, unless the slot was not
claimed. -/
def NotInstalled (bench : Bench) (slot : UInt32) (error : CompileError) (bench' : Bench) : Prop :=
  error.Generated ∧ (slot.toNat < bench.program.code.size → error.Static) ∧ bench' = bench

theorem ends_install (slot : UInt32) (code : Code) : Ends (install slot code) bench
    (fun installed bench' => bench.Installs slot code installed bench')
    fun error bench' => bench.NotInstalled slot error bench' := by
  have fills : (if bench.sharing then bench.recorded.find? (·.1 = code) else none) = none →
      Ends (install slot code) bench (fun installed bench' => bench.Installs slot code installed bench')
        fun error bench' => bench.NotInstalled slot error bench' := by
    intro unshared
    unfold Ends
    simp only [install, unshared, Program.install?]
    by_cases inside : slot.toNat < bench.program.code.size
    · simp only [if_pos inside]
      exact .fills inside
    · simp only [if_neg inside]
      by_cases sharing : bench.sharing = true
      · simp only [if_pos sharing]
        exact ⟨.inr ⟨slot, _, rfl⟩, fun h => absurd h inside, rfl⟩
      · simp only [if_neg sharing]
        exact ⟨.inl trivial, fun h => absurd h inside, rfl⟩
  cases hshared : (if bench.sharing then bench.recorded.find? (·.1 = code) else none) with
  | none => exact fills hshared
  | some entry =>
      unfold Ends
      simp only [install, hshared]
      split at hshared
      · obtain ⟨recorded, existing⟩ := entry
        have same : recorded = code := by simpa using List.find?_some hshared
        exact .shared (same ▸ List.mem_of_find?_eq_some hshared)
      · cases hshared

/-- A finished code object is verified if the configuration says so, and then installed. -/
theorem ends_installUnit (slot : UInt32) (builder : Builder) : Ends (installUnit slot builder) bench
    (fun installed bench' => ∃ code, builder.finish = .ok code ∧
      (bench.config.verifyUnits = true → ∃ most, code.verify = .ok most) ∧
      bench.Installs slot code installed bench')
    fun error bench' => bench.NotInstalled slot error bench' := by
  unfold installUnit
  cases hfinish : builder.finish with
  | error error =>
      simp only
      have static := builder.checked_finish error hfinish
      exact Ends.throws ⟨.inl static, fun _ => static, rfl⟩
  | ok code =>
      simp only
      have installs := bench.ends_install slot code
      refine Ends.get (Ends.ite (fun _ => ?_) fun hverify => ?_)
      · cases hcode : code.verify with
        | error error =>
            simp only
            exact Ends.stops ⟨.inl trivial, fun _ => trivial, rfl⟩
        | ok most =>
            simp only
            exact installs.weaken fun _ _ h => ⟨code, rfl, fun _ => ⟨most, hcode⟩, h⟩
      · exact installs.weaken fun _ _ h => ⟨code, rfl, fun verify => absurd verify hverify, h⟩

/-- What closing a unit may leave behind when it fails: everything, if the unit is not closed;
otherwise the unit is gone, and so is its slot. -/
inductive NotClosed (bench : Bench) (handle : UnitHandle) (kind : UnitKind)
    (error : CompileError) : Bench → Prop
  | refused (static : error.Static) : NotClosed bench handle kind error bench
  | executed {unit : OpenUnit (Option Recording)} {units : UnitStack (Option Recording)}
      (static : error.Static)
      (closed : bench.units.close handle kind bench.currentLine = .ok (unit, units))
      (payload : unit.payload = none) :
      NotClosed bench handle kind error { bench with units }
  | discarded {unit : OpenUnit (Option Recording)} {units : UnitStack (Option Recording)}
      {slot : UInt32} {builder : Builder}
      (generated : error.Generated)
      (static : slot.toNat < bench.program.code.size → error.Static)
      (closed : bench.units.close handle kind bench.currentLine = .ok (unit, units))
      (payload : unit.payload = some ⟨slot, builder⟩) :
      NotClosed bench handle kind error (release { bench with units } slot)

theorem ends_closeUnit (handle : UnitHandle) (kind : UnitKind) : Ends (closeUnit handle kind) bench
    (fun installed bench' => ∃ unit units slot builder code,
      bench.units.close handle kind bench.currentLine = .ok (unit, units) ∧
      unit.payload = some ⟨slot, builder⟩ ∧ builder.finish = .ok code ∧
      (bench.config.verifyUnits = true → ∃ most, code.verify = .ok most) ∧
      Installs { bench with units } slot code installed bench')
    fun error bench' => bench.NotClosed handle kind error bench' := by
  unfold Ends closeUnit
  cases hclose : bench.units.close handle kind bench.currentLine with
  | error error =>
      simp only [hclose]
      exact NotClosed.refused (UnitStack.checked_close _ _ _ _ error hclose)
  | ok result =>
      obtain ⟨unit, units⟩ := result
      simp only [hclose]
      cases hpayload : unit.payload with
      | none =>
          simp only
          exact NotClosed.executed trivial hclose hpayload
      | some recording =>
          obtain ⟨slot, builder⟩ := recording
          have installs := @ends_installUnit { bench with units } slot builder
          simp only
          cases run : installUnit slot builder { bench with units } with
          | error error bench' =>
              obtain ⟨generated, static, rfl⟩ := installs.error run
              simp only
              exact NotClosed.discarded generated static hclose hpayload
          | ok installed bench' =>
              obtain ⟨code, hfinish, hverify, h⟩ := installs.ok run
              simp only
              exact ⟨unit, units, slot, builder, code, rfl, hpayload, hfinish, hverify, h⟩

end Bench

/-! ## Waiting jumps -/

namespace Work

variable {β υ : Type} {session : Session β υ} {recording : Recording} {patch : JumpPatch}

/-- A jump of the innermost recording is aimed. -/
theorem patchHere_eq (found : session.bench.recording? = some recording)
    (inside : patch.ip < recording.builder.label) : patchHere patch session =
      .ok () { session with
        bench := session.bench.setBuilder (recording.builder.patchHere patch) } := by
  have looked : onBench Bench.target session = .ok recording.builder session :=
    onBench_ok (Bench.target_eq found)
  unfold patchHere
  rw [run_bind_ok looked]
  simp only [Builder.patchHere?_inside inside]
  exact onBench_ok (Bench.modifyBuilder_eq found _)

/-- There is no going on with a jump that lies outside the innermost recording. -/
theorem patchHere_breaks (found : session.bench.recording? = some recording)
    (outside : recording.builder.label ≤ patch.ip) :
    patchHere patch session = .error .outOfFuel session := by
  have looked : onBench Bench.target session = .ok recording.builder session :=
    onBench_ok (Bench.target_eq found)
  unfold patchHere
  rw [run_bind_ok looked]
  simp only [Builder.patchHere?_outside outside]
  rfl

theorem ends_patchHere {done : Unit → Session β υ → Prop}
    {failed : Halt CompileError → Session β υ → Prop}
    (refused : ∀ error : CompileError, error.Static → failed (.failure error) session)
    (aimed : ∀ recording, session.bench.recording? = some recording →
      patch.ip < recording.builder.label → done () { session with
        bench := session.bench.setBuilder (recording.builder.patchHere patch) })
    (missed : ∀ recording, session.bench.recording? = some recording →
      recording.builder.label ≤ patch.ip → failed .outOfFuel session) :
    Ends (patchHere patch) session done failed := by
  have looks : Ends (onBench Bench.target) session
      (fun builder session' => session' = session ∧
        ∃ slot, session.bench.recording? = some ⟨slot, builder⟩) failed :=
    ends_onBench (Bench.ends_target.mono (fun _ _ ⟨same, found⟩ => ⟨same ▸ rfl, found⟩)
      fun error _ ⟨static, same⟩ => same ▸ refused error static)
  refine looks.bind ?_
  rintro builder _ ⟨rfl, slot, found⟩
  by_cases inside : patch.ip < builder.label
  · simp only [Builder.patchHere?_inside inside]
    refine ends_onBench ((Bench.ends_modifyBuilder found _).weaken ?_)
    rintro _ _ rfl
    exact aimed _ found inside
  · simp only [Builder.patchHere?_outside (Nat.le_of_not_lt inside)]
    exact Ends.throws (missed _ found (Nat.le_of_not_lt inside))

end Work

end BlockScript
