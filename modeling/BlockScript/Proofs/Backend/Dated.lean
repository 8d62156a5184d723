import BlockScript.Proofs.Backend.Composed
import BlockScript.Proofs.Backend.Nested
import BlockScript.Proofs.Node.Plain

/-!
# The line that the immediate backend reports

The immediate backend has one current line, which whatever sets a line changes: the script, and
the bodies that are recorded on the way. An error of the running script is reported with it. So
as long as no line is set, all errors are reported with the line that was the current one before.
-/

namespace BlockScript

variable {β υ α γ : Type}

namespace Bench

/-- The current line is the same. -/
def SameLine (bench bench' : Bench) : Prop := bench'.line = bench.line

instance : IsPreorder Bench SameLine where
  refl _ := rfl
  trans _ _ _ h₁ h₂ := h₂.trans h₁

variable {bench : Bench}

theorem sameLine_setBuilder (bench : Bench) (builder : Builder) :
    bench.SameLine (bench.setBuilder builder) := rfl

theorem sameLine_abandon (bench : Bench) (count : Nat) : bench.SameLine (bench.abandon count) := by
  unfold SameLine abandon
  dsimp only
  split <;> rfl

theorem sameLine_build {action : Builder → Except CompileError (α × Builder)}
    (checked : ∀ builder, Checked (action builder)) : Moves SameLine (build action) := by
  refine fun bench => (ends_build checked).mono ?_ fun _ _ => Appending.unmoved
  rintro value _ ⟨slot, builder, builder', -, -, rfl⟩
  exact bench.sameLine_setBuilder builder'

theorem sameLine_emit (operation : String) (op : Op) : Moves SameLine (emit operation op) := by
  refine fun bench => ends_emit.mono ?_ fun _ _ => Appending.unmoved
  rintro _ _ ⟨slot, builder, builder', -, -, rfl⟩
  exact bench.sameLine_setBuilder builder'

theorem sameLine_appending : Appending (fun {α} (action : BenchM α) => Moves SameLine action) :=
  .of_moves (fun _ _ => rfl) fun operation op _ _ => sameLine_emit operation op

theorem sameLine_modifyBuilder (f : Builder → Builder) : Moves SameLine (modifyBuilder f) :=
  .modifies fun _ => rfl

theorem sameLine_openUnit (kind : UnitKind) (name : String) (arity localCount : Nat)
    (locals : List String) : Moves SameLine (openUnit kind name arity localCount locals) := by
  refine fun bench => ends_openUnit.mono ?_ ?_
  · rintro handle _ ⟨builder, units, -, -, -, rfl⟩
    rfl
  · rintro error _ ⟨-, rfl | ⟨-, rfl⟩⟩ <;> rfl

theorem sameLine_closeUnit (handle : UnitHandle) (kind : UnitKind) :
    Moves SameLine (closeUnit handle kind) := by
  refine fun bench => (ends_closeUnit handle kind).mono ?_ ?_
  · rintro installed _ ⟨unit, units, slot, builder, code, -, -, -, -, h⟩
    cases h <;> rfl
  · intro error _ failed
    cases failed <;> rfl

end Bench

/-- An error of the running script is reported with the current line. Internal errors are not
raised by what the script does. -/
def Halt.Current (halt : Halt CompileError) (session : Session β υ) : Prop :=
  ∀ error line, halt = .failure (.runtime error line) → error.kind ≠ .internal →
    line = session.bench.line

theorem Halt.Current.kept (halt : Halt CompileError) {session session' : Session β υ}
    (same : session.bench.SameLine session'.bench) (current : halt.Current session) :
    halt.Current session' :=
  fun error line failed genuine => (current error line failed genuine).trans (Eq.symm same)

theorem CompileError.Generated.current {error : CompileError} (generated : error.Generated)
    (session : Session β υ) : Halt.Current (.failure error) session := by
  rintro error line ⟨⟩ genuine
  obtain static | ⟨slot, line, ⟨⟩⟩ := generated
  · exact static.elim
  · exact absurd rfl genuine

namespace Work

section SameLine

variable {T : Halt CompileError → Session β υ → Prop}
  (generated : ∀ {error : CompileError} (session : Session β υ), error.Generated →
    T (.failure error) session)

include generated

theorem runs_sameLine {action : BenchM α} (plain : Bench.Plain action)
    (same : Moves Bench.SameLine action) :
    Runs (Session.Related Bench.SameLine) T (Work.onBench action : Work β υ α) :=
  fun session => Work.ends_onBench (Ends.intro (fun _ _ run => same.ok run)
    fun _ _ run => ⟨same.error run, generated _ ((plain session.bench).error run)⟩)

/-- The steps of emission leave the line as it was, and their failures are those of generating
code. -/
theorem stepwise_sameLine (silent : ∀ session : Session β υ, T .outOfFuel session) :
    Stepwise (β := β) (υ := υ) (fun {α} (action : Work β υ α) =>
      Runs (Session.Related Bench.SameLine) T action) := by
  have sequenced : Sequenced (β := β) (υ := υ) (fun {α} (action : Work β υ α) =>
      Runs (Session.Related Bench.SameLine) T action) :=
    Runs.sequenced (fun session static => generated session (.inl static)) silent
  have target : Runs (Session.Related Bench.SameLine) T
      (Work.onBench Bench.target : Work β υ Builder) :=
    runs_sameLine generated Bench.plain_appending.target Bench.sameLine_appending.target
  have build {α : Type} {action : Builder → Except CompileError (α × Builder)}
      (checked : ∀ builder, Checked (action builder)) :
      Runs (Session.Related Bench.SameLine) T (Work.onBench (Bench.build action) : Work β υ α) :=
    runs_sameLine generated (Bench.plain_build checked) (Bench.sameLine_build checked)
  have modify (f : Builder → Builder) : Runs (Session.Related Bench.SameLine) T
      (Work.onBench (Bench.modifyBuilder f) : Work β υ Unit) :=
    runs_sameLine generated (Bench.plain_modifyBuilder _) (Bench.sameLine_modifyBuilder _)
  exact {
    toSequenced := sequenced
    target
    emit := fun operation op _ _ => runs_sameLine generated
      (.of_unmoved fun _ => Bench.ends_emit) (Bench.sameLine_emit operation op)
    emitJump := fun _ _ => build fun builder => builder.checked_emitJump _ _
    emitJumpBack := fun _ _ _ =>
      build fun builder => .bind (builder.checked_emit _ _) fun _ => .ok _
    patchHere := fun _ => sequenced.patchHere target (modify _)
    resetTo := fun _ => modify _ }

/-! ### Units of their own -/

variable (kept : ∀ (halt : Halt CompileError) {session session' : Session β υ},
  session.bench.SameLine session'.bench → T halt session → T halt session')

omit generated in
include kept in
theorem cleaning_sameLine {action : Work β υ α}
    (h : Runs (Session.Related Bench.SameLine) T action) {cleanUp : Bench → Bench}
    (same : ∀ bench : Bench, bench.SameLine (cleanUp bench)) :
    Runs (Session.Related Bench.SameLine) T (action.cleaning cleanUp) := by
  refine fun session => Work.ends_cleaning ((h session).mono (fun _ _ => id) ?_)
  intro halt session' ⟨reached, failed⟩
  exact ⟨trans_of Bench.SameLine reached (same _), kept halt (same session'.bench) failed⟩

include kept

theorem nested_sameLine (silent : ∀ session : Session β υ, T .outOfFuel session)
    {region : Work β υ α} (h : Runs (Session.Related Bench.SameLine) T region) :
    Runs (Session.Related Bench.SameLine) T (Work.nested region) := by
  have steps := (stepwise_sameLine generated silent).toSequenced
  refine steps.bind (runs_sameLine generated (fun bench => ?_) fun bench => ?_) fun _ =>
    steps.bind steps.bench fun _ =>
    steps.bind (cleaning_sameLine kept h fun bench => ?_) fun _ =>
    steps.bind (fun session => rfl) fun _ => steps.pure _
  · unfold Ends
    dsimp only
    cases entered : bench.units.enter with
    | ok units => trivial
    | error error => exact .inl (bench.units.checked_enter error entered)
  · unfold Ends
    dsimp only
    cases bench.units.enter <;> rfl
  · exact Bench.sameLine_abandon bench.exitRegion _

theorem enclosing_sameLine (silent : ∀ session : Session β υ, T .outOfFuel session) :
    Enclosing (β := β) (υ := υ) (fun {α} (action : Work β υ α) =>
      Runs (Session.Related Bench.SameLine) T action) where
  toSequenced := (stepwise_sameLine generated silent).toSequenced
  openUnit _ _ _ _ _ := runs_sameLine generated (Bench.plain_openUnit _ _ _ _ _)
    (Bench.sameLine_openUnit _ _ _ _ _)
  closeUnit _ _ := runs_sameLine generated (Bench.plain_closeUnit _ _) (Bench.sameLine_closeUnit _ _)
  discards _ h := cleaning_sameLine kept h fun bench => bench.sameLine_abandon _
  emitSend _ _ _ _ := runs_sameLine generated (Bench.plain_appending.emitSend _ _ _ _)
    (Bench.sameLine_appending.emitSend _ _ _ _)

end SameLine

/-- The current line stays the same, and errors are reported with it. -/
def Dated (action : Work β υ α) : Prop := Runs (Session.Related Bench.SameLine) Halt.Current action

end Work

namespace Interpreter

open Work

/-- Apart from setting a line, the operations leave the line as it was. -/
theorem immediate_sameLine {T : Halt CompileError → Session Interpreter υ → Prop} (faults : Faults T)
    (generated : ∀ {error : CompileError} (session : Session Interpreter υ), error.Generated →
      T (.failure error) session)
    (kept : ∀ (halt : Halt CompileError) {session session' : Session Interpreter υ},
      session.bench.SameLine session'.bench → T halt session → T halt session') (fuel : Nat) :
    Immediate fuel (fun {α} (action : Work Interpreter υ α) =>
      BlockScript.Runs (Session.Related Bench.SameLine) T action) where
  toEnclosing := enclosing_sameLine generated kept faults.outOfFuel
  look _ := fun _ => rfl
  pop := runs_pop faults
  collapse _ _ := runs_perform faults (runs_sameLine generated
    (Bench.plain_appending.emit _ rfl rfl) (Bench.sameLine_emit _ _)) fuel
  perform _ _ falls straight := runs_perform faults (runs_sameLine generated
    (Bench.plain_appending.emit _ falls straight) (Bench.sameLine_emit _ _)) fuel
  intern _ := runs_sameLine generated (Bench.plain_appending.intern _)
    (Bench.sameLine_appending.intern _)
  checkScopeDepth _ := runs_sameLine generated (Bench.plain_appending.checkScopeDepth _)
    (Bench.sameLine_appending.checkScopeDepth _)
  emitYield _ _ := runs_sameLine generated (Bench.plain_appending.emitYield _ _)
    (Bench.sameLine_appending.emitYield _ _)
  nested := nested_sameLine generated kept faults.outOfFuel
  startScript := runs_startScript faults fun _ => rfl
  endScript := runs_endScript faults fun closed => by
    obtain ⟨-, -, -, -, heq⟩ := UnitStack.close_ok closed
    rfl

theorem faults_current : Faults (υ := υ) Halt.Current where
  static session static := CompileError.Generated.current (.inl static) session
  executed := by rintro error session _ _ ⟨⟩ _; rfl
  outOfFuel _ := nofun

variable {ε : Type} {onExtra : ε → Work Interpreter Notes Unit} {fuel : Nat} {action : Action ε}

/-- Where no line is set the current line stays the same. -/
theorem silent_sameLine {T : Halt CompileError → Session Interpreter Notes → Prop} (faults : Faults T)
    (generated : ∀ {error : CompileError} (session : Session Interpreter Notes), error.Generated →
      T (.failure error) session)
    (kept : ∀ (halt : Halt CompileError) {session session' : Session Interpreter Notes},
      session.bench.SameLine session'.bench → T halt session → T halt session')
    (plain : action.Plain) (silent : action.Silent) :
    BlockScript.Runs (Session.Related Bench.SameLine) T (action.run (contract Notes fuel) onExtra) := by
  have steps := immediate_sameLine faults generated kept fuel
  refine plain.holds_using (steps.pure ()) (fun h₁ h₂ => steps.bind h₁ fun _ => h₂)
    (fun operation _ allowed parts => ?_) onExtra silent
  refine steps.issue parts (fun inner controls => ?_) fun line marks => ?_
  · obtain ⟨region, emits, runs⟩ := (Work.stepwise_sameLine generated faults.outOfFuel).region inner
      fun part has => parts part (operation.has_of_controls controls has)
    rw [emits]
    exact steps.nested runs
  · exact absurd rfl (allowed _ (operation.issues_of_marks marks) line)

theorem dated_silent (plain : action.Plain) (silent : action.Silent) :
    Dated (action.run (contract Notes fuel) onExtra) :=
  silent_sameLine faults_current (fun session generated => generated.current session) Halt.Current.kept
    plain silent

/-- Setting a line makes it the current one. -/
theorem ensures_mark (line : UInt32) (session : Session Interpreter υ) :
    Ensures (primitive fuel (.line line)) session fun _ session' =>
      session'.bench.line = some line :=
  Ensures.last fun _ _ => Ensures.last fun _ _ => Ensures.ite
    (fun _ => Ensures.last fun _ _ => Ensures.modifies rfl) fun _ => Ensures.modifies rfl

end Interpreter

end BlockScript
