import BlockScript.Backend.Recorder
import BlockScript.Proofs.Backend.Composed
import BlockScript.Proofs.Backend.Rooted
import BlockScript.Proofs.Backend.Sketch
import BlockScript.Proofs.Builder.Lines
import BlockScript.Proofs.Node.Plain

/-!
# Lines of recorded code

Operations that compute only go on with the innermost recording, and leave the units around it as
they are; what they open themselves they close again. So what every step of a builder has, all
that is recorded has, from one operation to the next. Two such relations tell how the lines of a
script come about: what was recorded before keeps its lines, and where no line is set, what is
recorded is on the line that was in effect before.
-/

namespace BlockScript

variable {β υ α γ : Type} {R : Builder → Builder → Prop}
  {unit : OpenUnit (Option Recording)} {outer : List (OpenUnit (Option Recording))}
  {slot : UInt32} {builder builder' : Builder}

/-- What the steps of recording do to a builder, apart from setting a line. -/
structure Builder.Inscribes (R : Builder → Builder → Prop) : Prop where
  emit : ∀ {builder builder' : Builder} {operation : String} {op : Op},
    builder.emit operation op = .ok builder' → R builder builder'
  patchHere : ∀ (builder : Builder) (patch : JumpPatch), R builder (builder.patchHere patch)
  resetTo : ∀ (builder : Builder) (depth : Nat), R builder (builder.resetTo depth)

theorem Builder.inscribes_unmarked : Inscribes Unmarked where
  emit := unmarked_emit
  patchHere := unmarked_patchHere
  resetTo := unmarked_resetTo

theorem Builder.inscribes_retains : Inscribes Retains where
  emit run := (unmarked_emit run).retains
  patchHere builder patch := (builder.unmarked_patchHere patch).retains
  resetTo builder depth := (builder.unmarked_resetTo depth).retains

/-! ## Steps on the bench -/

namespace Bench

variable {bench : Bench}

/-- The innermost unit is recorded so far, with these units around it. -/
def Shows (bench : Bench) (unit : OpenUnit (Option Recording))
    (outer : List (OpenUnit (Option Recording))) (slot : UInt32) (builder : Builder) : Prop :=
  bench.units.units = { unit with payload := some ⟨slot, builder⟩ } :: outer

theorem Shows.recording? (shows : bench.Shows unit outer slot builder) :
    bench.recording? = some ⟨slot, builder⟩ :=
  recording?_eq_some.mpr ⟨_, outer, shows, rfl⟩

theorem Shows.setBuilder (shows : bench.Shows unit outer slot builder) (builder' : Builder) :
    (bench.setBuilder builder').Shows unit outer slot builder' :=
  setBuilder_units shows rfl builder'

/-- Whenever it succeeds, the computation has only gone on with the innermost recording. -/
def Inscribes (R : Builder → Builder → Prop) (action : BenchM α) : Prop :=
  ∀ (bench : Bench) {unit outer slot builder}, bench.Shows unit outer slot builder →
    Ensures action bench fun _ bench' =>
      ∃ builder', bench'.Shows unit outer slot builder' ∧ R builder builder'

theorem inscribes_build {action : Builder → Except CompileError (α × Builder)}
    (h : ∀ builder value builder', action builder = .ok (value, builder') → R builder builder') :
    Inscribes R (build action) := by
  refine fun bench unit outer slot builder shows => ensures_build.mono ?_
  rintro value _ ⟨_, _, builder', found, run, rfl⟩
  cases found.symm.trans shows.recording?
  exact ⟨builder', shows.setBuilder builder', h builder value builder' run⟩

theorem inscribes_modifyBuilder {f : Builder → Builder} (h : ∀ builder, R builder (f builder)) :
    Inscribes R (modifyBuilder f) := by
  refine fun bench unit outer slot builder shows => (ensures_modifyBuilder shows.recording? f).mono ?_
  rintro _ _ rfl
  exact ⟨_, shows.setBuilder _, h builder⟩

variable [IsPreorder Builder R]

/-- The units stay as they are. -/
theorem inscribes_still {action : BenchM α}
    (h : ∀ bench, Ensures action bench fun _ bench' => bench'.units = bench.units) :
    Inscribes R action := by
  refine fun bench unit outer slot builder shows => (h bench).mono fun _ bench' same => ?_
  exact ⟨builder, by rwa [Shows, same], refl_of R builder⟩

theorem Inscribes.bind {first : BenchM α} {next : α → BenchM γ} (h₁ : Inscribes R first)
    (h₂ : ∀ value, Inscribes R (next value)) : Inscribes R (first >>= next) := by
  intro bench unit outer slot builder shows
  refine (h₁ bench shows).bind ?_
  rintro value bench₁ ⟨builder₁, shows₁, reached₁⟩
  refine (h₂ value bench₁ shows₁).mono ?_
  rintro _ bench₂ ⟨builder₂, shows₂, reached₂⟩
  exact ⟨builder₂, shows₂, trans_of R reached₁ reached₂⟩

theorem inscribes_target : Inscribes R target :=
  inscribes_still fun _ => ensures_target.mono fun _ _ same => same.1 ▸ rfl

theorem inscribes_appending (steps : Builder.Inscribes R) :
    Appending (fun {α} (action : BenchM α) => Inscribes R action) where
  pure _ := inscribes_still fun _ => Ensures.pure rfl
  bind h₁ h₂ := h₁.bind h₂
  look := inscribes_still fun bench => Ensures.get (Ensures.pure rfl)
  fail _ _ := inscribes_still fun _ => Ensures.throws
  target := inscribes_target
  intern _ := inscribes_still fun bench => ensures_intern.mono fun _ _ ⟨_, _, same⟩ => same ▸ rfl
  emit operation op _ _ := by
    refine fun bench unit outer slot builder shows => ensures_emit.mono ?_
    rintro _ _ ⟨_, _, builder', found, run, rfl⟩
    cases found.symm.trans shows.recording?
    exact ⟨builder', shows.setBuilder builder', steps.emit run⟩

theorem inscribes_setLine {line : UInt32} (h : ∀ builder : Builder, R builder (builder.setLine line)) :
    Inscribes R (setLine line) :=
  inscribes_target.bind fun _ => inscribes_modifyBuilder h

theorem inscribes_emitPrimitive (steps : Builder.Inscribes R) {p : Primitive}
    (marks : ∀ line, p = .line line → ∀ builder : Builder, R builder (builder.setLine line)) :
    Inscribes R (emitPrimitive p) := by
  refine (inscribes_appending steps).emitPrimitive p fun line marked => ?_
  subst marked
  exact (inscribes_setLine (marks line rfl)).bind fun _ =>
    inscribes_still fun _ => Ensures.modifies rfl

end Bench

/-! ## Computations of a session -/

namespace Work

/-- Whenever it succeeds, the computation has only gone on with the innermost recording. -/
def Inscribes (R : Builder → Builder → Prop) (action : Work β υ α) : Prop :=
  ∀ (session : Session β υ) {unit outer slot builder},
    session.bench.Shows unit outer slot builder → Ensures action session fun _ session' =>
      ∃ builder', session'.bench.Shows unit outer slot builder' ∧ R builder builder'

namespace Inscribes

theorem onBench {action : BenchM α} (h : Bench.Inscribes R action) :
    Inscribes R (Work.onBench action : Work β υ α) :=
  fun session _ _ _ _ shows => ensures_onBench (h session.bench shows)

variable [IsPreorder Builder R]

theorem pure (value : α) : Inscribes R (Pure.pure value : Work β υ α) :=
  fun _ _ _ _ builder shows => Ensures.pure ⟨builder, shows, refl_of R builder⟩

theorem bind {first : Work β υ α} {next : α → Work β υ γ} (h₁ : Inscribes R first)
    (h₂ : ∀ value, Inscribes R (next value)) : Inscribes R (first >>= next) := by
  intro session unit outer slot builder shows
  refine (h₁ session shows).bind ?_
  rintro value session₁ ⟨builder₁, shows₁, reached₁⟩
  refine (h₂ value session₁ shows₁).mono ?_
  rintro _ session₂ ⟨builder₂, shows₂, reached₂⟩
  exact ⟨builder₂, shows₂, trans_of R reached₁ reached₂⟩

theorem bench : Inscribes R (Work.bench : Work β υ Bench) :=
  fun _ _ _ _ builder shows => Ensures.get (Ensures.pure ⟨builder, shows, refl_of R builder⟩)

omit [IsPreorder Builder R] in
theorem nested {region : Work β υ α} (h : Inscribes R region) : Inscribes R (Work.nested region) := by
  intro session unit outer slot builder shows
  have entered : ({ session with bench := session.bench.enterRegion } : Session β υ).bench.Shows unit
      outer slot builder := shows
  refine (@ends_nested _ _ _ region session _ (fun _ _ => True) trivial
    (Ends.intro ?_ fun _ _ _ => trivial)).ensures
  exact h _ entered

theorem sequenced :
    Sequenced (β := β) (υ := υ) (fun {α} (action : Work β υ α) => Inscribes R action) where
  pure := pure
  bind := bind
  bench := bench
  fail _ := fun _ _ _ _ _ _ => Ensures.throws
  breakOff := fun _ _ _ _ _ _ => Ensures.throws

theorem compositional (steps : Builder.Inscribes R) :
    Compositional (fun {α} (action : Work β υ α) => Inscribes R action) where
  toSequenced := sequenced
  target := onBench Bench.inscribes_target
  emit _ _ plain _ := onBench (Bench.inscribes_build fun _ _ _ run => by
    obtain ⟨_, emitted, same⟩ := Verifier.bind_ok run
    cases same
    exact steps.emit emitted)
  emitJump _ _ := onBench (Bench.inscribes_build fun _ _ _ run =>
    steps.emit (Builder.emitJump_ok run).2)
  emitJumpBack _ _ _ := onBench (Bench.inscribes_build fun _ _ _ run => by
    obtain ⟨_, emitted, same⟩ := Verifier.bind_ok run
    cases same
    exact steps.emit emitted)
  patchHere patch := sequenced.patchHere (onBench Bench.inscribes_target) <|
    onBench (Bench.inscribes_modifyBuilder fun builder => steps.patchHere builder patch)
  resetTo depth := onBench (Bench.inscribes_modifyBuilder fun builder => steps.resetTo builder depth)
  nested := nested

/-- A unit that is opened is closed again, and the recording around it stays as it is, whatever is
recorded in the unit. -/
theorem recordUnit {R' : Builder → Builder → Prop} {body : Work β υ Unit} (h : Inscribes R' body)
    (kind : UnitKind) (name : String) (arity localCount : Nat) (locals : List String) :
    Inscribes R (Work.recordUnit kind name arity localCount locals body) := by
  intro session unit outer slot builder shows
  refine Ensures.get (Ensures.bind (ensures_runs Bench.ensures_openUnit) ?_)
  rintro handle _ ⟨opened, ⟨begun, units, -, -, -, opens, same⟩, rfl⟩
  obtain ⟨-, rfl⟩ := UnitStack.open_ok opens
  have inside : opened.Shows ⟨session.bench.units.nextId, kind, name, none⟩
      session.bench.units.units session.bench.program.code.size.toUInt32 begun := by
    rw [Bench.Shows, same]
  refine ensures_cleaning ((h _ inside).bind ?_)
  rintro _ recorded ⟨body', shows', -⟩
  refine ensures_onBench ((Bench.ends_closeUnit_units _ handle kind).ensures.mono ?_)
  rintro _ bench' ⟨closed, closes, -⟩
  obtain ⟨-, rest⟩ := List.cons.inj (closes.symm.trans shows')
  exact ⟨builder, rest.trans shows, refl_of R builder⟩

theorem recordBlock {R' : Builder → Builder → Prop} {body : Work β υ Unit} (h : Inscribes R' body)
    (scope : StaticScope) (arity : Nat) : Inscribes R (Work.recordBlock scope arity body) :=
  bench.bind fun _ => h.recordUnit _ _ _ _ _

theorem emitCall {R' : Builder → Builder → Prop} (steps : Builder.Inscribes R) (name : String)
    (shape : Invocation) {block : Option (BlockBody (Session β υ))}
    (h : ∀ given, block = some given → Inscribes R' given.body) :
    Inscribes R (Work.emitCall name shape block) := by
  have sends (block : Option UInt32) : Inscribes R
      (Work.onBench (Bench.emitSend callOperation name shape block) : Work β υ Unit) :=
    onBench ((Bench.inscribes_appending steps).emitSend _ _ _ _)
  cases block with
  | none => exact (pure none).bind sends
  | some given =>
      exact (((h given rfl).recordBlock given.scope given.arity).bind fun _ => pure _).bind sends

end Inscribes

end Work

namespace Recorder

open Work (Inscribes)

variable [IsPreorder Builder R]

omit [IsPreorder Builder R] in
theorem inscribes_checked {operation : Work Recorder υ α} (h : Inscribes R operation) :
    Inscribes R (checked operation) :=
  fun session _ _ _ _ shows => ensures_checked (h session shows)

/-! Bodies are recorded in units of their own, so what becomes of these does not matter. -/

section Bodies

variable {R' : Builder → Builder → Prop} (steps : Builder.Inscribes R)

include steps

theorem inscribes_invoke (name : String) (shape : Invocation)
    {block : Option (BlockBody (Session Recorder υ))}
    (h : ∀ given, block = some given → Inscribes R' given.body) :
    Inscribes R ((contract υ).invoke name shape block) :=
  inscribes_checked (.emitCall steps name shape h)

theorem inscribes_closure (scope : StaticScope) (arity : Nat) {body : Work Recorder υ Unit}
    (h : Inscribes R' body) : Inscribes R ((contract υ).closure scope arity body) := by
  refine inscribes_checked ((Inscribes.onBench Bench.inscribes_target).bind fun _ =>
    (h.recordBlock scope arity).bind fun _ => .onBench ?_)
  exact (Bench.inscribes_appending steps).emit _ rfl rfl

theorem inscribes_defineMethod (name : String) (arity localCount : Nat) {body : Work Recorder υ Unit}
    (h : Inscribes R' body) : Inscribes R ((contract υ).defineMethod name arity localCount body) := by
  refine inscribes_checked ((Inscribes.onBench Bench.inscribes_target).bind fun _ =>
    (h.recordUnit _ _ _ _ _).bind fun _ => .onBench ?_)
  exact (Bench.inscribes_appending steps).emitPooled _ _ (fun _ => rfl) fun _ => rfl

end Bodies

/-- An operation that computes has the property if its nested code has. -/
theorem inscribes_issue (steps : Builder.Inscribes R) {operation : Operation (Session Recorder υ) α}
    (computes : operation.Computes)
    (marks : ∀ line, operation.Marks line → ∀ builder : Builder, R builder (builder.setLine line))
    (parts : ∀ part, operation.Has part → Inscribes R part) :
    Inscribes R (operation.issue (contract υ)) := by
  cases operation with
  | startScript | endScript | beginMethod | endMethod => exact computes.elim
  | primitive p => exact inscribes_checked (.onBench (Bench.inscribes_emitPrimitive steps marks))
  | invoke name shape block =>
      exact inscribes_invoke steps name shape fun given h => parts _ ⟨given, h, rfl⟩
  | control inner =>
      have emits := (Inscribes.compositional steps).control inner parts
      cases inner <;> exact inscribes_checked emits
  | closure scope arity body => exact inscribes_closure steps scope arity (parts _ rfl)
  | defineMethod name arity localCount body =>
      exact inscribes_defineMethod steps name arity localCount (parts _ rfl)

variable {ε : Type} {onExtra : ε → Work Recorder Notes Unit} {action : Action ε}

theorem inscribes_plain (steps : Builder.Inscribes R) {allowed : Primitive → Prop}
    (marks : ∀ line, allowed (.line line) → ∀ builder : Builder, R builder (builder.setLine line))
    (plain : action.Plain) (uses : action.Uses allowed) :
    Inscribes R (action.run (contract Notes) onExtra) :=
  plain.holds_using (.pure ()) (fun h₁ h₂ => h₁.bind fun _ => h₂)
    (fun operation computes issues parts => inscribes_issue steps computes
      (fun line marked => marks line (issues _ (operation.issues_of_marks marked))) parts)
    onExtra uses

/-- What was recorded before keeps its lines. -/
theorem retains_plain (plain : action.Plain) :
    Inscribes Builder.Retains (action.run (contract Notes) onExtra) :=
  inscribes_plain Builder.inscribes_retains (fun line _ builder => builder.retains_setLine line) plain
    action.uses_any

/-- Where no line is set, all is recorded on the line that was in effect before. -/
theorem unmarked_silent (plain : action.Plain) (silent : action.Silent) :
    Inscribes Builder.Unmarked (action.run (contract Notes) onExtra) :=
  inscribes_plain Builder.inscribes_unmarked (fun line allowed => absurd rfl (allowed line)) plain
    silent

end Recorder

end BlockScript
