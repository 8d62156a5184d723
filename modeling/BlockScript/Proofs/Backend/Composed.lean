import BlockScript.Proofs.Backend.Control
import BlockScript.Proofs.Backend.Scoped

/-!
# How the emission of nested code is put together

Emission is made of a few steps on the bench, of nested code and of the ways in which
computations are put together, and of nothing else. So whatever these steps have, and what is
kept when computations are put together, every emission has whose nested code has it.
-/

namespace BlockScript

variable {β υ α γ : Type}

/-! ## Steps on the bench -/

namespace Bench

/-- A failure is one of generating code, or a slot was not there. -/
def Plain (action : BenchM α) : Prop :=
  ∀ bench, Ends action bench (fun _ _ => True) fun error _ => error.Generated

theorem Plain.of_unmoved {action : BenchM α} {done : Bench → α → Bench → Prop}
    (h : ∀ bench : Bench, Ends action bench (done bench) bench.Unmoved) : Plain action :=
  fun bench => (h bench).mono (fun _ _ _ => trivial) fun _ _ failed => .inl failed.1

theorem Plain.bind {first : BenchM α} {next : α → BenchM γ} (h₁ : Plain first)
    (h₂ : ∀ value, Plain (next value)) : Plain (first >>= next) :=
  fun bench => (h₁ bench).bind fun value bench' _ => h₂ value bench'

theorem plain_build {action : Builder → Except CompileError (α × Builder)}
    (checked : ∀ builder, Checked (action builder)) : Plain (build action) :=
  .of_unmoved fun _ => ends_build checked

theorem plain_modifyBuilder (f : Builder → Builder) : Plain (modifyBuilder f) := fun _ => trivial

theorem plain_appending : Appending (fun {α} (action : BenchM α) => Plain action) where
  pure _ := fun _ => trivial
  bind := .bind
  look := fun _ => trivial
  fail _ _ := fun _ => .inl trivial
  target := .of_unmoved fun _ => ends_target
  intern _ := .of_unmoved fun _ => ends_intern
  emit _ _ _ _ := .of_unmoved fun _ => ends_emit

theorem plain_openUnit (kind : UnitKind) (name : String) (arity localCount : Nat)
    (locals : List String) : Plain (openUnit kind name arity localCount locals) :=
  fun _ => ends_openUnit.mono (fun _ _ _ => trivial) fun _ _ failed => .inl failed.1

theorem plain_closeUnit (handle : UnitHandle) (kind : UnitKind) : Plain (closeUnit handle kind) := by
  refine fun bench => (ends_closeUnit handle kind).mono (fun _ _ _ => trivial) ?_
  intro error bench' failed
  cases failed with
  | refused static => exact .inl static
  | executed static closed payload => exact .inl static
  | discarded generated static closed payload => exact generated

theorem plain_setLine (line : UInt32) : Plain (setLine line) :=
  plain_appending.target.bind fun _ => plain_modifyBuilder _

theorem plain_emitPrimitive (p : Primitive) : Plain (emitPrimitive p) :=
  plain_appending.emitPrimitive p fun line marked => marked ▸
    (plain_setLine line).bind fun _ _ => trivial

end Bench

/-! ## Computations of a session -/

/-- A property of computations that is kept when they are put together, and that looking at the
bench, failing and breaking off have. -/
structure Sequenced (P : ∀ {α : Type}, Work β υ α → Prop) : Prop where
  pure : ∀ {α : Type} (value : α), P (Pure.pure value : Work β υ α)
  bind : ∀ {α γ : Type} {first : Work β υ α} {next : α → Work β υ γ},
    P first → (∀ value, P (next value)) → P (first >>= next)
  bench : P (Work.bench : Work β υ Bench)
  fail : ∀ {α : Type} {error : CompileError}, error.Static → P (Work.fail error : Work β υ α)
  breakOff : ∀ {α : Type}, P (Work.breakOff : Work β υ α)

/-- A relation that is reflexive and transitive is such a property. -/
theorem Moves.sequenced {R : Session β υ → Session β υ → Prop} [IsPreorder (Session β υ) R] :
    Sequenced (β := β) (υ := υ) (fun {α} (action : Work β υ α) => Moves R action) where
  pure := .pure
  bind := .bind
  bench := Work.moves_bench
  fail _ := .throws _
  breakOff := .throws _

namespace Sequenced

variable {P : ∀ {α : Type}, Work β υ α → Prop} (steps : Sequenced (β := β) (υ := υ) P)
  {part : Work β υ Unit}

theorem ite {c : Prop} [Decidable c] {yes no : Work β υ α} (h₁ : P yes) (h₂ : P no) :
    P (if c then yes else no) := by
  by_cases h : c
  · rwa [if_pos h]
  · rwa [if_neg h]

include steps

theorem violate (kind : Violation) : P (Work.violate kind : Work β υ α) :=
  steps.bind steps.bench fun _ => steps.fail trivial

theorem ensureSameUnit (construct : String) (before : Nat) :
    P (Work.ensureSameUnit construct before : Work β υ Unit) :=
  steps.bind steps.bench fun _ =>
    ite (steps.violate _) (steps.pure ())

/-- Aiming a jump looks at the innermost recording, and changes it or breaks off. -/
theorem patchHere {patch : JumpPatch} (target : P (Work.onBench Bench.target : Work β υ Builder))
    (aims : P (Work.onBench (Bench.modifyBuilder (·.patchHere patch)) : Work β υ Unit)) :
    P (Work.patchHere patch : Work β υ Unit) := by
  refine steps.bind target fun builder => ?_
  cases builder.patchHere? patch with
  | some _ => exact aims
  | none => exact steps.breakOff

theorem forEachIndex {action : Nat → Work β υ Unit} (h : ∀ index, P (action index))
    (first count : Nat) : P (Work.forEachIndex action first count) := by
  induction count generalizing first with
  | zero => exact steps.pure ()
  | succ count ih => exact steps.bind (h first) fun _ => ih (first + 1)

/-- How a region ends: in the same unit, and with the values it owes. -/
theorem endRegion (target : P (Work.onBench Bench.target : Work β υ Builder)) (construct : String)
    (allowed : DepthTracker.Allowance) (units before : Nat) : P (do
      Work.ensureSameUnit construct units
      let line := (← Work.bench).currentLine
      let stack := (← Work.onBench Bench.target).stack
      match stack.expectDelta construct before allowed line with
      | .ok () => return stack.deltaSince before
      | .error error => Work.fail error : Work β υ Int) := by
  refine steps.bind (steps.ensureSameUnit _ _) fun _ => steps.bind steps.bench fun bench =>
    steps.bind target fun builder => ?_
  dsimp only
  split
  · exact steps.pure _
  · rename_i error refused
    exact steps.fail (DepthTracker.checked_expectDelta _ _ _ _ _ error refused)

theorem runRegion (target : P (Work.onBench Bench.target : Work β υ Builder)) (construct : String)
    (allowed : DepthTracker.Allowance) (h : P part) :
    P (Work.runRegion construct allowed part) :=
  steps.bind steps.bench fun _ => steps.bind target fun _ => steps.bind h fun _ =>
    steps.endRegion target _ _ _ _

end Sequenced

/-- The same of a property that the steps of emission have. -/
structure Stepwise (P : ∀ {α : Type}, Work β υ α → Prop) : Prop extends
    Sequenced (β := β) (υ := υ) P where
  target : P (Work.onBench Bench.target : Work β υ Builder)
  emit : ∀ (operation : String) {op : Op}, op.Plain → (∀ argc, op ≠ .yield argc) →
    P (Work.onBench (Bench.emit operation op) : Work β υ Unit)
  emitJump : ∀ (operation : String) (kind : JumpKind),
    P (Work.emitJump operation kind : Work β υ JumpPatch)
  emitJumpBack : ∀ (operation : String) (kind : JumpKind) (label : Nat),
    P (Work.emitJumpBack operation kind label : Work β υ Unit)
  patchHere : ∀ patch : JumpPatch, P (Work.patchHere patch : Work β υ Unit)
  resetTo : ∀ depth : Nat,
    P (Work.onBench (Bench.modifyBuilder (·.resetTo depth)) : Work β υ Unit)

namespace Stepwise

variable {P : ∀ {α : Type}, Work β υ α → Prop} (steps : Stepwise (β := β) (υ := υ) P)
  {part : Work β υ Unit}

include steps

theorem emitTimes (operation : String) {op : Op} (plain : op.Plain)
    (own : ∀ argc, op ≠ .yield argc) (count : Nat) :
    P (Work.emitTimes operation op count : Work β υ Unit) := by
  induction count with
  | zero => exact steps.pure ()
  | succ count ih => exact steps.bind (steps.emit operation plain own) fun _ => ih

theorem runRegion (construct : String) (allowed : DepthTracker.Allowance) (h : P part) :
    P (Work.runRegion construct allowed part) :=
  steps.toSequenced.runRegion steps.target construct allowed h

/-- Code of an operation with nested code in the same unit, without the level of control flow
around it. -/
theorem region (operation : Control (Session β υ)) (h : ∀ part, operation.Has part → P part) :
    ∃ region : Work β υ Unit, operation.emit = Work.nested region ∧ P region := by
  cases operation with
  | branch onTrue onFalse =>
      have depth : P (Work.depth : Work β υ Nat) :=
        steps.bind steps.target fun _ => steps.pure _
      have closes (toEnd : JumpPatch) : P (Work.patchHere toEnd : Work β υ Unit) :=
        steps.patchHere toEnd
      exact ⟨_, rfl, steps.bind steps.bench fun _ =>
        steps.bind (steps.emitJump _ _) fun toElse => steps.bind depth fun before =>
        steps.bind (h onTrue (.inl rfl)) fun _ =>
        steps.bind (steps.ensureSameUnit _ _) fun _ => steps.bind depth fun _ =>
        steps.bind (steps.emitJump _ _) fun toEnd =>
        steps.bind (steps.patchHere toElse) fun _ =>
        steps.bind (steps.resetTo before) fun _ =>
        steps.bind (h onFalse (.inr rfl)) fun _ =>
        steps.bind (steps.ensureSameUnit _ _) fun _ => steps.bind steps.target fun _ =>
        Sequenced.ite (steps.bind (steps.violate _) fun _ => closes toEnd) (closes toEnd)⟩
  | logical connective right =>
      exact ⟨_, rfl, steps.bind (steps.emit _ .dup nofun) fun _ =>
        steps.bind (steps.emitJump _ _) fun _ => steps.bind (steps.emit _ .pop nofun) fun _ =>
        steps.bind (steps.runRegion _ _ (h right rfl)) fun _ => steps.patchHere _⟩
  | loop condition body checkFirst =>
      have tests : P (Work.emitCondition condition) :=
        steps.bind (steps.runRegion _ _ (h condition (.inl rfl))) fun _ => steps.pure ()
      have repeats : P (Work.emitLoopBody body) :=
        steps.bind (steps.runRegion _ _ (h body (.inr rfl))) fun _ =>
          steps.emitTimes _ .pop nofun _
      exact ⟨_, rfl, steps.bind steps.target fun _ => Sequenced.ite
        (steps.bind tests fun _ => steps.bind (steps.emitJump _ _) fun _ =>
          steps.bind repeats fun _ => steps.bind (steps.emitJumpBack _ _ _) fun _ =>
          steps.patchHere _)
        (steps.bind repeats fun _ => steps.bind tests fun _ => steps.emitJumpBack _ _ _)⟩
  | array count element =>
      exact ⟨_, rfl, steps.bind (steps.forEachIndex (fun index =>
        steps.bind (steps.runRegion _ _ (h (element index) ⟨index, rfl⟩)) fun _ =>
          steps.pure ()) 0 count) fun _ => steps.emit _ (.makeArray _) nofun⟩

end Stepwise

/-- The same of a property that also holds of regions one level of control flow deeper. -/
structure Compositional (P : ∀ {α : Type}, Work β υ α → Prop) : Prop extends
    Stepwise (β := β) (υ := υ) P where
  nested : ∀ {α : Type} {region : Work β υ α}, P region → P (Work.nested region)

/-- Code of an operation with nested code in the same unit. -/
theorem Compositional.control {P : ∀ {α : Type}, Work β υ α → Prop}
    (composes : Compositional (β := β) (υ := υ) P) (operation : Control (Session β υ))
    (h : ∀ part, operation.Has part → P part) : P operation.emit := by
  obtain ⟨region, emits, holds⟩ := composes.region operation h
  rw [emits]
  exact composes.nested holds

/-- The same of a property that the steps have which record code in units of its own. -/
structure Enclosing (P : ∀ {α : Type}, Work β υ α → Prop) : Prop extends
    Sequenced (β := β) (υ := υ) P where
  openUnit : ∀ {kind : UnitKind}, kind ≠ .script → ∀ (name : String) (arity localCount : Nat)
    (locals : List String),
    P (Work.onBench (Bench.openUnit kind name arity localCount locals) : Work β υ UnitHandle)
  closeUnit : ∀ (handle : UnitHandle) (kind : UnitKind),
    P (Work.onBench (Bench.closeUnit handle kind) : Work β υ UInt32)
  discards : ∀ {α : Type} {action : Work β υ α} (count : Nat), P action →
    P (action.cleaning (·.abandon count))
  emitSend : ∀ (operation name : String) (shape : Invocation) (block : Option UInt32),
    P (Work.onBench (Bench.emitSend operation name shape block) : Work β υ Unit)

namespace Enclosing

variable {P : ∀ {α : Type}, Work β υ α → Prop} (encloses : Enclosing (β := β) (υ := υ) P)
  {part : Work β υ Unit}

include encloses

/-- Code of a body in a unit of its own. -/
theorem recordUnit {kind : UnitKind} (inner : kind ≠ .script) (name : String)
    (arity localCount : Nat) (locals : List String) (h : P part) :
    P (Work.recordUnit kind name arity localCount locals part) :=
  encloses.bind encloses.bench fun _ =>
    encloses.bind (encloses.openUnit inner name arity localCount locals) fun handle =>
      encloses.discards _ (encloses.bind h fun _ => encloses.closeUnit handle kind)

theorem recordBlock (scope : StaticScope) (arity : Nat) (h : P part) :
    P (Work.recordBlock scope arity part) :=
  encloses.bind encloses.bench fun _ => encloses.recordUnit (by nofun) _ _ _ _ h

theorem recordBlock? {block : Option (BlockBody (Session β υ))}
    (h : ∀ given, block = some given → P given.body) : P (Work.recordBlock? block) := by
  cases block with
  | none => exact encloses.pure none
  | some given =>
      exact encloses.bind (encloses.recordBlock given.scope given.arity (h given rfl)) fun _ =>
        encloses.pure _

theorem emitCall (name : String) (shape : Invocation)
    {block : Option (BlockBody (Session β υ))} (h : ∀ given, block = some given → P given.body) :
    P (Work.emitCall name shape block) :=
  encloses.bind (encloses.recordBlock? h) fun _ => encloses.emitSend _ _ _ _

end Enclosing

/-- A property that does not depend on what happens to the bench: every step on it has the
property unless it may fail with the refusal that follows an earlier failure. -/
structure Lax (P : ∀ {α : Type}, Work β υ α → Prop) : Prop where
  pure : ∀ {α : Type} (value : α), P (Pure.pure value : Work β υ α)
  bind : ∀ {α γ : Type} {first : Work β υ α} {next : α → Work β υ γ},
    P first → (∀ value, P (next value)) → P (first >>= next)
  bench : P (Work.bench : Work β υ Bench)
  fail : ∀ {α : Type} {error : CompileError}, error.isAborted = false →
    P (Work.fail error : Work β υ α)
  breakOff : ∀ {α : Type}, P (Work.breakOff : Work β υ α)
  onBench : ∀ {α : Type} {action : BenchM α}, Bench.Plain action → P (Work.onBench action)
  modifyBench : ∀ f : Bench → Bench, P (Work.modifyBench f)
  cleaning : ∀ {α : Type} {action : Work β υ α} (f : Bench → Bench), P action →
    P (action.cleaning f)

namespace Lax

variable {P : ∀ {α : Type}, Work β υ α → Prop} (lax : Lax (β := β) (υ := υ) P)
  {part : Work β υ Unit}

include lax

theorem nested {region : Work β υ α} (h : P region) : P (Work.nested region) := by
  refine lax.bind (lax.onBench fun bench => ?_) fun _ => ?_
  · unfold Ends
    dsimp only
    cases entered : bench.units.enter with
    | ok units => trivial
    | error error => exact .inl (bench.units.checked_enter error entered)
  · exact lax.bind lax.bench fun _ => lax.bind (lax.cleaning _ h) fun _ =>
      lax.bind (lax.modifyBench _) fun _ => lax.pure _

theorem sequenced : Sequenced (β := β) (υ := υ) P where
  pure := lax.pure
  bind := lax.bind
  bench := lax.bench
  fail static := lax.fail static.not_aborted
  breakOff := lax.breakOff

theorem compositional : Compositional (β := β) (υ := υ) P where
  toSequenced := lax.sequenced
  target := lax.onBench Bench.plain_appending.target
  emit _ _ _ _ := lax.onBench (.of_unmoved fun _ => Bench.ends_emit)
  emitJump operation kind :=
    lax.onBench (Bench.plain_build fun builder => builder.checked_emitJump operation kind)
  emitJumpBack _ _ _ := lax.onBench (Bench.plain_build fun builder =>
    .bind (builder.checked_emit _ _) fun _ => .ok _)
  patchHere _ := lax.sequenced.patchHere (lax.onBench Bench.plain_appending.target)
    (lax.onBench (Bench.plain_modifyBuilder _))
  resetTo _ := lax.onBench (Bench.plain_modifyBuilder _)
  nested := lax.nested

theorem enclosing : Enclosing (β := β) (υ := υ) P where
  toSequenced := lax.sequenced
  openUnit _ _ _ _ _ := lax.onBench (Bench.plain_openUnit _ _ _ _ _)
  closeUnit handle kind := lax.onBench (Bench.plain_closeUnit handle kind)
  discards _ h := lax.cleaning _ h
  emitSend _ _ _ _ := lax.onBench (Bench.plain_appending.emitSend _ _ _ _)

end Lax

/-! ## Computations whose failures are known -/

section Runs

variable {R : Session β υ → Session β υ → Prop} {T : Halt CompileError → Session β υ → Prop}

/-- Whatever the outcome, the states before and after are related, and a failure satisfies what
is said of failures. -/
def Runs (R : Session β υ → Session β υ → Prop) (T : Halt CompileError → Session β υ → Prop)
    (action : Work β υ α) : Prop :=
  ∀ session, Ends action session (fun _ => R session) fun halt session' =>
    R session session' ∧ T halt session'

namespace Runs

theorem of_moves {action : Work β υ α} (h : Moves R action) (failures : ∀ halt session, T halt session) :
    Runs R T action :=
  fun session => (h session).mono (fun _ _ => id) fun _ _ reached => ⟨reached, failures _ _⟩

theorem moves {action : Work β υ α} (h : Runs R T action) : Moves R action :=
  fun session => (h session).mono (fun _ _ => id) fun _ _ => And.left

theorem get {next : Session β υ → Work β υ α} (h : ∀ session, Runs R T (next session)) :
    Runs R T (MonadStateOf.get >>= next) :=
  fun session => h session session

theorem ite {c : Prop} [Decidable c] {yes no : Work β υ α} (h₁ : c → Runs R T yes)
    (h₂ : ¬c → Runs R T no) : Runs R T (if c then yes else no) :=
  fun session => Ends.ite (fun h => h₁ h session) fun h => h₂ h session

variable [IsPreorder (Session β υ) R]

theorem bind {first : Work β υ α} {next : α → Work β υ γ} (h₁ : Runs R T first)
    (h₂ : ∀ value, Runs R T (next value)) : Runs R T (first >>= next) :=
  fun session => (h₁ session).bind fun value session' reached =>
    (h₂ value session').mono (fun _ _ => trans_of R reached) fun _ _ failed =>
      ⟨trans_of R reached failed.1, failed.2⟩

theorem look (T : Halt CompileError → Session β υ → Prop) :
    Runs R T (MonadState.get : Work β υ (Session β υ)) :=
  fun session => refl_of R session

theorem rescue {body : Work β υ α} {handler : CompileError → Work β υ α} (h₁ : Runs R T body)
    (h₂ : ∀ error, Runs R T (handler error)) : Runs R T (body.rescue handler) := by
  refine fun session => Work.ends_rescue ((h₁ session).mono (fun _ _ => id) ?_)
  rintro (error | _) session' reached
  · exact (h₂ error session').mono (fun _ _ => trans_of R reached.1) fun _ _ again =>
      ⟨trans_of R reached.1 again.1, again.2⟩
  · exact reached

theorem sequenced (static : ∀ {error : CompileError} (session : Session β υ), error.Static →
    T (.failure error) session) (silent : ∀ session, T .outOfFuel session) :
    Sequenced (Runs R T) where
  pure _ := fun session => refl_of R session
  bind h₁ h₂ := h₁.bind h₂
  bench := fun session => refl_of R session
  fail h := fun session => ⟨refl_of R session, static session h⟩
  breakOff := fun session => ⟨refl_of R session, silent session⟩

/-- What relates states by more than the bench, and what failures satisfy that are not the
refusals which follow an earlier failure, carries over to the emission of nested code. -/
theorem lax (benches : ∀ (session : Session β υ) (bench : Bench),
      R session { session with bench })
    (fresh : ∀ (error : CompileError) session, error.isAborted = false → T (.failure error) session)
    (silent : ∀ session, T .outOfFuel session)
    (cleaned : ∀ halt (session : Session β υ) (bench : Bench), T halt session →
      T halt { session with bench }) :
    Lax (Runs R T) where
  pure _ := fun session => refl_of R session
  bind h₁ h₂ := h₁.bind h₂
  bench := fun session => refl_of R session
  fail h := fun session => ⟨refl_of R session, fresh _ session h⟩
  breakOff := fun session => ⟨refl_of R session, silent session⟩
  onBench h := fun session => Work.ends_onBench ((h session.bench).mono
    (fun _ _ _ => benches session _) fun _ _ plain => ⟨benches session _, fresh _ _ plain.not_aborted⟩)
  modifyBench _ := fun session => benches session _
  cleaning _ h := fun session => Work.ends_cleaning ((h session).mono (fun _ _ => id)
    fun _ _ failed => ⟨trans_of R failed.1 (benches _ _), cleaned _ _ _ failed.2⟩)

/-- What holds of every operation, provided that it holds of its nested code, holds of every
caller. -/
theorem client {contract : Contract (Session β υ)} {manner : Manner β υ}
    (operations : ∀ {α : Type} (operation : Operation (Session β υ) α),
      (∀ part, operation.Has part → Runs R T part) → Runs R T (operation.issue contract))
    (own : ∀ f, manner.changes f → ∀ session : Session β υ,
      R session { session with client := f session.client })
    (raised : ∀ error, manner.raises error → ∀ session, T (.failure error) session)
    {action : Work β υ α} (client : Client contract manner action) : Runs R T action := by
  induction client with
  | pure value => exact fun session => refl_of R session
  | bind _ _ first next => exact first.bind next
  | look => exact fun session => refl_of R session
  | keep allowed => exact fun session => own _ allowed session
  | raise allowed => exact fun session => ⟨refl_of R session, raised _ allowed session⟩
  | rescue _ _ body handler => exact body.rescue handler
  | issue _ _ parts => exact operations _ parts

end Runs

end Runs

end BlockScript
