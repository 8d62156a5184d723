import BlockScript.Proofs.Backend.Composed
import BlockScript.Proofs.Backend.Sketch

/-!
# How deep recording goes

Open units and open regions count against one limit. A computation that leaves as many of both
open as before is measured by how many more it opens on the way: of computations one after
another the larger number counts, and a unit or a region around a computation adds one. Within
the limit the computation never fails for want of levels, and beyond it it never succeeds.
-/

namespace BlockScript

/-- Too many units and regions were to be open at once. -/
def CompileError.tooDeep : CompileError → Bool
  | .exhausted .nestingDepth _ => true
  | _ => false

/-- The same of whatever a computation broke off with. -/
def Halt.tooDeep : Halt CompileError → Bool
  | .failure error => error.tooDeep
  | .outOfFuel => false

/-- The units and regions that are open. -/
def UnitStack.level {α : Type} (stack : UnitStack α) : Nat := stack.size + stack.nesting

/-- As many units and regions are open as before, and as many may be. -/
structure UnitStack.SameLevel {α : Type} (stack later : UnitStack α) : Prop where
  size : later.size = stack.size
  nesting : later.nesting = stack.nesting
  maxNesting : later.maxNesting = stack.maxNesting

namespace UnitStack.SameLevel

variable {α : Type} {stack middle later : UnitStack α}

theorem refl (stack : UnitStack α) : stack.SameLevel stack := ⟨rfl, rfl, rfl⟩

theorem trans (h₁ : stack.SameLevel middle) (h₂ : middle.SameLevel later) :
    stack.SameLevel later :=
  ⟨h₂.size.trans h₁.size, h₂.nesting.trans h₁.nesting, h₂.maxNesting.trans h₁.maxNesting⟩

theorem level (h : stack.SameLevel later) : later.level = stack.level := by
  rw [UnitStack.level, h.size, h.nesting, UnitStack.level]

end UnitStack.SameLevel

/-! ## Errors that are about something else -/

/-- A failure, if there is one, is not about levels. -/
def Shallow {α : Type} (result : Except CompileError α) : Prop :=
  ∀ error, result = .error error → error.tooDeep = false

namespace Shallow

variable {α β : Type}

theorem ok (value : α) : Shallow (.ok value) := fun _ h => by cases h

theorem error {error : CompileError} (h : error.tooDeep = false) :
    Shallow (.error error : Except CompileError α) := fun _ heq => by
  cases heq
  exact h

theorem bind {first : Except CompileError α} {next : α → Except CompileError β}
    (h₁ : Shallow first) (h₂ : ∀ value, Shallow (next value)) : Shallow (first >>= next) := by
  cases first with
  | error error => exact .error (h₁ error rfl)
  | ok value => exact h₂ value

theorem ite {c : Prop} [Decidable c] {yes no : Except CompileError α} (h₁ : Shallow yes)
    (h₂ : Shallow no) : Shallow (if c then yes else no) := by
  split
  · exact h₁
  · exact h₂

end Shallow

namespace Builder

theorem shallow_emit (builder : Builder) (operation : String) (op : Op) :
    Shallow (builder.emit operation op) :=
  .bind (.ite (.ok _) (.ite (.error rfl) (.ok _))) fun _ => .ok _

theorem shallow_emitTimes (operation : String) (op : Op) (count : Nat) (builder : Builder) :
    Shallow (emitTimes operation op count builder) := by
  induction count generalizing builder with
  | zero => exact .ok _
  | succ count ih => exact .bind (builder.shallow_emit _ _) fun appended => ih appended

theorem shallow_finish (builder : Builder) : Shallow builder.finish := by
  have closes (valued : Builder) : Shallow (do
      let closed ← valued.emit "end of unit" .ret
      return { closed.code with maxStack := closed.stack.maxDepth.toUInt32 }) :=
    .bind (valued.shallow_emit _ _) fun _ => .ok _
  apply Shallow.bind (.ite (.ok _) (.ite (.error rfl) (.ok _)))
  intro surplus
  apply Shallow.bind (shallow_emitTimes _ _ _ _)
  intro popped
  exact .ite (.bind (popped.shallow_emit _ _) closes) (closes popped)

end Builder

theorem DepthTracker.shallow_expectDelta (tracker : DepthTracker) (construct : String)
    (before : Nat) (allowed : Allowance) (line : Option UInt32) :
    Shallow (tracker.expectDelta construct before allowed line) :=
  .ite (.ok _) (.error rfl)

theorem Pool.shallow_intern (pool : Pool) (constant : Constant) (limit : Nat) :
    Shallow (pool.intern constant limit) := by
  unfold intern
  split
  · exact .ok _
  · exact .ite (.ok _) (.error rfl)

theorem UnitStack.shallow_close {α : Type} (stack : UnitStack α) (handle : UnitHandle)
    (kind : UnitKind) (line : Option UInt32) : Shallow (stack.close handle kind line) := by
  apply Shallow.ite (.error rfl)
  split
  · exact .error rfl
  · exact .ite (.error rfl) (.ite (.error rfl) (.ok _))

/-! ## Steps on the bench -/

namespace Bench

variable {α γ : Type} {bench : Bench}

/-- The computation opens nothing that stays open, and never fails for want of levels. -/
def Flat (action : BenchM α) : Prop :=
  ∀ bench, Ends action bench (fun _ bench' => bench.units.SameLevel bench'.units)
    fun error _ => error.tooDeep = false

theorem flat_pure (value : α) : Flat (pure value) := fun bench => .refl bench.units

theorem Flat.bind {first : BenchM α} {next : α → BenchM γ} (h₁ : Flat first)
    (h₂ : ∀ value, Flat (next value)) : Flat (first >>= next) := by
  intro bench
  apply (h₁ bench).bind
  intro value middle same
  exact (h₂ value middle).weaken fun _ _ => same.trans

theorem flat_modifyBuilder (f : Builder → Builder) : Flat (modifyBuilder f) := by
  rintro ⟨config, ⟨owner, nextId, units, nesting, maxNesting⟩, program, line, sharing, recorded⟩
  cases units <;> exact ⟨rfl, rfl, rfl⟩

theorem flat_target : Flat target := by
  intro bench
  apply Ends.get
  split
  · exact Ends.throws rfl
  · split
    · exact Ends.pure (.refl _)
    · exact Ends.throws rfl

theorem flat_build {action : Builder → Except CompileError (α × Builder)}
    (shallow : ∀ builder, Shallow (action builder)) : Flat (build action) := by
  apply flat_target.bind
  intro builder bench
  cases result : action builder with
  | error error =>
      simp only
      exact Ends.throws (shallow builder error result)
  | ok result =>
      simp only
      exact ((flat_modifyBuilder _).bind fun _ => flat_pure _) bench

theorem flat_intern (constant : Constant) : Flat (intern constant) := by
  intro bench
  unfold Ends intern
  cases interned : bench.program.constants.intern constant bench.config.maxPoolEntries with
  | error error => exact Pool.shallow_intern _ _ _ error interned
  | ok result => exact .refl _

theorem flat_emit (operation : String) (op : Op) : Flat (emit operation op) :=
  flat_build fun builder => .bind (builder.shallow_emit operation op) fun _ => .ok _

theorem flat_appending : Appending (fun {α} (action : BenchM α) => Flat action) where
  pure := flat_pure
  bind := .bind
  look := fun bench => .refl bench.units
  fail _ _ := fun _ => rfl
  target := flat_target
  intern := flat_intern
  emit operation op _ _ := flat_emit operation op

theorem flat_emitPrimitive (p : Primitive) : Flat (emitPrimitive p) := by
  apply flat_appending.emitPrimitive p
  rintro line rfl
  apply (flat_target.bind fun _ => flat_modifyBuilder _).bind
  exact fun _ bench => .refl bench.units

/-- A unit is one more level, unless there is none left. -/
theorem ends_openUnit_level {kind : UnitKind} {name : String} {arity localCount : Nat}
    {locals : List String} : Ends (openUnit kind name arity localCount locals) bench
    (fun _ bench' => bench'.units.size = bench.units.size + 1 ∧
      bench'.units.nesting = bench.units.nesting ∧
      bench'.units.maxNesting = bench.units.maxNesting ∧
      bench.units.level + 1 ≤ bench.units.maxNesting)
    fun error _ => error.tooDeep = true → bench.units.maxNesting < bench.units.level + 1 := by
  unfold Ends
  by_cases slots : bench.program.code.size < bench.config.maxPoolEntries
  · rw [openUnit_eq slots, UnitStack.open_eq]
    by_cases room : bench.units.size + bench.units.nesting + 1 ≤ bench.units.maxNesting
    · rw [if_pos room]
      exact ⟨rfl, rfl, rfl, room⟩
    · rw [if_neg room]
      exact fun _ => Nat.lt_of_not_le room
  · have refused : reserve bench = .error (.exhausted .codeObjects bench.config.maxPoolEntries)
        bench := if_pos (Nat.le_of_not_lt slots)
    simp only [openUnit, bind, EStateM.bind, refused]
    rintro ⟨⟩

theorem flat_install (slot : UInt32) (code : Code) : Flat (install slot code) := by
  intro bench
  unfold Ends install
  cases shared : if bench.sharing then bench.recorded.find? (·.1 = code) else none with
  | some entry => exact .refl _
  | none =>
      simp only
      cases bench.program.install? slot code with
      | some program => exact .refl _
      | none =>
          simp only
          by_cases sharing : bench.sharing = true
          · rw [if_pos sharing]
            rfl
          · rw [if_neg sharing]
            rfl

theorem flat_installUnit (slot : UInt32) (builder : Builder) : Flat (installUnit slot builder) := by
  unfold installUnit
  cases finish : builder.finish with
  | error error =>
      simp only
      exact fun bench => Ends.throws (builder.shallow_finish error finish)
  | ok code =>
      simp only
      intro bench
      apply Ends.get
      apply Ends.ite
      · intro verifies
        cases code.verify with
        | error error => exact Ends.stops rfl
        | ok most => exact flat_install slot code bench
      · exact fun _ => flat_install slot code bench

/-- Closing a unit gives the level back. -/
theorem ends_closeUnit_level (handle : UnitHandle) (kind : UnitKind) :
    Ends (closeUnit handle kind) bench
      (fun _ bench' => bench'.units.size + 1 = bench.units.size ∧
        bench'.units.nesting = bench.units.nesting ∧
        bench'.units.maxNesting = bench.units.maxNesting)
      fun error _ => error.tooDeep = false := by
  unfold Ends closeUnit
  cases closes : bench.units.close handle kind bench.currentLine with
  | error error =>
      simp only [closes]
      exact UnitStack.shallow_close _ _ _ _ error closes
  | ok result =>
      obtain ⟨unit, units⟩ := result
      obtain ⟨-, -, -, split, rest⟩ := UnitStack.close_ok closes
      simp only [closes]
      cases unit.payload with
      | none => rfl
      | some recording =>
          have installs := flat_installUnit recording.slot recording.builder { bench with units }
          simp only
          cases run : installUnit recording.slot recording.builder { bench with units } with
          | error error bench' => exact installs.error run
          | ok installed bench' =>
              have same := installs.ok run
              simp only
              refine ⟨?_, same.nesting.trans ?_, same.maxNesting.trans ?_⟩
              · rw [same.size, UnitStack.size, UnitStack.size, split, List.length_cons]
              · rw [rest]
              · rw [rest]

end Bench

/-! ## Computations of a session -/

namespace Work

variable {β υ α γ : Type} {n m : Nat}

/-- A unit is one more level, unless there is none left. -/
theorem ends_openUnit_level {session : Session β υ} {kind : UnitKind} {name : String}
    {arity localCount : Nat} {locals : List String} :
    Ends (onBench (Bench.openUnit kind name arity localCount locals)) session
      (fun _ opened => opened.bench.units.size = session.bench.units.size + 1 ∧
        opened.bench.units.nesting = session.bench.units.nesting ∧
        opened.bench.units.maxNesting = session.bench.units.maxNesting ∧
        session.bench.units.level + 1 ≤ session.bench.units.maxNesting)
      fun halt _ => halt.tooDeep = true →
        session.bench.units.maxNesting < session.bench.units.level + 1 :=
  ends_onBench (Bench.ends_openUnit_level.mono (fun _ _ => id) fun _ _ => id)

/-- The computation opens this many levels at most at once, and leaves as many open as before.
It never fails for want of levels if there are so many left, and succeeds only then. -/
def Needs (n : Nat) (action : Work β υ α) : Prop :=
  ∀ session, session.bench.units.level ≤ session.bench.units.maxNesting → Ends action session
    (fun _ session' => session.bench.units.SameLevel session'.bench.units ∧
      session.bench.units.level + n ≤ session.bench.units.maxNesting)
    fun halt _ => halt.tooDeep = true →
      session.bench.units.maxNesting < session.bench.units.level + n

namespace Needs

theorem pure (value : α) : Needs 0 (Pure.pure value : Work β υ α) :=
  fun _ within => ⟨.refl _, within⟩

/-- Of two computations the more demanding one counts. -/
theorem bind {first : Work β υ α} {next : α → Work β υ γ} (h₁ : Needs n first)
    (h₂ : ∀ value, Needs m (next value)) : Needs (max n m) (first >>= next) := by
  intro session within
  apply Ends.bind
  · apply (h₁ session within).mono (fun _ _ => id)
    intro halt _ full deep
    have := full deep
    omega
  · rintro value middle ⟨same, room⟩
    have within' : middle.bench.units.level ≤ middle.bench.units.maxNesting := by
      rw [same.level, same.maxNesting]
      exact within
    apply (h₂ value middle within').mono
    · rintro _ later ⟨same', room'⟩
      rw [same.level, same.maxNesting] at room'
      exact ⟨same.trans same', by omega⟩
    · intro halt _ full deep
      have := full deep
      rw [same.level, same.maxNesting] at this
      omega

/-- Only what comes after counts. -/
theorem after {first : Work β υ α} {next : α → Work β υ γ} (h₁ : Needs 0 first)
    (h₂ : ∀ value, Needs n (next value)) : Needs n (first >>= next) :=
  Nat.zero_max n ▸ h₁.bind h₂

/-- Only what came before counts. -/
theorem before {first : Work β υ α} {next : α → Work β υ γ} (h₁ : Needs n first)
    (h₂ : ∀ value, Needs 0 (next value)) : Needs n (first >>= next) :=
  Nat.max_zero n ▸ h₁.bind h₂

theorem bench : Needs 0 (Work.bench : Work β υ Bench) := fun _ within => ⟨.refl _, within⟩

theorem fail {error : CompileError} (h : error.tooDeep = false) :
    Needs n (Work.fail error : Work β υ α) :=
  fun _ _ deep => by cases h.symm.trans deep

theorem breakOff : Needs n (Work.breakOff : Work β υ α) := fun _ _ deep => by cases deep

theorem violate (kind : Violation) : Needs n (Work.violate kind : Work β υ α) :=
  bench.after fun _ => fail rfl

theorem onBench {action : BenchM α} (h : Bench.Flat action) :
    Needs 0 (Work.onBench action : Work β υ α) := by
  intro session within
  apply ends_onBench
  apply (h session.bench).mono
  · exact fun _ _ same => ⟨same, within⟩
  · exact fun error _ other deep => by cases other.symm.trans deep

theorem ite {c : Prop} [Decidable c] {yes no : Work β υ α} (h₁ : Needs n yes) (h₂ : Needs n no) :
    Needs n (if c then yes else no) := by
  split
  · exact h₁
  · exact h₂

/-- A region is one level. -/
theorem nested {region : Work β υ α} (h : Needs n region) : Needs (1 + n) (Work.nested region) := by
  intro session within
  apply ends_nested_within
  · intro full _
    unfold UnitStack.level
    omega
  · intro room
    have level : session.bench.enterRegion.units.level = session.bench.units.level + 1 := rfl
    have limit : session.bench.enterRegion.units.maxNesting = session.bench.units.maxNesting := rfl
    apply (h { session with bench := session.bench.enterRegion } room).mono
    · rintro value later ⟨same, enough⟩
      refine ⟨⟨same.size, ?_, same.maxNesting⟩, by dsimp only at enough; omega⟩
      show later.bench.units.nesting - 1 = _
      rw [same.nesting]
      rfl
    · intro halt _ full deep
      have := full deep
      dsimp only at this
      omega

/-- A unit is one level. -/
theorem recordUnit (kind : UnitKind) (name : String) (arity localCount : Nat)
    (locals : List String) {body : Work β υ Unit} (h : Needs n body) :
    Needs (1 + n) (Work.recordUnit kind name arity localCount locals body) := by
  apply bench.after
  intro _ session within
  apply Ends.bind
  · apply ends_openUnit_level.mono (fun _ _ => id)
    intro halt _ full deep
    have := full deep
    omega
  · rintro handle opened ⟨size, nesting, maxNesting, room⟩
    have level : opened.bench.units.level = session.bench.units.level + 1 := by
      unfold UnitStack.level
      omega
    apply ends_cleaning
    apply Ends.bind
    · apply (h opened (by omega)).mono (fun _ _ => id)
      intro halt _ full deep
      have := full deep
      omega
    · rintro _ ended ⟨same, enough⟩
      apply ends_onBench
      apply (Bench.ends_closeUnit_level handle kind).mono
      · rintro slot closed ⟨size', nesting', maxNesting'⟩
        have outer := same.size
        refine ⟨⟨?_, ?_, ?_⟩, by omega⟩
        · dsimp only
          omega
        · exact nesting'.trans (same.nesting.trans nesting)
        · exact maxNesting'.trans (same.maxNesting.trans maxNesting)
      · intro error _ other deep
        cases other.symm.trans deep

/-! ### Operations with nested code -/

theorem ensureSameUnit (construct : String) (before : Nat) :
    Needs 0 (Work.ensureSameUnit construct before : Work β υ Unit) :=
  bench.after fun _ => ite (violate _) (pure ())

theorem target : Needs 0 (Work.onBench Bench.target : Work β υ Builder) := onBench Bench.flat_target

theorem emit (operation : String) (op : Op) :
    Needs 0 (Work.onBench (Bench.emit operation op) : Work β υ Unit) :=
  onBench (Bench.flat_emit operation op)

theorem emitJump (operation : String) (kind : JumpKind) :
    Needs 0 (Work.emitJump operation kind : Work β υ JumpPatch) :=
  onBench (Bench.flat_build fun builder =>
    .bind (builder.shallow_emit operation _) fun _ => .ok _)

theorem emitJumpBack (operation : String) (kind : JumpKind) (label : Nat) :
    Needs 0 (Work.emitJumpBack operation kind label : Work β υ Unit) :=
  onBench (Bench.flat_build fun builder =>
    .bind (builder.shallow_emit operation _) fun _ => .ok _)

theorem patchHere (patch : JumpPatch) : Needs 0 (Work.patchHere patch : Work β υ Unit) := by
  apply target.after
  intro builder
  cases builder.patchHere? patch with
  | some _ => exact onBench (Bench.flat_modifyBuilder _)
  | none => exact breakOff

theorem depth : Needs 0 (Work.depth : Work β υ Nat) := target.after fun _ => pure _

theorem emitTimes (operation : String) (op : Op) (count : Nat) :
    Needs 0 (Work.emitTimes operation op count : Work β υ Unit) := by
  induction count with
  | zero => exact pure ()
  | succ count ih => exact (emit operation op).after fun _ => ih

theorem runRegion (construct : String) (allowed : DepthTracker.Allowance) {part : Work β υ Unit}
    (h : Needs n part) : Needs n (Work.runRegion construct allowed part) := by
  apply bench.after
  intro units
  apply target.after
  intro builder
  apply h.before
  intro _
  apply (ensureSameUnit _ _).after
  intro _
  apply bench.after
  intro bench
  apply target.after
  intro builder'
  dsimp only
  split
  · exact pure _
  · rename_i error refused
    exact fail (DepthTracker.shallow_expectDelta _ _ _ _ _ error refused)

theorem emitBranch {onTrue onFalse : Work β υ Unit} (h₁ : Needs n onTrue) (h₂ : Needs m onFalse) :
    Needs (1 + max n m) (Work.emitBranch onTrue onFalse) := by
  have closes (toEnd : JumpPatch) : Needs 0 (Work.patchHere toEnd : Work β υ Unit) :=
    patchHere toEnd
  apply nested
  exact bench.after fun _ => (emitJump _ _).after fun toElse => depth.after fun before =>
    h₁.bind fun _ => (ensureSameUnit _ _).after fun _ => depth.after fun _ =>
    (emitJump _ _).after fun toEnd => (patchHere toElse).after fun _ =>
    (onBench (Bench.flat_modifyBuilder _)).after fun _ => h₂.before fun _ =>
    (ensureSameUnit _ _).after fun _ => target.after fun _ =>
    ite ((violate _).after fun _ => closes toEnd) (closes toEnd)

theorem emitLogical (connective : Connective) {right : Work β υ Unit} (h : Needs n right) :
    Needs (1 + n) (Work.emitLogical connective right) := by
  apply nested
  exact (emit _ _).after fun _ => (emitJump _ _).after fun _ => (emit _ _).after fun _ =>
    (runRegion _ _ h).before fun _ => patchHere _

theorem emitLoop {condition body : Work β υ Unit} (h₁ : Needs n condition) (h₂ : Needs m body)
    (checkFirst : Bool) : Needs (1 + max n m) (Work.emitLoop condition body checkFirst) := by
  have tests : Needs n (Work.emitCondition condition) := (runRegion _ _ h₁).before fun _ => pure ()
  have repeats : Needs m (Work.emitLoopBody body) :=
    (runRegion _ _ h₂).before fun _ => emitTimes _ _ _
  apply nested
  apply target.after
  intro top
  cases checkFirst with
  | true =>
      exact tests.bind fun _ => (emitJump _ _).after fun _ => repeats.before fun _ =>
        (emitJumpBack _ _ _).after fun _ => patchHere _
  | false =>
      rw [Nat.max_comm]
      exact repeats.bind fun _ => tests.before fun _ => emitJumpBack _ _ _

theorem forEachIndex {action : Nat → Work β υ Unit} {needs : List Nat} (first : Nat)
    (h : ∀ index (inside : index < needs.length), Needs needs[index] (action (first + index))) :
    Needs (needs.foldr max 0) (Work.forEachIndex action first needs.length) := by
  induction needs generalizing first with
  | nil => exact pure ()
  | cons need needs ih =>
      apply (h 0 (Nat.zero_lt_succ _)).bind
      intro _
      apply ih (first + 1)
      intro index inside
      have next := h (index + 1) (Nat.succ_lt_succ inside)
      rwa [← Nat.add_assoc, Nat.add_right_comm] at next

/-- Each element is recorded one level deeper, and without elements there is that level all the
same. -/
theorem emitArray {element : Nat → Work β υ Unit} {needs : List Nat}
    (h : ∀ index (inside : index < needs.length), Needs needs[index] (element index)) :
    Needs (1 + needs.foldr max 0) (Work.emitArray needs.length element) := by
  apply nested
  apply (forEachIndex 0 _).before fun _ => emit _ _
  intro index inside
  rw [Nat.zero_add]
  exact (runRegion _ _ (h index inside)).before fun _ => pure ()

theorem recordBlock (scope : StaticScope) (arity : Nat) {body : Work β υ Unit} (h : Needs n body) :
    Needs (1 + n) (Work.recordBlock scope arity body) :=
  bench.after fun _ => recordUnit _ _ _ _ _ h

theorem emitSend (operation name : String) (shape : Invocation) (block : Option UInt32) :
    Needs 0 (Work.onBench (Bench.emitSend operation name shape block) : Work β υ Unit) :=
  onBench (Bench.flat_appending.emitSend operation name shape block)

theorem emitCall (name : String) (shape : Invocation) :
    Needs 0 (Work.emitCall name shape none : Work β υ Unit) :=
  (pure none).after fun _ => emitSend _ _ _ _

/-- A call with a block needs what its block needs. -/
theorem emitCallBlock (name : String) (shape : Invocation) {block : BlockBody (Session β υ)}
    (h : Needs n block.body) : Needs (1 + n) (Work.emitCall name shape (some block)) :=
  ((recordBlock block.scope block.arity h).before fun _ => pure _).before fun _ => emitSend _ _ _ _

end Needs

end Work

end BlockScript
