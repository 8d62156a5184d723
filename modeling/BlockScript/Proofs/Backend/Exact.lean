import BlockScript.Proofs.Contract.Body

/-!
# Code that is refused exactly if it is unbalanced

With its checks on, a backend refuses an operation that finds too few values, nested code that
leaves the wrong number, and a unit that is left too deep. `Backend.Decides` says that this
comes to the same as a declared effect: where the effect leads somewhere, the computation gets
there, and where it leads nowhere, the computation fails. Only limits are exempt.

A sheet is a page whose code table has not become shorter either. A bench that shares code
objects gives slots back, but never one that was claimed before an operation began.
-/

namespace BlockScript

variable {β υ α γ : Type}

/-- A limit on the size of what is generated was reached. -/
def Halt.Limit (halt : Halt CompileError) : Prop :=
  ∃ resource limit, halt = .failure (.exhausted resource limit)

/-! ## Kinds of units -/

namespace UnitStack

variable {stack later : UnitStack α}

theorem insideMethod_eq (stack : UnitStack α) : stack.insideMethod =
    ((stack.units.map (·.kind)).takeWhile (decide <| · ≠ .script)).any (decide <| · = .method) := by
  rw [List.takeWhile_map, List.any_map]
  rfl

theorem reachableDepth_eq (stack : UnitStack α) : stack.reachableDepth =
    ((stack.units.map (·.kind)).takeWhile (decide <| · = .closure)).length := by
  rw [List.takeWhile_map, List.length_map]
  rfl

theorem insideMethod_congr (kinds : later.units.map (·.kind) = stack.units.map (·.kind)) :
    later.insideMethod = stack.insideMethod := by
  rw [insideMethod_eq, insideMethod_eq, kinds]

theorem reachableDepth_congr (kinds : later.units.map (·.kind) = stack.units.map (·.kind)) :
    later.reachableDepth = stack.reachableDepth := by
  rw [reachableDepth_eq, reachableDepth_eq, kinds]

end UnitStack

/-! ## Builders -/

namespace DepthTracker.Allowance

variable {before after : Nat}

theorem one_admits : one.admits (after - (before : Int)) = true ↔ after = before + 1 := by
  change (decide (1 ≤ after - (before : Int)) && decide (after - (before : Int) ≤ 1)) = true ↔ _
  rw [Bool.and_eq_true, decide_eq_true_eq, decide_eq_true_eq]
  omega

theorem atMostOne_admits :
    atMostOne.admits (after - (before : Int)) = true ↔ after = before ∨ after = before + 1 := by
  change (decide (0 ≤ after - (before : Int)) && decide (after - (before : Int) ≤ 1)) = true ↔ _
  rw [Bool.and_eq_true, decide_eq_true_eq, decide_eq_true_eq]
  omega

end DepthTracker.Allowance

namespace Builder

/-- Operands are checked, and there are at most as many values as operations. -/
structure Tidy (builder : Builder) : Prop where
  strict : builder.stack.strict = true
  shallow : builder.depth ≤ builder.label

theorem Tidy.patchHere {builder : Builder} (tidy : builder.Tidy) (patch : JumpPatch) :
    (builder.patchHere patch).Tidy where
  strict := (congrArg DepthTracker.strict (stack_patchHere patch)).trans tidy.strict
  shallow := by
    rw [depth_patchHere, label_patchHere]
    exact tidy.shallow

/-- The builder has grown by at most that many operations. -/
structure Adds (builder : Builder) (most : Nat) (builder' : Builder) : Prop where
  tidy : builder'.Tidy
  most : builder'.label ≤ builder.label + most
  grows : builder.Grows builder'

variable {builder builder' builder'' : Builder} {most most' : Nat}

theorem Adds.refl (tidy : builder.Tidy) : builder.Adds 0 builder := ⟨tidy, Nat.le_refl _, .refl _⟩

theorem Adds.trans (h₁ : builder.Adds most builder') (h₂ : builder'.Adds most' builder'') :
    builder.Adds (most + most') builder'' where
  tidy := h₂.tidy
  most := by
    have := h₁.most
    have := h₂.most
    omega
  grows := h₁.grows.trans h₂.grows

/-- A strict builder appends an operation if it finds its operands, and refuses it otherwise. -/
theorem emit_decides (tidy : builder.Tidy) (operation : String) (op : Op) :
    (∃ builder', builder.emit operation op = .ok builder' ∧ op.pops ≤ builder.depth ∧
      builder'.Tidy ∧ builder'.depth = op.after builder.depth ∧ builder'.label = builder.label + 1) ∨
    ∃ error, builder.emit operation op = .error error ∧ ¬op.pops ≤ builder.depth := by
  by_cases enough : op.pops ≤ builder.depth
  · obtain ⟨builder', run, depth, label⟩ := emit_enough operation enough
    have le := op.after_le builder.depth enough
    have shallow := tidy.shallow
    exact .inl ⟨builder', run, enough, ⟨(strict_emit run).trans tidy.strict, by omega⟩, depth, label⟩
  · cases run : builder.emit operation op with
    | error error => exact .inr ⟨error, rfl, enough⟩
    | ok builder' => exact absurd (emit_strict tidy.strict run).1 enough

/-- A unit is finished if it has at most one value. -/
theorem finish_decides (tidy : builder.Tidy) :
    (∃ code, builder.finish = .ok code ∧ builder.depth ≤ 1 ∧ code.ops.size ≤ builder.label + 2) ∨
    ∃ error, builder.finish = .error error ∧ ¬builder.depth ≤ 1 := by
  by_cases low : builder.depth ≤ 1
  · have surplus : builder.stack.surplus builder.describe builder.line = .ok 0 := if_pos low
    left
    by_cases empty : builder.depth = 0
    · obtain ⟨valued, pushed, depth, label⟩ :=
        emit_enough "end of unit" (show Op.pushNil.pops ≤ builder.depth from Nat.zero_le _)
      have depth : valued.depth = 1 := by
        rw [depth, empty]
        rfl
      obtain ⟨closed, returned, -, label'⟩ :=
        emit_enough "end of unit" (show Op.ret.pops ≤ valued.depth from Nat.le_of_eq depth.symm)
      refine ⟨{ closed.code with maxStack := closed.stack.maxDepth.toUInt32 }, ?_, low, ?_⟩
      · simp only [finish, surplus, bind, Except.bind, emitTimes, empty, if_true, pure, Except.pure,
          pushed, returned]
      · exact Nat.le_of_eq (label'.trans (by rw [label]))
    · obtain ⟨code, run, size⟩ := finish_one (show builder.depth = 1 by omega)
      exact ⟨code, run, low, by omega⟩
  · let error : CompileError :=
      .violation (.unbalancedUnit builder.describe builder.stack.depth) builder.line
    have refused : builder.stack.surplus builder.describe builder.line = .error error := by
      unfold DepthTracker.surplus
      exact (if_neg low).trans (if_pos tidy.strict)
    have run : builder.finish = .error error := by
      rw [finish, refused]
      rfl
    exact .inr ⟨error, run, low⟩

end Builder

/-! ## Sheets -/

namespace Bench

/-- The code table has not become shorter. -/
def Wider (bench bench' : Bench) : Prop := bench.program.code.size ≤ bench'.program.code.size

instance : IsPreorder Bench Wider where
  refl _ := Nat.le_refl _
  trans _ _ _ h₁ h₂ := Nat.le_trans h₁ h₂

end Bench

/-- A page whose code table has not become shorter. -/
structure Sheet (start : Session β υ) (unit : OpenUnit (Option Recording))
    (outer : List (OpenUnit (Option Recording))) (slot : UInt32) (builder : Builder)
    (session : Session β υ) : Prop where
  page : Page start unit outer slot builder session
  wider : start.bench.Wider session.bench

namespace Sheet

variable {start session session' : Session β υ} {unit : OpenUnit (Option Recording)}
  {outer : List (OpenUnit (Option Recording))} {slot : UInt32} {builder builder' : Builder}
  {done : α → Session β υ → Prop} {failed : Halt CompileError → Session β υ → Prop}

theorem begin (hunits : start.bench.units.units = unit :: outer)
    (payload : unit.payload = some ⟨slot, builder⟩) : Sheet start unit outer slot builder start :=
  ⟨.begin hunits payload, Nat.le_refl _⟩

variable (sheet : Sheet start unit outer slot builder session)

include sheet

/-- What a part of the operation has done is done for the operation. -/
theorem trans (part : Sheet session { unit with payload := some ⟨slot, builder⟩ } outer slot builder'
    session') : Sheet start unit outer slot builder' session' :=
  ⟨sheet.page.trans part.page, trans_of Bench.Wider sheet.wider part.wider⟩

theorem setBuilder (builder' : Builder) : Sheet start unit outer slot builder'
    { session with bench := session.bench.setBuilder builder' } :=
  ⟨sheet.page.setBuilder builder', sheet.wider⟩

/-- The builder does something or refuses to. -/
theorem ends_build {action : Builder → Except CompileError (α × Builder)}
    (ok : ∀ value builder' session', action builder = .ok (value, builder') →
      Sheet start unit outer slot builder' session' → done value session')
    (error : ∀ error, action builder = .error error → failed (.failure error) session) :
    Ends (Work.onBench (Bench.build action)) session done failed := by
  refine Work.ends_onBench ?_
  unfold Ends
  cases run : action builder with
  | ok result =>
      obtain ⟨value, builder'⟩ := result
      rw [Bench.build_eq sheet.page.found run]
      exact ok value builder' _ run (sheet.setBuilder builder')
  | error reason =>
      have refused : Bench.build action session.bench = .error reason session.bench := by
        change (Bench.target >>= _) session.bench = _
        rw [run_bind_ok (Bench.target_eq sheet.page.found)]
        simp only [run]
        rfl
      rw [refused]
      exact error reason run

/-- An operation is appended if it finds its operands, and refused otherwise. -/
theorem ends_emit {operation : String} (op : Op) (tidy : builder.Tidy)
    (few : ¬op.pops ≤ builder.depth → ∀ error, failed (.failure error) session) :
    Ends (Work.onBench (Bench.emit operation op)) session
      (fun _ session' => op.pops ≤ builder.depth ∧ ∃ builder',
        builder.emit operation op = .ok builder' ∧ builder'.Tidy ∧
        builder'.depth = op.after builder.depth ∧ builder'.label = builder.label + 1 ∧
        Sheet start unit outer slot builder' session') failed := by
  rcases builder.emit_decides tidy operation op with ⟨_, run, enough, rest⟩ | ⟨error, run, scarce⟩
  · refine sheet.ends_build (fun _ builder' session' appended sheet' => ?_) fun error refused => ?_
    · obtain ⟨_, hemit, heq⟩ := Verifier.bind_ok appended
      cases heq
      cases run.symm.trans hemit
      exact ⟨enough, _, run, rest.1, rest.2.1, rest.2.2, sheet'⟩
    · rw [run] at refused
      cases refused
  · refine sheet.ends_build (fun _ builder' session' appended sheet' => ?_) fun error _ =>
      few scarce error
    rw [run] at appended
    cases appended

theorem ends_emitJump {operation : String} (kind : JumpKind) (tidy : builder.Tidy)
    (few : ¬(kind.op 0).pops ≤ builder.depth → ∀ error, failed (.failure error) session) :
    Ends (Work.emitJump operation kind) session
      (fun patch session' => (kind.op 0).pops ≤ builder.depth ∧ ∃ builder',
        builder.emitJump operation kind = .ok (patch, builder') ∧ builder'.Tidy ∧
        builder'.depth = (kind.op 0).after builder.depth ∧ builder'.label = builder.label + 1 ∧
        Sheet start unit outer slot builder' session') failed := by
  rcases builder.emit_decides tidy operation (kind.op 0) with
    ⟨_, run, enough, rest⟩ | ⟨error, run, scarce⟩
  · refine sheet.ends_build (fun patch builder' session' appended sheet' => ?_) fun error refused => ?_
    · obtain ⟨-, hemit⟩ := Builder.emitJump_ok appended
      cases run.symm.trans hemit
      exact ⟨enough, _, appended, rest.1, rest.2.1, rest.2.2, sheet'⟩
    · rw [Builder.emitJump, run] at refused
      cases refused
  · refine sheet.ends_build (fun patch builder' session' appended sheet' => ?_) fun error _ =>
      few scarce error
    rw [Builder.emitJump, run] at appended
    cases appended

theorem ends_emitJumpBack {operation : String} (kind : JumpKind) {label : Nat} (tidy : builder.Tidy)
    (enough : (kind.op 0).pops ≤ builder.depth) :
    Ends (Work.emitJumpBack operation kind label) session
      (fun _ session' => ∃ builder', builder.emitJumpBack operation kind label = .ok builder' ∧
        builder'.Tidy ∧ builder'.depth = (kind.op 0).after builder.depth ∧
        builder'.label = builder.label + 1 ∧ Sheet start unit outer slot builder' session')
      failed := by
  rcases builder.emit_decides tidy operation (kind.op (Builder.offset builder.label label)) with
    ⟨_, run, -, rest⟩ | ⟨error, run, scarce⟩
  · refine sheet.ends_build (fun _ builder' session' appended sheet' => ?_) fun error refused => ?_
    · obtain ⟨_, hemit, heq⟩ := Verifier.bind_ok appended
      cases heq
      cases run.symm.trans hemit
      rw [kind.after_op _ 0] at rest
      exact ⟨_, run, rest.1, rest.2.1, rest.2.2, sheet'⟩
    · rw [Builder.emitJumpBack, run] at refused
      cases refused
  · rw [kind.pops_op _ 0] at scarce
    exact absurd enough scarce

/-- A jump that was appended to the code is aimed. -/
theorem ends_patchHere {patch : JumpPatch} (inside : patch.ip < builder.label) :
    Ends (Work.patchHere patch) session
      (fun _ session' => Sheet start unit outer slot (builder.patchHere patch) session') failed := by
  unfold Ends
  rw [Work.patchHere_eq sheet.page.found inside]
  exact sheet.setBuilder _

theorem ends_modifyBuilder (f : Builder → Builder) :
    Ends (Work.onBench (Bench.modifyBuilder f)) session
      (fun _ session' => Sheet start unit outer slot (f builder) session') failed := by
  refine Work.ends_onBench ?_
  unfold Ends
  rw [Bench.modifyBuilder_eq sheet.page.found]
  exact sheet.setBuilder (f builder)

end Sheet

/-- Nothing has changed that an operation depends on, and the code table is not shorter. -/
structure Session.Unharmed (session session' : Session β υ) : Prop where
  intact : session.Intact session'
  wider : session.bench.Wider session'.bench

theorem Session.Unharmed.refl (session : Session β υ) : session.Unharmed session :=
  ⟨refl_of Session.Intact session, refl_of Bench.Wider session.bench⟩

theorem Session.Unharmed.sheet {session session' : Session β υ} (unharmed : session.Unharmed session')
    {unit : OpenUnit (Option Recording)} {outer : List (OpenUnit (Option Recording))}
    {slot : UInt32} {builder : Builder} (hunits : session.bench.units.units = unit :: outer)
    (payload : unit.payload = some ⟨slot, builder⟩) :
    Sheet session unit outer slot builder session' :=
  ⟨unharmed.intact.page hunits payload, unharmed.wider⟩

/-! ## Nested code -/

namespace Backend

variable {backend : Backend} {span around size size' : Nat} {effect effect' : Nat → Nat → Prop}

/-- A session that may go on, under a configuration that checks the stack and the arguments of
yields. The span is the length that units stay below: depths have 63 bits, and a unit that is
verified needs jumps, which have 31 bits to either side. -/
structure Checking (backend : Backend) (span : Nat) (session : Session backend.State υ) : Prop where
  prepared : backend.Prepared session
  yields : session.bench.config.yieldMode = .strict
  pool : session.bench.config.maxPoolEntries ≤ UInt32.size
  depths : span ≤ 2 ^ 63
  jumps : session.bench.config.verifyUnits = true → span ≤ 2 ^ 31

theorem Checking.beside {session session' : Session backend.State υ}
    (checking : backend.Checking span session) (beside : session.bench.Beside session'.bench)
    (same : session'.backend = session.backend) : backend.Checking span session' :=
  ⟨checking.prepared.beside beside same, beside.config ▸ checking.yields,
    beside.config ▸ checking.pool, checking.depths, beside.config ▸ checking.jumps⟩

/-- Such a session inside a method, with that many closures around. -/
structure Shelters (backend : Backend) (span around : Nat) (session : Session backend.State υ) : Prop where
  checking : backend.Checking span session
  method : session.bench.units.insideMethod = true
  reach : around ≤ session.bench.units.reachableDepth

/-- Wherever it is recorded, the computation succeeds if the effect leads somewhere from the
depth that it finds, and with that depth, or it fails. At most that many operations are
recorded. -/
structure Decides (backend : Backend) (span around size : Nat) (effect : Nat → Nat → Prop)
    (action : Work backend.State υ Unit) : Prop where
  unique : ∀ {depth after after' : Nat}, effect depth after → effect depth after' → after = after'
  ends {session : Session backend.State υ} {unit : OpenUnit (Option Recording)}
    {outer : List (OpenUnit (Option Recording))} {slot : UInt32} {builder : Builder} :
    backend.Shelters span around session → session.bench.units.units = unit :: outer →
    unit.payload = some ⟨slot, builder⟩ → builder.Tidy → builder.label + size < span →
    Ends action session
      (fun _ session' => ∃ builder', effect builder.depth builder'.depth ∧
        builder.Adds size builder' ∧ Sheet session unit outer slot builder' session')
      fun halt _ => halt.Limit ∨ ∀ after, ¬effect builder.depth after

/-- Wherever a unit is recorded, the step changes nothing and fails if the condition does not
hold. -/
structure Demands (backend : Backend) (span around : Nat) (condition : Prop)
    (action : Work backend.State υ α) : Prop where
  ends {session : Session backend.State υ} {recording : Recording} :
    backend.Shelters span around session → session.bench.recording? = some recording →
    Ends action session (fun _ session' => condition ∧ session.Unharmed session')
      fun halt _ => halt.Limit ∨ ¬condition

end Backend

namespace Sheet

variable {backend : Backend} {span around size : Nat} {effect : Nat → Nat → Prop}
  {start session : Session backend.State υ} {unit : OpenUnit (Option Recording)}
  {outer : List (OpenUnit (Option Recording))} {slot : UInt32} {builder : Builder}
  {part : Work backend.State υ Unit}
  (sheet : Sheet start unit outer slot builder session) (sheltered : backend.Shelters span around start)
  (hunits : start.bench.units.units = unit :: outer)

include sheet sheltered hunits

theorem shelters : backend.Shelters span around session := by
  have kinds : session.bench.units.units.map (·.kind) = start.bench.units.units.map (·.kind) := by
    rw [sheet.page.units, hunits]
    rfl
  refine ⟨sheltered.checking.beside sheet.page.beside sheet.page.backend, ?_, ?_⟩
  · rw [UnitStack.insideMethod_congr kinds]
    exact sheltered.method
  · rw [UnitStack.reachableDepth_congr kinds]
    exact sheltered.reach

/-- Nested code goes on with the sheet. -/
theorem ends_part (decides : backend.Decides span around size effect part) (tidy : builder.Tidy)
    (short : builder.label + size < span) :
    Ends part session (fun _ session' => ∃ builder', effect builder.depth builder'.depth ∧
      builder.Adds size builder' ∧ Sheet start unit outer slot builder' session')
      fun halt _ => halt.Limit ∨ ∀ after, ¬effect builder.depth after :=
  (decides.ends (sheet.shelters sheltered hunits) sheet.page.units rfl tidy short).weaken
    fun _ _ ⟨builder', leads, adds, part⟩ => ⟨builder', leads, adds, sheet.trans part⟩

/-- A region is refused exactly if it does not leave a number of values that is allowed. -/
theorem ends_runRegion (decides : backend.Decides span around size effect part) (tidy : builder.Tidy)
    (short : builder.label + size < span) (construct : String) (allowed : DepthTracker.Allowance) :
    Ends (Work.runRegion construct allowed part) session
      (fun produced session' => allowed.admits produced = true ∧ ∃ builder',
        effect builder.depth builder'.depth ∧ produced = builder'.depth - (builder.depth : Int) ∧
        builder.Adds size builder' ∧ Sheet start unit outer slot builder' session')
      fun halt _ => halt.Limit ∨ ∀ after, effect builder.depth after →
        allowed.admits (after - (builder.depth : Int)) = false := by
  refine Ends.get ?_
  rw [sheet.page.size]
  refine sheet.page.ends_target.bind ?_
  rintro _ _ ⟨rfl, rfl⟩
  refine ((sheet.ends_part sheltered hunits decides tidy short).mono (fun _ _ => id) ?_).bind ?_
  · exact fun halt _ => .imp_right fun nowhere after leads => absurd leads (nowhere after)
  rintro _ session' ⟨builder', leads, adds, sheet'⟩
  refine (sheet'.page.ends_ensureSameUnit construct).bind ?_
  rintro _ _ rfl
  refine Ends.get (sheet'.page.ends_target.bind ?_)
  rintro _ _ ⟨rfl, rfl⟩
  have produced : builder'.stack.deltaSince builder.depth = builder'.depth - (builder.depth : Int) := by
    have shallow := tidy.shallow
    have shallow' := adds.tidy.shallow
    have most := adds.most
    have depths := sheltered.checking.depths
    have same : builder'.stack.depth = builder'.depth := rfl
    simp only [DepthTracker.deltaSince, DepthTracker.signed, same]
    rw [if_pos (by omega), if_pos (by omega)]
  cases admits : allowed.admits (builder'.depth - (builder.depth : Int)) with
  | true =>
      have met (line : Option UInt32) :
          builder'.stack.expectDelta construct builder.depth allowed line = .ok () := by
        simp only [DepthTracker.expectDelta, produced, admits, Bool.true_or, if_true]
      simp only [met, produced]
      exact Ends.pure ⟨admits, builder', leads, rfl, adds, sheet'⟩
  | false =>
      have unmet (line : Option UInt32) : ∃ error,
          builder'.stack.expectDelta construct builder.depth allowed line = .error error := by
        simp only [DepthTracker.expectDelta, produced, admits, adds.tidy.strict, Bool.not_true,
          Bool.or_self, Bool.false_eq_true, if_false]
        exact ⟨_, rfl⟩
      obtain ⟨error, unmet⟩ := unmet session'.bench.currentLine
      simp only [unmet]
      refine Ends.throws (.inr fun after leads' => ?_)
      rw [decides.unique leads' leads]
      exact admits

end Sheet

end BlockScript
