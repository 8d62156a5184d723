import BlockScript.Proofs.Backend.Poison
import BlockScript.Proofs.Backend.Relaxed

/-!
# Checks do not change the code

A caller that is blind to the configuration issues the same operations under any configuration, as
long as they have the same effect. When none of them fails under the strict configuration, they
have the same effect under a relaxed one, down to what is nested in them: every state of the one
run is the state of the other one, but for the configuration itself. So the same program is
handed over.
-/

namespace BlockScript

variable {β υ α γ : Type} {config relaxed : Config}

/-! ## Sessions under another configuration -/

/-- The same event under another configuration. -/
def Event.under (config : Config) (event : Event β) : Event β :=
  { event with bench := event.bench.under config }

/-- The same session under another configuration, and the same events. -/
def Session.under (config : Config) (session : Session β (Journal β υ)) :
    Session β (Journal β υ) :=
  ⟨session.bench.under config, session.backend,
    ⟨session.client.events.map (·.under config), session.client.own⟩⟩

/-- No operation has failed so far, however deep. -/
def Session.Faultless (session : Session β (Journal β υ)) : Prop :=
  ∀ event ∈ session.client.events, ∀ halt, event.occasion ≠ .failed halt

theorem Session.Faultless.under {session : Session β (Journal β υ)} (h : session.Faultless)
    (config : Config) : (session.under config).Faultless := by
  intro event member
  obtain ⟨original, found, rfl⟩ := List.mem_map.mp member
  exact h original found

theorem Session.under_note (session : Session β (Journal β υ)) (operation : String) (since : Nat)
    (occasion : Occasion) :
    (session.note (session.event operation since occasion)).under config =
      (session.under config).note ((session.under config).event operation since occasion) := rfl

/-- Operations that have failed are not forgotten. -/
def Blames (session session' : Session β (Journal β υ)) : Prop :=
  session'.Faultless → session.Faultless

instance : IsPreorder (Session β (Journal β υ)) Blames where
  refl _ := id
  trans _ _ _ h₁ h₂ := h₁ ∘ h₂

namespace Work

/-! ## Computations that do the same -/

/-- When the first computation succeeds and no operation in it fails, the second one does the
same on the session under the relaxed configuration; a faithful one also fails in the same way. -/
structure Mirrors (config relaxed : Config) (faithful : Prop)
    (first second : Work β (Journal β υ) α) : Prop where
  blames : Moves Blames first
  repeats : ∀ session, session.bench.Strict config → Ends first session
    (fun value session' => session'.Faultless → session'.bench.Strict config ∧
      second (session.under relaxed) = .ok value (session'.under relaxed))
    fun halt session' => faithful → session'.Faultless → session'.bench.Strict config ∧
      second (session.under relaxed) = .error halt (session'.under relaxed)

theorem blames_onBench (action : BenchM α) :
    Moves Blames (onBench action : Work β (Journal β υ) α) :=
  fun _ => ends_onBench (Ends.intro (fun _ _ _ => id) fun _ _ _ => id)

theorem blames_patchHere (patch : JumpPatch) :
    Moves Blames (patchHere patch : Work β (Journal β υ) Unit) :=
  Moves.sequenced.patchHere (blames_onBench _) (blames_onBench _)

/-- The net effect of nested code, if that is allowed. -/
def checkDelta (construct : String) (allowed : DepthTracker.Allowance) (before : Nat)
    (line : Option UInt32) (stack : DepthTracker) : Work β υ Int :=
  match stack.expectDelta construct before allowed line with
  | .ok () => return stack.deltaSince before
  | .error error => fail error

namespace Mirrors

variable {faithful : Prop} {first second : Work β (Journal β υ) α}

theorem weaken (h : Mirrors config relaxed True first second) :
    Mirrors config relaxed faithful first second where
  blames := h.blames
  repeats session strict := (h.repeats session strict).mono (fun _ _ => id)
    fun _ _ fails _ => fails trivial

theorem pure (value : α) : Mirrors config relaxed faithful
    (Pure.pure value : Work β (Journal β υ) α) (Pure.pure value) where
  blames := .pure value
  repeats _ strict := fun _ => ⟨strict, rfl⟩

theorem bind {next next' : α → Work β (Journal β υ) γ}
    (h : Mirrors config relaxed faithful first second)
    (h' : ∀ value, Mirrors config relaxed faithful (next value) (next' value)) :
    Mirrors config relaxed faithful (first >>= next) (second >>= next') where
  blames := h.blames.bind fun value => (h' value).blames
  repeats session strict := by
    refine ((h.repeats session strict).mono (fun _ _ => id) fun halt session' fails faith
      faultless => ?_).bind fun value middle reached => ?_
    · obtain ⟨strict', again⟩ := fails faith faultless
      exact ⟨strict', run_bind_error again⟩
    · by_cases faultless : middle.Faultless
      · obtain ⟨strict', again⟩ := reached faultless
        refine ((h' value).repeats middle strict').mono (fun result session' more faultless' => ?_)
          fun halt session' fails faith faultless' => ?_
        · obtain ⟨strict'', more⟩ := more faultless'
          exact ⟨strict'', (run_bind_ok again).trans more⟩
        · obtain ⟨strict'', more⟩ := fails faith faultless'
          exact ⟨strict'', (run_bind_ok again).trans more⟩
      -- What has failed before is still blamed afterwards.
      · exact ((h' value).blames middle).mono (fun _ _ blames faultless' => absurd (blames faultless') faultless)
          fun _ _ blames _ faultless' => absurd (blames faultless') faultless

theorem look {next next' : Session β (Journal β υ) → Work β (Journal β υ) γ}
    (h : ∀ session, Mirrors config relaxed faithful (next session) (next' (session.under relaxed))) :
    Mirrors config relaxed faithful (MonadStateOf.get >>= next) (MonadStateOf.get >>= next') where
  blames := fun session => (h session).blames session
  repeats session strict := (h session).repeats session strict

theorem bench {next next' : Bench → Work β (Journal β υ) γ}
    (h : ∀ bench, Mirrors config relaxed faithful (next bench) (next' (bench.under relaxed))) :
    Mirrors config relaxed faithful (Work.bench >>= next) (Work.bench >>= next') :=
  look fun session => h session.bench

/-- What fails need not be mirrored. -/
theorem fail {error : CompileError} {second : Work β (Journal β υ) α} :
    Mirrors config relaxed False (Work.fail error) second where
  blames := .throws _
  repeats _ _ := fun impossible => impossible.elim

theorem violate {kind : Violation} {second : Work β (Journal β υ) α} :
    Mirrors config relaxed False (Work.violate kind) second where
  blames := fun session => refl_of Blames session
  repeats _ _ := fun impossible => impossible.elim

theorem breakOff {second : Work β (Journal β υ) α} :
    Mirrors config relaxed False Work.breakOff second where
  blames := .throws _
  repeats _ _ := fun impossible => impossible.elim

/-- Nor does what comes after it. -/
theorem fails {error : CompileError} {next : α → Work β (Journal β υ) γ}
    {second : Work β (Journal β υ) γ} :
    Mirrors config relaxed False (Work.fail error >>= next) second where
  blames := fun session => refl_of Blames session
  repeats _ _ := fun impossible => impossible.elim

theorem halts {kind : Violation} {next : α → Work β (Journal β υ) γ}
    {second : Work β (Journal β υ) γ} :
    Mirrors config relaxed False (Work.violate kind >>= next) second where
  blames := fun session => refl_of Blames session
  repeats _ _ := fun impossible => impossible.elim

theorem ite {c : Prop} [Decidable c] {yes no yes' no' : Work β (Journal β υ) α}
    (h₁ : c → Mirrors config relaxed faithful yes yes')
    (h₂ : ¬c → Mirrors config relaxed faithful no no') :
    Mirrors config relaxed faithful (if c then yes else no) (if c then yes' else no') := by
  by_cases h : c
  · rw [if_pos h, if_pos h]
    exact h₁ h
  · rw [if_neg h, if_neg h]
    exact h₂ h

theorem onBench {action action' : BenchM α} (h : Bench.Mirrors config relaxed action action') :
    Mirrors config relaxed False (Work.onBench action : Work β (Journal β υ) α)
      (Work.onBench action') where
  blames := blames_onBench action
  repeats session strict := by
    refine Work.ends_onBench (Ends.intro (fun value bench run _ => ?_)
      fun _ _ _ impossible => impossible.elim)
    obtain ⟨strict', again⟩ := h session.bench strict value bench run
    exact ⟨strict', onBench_ok again⟩

/-- The innermost recording is the same but for its checks. -/
theorem target {next next' : Builder → Work β (Journal β υ) γ}
    (blames : ∀ builder, Moves Blames (next builder))
    (h : ∀ builder, builder.Checks → Mirrors config relaxed False (next builder)
      (next' (builder.under relaxed.checkStack))) :
    Mirrors config relaxed False (Work.onBench Bench.target >>= next)
      (Work.onBench Bench.target >>= next') where
  blames := (blames_onBench _).bind blames
  repeats session strict := by
    have targets : Ends (Work.onBench Bench.target) session
        (fun builder session' => session' = session ∧
          ∃ slot, session.bench.recording? = some ⟨slot, builder⟩)
        fun _ _ => True :=
      Work.ends_onBench (Bench.ends_target.mono (fun _ _ ⟨same, found⟩ => ⟨by rw [same], found⟩)
        fun _ _ _ => trivial)
    refine (targets.mono (fun _ _ => id) fun _ _ _ impossible => impossible.elim).bind ?_
    rintro builder session ⟨rfl, slot, found⟩
    have found' : (session.under relaxed).bench.recording? =
        some ⟨slot, builder.under relaxed.checkStack⟩ :=
      Bench.under_recording?.trans (congrArg _ found)
    have again : (Work.onBench Bench.target >>= next') (session.under relaxed) =
        next' (builder.under relaxed.checkStack) (session.under relaxed) :=
      run_bind_ok (onBench_ok (Bench.target_eq found'))
    refine ((h builder (strict.builder found)).repeats session strict).mono
      (fun value session' more faultless => ?_) fun _ _ _ impossible => impossible.elim
    obtain ⟨strict', more⟩ := more faultless
    exact ⟨strict', again.trans more⟩

theorem looksAt {next next' : Builder → Work β (Journal β υ) γ}
    (h : ∀ builder, Mirrors config relaxed False (next builder)
      (next' (builder.under relaxed.checkStack))) :
    Mirrors config relaxed False (Work.onBench Bench.target >>= next)
      (Work.onBench Bench.target >>= next') :=
  target (fun builder => (h builder).blames) fun builder _ => h builder

theorem modifyBench {f f' : Bench → Bench}
    (strict : ∀ bench, bench.Strict config → (f bench).Strict config)
    (same : ∀ bench, f' (bench.under relaxed) = (f bench).under relaxed) :
    Mirrors config relaxed faithful (Work.modifyBench f : Work β (Journal β υ) Unit)
      (Work.modifyBench f') where
  blames := .modifies fun _ => id
  repeats session checks := Ends.modifies fun _ => ⟨strict _ checks, by
    obtain ⟨bench, backend, client⟩ := session
    let journal : Journal β υ := ⟨client.events.map (·.under relaxed), client.own⟩
    exact congrArg (fun bench => EStateM.Result.ok () (Session.mk bench backend journal)) (same bench)⟩

/-- Only what breaks off is cleaned up. -/
theorem cleaning (h : Mirrors config relaxed False first second) (f f' : Bench → Bench) :
    Mirrors config relaxed False (first.cleaning f) (second.cleaning f') where
  blames := fun session => Work.ends_cleaning ((h.blames session).mono (fun _ _ => id) fun _ _ => id)
  repeats session strict := by
    refine Work.ends_cleaning ((h.repeats session strict).mono (fun value session' more faultless => ?_)
      fun _ _ _ impossible => impossible.elim)
    obtain ⟨strict', again⟩ := more faultless
    exact ⟨strict', by simp only [Work.cleaning, again]⟩

/-- There is room for a region where the limits leave more of it. -/
theorem nested (relaxes : config.RelaxedBy relaxed) (h : Mirrors config relaxed False first second) :
    Mirrors config relaxed False (Work.nested first) (Work.nested second) := by
  have enters : Bench.Mirrors config relaxed Bench.enter Bench.enter := by
    intro bench strict value bench' run
    by_cases room : bench.units.size + bench.units.nesting + 1 ≤ bench.units.maxNesting
    · have higher : (bench.under relaxed).units.size + (bench.under relaxed).units.nesting + 1 ≤
          (bench.under relaxed).units.maxNesting := by
        rw [Bench.under_size]
        exact Nat.le_trans room (strict.nesting ▸ relaxes.nesting)
      simp only [Bench.enter, UnitStack.enter_eq, if_pos room] at run
      simp only [Bench.enter, UnitStack.enter_eq, if_pos higher]
      cases run
      exact ⟨⟨strict.same, strict.nesting, strict.builders⟩, rfl⟩
    · simp only [Bench.enter, UnitStack.enter_eq, if_neg room] at run
      cases run
  refine (onBench enters).bind fun _ => bench fun found => ?_
  refine (h.cleaning _ _).bind fun value => (modifyBench (fun _ strict => ?_) fun _ => ?_).bind
    fun _ => pure value
  · exact ⟨strict.same, strict.nesting, strict.builders⟩
  · rfl

theorem ensureSameUnit (construct : String) (before : Nat) :
    Mirrors config relaxed False (Work.ensureSameUnit construct before : Work β (Journal β υ) Unit)
      (Work.ensureSameUnit construct before) := by
  refine bench fun found => ?_
  rw [Bench.under_size]
  exact ite (fun _ => violate) fun _ => pure ()

/-- Where the strict check of nested code is passed, the other one is. -/
theorem runRegion (construct : String) (allowed : DepthTracker.Allowance)
    {first second : Work β (Journal β υ) Unit} (h : Mirrors config relaxed False first second) :
    Mirrors config relaxed False (Work.runRegion construct allowed first)
      (Work.runRegion construct allowed second) := by
  have checks (before : Nat) (line : Option UInt32) {builder : Builder} (strict : builder.Checks) :
      Mirrors config relaxed False
        (checkDelta construct allowed before line builder.stack : Work β (Journal β υ) Int)
        (checkDelta construct allowed before line (builder.under relaxed.checkStack).stack) := by
    unfold checkDelta DepthTracker.expectDelta
    by_cases allows : allowed.admits (builder.stack.deltaSince before)
    · have again : allowed.admits
          ((builder.under relaxed.checkStack).stack.deltaSince before) = true := allows
      simp only [allows, again, Bool.true_or, if_true]
      exact pure _
    · have refuses : (allowed.admits (builder.stack.deltaSince before) || !builder.stack.strict) =
          false := by
        rw [show builder.stack.strict = true from strict]
        simpa using allows
      simp only [refuses, Bool.false_eq_true, if_false]
      exact fail
  refine bench fun found => ?_
  rw [Bench.under_size]
  refine looksAt fun before => h.bind fun _ => (ensureSameUnit _ _).bind fun _ => bench fun found => ?_
  rw [Bench.under_currentLine]
  refine target (fun builder => ?_) fun builder strict => checks _ _ strict
  dsimp only
  split
  · exact .pure _
  · exact .throws _

theorem emit (operation : String) (op : Op) :
    Mirrors config relaxed False (Work.onBench (Bench.emit operation op) : Work β (Journal β υ) Unit)
      (Work.onBench (Bench.emit operation op)) :=
  onBench (Bench.mirrors_emit operation op)

theorem emitTimes (operation : String) (op : Op) (count : Nat) :
    Mirrors config relaxed False (Work.emitTimes operation op count : Work β (Journal β υ) Unit)
      (Work.emitTimes operation op count) := by
  induction count with
  | zero => exact pure ()
  | succ count ih => exact (emit operation op).bind fun _ => ih

theorem emitJump (operation : String) (kind : JumpKind) :
    Mirrors config relaxed False (Work.emitJump operation kind : Work β (Journal β υ) JumpPatch)
      (Work.emitJump operation kind) := by
  refine onBench (Bench.mirrors_build fun {builder patch builder'} checks run => ?_)
  obtain ⟨rfl, emits⟩ := Builder.emitJump_ok run
  obtain ⟨checks, again, -⟩ := checks.emit emits relaxed.checkStack
  refine ⟨checks, ?_⟩
  rw [Builder.emitJump, again]
  rfl

theorem emitJumpBack (operation : String) (kind : JumpKind) (label : Nat) :
    Mirrors config relaxed False
      (Work.emitJumpBack operation kind label : Work β (Journal β υ) Unit)
      (Work.emitJumpBack operation kind label) := by
  refine onBench (Bench.mirrors_build fun {builder value builder'} checks run => ?_)
  obtain ⟨appended, emits, same⟩ := Verifier.bind_ok run
  cases same
  obtain ⟨checks, again, -⟩ := checks.emit emits relaxed.checkStack
  refine ⟨checks, ?_⟩
  change (do return ((), ← (builder.under relaxed.checkStack).emit operation _)) = _
  rw [Builder.under_label, again]
  rfl

theorem patchHere (patch : JumpPatch) :
    Mirrors config relaxed False (Work.patchHere patch : Work β (Journal β υ) Unit)
      (Work.patchHere patch) := by
  refine looksAt fun builder => ?_
  by_cases inside : patch.ip < builder.label
  · have inside' : patch.ip < (builder.under relaxed.checkStack).label := inside
    simp only [Builder.patchHere?_inside inside, Builder.patchHere?_inside inside']
    refine onBench (Bench.mirrors_modifyBuilder (fun _ checks => ?_) fun _ => ?_)
    · exact (congrArg DepthTracker.strict (Builder.stack_patchHere patch)).trans checks
    · simp only [Builder.patchHere_eq]
      rfl
  · have outside := Nat.le_of_not_lt inside
    have outside' : (builder.under relaxed.checkStack).label ≤ patch.ip := outside
    simp only [Builder.patchHere?_outside outside, Builder.patchHere?_outside outside']
    exact breakOff

theorem resetTo (depth : Nat) :
    Mirrors config relaxed False
      (Work.onBench (Bench.modifyBuilder (·.resetTo depth)) : Work β (Journal β υ) Unit)
      (Work.onBench (Bench.modifyBuilder (·.resetTo depth))) :=
  onBench (Bench.mirrors_modifyBuilder (fun _ checks => checks) fun _ => rfl)

theorem depth : Mirrors config relaxed False (Work.depth : Work β (Journal β υ) Nat) Work.depth :=
  looksAt fun builder => pure builder.depth

/-! ### Nested code -/

/-- The arms of a branch that strict checks accept leave equally many values. -/
theorem emitBranch (relaxes : config.RelaxedBy relaxed) {onTrue onFalse : Work β (Journal β υ) Unit}
    (h₁ : Mirrors config relaxed False onTrue onTrue)
    (h₂ : Mirrors config relaxed False onFalse onFalse) :
    Mirrors config relaxed False (Work.emitBranch onTrue onFalse) (Work.emitBranch onTrue onFalse) := by
  refine nested relaxes (bench fun found => ?_)
  rw [Bench.under_size]
  refine (emitJump _ _).bind fun toElse => depth.bind fun before => h₁.bind fun _ =>
    (ensureSameUnit _ _).bind fun _ => depth.bind fun afterTrue => (emitJump _ _).bind fun toEnd =>
    (patchHere toElse).bind fun _ => (resetTo before).bind fun _ => h₂.bind fun _ => (ensureSameUnit _ _).bind fun _ => target (fun builder => ?_)
      fun builder strict => ?_
  · exact .ite (fun _ => fun session => refl_of Blames session) fun _ => blames_patchHere _
  · by_cases same : afterTrue = builder.depth
    · rw [if_neg fun different => different.1 same, if_neg fun different => different.1 same]
      exact patchHere toEnd
    · rw [if_pos ⟨same, strict⟩]
      exact halts

theorem emitLogical (relaxes : config.RelaxedBy relaxed) (connective : Connective)
    {right : Work β (Journal β υ) Unit} (h : Mirrors config relaxed False right right) :
    Mirrors config relaxed False (Work.emitLogical connective right)
      (Work.emitLogical connective right) :=
  nested relaxes ((emit _ _).bind fun _ => (emitJump _ _).bind fun _ => (emit _ _).bind fun _ =>
    (runRegion _ _ h).bind fun _ => patchHere _)

theorem emitLoop (relaxes : config.RelaxedBy relaxed) {condition body : Work β (Journal β υ) Unit}
    (h₁ : Mirrors config relaxed False condition condition)
    (h₂ : Mirrors config relaxed False body body) (checkFirst : Bool) :
    Mirrors config relaxed False (Work.emitLoop condition body checkFirst)
      (Work.emitLoop condition body checkFirst) := by
  have tests : Mirrors config relaxed False (Work.emitCondition condition)
      (Work.emitCondition condition) := (runRegion _ _ h₁).bind fun _ => pure ()
  have repeats : Mirrors config relaxed False (Work.emitLoopBody body) (Work.emitLoopBody body) :=
    (runRegion _ _ h₂).bind fun _ => emitTimes _ _ _
  refine nested relaxes (looksAt fun builder => ?_)
  exact ite
    (fun _ => tests.bind fun _ => (emitJump _ _).bind fun _ => repeats.bind fun _ =>
      (emitJumpBack _ _ _).bind fun _ => patchHere _)
    fun _ => repeats.bind fun _ => tests.bind fun _ => emitJumpBack _ _ _

theorem forEachIndex {action : Nat → Work β (Journal β υ) Unit}
    (h : ∀ index, Mirrors config relaxed False (action index) (action index)) (first count : Nat) :
    Mirrors config relaxed False (Work.forEachIndex action first count)
      (Work.forEachIndex action first count) := by
  induction count generalizing first with
  | zero => exact pure ()
  | succ count ih => exact (h first).bind fun _ => ih (first + 1)

theorem emitArray (relaxes : config.RelaxedBy relaxed) (count : Nat)
    {element : Nat → Work β (Journal β υ) Unit}
    (h : ∀ index, Mirrors config relaxed False (element index) (element index)) :
    Mirrors config relaxed False (Work.emitArray count element) (Work.emitArray count element) :=
  nested relaxes ((forEachIndex (fun index => (runRegion _ _ (h index)).bind fun _ => pure ()) 0
    count).bind fun _ => emit _ _)

theorem control (relaxes : config.RelaxedBy relaxed) (inner : Control (Session β (Journal β υ)))
    (parts : ∀ part, inner.Has part → Mirrors config relaxed False part part) :
    Mirrors config relaxed False inner.emit inner.emit := by
  cases inner with
  | branch onTrue onFalse => exact emitBranch relaxes (parts _ (.inl rfl)) (parts _ (.inr rfl))
  | logical connective right => exact emitLogical relaxes connective (parts _ rfl)
  | loop condition body checkFirst =>
      exact emitLoop relaxes (parts _ (.inl rfl)) (parts _ (.inr rfl)) checkFirst
  | array count element => exact emitArray relaxes count fun index => parts _ ⟨index, rfl⟩

/-- A body in a unit of its own. -/
theorem recordUnit (relaxes : config.RelaxedBy relaxed) (kind : UnitKind) (name : String)
    (arity localCount : Nat) (locals : List String) {body : Work β (Journal β υ) Unit}
    (h : Mirrors config relaxed False body body) :
    Mirrors config relaxed False (Work.recordUnit kind name arity localCount locals body)
      (Work.recordUnit kind name arity localCount locals body) :=
  bench fun _ => (onBench (Bench.mirrors_openUnit relaxes kind name arity localCount locals)).bind
    fun handle => (h.bind fun _ => onBench (Bench.mirrors_closeUnit relaxes handle kind)).cleaning _ _

theorem recordBlock (relaxes : config.RelaxedBy relaxed) (scope : StaticScope) (arity : Nat)
    {body : Work β (Journal β υ) Unit} (h : Mirrors config relaxed False body body) :
    Mirrors config relaxed False (Work.recordBlock scope arity body)
      (Work.recordBlock scope arity body) := by
  refine bench fun found => ?_
  rw [Bench.under_blockName]
  exact recordUnit relaxes _ _ _ _ _ h

theorem emitCall (relaxes : config.RelaxedBy relaxed) (name : String) (shape : Invocation)
    {block : Option (BlockBody (Session β (Journal β υ)))}
    (h : ∀ given, block = some given → Mirrors config relaxed False given.body given.body) :
    Mirrors config relaxed False (Work.emitCall name shape block) (Work.emitCall name shape block) := by
  refine bind ?_ fun slot => onBench (Bench.mirrors_emitSend relaxes _ name shape slot)
  cases block with
  | none => exact pure none
  | some given =>
      exact (recordBlock relaxes given.scope given.arity (h given rfl)).bind fun slot => pure (some slot)

end Mirrors

end Work

/-! ## Operations -/

namespace Recorder

variable {first second : Work Recorder (Journal Recorder υ) α}

/-- Whether an operation is refused does not depend on the configuration. -/
theorem mirrors_checked (h : Work.Mirrors config relaxed False first second) :
    Work.Mirrors config relaxed False (checked first) (checked second) where
  blames session := by
    refine ends_checked (fun _ _ => refl_of Blames session) fun _ =>
      (h.blames session).mono (fun _ _ => id) fun halt session' blames => ?_
    cases halt <;> exact blames
  repeats session strict := by
    refine ends_checked (fun _ _ impossible => impossible.elim) fun clean =>
      (h.repeats session strict).mono (fun value session' more faultless => ?_)
        fun halt _ _ => ?_
    · obtain ⟨strict', again⟩ := more faultless
      refine ⟨strict', ?_⟩
      have clean' : (session.under relaxed).backend.poisoned = none := clean
      simp only [checked, clean', again]
    · cases halt <;> exact False.elim

theorem mirrors_setScript (script : ScriptState) : Work.Mirrors config relaxed False
    (setScript script : Work Recorder (Journal Recorder υ) Unit) (setScript script) where
  blames := .modifies fun _ => id
  repeats _ strict := Ends.modifies fun _ => ⟨strict, rfl⟩

/-- Every operation does the same, provided that its nested code does. -/
theorem mirrors_issue (relaxes : config.RelaxedBy relaxed)
    (operation : Operation (Session Recorder (Journal Recorder υ)) α)
    (parts : ∀ part, operation.Has part → Work.Mirrors config relaxed False part part) :
    Work.Mirrors config relaxed False (operation.issue (contract (Journal Recorder υ)))
      (operation.issue (contract (Journal Recorder υ))) := by
  cases operation with
  | startScript =>
      refine mirrors_checked (.bench fun found => .look fun session =>
        .ite (fun _ => .fails) fun _ => ?_)
      exact (Work.Mirrors.onBench (Bench.mirrors_openUnit relaxes _ _ _ _ _)).bind
        fun _ => mirrors_setScript _
  | endScript =>
      refine mirrors_checked (.bench fun found => ?_)
      rw [Bench.under_size]
      refine .ite (fun _ => .halts) fun _ => .look fun session => ?_
      rcases session with ⟨_, ⟨script, poisoned⟩, _⟩
      cases script with
      | opened handle =>
          exact (mirrors_setScript _).bind fun _ =>
            (Work.Mirrors.onBench (Bench.mirrors_closeUnit relaxes _ _)).bind fun _ => .pure ()
      | notStarted | ended => exact .fail
  | beginMethod name arity localCount =>
      exact mirrors_checked (.looksAt fun _ =>
        .onBench (Bench.mirrors_openUnit relaxes _ _ _ _ _))
  | endMethod handle =>
      exact mirrors_checked ((Work.Mirrors.onBench (Bench.mirrors_closeUnit relaxes handle _)).bind
        fun _ => .pure ())
  | primitive p => exact mirrors_checked (.onBench (Bench.mirrors_emitPrimitive relaxes p))
  | invoke name shape block =>
      exact mirrors_checked (.emitCall relaxes name shape fun given h => parts _ ⟨given, h, rfl⟩)
  | control inner =>
      have emits := mirrors_checked (Work.Mirrors.control relaxes inner parts)
      cases inner <;> exact emits
  | closure scope arity body =>
      exact mirrors_checked (.looksAt fun _ => (Work.Mirrors.recordBlock relaxes scope arity
        (parts _ rfl)).bind fun _ => .emit _ _)
  | defineMethod name arity localCount body =>
      exact mirrors_checked (.looksAt fun _ => (Work.Mirrors.recordUnit relaxes _ _ _ _ _
        (parts _ rfl)).bind fun _ => .onBench (Bench.mirrors_emitPooled relaxes _ _ _))

/-- An operation that fails is blamed, so its failure need not be mirrored. -/
theorem mirrors_journaled {faithful : Prop} (name : String)
    (h : Work.Mirrors config relaxed False first second) :
    Work.Mirrors config relaxed faithful (Work.journaled name first) (Work.journaled name second) where
  blames session := by
    refine Work.ends_journaled ((h.blames _).mono (fun value session' blames faultless => ?_)
      fun halt session' blames faultless => ?_) <;>
    · have inner := blames fun event member => faultless event (List.mem_cons_of_mem _ member)
      exact fun event member => inner event (List.mem_cons_of_mem _ member)
  repeats session strict := by
    let issued := session.note (session.event name session.client.events.length .issued)
    refine Work.ends_journaled ((h.repeats issued strict).mono (fun value session' more faultless => ?_)
      fun halt session' _ _ faultless => ?_)
    · obtain ⟨strict', again⟩ := more fun event member => faultless event (List.mem_cons_of_mem _ member)
      have since : (session.under relaxed).client.events.length = session.client.events.length :=
        List.length_map ..
      rw [Session.under_note] at again
      exact ⟨strict', by simp only [Work.journaled, since, again, Session.under_note]⟩
    · exact absurd rfl (faultless _ (List.mem_cons_self ..) halt)

end Recorder

/-! ## Callers -/

/-- A caller whose behaviour does not depend on the configuration: it sees everything else, keeps
what is its own, fails on its own account and recovers from failures. -/
inductive BlindClient (contract : Contract (Session β (Journal β υ))) :
    {α : Type} → Work β (Journal β υ) α → Prop
  | pure {α : Type} (value : α) : BlindClient contract (Pure.pure value)
  | bind {α γ : Type} {first : Work β (Journal β υ) α} {next : α → Work β (Journal β υ) γ}
      (first_client : BlindClient contract first)
      (next_client : ∀ value, BlindClient contract (next value)) :
      BlindClient contract (first >>= next)
  | look {α : Type} {view : Session β (Journal β υ) → α}
      (blind : ∀ session config, view (session.under config) = view session) :
      BlindClient contract (do return view (← get))
  | keep (change : υ → υ) :
      BlindClient contract (Work.keep fun journal => { journal with own := change journal.own })
  | raise {α : Type} (error : CompileError) :
      BlindClient contract (Work.fail error : Work β (Journal β υ) α)
  | rescue {α : Type} {body : Work β (Journal β υ) α}
      {handler : CompileError → Work β (Journal β υ) α} (body_client : BlindClient contract body)
      (handler_client : ∀ error, BlindClient contract (handler error)) :
      BlindClient contract (body.rescue handler)
  | issue {α : Type} {operation : Operation (Session β (Journal β υ)) α}
      (parts_client : ∀ part, operation.Has part → BlindClient contract part) :
      BlindClient contract (operation.issue contract)

namespace Work.Mirrors

variable {faithful : Prop}

theorem rescue {body body' : Work β (Journal β υ) α}
    {handler handler' : CompileError → Work β (Journal β υ) α}
    (h : Mirrors config relaxed True body body')
    (h' : ∀ error, Mirrors config relaxed True (handler error) (handler' error)) :
    Mirrors config relaxed True (body.rescue handler) (body'.rescue handler') where
  blames := moves_rescue h.blames fun error => (h' error).blames
  repeats session strict := by
    refine ends_rescue (Ends.intro (fun value middle run faultless => ?_) fun halt middle run => ?_)
    · obtain ⟨strict', again⟩ := (h.repeats session strict).ok run faultless
      exact ⟨strict', by simp only [Work.rescue, again]⟩
    · have failed := (h.repeats session strict).error run trivial
      cases halt with
      | outOfFuel =>
          intro _ faultless
          obtain ⟨strict', again⟩ := failed faultless
          exact ⟨strict', by simp only [Work.rescue, again]⟩
      | failure error =>
          have resumes (again : body' (session.under relaxed) =
              .error (.failure error) (middle.under relaxed)) :
              body'.rescue handler' (session.under relaxed) = handler' error (middle.under relaxed) := by
            simp only [Work.rescue, again]
          -- When the body has failed on its own account, the handler is run in both.
          refine Ends.intro (fun value session' run' faultless => ?_)
            fun halt session' run' _ faultless => ?_
          · obtain ⟨strict', again⟩ := failed ((h' error).blames.ok run' faultless)
            obtain ⟨strict'', more⟩ := ((h' error).repeats middle strict').ok run' faultless
            exact ⟨strict'', (resumes again).trans more⟩
          · obtain ⟨strict', again⟩ := failed ((h' error).blames.error run' faultless)
            obtain ⟨strict'', more⟩ := ((h' error).repeats middle strict').error run' trivial faultless
            exact ⟨strict'', (resumes again).trans more⟩

end Work.Mirrors

namespace Recorder

/-- Every caller that is blind to the configuration does the same. -/
theorem mirrors_client (relaxes : config.RelaxedBy relaxed)
    {action : Work Recorder (Journal Recorder υ) α}
    (caller : BlindClient (contract (Journal Recorder υ)).journaled action) :
    Work.Mirrors config relaxed True action action := by
  induction caller with
  | pure value => exact .pure value
  | bind _ _ first next => exact first.bind next
  | look blind =>
      refine .look fun session => ?_
      rw [blind]
      exact .pure _
  | keep change =>
      exact ⟨.modifies fun _ => id, fun _ strict => Ends.modifies fun _ => ⟨strict, rfl⟩⟩
  | raise error => exact ⟨.throws _, fun _ strict _ _ => ⟨strict, rfl⟩⟩
  | rescue _ _ body handler => exact body.rescue handler
  | issue _ parts =>
      rw [Operation.issue_journaled]
      exact mirrors_journaled _ (mirrors_issue relaxes _ fun part has => (parts part has).weaken)

/-- What two runs have in common: all operations succeed in the second one as well, and it hands
over the same program. -/
structure SameRecording (relaxed : Config) (session session' : Session Recorder (Journal Recorder υ)) :
    Prop where
  same : session' = session.under relaxed
  faultless : session'.Faultless
  program : ∀ p, program session = .ok p → program session' = .ok p

theorem sameRecording_under (relaxes : config.RelaxedBy relaxed)
    {session : Session Recorder (Journal Recorder υ)} (strict : session.bench.Strict config)
    (faultless : session.Faultless) : SameRecording relaxed session (session.under relaxed) where
  same := rfl
  faultless := faultless.under relaxed
  program p finished := by
    obtain ⟨bench, ⟨script, poisoned⟩, client⟩ := session
    cases poisoned with
    | some error => cases finished
    | none =>
        cases script with
        | notStarted => cases finished
        | opened handle => cases finished
        | ended =>
            have verifies : bench.config.verifyUnits = true := strict.same ▸ relaxes.verifies
            change (if bench.config.verifyUnits then
              (bench.program.verify.mapError CompileError.verify).map fun _ => bench.program
              else .ok bench.program) = .ok p at finished
            change (if relaxed.verifyUnits then
              (bench.program.verify.mapError CompileError.verify).map fun _ => bench.program
              else .ok bench.program) = .ok p
            rw [if_pos verifies] at finished
            split
            · exact finished
            · cases verified : bench.program.verify with
              | error error => rw [verified] at finished; cases finished
              | ok value => rw [verified] at finished; cases finished; rfl

/-- Turning checks off and raising limits changes nothing where no operation fails. -/
theorem relaxed_records {action : Work Recorder (Journal Recorder υ) α}
    (caller : BlindClient (contract (Journal Recorder υ)).journaled action)
    (relaxes : config.RelaxedBy relaxed) (owner : Nat) (own : υ) :
    Ends action (new config owner ⟨[], own⟩)
      (fun value session => session.Faultless → ∃ session',
        action (new relaxed owner ⟨[], own⟩) = .ok value session' ∧
        SameRecording relaxed session session')
      fun halt session => session.Faultless → ∃ session',
        action (new relaxed owner ⟨[], own⟩) = .error halt session' ∧
        SameRecording relaxed session session' := by
  have strict : (new config owner (Journal.mk (β := Recorder) [] own)).bench.Strict config :=
    ⟨rfl, rfl, nofun⟩
  refine ((mirrors_client relaxes caller).repeats _ strict).mono
    (fun value session more faultless => ?_) fun halt session more faultless => ?_
  · obtain ⟨strict', again⟩ := more faultless
    exact ⟨_, again, sameRecording_under relaxes strict' faultless⟩
  · obtain ⟨strict', again⟩ := more trivial faultless
    exact ⟨_, again, sameRecording_under relaxes strict' faultless⟩

/-- How many units are open. -/
def openUnits : Work Recorder (Journal Recorder Nat) Nat := return (← get).bench.units.size

/-- The body of a method that yields one of two numbers, and keeps how many units are open. -/
def countingBody : Work Recorder (Journal Recorder Nat) Unit := do
  let backend := (contract (Journal Recorder Nat)).journaled
  (Operation.primitive .loadTrue).issue backend
  let arm (value : Int64) := (Operation.primitive (.fixnum value)).issue backend
  (Operation.control (.branch (arm 1) (arm 2))).issue backend
  (Operation.primitive (.yield true)).issue backend
  let units ← openUnits
  Work.keep fun journal => { journal with own := journal.own + units }

/-- A script that defines this method. -/
def counting : Work Recorder (Journal Recorder Nat) Unit := do
  let backend := (contract (Journal Recorder Nat)).journaled
  Operation.startScript.issue backend
  (Operation.defineMethod "each" 0 0 countingBody).issue backend
  Operation.endScript.issue backend

theorem blind_counting :
    BlindClient (contract (Journal Recorder Nat)).journaled counting := by
  have issues {α : Type} (operation : Operation (Session Recorder (Journal Recorder Nat)) α)
      (flat : ∀ part, ¬operation.Has part) :
      BlindClient (contract (Journal Recorder Nat)).journaled (operation.issue _) :=
    .issue fun part has => absurd has (flat part)
  refine .bind (issues .startScript fun _ => id) fun _ =>
    .bind (.issue fun part has => ?_) fun _ => issues .endScript fun _ => id
  obtain rfl : part = countingBody := has
  refine .bind (issues (.primitive .loadTrue) fun _ => id) fun _ =>
    .bind (.issue fun part has => ?_) fun _ => .bind (issues (.primitive (.yield true)) fun _ => id)
    fun _ => .bind (.look fun _ _ => Bench.under_size) fun units => .keep (· + units)
  rcases has with rfl | rfl
  · exact issues (.primitive (.fixnum 1)) fun _ => id
  · exact issues (.primitive (.fixnum 2)) fun _ => id

/-- Every check is on, and the limits leave no room for more. -/
def tight : Config := { maxNesting := 3, maxPoolEntries := 2 }

/-- Nothing is checked. -/
def loose : Config where
  checkStack := false
  yieldMode := .lenient
  maxNesting := 9
  maxPoolEntries := 9
  verifyUnits := false

theorem tight_relaxes : tight.RelaxedBy loose := ⟨rfl, rfl, rfl, by decide, by decide⟩

theorem counting_relaxed : ∃ session session' p,
    counting (new tight 0 ⟨[], 0⟩) = .ok () session ∧
    counting (new loose 0 ⟨[], 0⟩) = .ok () session' ∧
    program session = .ok p ∧ program session' = .ok p ∧ p.code.size = 2 := by
  have outcome : ((counting.session? (new tight 0 ⟨[], 0⟩)).map fun session =>
      (session.client.events.all (!·.occasion.failed?), (program session).toOption.map (·.code.size))) =
        some (true, some 2) := by decide +kernel
  have blind := blind_counting
  -- Otherwise the recording would be made again wherever its outcome is looked at.
  generalize counting = script at outcome blind ⊢
  obtain ⟨session, ends, found⟩ := Option.map_eq_some_iff.mp outcome
  obtain ⟨value, run⟩ := Work.run_of_session? ends
  obtain ⟨fine, size⟩ := Prod.mk.inj found
  have faultless : session.Faultless := by
    intro event member halt failed
    have fine := List.all_eq_true.mp fine event member
    rw [failed] at fine
    cases fine
  cases finished : program session with
  | error error => simp [finished, Except.toOption] at size
  | ok p =>
      obtain ⟨session', again, recording⟩ :=
        (relaxed_records blind tight_relaxes 0 0).ok run faultless
      refine ⟨session, session', p, run, again, finished, recording.program p finished, ?_⟩
      simpa [finished, Except.toOption] using size

end Recorder

end BlockScript
