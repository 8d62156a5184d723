import BlockScript.Proofs.Backend.BenchOutcomes

/-!
# Recording with fewer checks

A configuration is relaxed by turning checks off and raising limits. What a bench does under the
strict configuration, it does in the same way under the relaxed one: wherever a check could make
a difference, the strict configuration fails. So the two benches differ in nothing but what the
configuration has left in them.
-/

namespace BlockScript

variable {α γ : Type} {config relaxed : Config}

/-- The first configuration has every check on, and its limits are not above the other ones. -/
structure Config.RelaxedBy (config relaxed : Config) : Prop where
  checks : config.checkStack = true
  yields : config.yieldMode = .strict
  verifies : config.verifyUnits = true
  nesting : config.maxNesting ≤ relaxed.maxNesting
  entries : config.maxPoolEntries ≤ relaxed.maxPoolEntries

/-! ## Builders -/

/-- The same depths under other checks. -/
def DepthTracker.under (strict : Bool) (tracker : DepthTracker) : DepthTracker :=
  { tracker with strict }

/-- The same code under other checks. -/
def Builder.under (strict : Bool) (builder : Builder) : Builder :=
  { builder with stack := builder.stack.under strict }

namespace Builder

variable {strict : Bool} {builder builder' : Builder}

@[simp] theorem under_depth : (builder.under strict).depth = builder.depth := rfl

@[simp] theorem under_label : (builder.under strict).label = builder.label := rfl

/-- Every imbalance is refused. -/
def Checks (builder : Builder) : Prop := builder.stack.strict = true

/-- There are values enough where a strict builder appends an operation. -/
theorem Checks.emit (checks : builder.Checks) {operation : String} {op : Op}
    (h : builder.emit operation op = .ok builder') (strict : Bool) :
    builder'.Checks ∧ (builder.under strict).emit operation op = .ok (builder'.under strict) ∧
      op.pops ≤ builder.depth := by
  obtain ⟨stack, consumed, rfl⟩ := emit_ok h
  unfold DepthTracker.consume at consumed
  split at consumed
  · rename_i enough
    cases consumed
    refine ⟨checks, ?_, enough⟩
    have again : (builder.under strict).stack.consume operation op.pops (builder.under strict).line =
        .ok { builder.stack.under strict with depth := builder.stack.depth - op.pops } :=
      if_pos enough
    exact emit_eq again
  · rw [if_pos (show builder.stack.strict = true from checks)] at consumed
    cases consumed

theorem Checks.emitTimes {operation : String} {op : Op} {count : Nat} (checks : builder.Checks)
    (h : emitTimes operation op count builder = .ok builder') (strict : Bool) :
    builder'.Checks ∧
      Builder.emitTimes operation op count (builder.under strict) = .ok (builder'.under strict) := by
  induction count generalizing builder with
  | zero =>
      cases h
      exact ⟨checks, rfl⟩
  | succ count ih =>
      obtain ⟨appended, emits, rest⟩ := Verifier.bind_ok h
      obtain ⟨checks, again, -⟩ := checks.emit emits strict
      obtain ⟨checks, more⟩ := ih checks rest
      exact ⟨checks, by rw [Builder.emitTimes, again]; exact more⟩

/-- At most one value is left where a strict builder closes its unit. -/
theorem Checks.finish (checks : builder.Checks) {code : Code} (h : builder.finish = .ok code)
    (strict : Bool) : (builder.under strict).finish = .ok code := by
  obtain ⟨surplus, popped, valued, closed, hsurplus, hpopped, hvalued, hclosed, rfl⟩ := finish_ok h
  have few : builder.stack.depth ≤ 1 ∧ surplus = 0 := by
    unfold DepthTracker.surplus at hsurplus
    split at hsurplus
    · cases hsurplus
      exact ⟨‹_›, rfl⟩
    · rw [if_pos (show builder.stack.strict = true from checks)] at hsurplus
      cases hsurplus
  have drops : (builder.under strict).stack.surplus (builder.under strict).describe
      (builder.under strict).line = .ok surplus := by
    rw [few.2]
    exact if_pos few.1
  obtain ⟨checks, pops⟩ := checks.emitTimes hpopped strict
  unfold Builder.finish
  simp only [drops, pops, bind, Except.bind]
  rcases hvalued with ⟨empty, pushes⟩ | ⟨filled, rfl⟩
  · obtain ⟨checks, pushes, -⟩ := checks.emit pushes strict
    obtain ⟨-, returns, -⟩ := checks.emit hclosed strict
    simp only [under_depth, if_pos empty, pushes, returns]
    rfl
  · obtain ⟨-, returns, -⟩ := checks.emit hclosed strict
    simp only [under_depth, if_neg filled, pure, Except.pure, returns]
    rfl

end Builder

/-! ## Benches -/

/-- The same recording under other checks. -/
def Recording.under (strict : Bool) (recording : Recording) : Recording :=
  { recording with builder := recording.builder.under strict }

/-- The same unit under other checks. -/
def OpenUnit.under (strict : Bool) (unit : OpenUnit (Option Recording)) :
    OpenUnit (Option Recording) :=
  { unit with payload := unit.payload.map (·.under strict) }

/-- The same open units under another configuration. -/
def UnitStack.under (config : Config) (stack : UnitStack (Option Recording)) :
    UnitStack (Option Recording) :=
  { stack with
    units := stack.units.map (·.under config.checkStack)
    maxNesting := config.maxNesting }

/-- The same bench under another configuration. -/
def Bench.under (config : Config) (bench : Bench) : Bench :=
  { bench with config, units := bench.units.under config }

/-- A unit is closed under any configuration by the handle that closes it under one. -/
theorem UnitStack.close_under {stack stack' : UnitStack (Option Recording)} {handle : UnitHandle}
    {kind : UnitKind} {line : Option UInt32} {unit : OpenUnit (Option Recording)}
    (h : stack.close handle kind line = .ok (unit, stack')) :
    (stack.under config).close handle kind line =
      .ok (unit.under config.checkStack, stack'.under config) := by
  obtain ⟨owner, id, rfl, units, same⟩ := close_ok h
  have units' : (stack.under config).units =
      unit.under config.checkStack :: stack'.units.map (·.under config.checkStack) :=
    congrArg (List.map _) units
  refine (close_eq units' owner.symm id line).trans ?_
  rw [same]
  rfl

/-- A higher limit does not change what is interned. -/
theorem Pool.intern_mono {pool pool' : Pool} {constant : Constant} {limit limit' : Nat}
    {position : UInt32} (h : pool.intern constant limit = .ok (position, pool'))
    (higher : limit ≤ limit') : pool.intern constant limit' = .ok (position, pool') := by
  unfold intern at h ⊢
  split at h
  · exact h
  · split at h
    · rename_i room
      rw [if_pos (Nat.lt_of_lt_of_le room higher)]
      exact h
    · cases h

namespace Bench

variable {bench bench' : Bench}

@[simp] theorem under_size : (bench.under config).units.size = bench.units.size :=
  List.length_map ..

@[simp] theorem under_top? :
    (bench.under config).units.top? = bench.units.top?.map (·.under config.checkStack) :=
  List.head?_map ..

@[simp] theorem under_recording? :
    (bench.under config).recording? = bench.recording?.map (·.under config.checkStack) := by
  rw [recording?, recording?, under_top?]
  cases bench.units.top? <;> rfl

@[simp] theorem under_currentLine : (bench.under config).currentLine = bench.currentLine := by
  rw [currentLine, currentLine, under_recording?]
  cases bench.recording? <;> rfl

@[simp] theorem under_blockName : (bench.under config).blockName = bench.blockName := by
  rw [blockName, blockName, under_top?]
  cases bench.units.top? <;> rfl

@[simp] theorem under_reachableDepth :
    (bench.under config).units.reachableDepth = bench.units.reachableDepth := by
  change ((bench.units.units.map _).takeWhile _).length = _
  rw [List.takeWhile_map, List.length_map]
  rfl

@[simp] theorem under_insideMethod :
    (bench.under config).units.insideMethod = bench.units.insideMethod := by
  change ((bench.units.units.map _).takeWhile _).any _ = _
  rw [List.takeWhile_map, List.any_map]
  rfl

/-- The bench has this configuration, every check of which is on. -/
structure Strict (config : Config) (bench : Bench) : Prop where
  same : bench.config = config
  nesting : bench.units.maxNesting = config.maxNesting
  builders : ∀ unit ∈ bench.units.units, ∀ recording, unit.payload = some recording →
    recording.builder.Checks

/-- When the first computation succeeds on a strict bench, the second one does the same on the
relaxed bench. -/
def Mirrors (config relaxed : Config) (first second : BenchM α) : Prop :=
  ∀ bench, bench.Strict config → Ensures first bench fun value bench' =>
    bench'.Strict config ∧ second (bench.under relaxed) = .ok value (bench'.under relaxed)

namespace Mirrors

theorem pure (value : α) :
    Mirrors config relaxed (Pure.pure value : BenchM α) (Pure.pure value) :=
  fun _ strict => Ensures.pure ⟨strict, rfl⟩

theorem bind {first second : BenchM α} {next next' : α → BenchM γ}
    (h : Mirrors config relaxed first second)
    (h' : ∀ value, Mirrors config relaxed (next value) (next' value)) :
    Mirrors config relaxed (first >>= next) (second >>= next') := by
  refine fun bench strict => (h bench strict).bind fun value middle ⟨strict, again⟩ =>
    (h' value middle strict).mono fun result bench' ⟨strict, more⟩ =>
      ⟨strict, (run_bind_ok again).trans more⟩

theorem get {next next' : Bench → BenchM α}
    (h : ∀ bench, bench.Strict config → Ensures (next bench) bench fun value bench' =>
      bench'.Strict config ∧
        next' (bench.under relaxed) (bench.under relaxed) = .ok value (bench'.under relaxed)) :
    Mirrors config relaxed (MonadStateOf.get >>= next) (MonadStateOf.get >>= next') :=
  fun bench strict => Ensures.get (h bench strict)

/-- What fails need not be mirrored. -/
theorem throws {error : CompileError} {second : BenchM α} :
    Mirrors config relaxed (throw error) second :=
  fun _ _ => Ensures.throws

end Mirrors

theorem Strict.builder {recording : Recording} (strict : bench.Strict config)
    (h : bench.recording? = some recording) : recording.builder.Checks := by
  obtain ⟨unit, outer, hunits, payload⟩ := recording?_eq_some.mp h
  exact strict.builders unit (by simp [hunits]) recording payload

theorem Strict.setBuilder {recording : Recording} (strict : bench.Strict config)
    (h : bench.recording? = some recording) {builder : Builder} (checks : builder.Checks)
    (relaxed : Config) : (bench.setBuilder builder).Strict config ∧
      (bench.under relaxed).setBuilder (builder.under relaxed.checkStack) =
        (bench.setBuilder builder).under relaxed := by
  obtain ⟨unit, outer, hunits, payload⟩ := recording?_eq_some.mp h
  refine ⟨⟨strict.same, ?_, ?_⟩, ?_⟩
  · exact (bench.units.mapTop_rest _).2.2.2.trans strict.nesting
  · rw [setBuilder_units hunits payload]
    intro other member found at_other
    rcases List.mem_cons.mp member with rfl | member
    · cases at_other
      exact checks
    · exact strict.builders other (hunits ▸ List.mem_cons_of_mem _ member) found at_other
  · obtain ⟨_, ⟨_, _, units, _, _⟩, _, _, _, _⟩ := bench
    obtain ⟨_, _, _, payload⟩ := unit
    cases hunits
    cases payload
    rfl

theorem mirrors_intern (relaxes : config.RelaxedBy relaxed) (constant : Constant) :
    Mirrors config relaxed (intern constant) (intern constant) := by
  intro bench strict
  refine ends_intern.ensures.mono ?_
  rintro position _ ⟨constants, interned, rfl⟩
  refine ⟨⟨strict.same, strict.nesting, strict.builders⟩, ?_⟩
  have again : (bench.under relaxed).program.constants.intern constant relaxed.maxPoolEntries =
      .ok (position, constants) :=
    Pool.intern_mono interned (strict.same ▸ relaxes.entries)
  have own : (bench.under relaxed).config = relaxed := rfl
  unfold intern
  rw [own, again]
  rfl

/-- The innermost recording is the same but for its checks. -/
theorem mirrors_target {next next' : Builder → BenchM α}
    (h : ∀ builder, builder.Checks →
      Mirrors config relaxed (next builder) (next' (builder.under relaxed.checkStack))) :
    Mirrors config relaxed (target >>= next) (target >>= next') := by
  intro bench strict
  refine ends_target.ensures.bind ?_
  rintro builder _ ⟨rfl, slot, found⟩
  refine (h builder (strict.builder found) _ strict).mono fun value bench' ⟨strict, more⟩ =>
    ⟨strict, (run_bind_ok (target_eq (under_recording?.trans (congrArg _ found)))).trans more⟩

theorem mirrors_modifyBuilder {f f' : Builder → Builder}
    (checks : ∀ builder, builder.Checks → (f builder).Checks)
    (same : ∀ builder, f' (builder.under relaxed.checkStack) = (f builder).under relaxed.checkStack) :
    Mirrors config relaxed (modifyBuilder f) (modifyBuilder f') := by
  intro bench strict
  refine Ensures.modifies ?_
  obtain ⟨_, ⟨_, _, units, _, _⟩, _, _, _, _⟩ := bench
  cases units with
  | nil => exact ⟨⟨strict.same, strict.nesting, nofun⟩, rfl⟩
  | cons unit outer =>
      obtain ⟨id, kind, name, payload⟩ := unit
      cases payload with
      | none => exact ⟨⟨strict.same, strict.nesting, strict.builders⟩, rfl⟩
      | some recording =>
          have before : recording.builder.Checks := strict.builder rfl
          have changed := strict.setBuilder rfl (checks _ before) relaxed
          refine ⟨changed.1, Eq.trans ?_ (congrArg (EStateM.Result.ok ()) changed.2)⟩
          rw [← same recording.builder]
          rfl

theorem mirrors_build {action : Builder → Except CompileError (α × Builder)}
    (h : ∀ {builder value builder'}, builder.Checks → action builder = .ok (value, builder') →
      builder'.Checks ∧ action (builder.under relaxed.checkStack) =
        .ok (value, builder'.under relaxed.checkStack)) :
    Mirrors config relaxed (build action) (build action) := by
  refine mirrors_target fun builder checks => ?_
  cases run : action builder with
  | error error => exact .throws
  | ok result =>
      obtain ⟨value, builder'⟩ := result
      obtain ⟨checks, again⟩ := h checks run
      simp only [again]
      exact (mirrors_modifyBuilder (fun _ _ => checks) fun _ => rfl).bind fun _ => .pure value

theorem mirrors_emit (operation : String) (op : Op) :
    Mirrors config relaxed (emit operation op) (emit operation op) :=
  mirrors_build fun {builder value builder'} checks run => by
    obtain ⟨appended, emits, same⟩ := Verifier.bind_ok run
    cases same
    obtain ⟨checks, again, -⟩ := checks.emit emits relaxed.checkStack
    exact ⟨checks, by rw [again]; rfl⟩

theorem mirrors_emitPooled (relaxes : config.RelaxedBy relaxed) (operation : String)
    (constant : Constant) (op : UInt32 → Op) :
    Mirrors config relaxed (emitPooled operation constant op) (emitPooled operation constant op) :=
  mirrors_target fun _ _ => (mirrors_intern relaxes constant).bind fun _ => mirrors_emit operation _

theorem mirrors_emitSend (relaxes : config.RelaxedBy relaxed) (operation name : String)
    (shape : Invocation) (block : Option UInt32) :
    Mirrors config relaxed (emitSend operation name shape block)
      (emitSend operation name shape block) :=
  mirrors_target fun _ _ => (mirrors_intern relaxes _).bind fun _ => mirrors_emit operation _

theorem mirrors_checkScopeDepth (depth : Nat) :
    Mirrors config relaxed (checkScopeDepth depth) (checkScopeDepth depth) := by
  refine .get fun bench strict => ?_
  rw [under_reachableDepth]
  exact Ensures.ite (fun _ => Ensures.throws) fun within => Ensures.pure ⟨strict, by
    rw [if_neg within]; rfl⟩

/-- Where a strict yield finds its argument, a lenient one does not go without it. -/
theorem mirrors_emitYield (relaxes : config.RelaxedBy relaxed) (operation : String)
    (hasArgs : Bool) :
    Mirrors config relaxed (emitYield operation hasArgs) (emitYield operation hasArgs) := by
  have appends {bench : Bench} (strict : bench.Strict config) :
      Ensures (do
        let builder ← target
        let drop := hasArgs && builder.depth == 0 && decide (bench.config.yieldMode = .lenient)
        emit operation (.yield (if hasArgs && !drop then 1 else 0))) bench fun value bench' =>
      bench'.Strict config ∧ (do
        let builder ← target
        let drop := hasArgs && builder.depth == 0 && decide (relaxed.yieldMode = .lenient)
        emit operation (.yield (if hasArgs && !drop then 1 else 0)) : BenchM Unit)
          (bench.under relaxed) = .ok value (bench'.under relaxed) := by
    refine ends_target.ensures.bind ?_
    rintro builder bench ⟨rfl, slot, found⟩ value bench' run
    have never : decide (bench.config.yieldMode = .lenient) = false := by
      simp [strict.same, relaxes.yields]
    simp only [never, Bool.and_false, Bool.not_false, Bool.and_true] at run
    obtain ⟨slot', builder', appended, found', emits, -⟩ := ends_emit.ok run
    obtain ⟨rfl, rfl⟩ := Recording.mk.inj (Option.some.inj (found.symm.trans found'))
    obtain ⟨-, -, enough⟩ := (strict.builder found).emit emits relaxed.checkStack
    obtain ⟨strict', again⟩ := mirrors_emit operation _ bench strict value bench' run
    refine ⟨strict', (run_bind_ok (target_eq (under_recording?.trans (congrArg _ found)))).trans ?_⟩
    cases hasArgs with
    | false => exact again
    | true =>
        have positive : (builder.depth == 0) = false := beq_false_of_ne (Nat.ne_of_gt enough)
        simp only [Recording.under, Builder.under_depth, positive, Bool.and_false, Bool.false_and]
        exact again
  refine .get fun bench strict => ?_
  rw [under_insideMethod]
  refine Ensures.ite (fun _ => Ensures.stop Ensures.throws) fun inside => ?_
  rw [if_neg inside]
  exact appends strict

theorem mirrors_setLine (line : UInt32) :
    Mirrors config relaxed (setLine line) (setLine line) :=
  mirrors_target fun _ _ => mirrors_modifyBuilder (fun _ checks => checks) fun _ => rfl

theorem mirrors_emitPrimitive (relaxes : config.RelaxedBy relaxed) (p : Primitive) :
    Mirrors config relaxed (emitPrimitive p) (emitPrimitive p) := by
  unfold emitPrimitive
  cases p.form with
  | op op => exact mirrors_emit _ op
  | pooled constant op => exact mirrors_emitPooled relaxes _ constant op
  | access index depth assign =>
      exact (mirrors_checkScopeDepth depth).bind fun _ => mirrors_emit _ _
  | aliasMethod newName oldName =>
      exact mirrors_target fun _ _ => (mirrors_intern relaxes _).bind fun _ =>
        (mirrors_intern relaxes _).bind fun _ => mirrors_emit _ _
  | yield hasArgs => exact mirrors_emitYield relaxes _ hasArgs
  | line line =>
      exact (mirrors_setLine line).bind fun _ bench strict =>
        Ensures.modifies ⟨⟨strict.same, strict.nesting, strict.builders⟩, rfl⟩

theorem mirrors_reserve (relaxes : config.RelaxedBy relaxed) :
    Mirrors config relaxed reserve reserve := by
  intro bench strict slot bench' run
  unfold reserve at run
  split at run
  · cases run
  · rename_i room
    cases run
    refine ⟨⟨strict.same, strict.nesting, strict.builders⟩, if_neg ?_⟩
    have higher := relaxes.entries
    rw [strict.same] at room
    exact fun full => room (Nat.le_trans higher full)

/-- Open a unit in a slot that was claimed, or give the slot back. -/
def openIn (slot : UInt32) (kind : UnitKind) (name : String) (builder : Builder) :
    BenchM UnitHandle := do
  let bench ← get
  match bench.units.open kind name (some ⟨slot, builder⟩) with
  | .ok (handle, units) =>
    set { bench with units }
    return handle
  | .error error =>
    set (bench.release slot)
    throw error

/-- There is room for a unit where the limits leave more of it. -/
theorem mirrors_openIn (relaxes : config.RelaxedBy relaxed) (slot : UInt32) (kind : UnitKind)
    (name : String) {builder : Builder} (checks : builder.Checks) :
    Mirrors config relaxed (openIn slot kind name builder)
      (openIn slot kind name (builder.under relaxed.checkStack)) := by
  refine .get fun bench strict => ?_
  rw [UnitStack.open_eq, UnitStack.open_eq]
  by_cases room : bench.units.size + bench.units.nesting + 1 ≤ bench.units.maxNesting
  · have higher : (bench.under relaxed).units.size + (bench.under relaxed).units.nesting + 1 ≤
        (bench.under relaxed).units.maxNesting := by
      rw [under_size]
      exact Nat.le_trans room (strict.nesting ▸ relaxes.nesting)
    rw [if_pos room, if_pos higher]
    intro handle bench' run
    cases run
    refine ⟨⟨strict.same, strict.nesting, ?_⟩, rfl⟩
    intro unit member recording payload
    rcases List.mem_cons.mp member with rfl | member
    · cases payload
      exact checks
    · exact strict.builders unit member recording payload
  · rw [if_neg room]
    intro handle bench' run
    cases run

theorem mirrors_openUnit (relaxes : config.RelaxedBy relaxed) (kind : UnitKind) (name : String)
    (arity localCount : Nat) (locals : List String) :
    Mirrors config relaxed (openUnit kind name arity localCount locals)
      (openUnit kind name arity localCount locals) := by
  refine (mirrors_reserve relaxes).bind fun slot => .get fun bench strict => ?_
  have fresh : (Builder.new name kind arity localCount locals bench.config.checkStack).Checks :=
    strict.same ▸ relaxes.checks
  rw [under_currentLine]
  cases bench.currentLine with
  | none => exact mirrors_openIn relaxes slot kind name fresh bench strict
  | some line =>
      have lined : ((Builder.new name kind arity localCount locals
          bench.config.checkStack).setLine line).Checks := fresh
      exact mirrors_openIn relaxes slot kind name lined bench strict

theorem mirrors_install (relaxed : Config) (slot : UInt32) (code : Code) :
    Mirrors config relaxed (install slot code) (install slot code) := by
  intro bench strict installed bench' run
  unfold install at run ⊢
  cases shared : (if bench.sharing then bench.recorded.find? (·.1 = code) else none) with
  | some entry =>
      have same : (if (bench.under relaxed).sharing then
          (bench.under relaxed).recorded.find? (·.1 = code) else none) = some entry := shared
      simp only [shared] at run
      simp only [same]
      cases run
      exact ⟨⟨strict.same, strict.nesting, strict.builders⟩, rfl⟩
  | none =>
      have same : (if (bench.under relaxed).sharing then
          (bench.under relaxed).recorded.find? (·.1 = code) else none) = none := shared
      simp only [shared] at run
      simp only [same]
      cases fills : bench.program.install? slot code with
      | none =>
          simp only [fills] at run
          split at run <;> cases run
      | some program =>
          have fills' : (bench.under relaxed).program.install? slot code = some program := fills
          simp only [fills] at run
          simp only [fills']
          cases run
          exact ⟨⟨strict.same, strict.nesting, strict.builders⟩, rfl⟩

/-- What is installed after every check is installed in the same way without them. -/
theorem mirrors_installUnit (relaxes : config.RelaxedBy relaxed) (slot : UInt32)
    {builder : Builder} (checks : builder.Checks) :
    Mirrors config relaxed (installUnit slot builder)
      (installUnit slot (builder.under relaxed.checkStack)) := by
  unfold installUnit
  cases finished : builder.finish with
  | error error => exact .throws
  | ok code =>
      rw [checks.finish finished]
      refine .get fun bench strict => ?_
      have verifies : bench.config.verifyUnits = true := strict.same ▸ relaxes.verifies
      have installs := mirrors_install relaxed slot code bench strict
      rw [if_pos verifies]
      cases verified : code.verify with
      | error error => exact Ensures.stop Ensures.throws
      | ok most =>
          refine installs.mono fun installed bench' ⟨strict, again⟩ => ⟨strict, ?_⟩
          split
          · exact again
          · exact again

theorem mirrors_closeUnit (relaxes : config.RelaxedBy relaxed) (handle : UnitHandle)
    (kind : UnitKind) :
    Mirrors config relaxed (closeUnit handle kind) (closeUnit handle kind) := by
  intro bench strict installed bench' run
  unfold closeUnit at run ⊢
  rw [under_currentLine]
  cases closed : bench.units.close handle kind bench.currentLine with
  | error error =>
      simp only [closed] at run
      cases run
  | ok result =>
      obtain ⟨unit, units⟩ := result
      obtain ⟨-, -, -, hunits, same⟩ := UnitStack.close_ok closed
      have left : Strict config { bench with units } :=
        ⟨strict.same, same ▸ strict.nesting, fun other member =>
          strict.builders other (hunits ▸ List.mem_cons_of_mem _ member)⟩
      have closed' : (bench.under relaxed).units.close handle kind bench.currentLine =
          .ok (unit.under relaxed.checkStack, units.under relaxed) := UnitStack.close_under closed
      simp only [closed] at run
      simp only [closed']
      cases payload : unit.payload with
      | none =>
          simp only [payload] at run
          cases run
      | some recording =>
          obtain ⟨slot, builder⟩ := recording
          have checks : builder.Checks :=
            strict.builders unit (hunits ▸ List.mem_cons_self ..) _ payload
          simp only [payload] at run
          simp only [OpenUnit.under, payload, Option.map_some, Recording.under]
          cases installs : installUnit slot builder { bench with units } with
          | error error bench₁ =>
              simp only [installs] at run
              cases run
          | ok value bench₁ =>
              simp only [installs] at run
              cases run
              obtain ⟨strict', again⟩ := mirrors_installUnit relaxes slot checks _ left _ _ installs
              change installUnit slot (builder.under relaxed.checkStack)
                { bench.under relaxed with units := units.under relaxed } = _ at again
              exact ⟨strict', by rw [again]⟩

end Bench

end BlockScript
