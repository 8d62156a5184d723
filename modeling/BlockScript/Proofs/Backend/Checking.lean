import BlockScript.Proofs.Backend.Issued
import BlockScript.Proofs.Backend.Relaxed

/-!
# Turning the check of stacks on

A bench that does not check its stacks goes on where one that checks them fails. But an operation
that finds its operands does the same on both. So whatever was done without checks is done again
with them, as long as nothing was taken from an empty stack and every unit was closed with one
value. A unit that is about to close with more or fewer values is first brought to one.
-/

namespace BlockScript

/-! ## Computations that are repeated -/

section Repeats

variable {ε σ α β : Type}

/-- When the first computation succeeds, the second one does the same in the state under a map. -/
def Repeats (image : σ → σ) (first second : EStateM ε σ α) (state : σ) : Prop :=
  Ensures first state fun value state' => second (image state) = .ok value (image state')

namespace Repeats

variable {image : σ → σ} {first second : EStateM ε σ α} {state : σ}

theorem pure (value : α) :
    Repeats image (Pure.pure value : EStateM ε σ α) (Pure.pure value) state :=
  Ensures.pure rfl

/-- What comes next starts where both computations have got to. -/
theorem bind {next next' : α → EStateM ε σ β} (h : Repeats image first second state)
    (rest : ∀ value state', first state = .ok value state' →
      second (image state) = .ok value (image state') →
      Repeats image (next value) (next' value) state') :
    Repeats image (first >>= next) (second >>= next') state := by
  intro value' state'' run
  obtain ⟨value, state', begun, run⟩ := run_of_bind run
  have again := h value state' begun
  exact (run_bind_ok again).trans (rest value state' begun again value' state'' run)

theorem get {next next' : σ → EStateM ε σ α}
    (h : Repeats image (next state) (next' (image state)) state) :
    Repeats image (MonadStateOf.get >>= next) (MonadStateOf.get >>= next') state :=
  h

theorem modifies {f f' : σ → σ} (same : f' (image state) = image (f state)) :
    Repeats image (modify f : EStateM ε σ Unit) (modify f') state :=
  Ensures.modifies (congrArg (EStateM.Result.ok ()) same)

/-- What fails need not be repeated. -/
theorem throws {error : ε} : Repeats image (throw error : EStateM ε σ α) second state :=
  Ensures.throws

theorem ite {c : Prop} [Decidable c] {yes no yes' no' : EStateM ε σ α}
    (h₁ : c → Repeats image yes yes' state) (h₂ : ¬c → Repeats image no no' state) :
    Repeats image (if c then yes else no) (if c then yes' else no') state := by
  by_cases h : c
  · rw [if_pos h, if_pos h]
    exact h₁ h
  · rw [if_neg h, if_neg h]
    exact h₂ h

end Repeats

end Repeats

/-! ## Builders -/

namespace Builder

variable {builder builder' : Builder}

/-- An operation that finds its operands is appended whether the builder is strict or not. -/
theorem emit_under {operation : String} {op : Op} (h : builder.emit operation op = .ok builder')
    (enough : op.pops ≤ builder.depth) (strict : Bool) :
    (builder.under strict).emit operation op = .ok (builder'.under strict) := by
  obtain ⟨stack, consumed, rfl⟩ := emit_ok h
  cases (if_pos enough).symm.trans consumed
  have again : (builder.under strict).stack.consume operation op.pops (builder.under strict).line =
      .ok { builder.stack.under strict with depth := builder.stack.depth - op.pops } :=
    if_pos enough
  exact emit_eq again

/-- Under which name an operation is appended only matters if it fails. -/
theorem emit_named {operation : String} {op : Op} (h : builder.emit operation op = .ok builder')
    (enough : op.pops ≤ builder.depth) (other : String) : builder.emit other op = .ok builder' := by
  obtain ⟨stack, consumed, rfl⟩ := emit_ok h
  cases (if_pos enough).symm.trans consumed
  exact emit_eq (if_pos enough)

/-- A unit that has one value is closed in the same way whether its builder is strict or not. -/
theorem finish_under (one : builder.depth = 1) (strict : Bool) :
    (builder.under strict).finish = builder.finish := by
  obtain ⟨closed, run, -⟩ := emit_enough "end of unit"
    (show Op.ret.pops ≤ builder.depth from Nat.le_of_eq one.symm)
  have again := emit_under run (Nat.le_of_eq one.symm) strict
  have few (builder : Builder) (one : builder.depth = 1) :
      builder.stack.surplus builder.describe builder.line = .ok 0 := if_pos (Nat.le_of_eq one)
  have valued (builder : Builder) (one : builder.depth = 1) : builder.depth ≠ 0 := by omega
  simp only [finish, few builder one, few _ (under_depth.trans one), bind, Except.bind, emitTimes,
    valued builder one, valued _ (under_depth.trans one), if_false, Pure.pure, Except.pure, run, again]
  rfl

/-- A unit without a value is closed as if nil had been pushed onto its stack. -/
theorem finish_empty {code : Code} (empty : builder.depth = 0) (h : builder.finish = .ok code)
    (operation : String) : ∃ builder', builder.emit operation .pushNil = .ok builder' ∧
      builder'.depth = 1 ∧ builder'.line = builder.line ∧ builder'.finish = .ok code := by
  obtain ⟨valued, pushed, depth, -⟩ := emit_enough "end of unit"
    (show Op.pushNil.pops ≤ builder.depth from Nat.zero_le _)
  have one : valued.depth = 1 := by rw [depth, empty]; rfl
  refine ⟨valued, emit_named pushed (Nat.zero_le _) operation, one, ?_, ?_⟩
  · obtain ⟨-, -, rfl⟩ := emit_ok pushed
    rfl
  · have none : builder.stack.surplus builder.describe builder.line = .ok 0 :=
      if_pos (Nat.le_trans (Nat.le_of_eq empty) (Nat.zero_le 1))
    have few : valued.stack.surplus valued.describe valued.line = .ok 0 :=
      if_pos (Nat.le_of_eq one)
    have filled : valued.depth ≠ 0 := by omega
    rw [← h]
    simp only [finish, none, few, bind, Except.bind, emitTimes, if_pos empty, pushed, if_neg filled,
      Pure.pure, Except.pure]

/-- A unit with more than one value is closed as if its topmost value had been dropped. -/
theorem finish_surplus {code : Code} {height : Nat} (more : builder.depth = height + 2)
    (h : builder.finish = .ok code) (operation : String) :
    ∃ builder', builder.emit operation .pop = .ok builder' ∧ builder'.depth = height + 1 ∧
      builder'.line = builder.line ∧ builder'.finish = .ok code := by
  obtain ⟨surplus, popped, valued, closed, hsurplus, hpopped, hvalued, hclosed, rfl⟩ := finish_ok h
  have lenient : builder.stack.strict = false ∧ surplus = height + 1 := by
    have many : ¬builder.stack.depth ≤ 1 := by
      change ¬builder.depth ≤ 1
      omega
    unfold DepthTracker.surplus at hsurplus
    rw [if_neg many] at hsurplus
    cases strict : builder.stack.strict with
    | true =>
        rw [strict] at hsurplus
        cases hsurplus
    | false =>
        rw [strict] at hsurplus
        have same := Except.ok.inj hsurplus
        refine ⟨rfl, same.symm.trans ?_⟩
        change builder.depth - 1 = _
        omega
  obtain ⟨lenient, rfl⟩ := lenient
  obtain ⟨dropped, emits, rest⟩ := Verifier.bind_ok hpopped
  have enough : Op.pop.pops ≤ builder.depth := by
    change 1 ≤ _
    omega
  obtain ⟨stack, consumed, same⟩ := emit_ok emits
  cases (if_pos enough).symm.trans consumed
  have depth : dropped.depth = height + 1 := by
    rw [same]
    change builder.depth - 1 + 0 = _
    omega
  refine ⟨dropped, emit_named emits enough operation, depth, by rw [same], ?_⟩
  have fewer : dropped.stack.surplus dropped.describe dropped.line = .ok height := by
    unfold DepthTracker.surplus
    change (if dropped.depth ≤ 1 then _ else _) = _
    by_cases one : dropped.depth ≤ 1
    · rw [if_pos one]
      congr 1
      omega
    · have still : dropped.stack.strict = false := by
        rw [same]
        exact lenient
      rw [if_neg one, still]
      change Except.ok (dropped.depth - 1) = _
      congr 1
      omega
  unfold finish
  simp only [fewer, rest, bind, Except.bind]
  rcases hvalued with ⟨empty, pushes⟩ | ⟨filled, rfl⟩
  · simp only [if_pos empty, pushes, hclosed, Pure.pure, Except.pure]
  · simp only [if_neg filled, hclosed, Pure.pure, Except.pure]

end Builder

/-! ## Benches -/

/-- The same configuration with the check of stacks turned on. -/
def Config.checking (config : Config) : Config := { config with checkStack := true }

/-- The same open units with the check of stacks turned on. -/
def UnitStack.checking (stack : UnitStack (Option Recording)) : UnitStack (Option Recording) :=
  { stack with units := stack.units.map (·.under true) }

/-- The same bench with the check of stacks turned on. -/
def Bench.checking (bench : Bench) : Bench :=
  { bench with config := bench.config.checking, units := bench.units.checking }

namespace Bench

variable {bench bench' : Bench} {α : Type}

@[simp] theorem checking_size : bench.checking.units.size = bench.units.size :=
  List.length_map ..

@[simp] theorem checking_isEmpty : bench.checking.units.units.isEmpty = bench.units.units.isEmpty :=
  List.isEmpty_map

@[simp] theorem checking_recording? :
    bench.checking.recording? = bench.recording?.map (·.under true) :=
  @under_recording? bench.config.checking bench

@[simp] theorem checking_currentLine : bench.checking.currentLine = bench.currentLine :=
  @under_currentLine bench.config.checking bench

@[simp] theorem checking_blockName : bench.checking.blockName = bench.blockName :=
  @under_blockName bench.config.checking bench

@[simp] theorem checking_reachableDepth :
    bench.checking.units.reachableDepth = bench.units.reachableDepth :=
  @under_reachableDepth bench.config.checking bench

@[simp] theorem checking_insideMethod :
    bench.checking.units.insideMethod = bench.units.insideMethod :=
  @under_insideMethod bench.config.checking bench

theorem checking_found {recording : Recording} (found : bench.recording? = some recording) :
    bench.checking.recording? = some (recording.under true) := by
  rw [checking_recording?, found]
  rfl

/-- Another builder in the innermost recording. -/
theorem checking_setBuilder {recording : Recording} (found : bench.recording? = some recording)
    (builder : Builder) :
    bench.checking.setBuilder (builder.under true) = (bench.setBuilder builder).checking := by
  obtain ⟨unit, outer, hunits, payload⟩ := recording?_eq_some.mp found
  obtain ⟨_, ⟨_, _, units, _, _⟩, _, _, _, _⟩ := bench
  obtain ⟨_, _, _, payload⟩ := unit
  cases hunits
  cases payload
  rfl

theorem setBuilder_same {recording : Recording} (found : bench.recording? = some recording) :
    bench.setBuilder recording.builder = bench := by
  obtain ⟨unit, outer, hunits, payload⟩ := recording?_eq_some.mp found
  obtain ⟨_, ⟨_, _, units, _, _⟩, _, _, _, _⟩ := bench
  obtain ⟨_, _, _, payload⟩ := unit
  cases hunits
  cases payload
  rfl

theorem setBuilder_setBuilder (builder builder' : Builder) :
    (bench.setBuilder builder).setBuilder builder' = bench.setBuilder builder' := by
  obtain ⟨_, ⟨_, _, units, _, _⟩, _, _, _, _⟩ := bench
  cases units with
  | nil => rfl
  | cons unit outer =>
      obtain ⟨_, _, _, payload⟩ := unit
      cases payload <;> rfl

/-- The builder that a unit begins with checks its stack. -/
theorem checking_opening (kind : UnitKind) (name : String) (arity localCount : Nat)
    (locals : List String) : bench.checking.opening kind name arity localCount locals =
      (bench.opening kind name arity localCount locals).under true := by
  unfold opening
  rw [checking_currentLine]
  cases bench.currentLine <;> rfl

/-! ### Operations of a bench -/

theorem repeats_intern (constant : Constant) :
    Repeats checking (intern constant) (intern constant) bench := by
  refine ensures_intern.mono ?_
  rintro position _ ⟨constants, interned, rfl⟩
  have again : bench.checking.program.constants.intern constant
      bench.checking.config.maxPoolEntries = .ok (position, constants) := interned
  unfold intern
  rw [again]
  rfl

/-- What comes after a look at the innermost recording. -/
theorem repeats_target {next next' : Builder → BenchM α}
    (h : ∀ recording, bench.recording? = some recording →
      Repeats checking (next recording.builder) (next' (recording.builder.under true)) bench) :
    Repeats checking (target >>= next) (target >>= next') bench := by
  refine ensures_target.bind ?_
  rintro builder _ ⟨rfl, slot, found⟩
  exact (h _ found).mono fun value bench' again =>
    (run_bind_ok (target_eq (checking_found found))).trans again

theorem repeats_checkScopeDepth (depth : Nat) :
    Repeats checking (checkScopeDepth depth) (checkScopeDepth depth) bench := by
  refine .get ?_
  rw [checking_reachableDepth]
  exact .ite (fun _ => .throws) fun _ => .pure ()

/-- The innermost recording has that many values at least. -/
def Offers (bench : Bench) (count : Nat) : Prop :=
  ∀ recording, bench.recording? = some recording → count ≤ recording.builder.depth

theorem repeats_emit {operation : String} {op : Op} (enough : bench.Offers op.pops) :
    Repeats checking (emit operation op) (emit operation op) bench := by
  refine ensures_emit.mono ?_
  rintro _ _ ⟨slot, builder, builder', found, emits, rfl⟩
  have appended : (do return ((), ← (builder.under true).emit operation op)) =
      Except.ok ((), builder'.under true) := by
    rw [Builder.emit_under emits (enough _ found) true]
    rfl
  rw [← checking_setBuilder found]
  exact build_eq (checking_found found) appended

theorem repeats_setLine (line : UInt32) :
    Repeats checking (setLine line) (setLine line) bench := by
  refine repeats_target fun recording found => ?_
  refine (ensures_modifyBuilder found _).mono ?_
  rintro _ _ rfl
  rw [modifyBuilder_eq (checking_found found), ← checking_setBuilder found]
  rfl

/-- A yield that finds its argument passes it in every mode. -/
theorem repeats_emitYield {operation : String} {hasArgs : Bool} (enough : bench.Offers hasArgs.toNat) :
    Repeats checking (emitYield operation hasArgs) (emitYield operation hasArgs) bench := by
  by_cases inside : bench.units.insideMethod = true
  · cases found : bench.recording? with
    | none =>
        refine .get ?_
        rw [checking_insideMethod, inside]
        refine repeats_target fun recording found' => ?_
        cases found.symm.trans found'
    | some recording =>
        have emits := emitYield_eq found (enough _ found) operation
        have emits' := emitYield_eq (checking_found found)
          (show hasArgs.toNat ≤ (recording.builder.under true).depth from enough _ found) operation
        rw [if_pos inside] at emits
        rw [if_pos (checking_insideMethod.trans inside)] at emits'
        have operand : bench.Offers (Op.yield (if hasArgs then 1 else 0)).pops := by
          cases hasArgs <;> exact enough
        intro value bench' run
        rw [emits] at run
        rw [emits']
        exact repeats_emit operand value bench' run
  · refine .get ?_
    rw [checking_insideMethod]
    refine .ite (fun _ => Ensures.stop Ensures.throws) fun outside => ?_
    simp [inside] at outside

theorem Offers.congr {count : Nat} (offers : bench.Offers count)
    (same : bench'.recording? = bench.recording?) : bench'.Offers count :=
  fun recording found => offers recording (same ▸ found)

theorem repeats_emitPooled {operation : String} {constant : Constant} {op : UInt32 → Op} {count : Nat}
    (pops : ∀ position, (op position).pops = count) (enough : bench.Offers count) :
    Repeats checking (emitPooled operation constant op) (emitPooled operation constant op) bench := by
  refine repeats_target fun _ _ => (repeats_intern constant).bind fun position bench' run _ => ?_
  obtain ⟨constants, -, rfl⟩ := ensures_intern position bench' run
  refine repeats_emit ?_
  rw [pops position]
  exact enough.congr rfl

theorem repeats_emitSend {operation name : String} {shape : Invocation} (few : shape.argc < 2 ^ 31)
    (block : Option UInt32) (enough : bench.Offers shape.consumed) :
    Repeats checking (emitSend operation name shape block) (emitSend operation name shape block)
      bench := by
  refine repeats_target fun _ _ => (repeats_intern _).bind fun position bench' run _ => ?_
  obtain ⟨constants, -, rfl⟩ := ensures_intern position bench' run
  refine repeats_emit ?_
  rw [(shape.straight_send few position block).pops]
  exact enough.congr rfl

theorem repeats_emitPrimitive {p : Primitive} (enough : bench.Offers p.taken) :
    Repeats checking (emitPrimitive p) (emitPrimitive p) bench := by
  have acts := p.acts_form
  unfold emitPrimitive
  cases form : p.form with
  | op single =>
      obtain ⟨-, straight⟩ : _ ∧ _ := form ▸ acts
      exact repeats_emit (straight.pops ▸ enough)
  | pooled constant make =>
      obtain ⟨-, straight⟩ : _ ∧ _ := form ▸ acts
      exact repeats_emitPooled (fun position => (straight position).pops) enough
  | access index depth assign =>
      obtain ⟨-, straight⟩ : _ ∧ _ := form ▸ acts
      refine (repeats_checkScopeDepth depth).bind fun _ bench' run _ => ?_
      obtain ⟨rfl, -⟩ := ensures_checkScopeDepth _ _ run
      exact repeats_emit (straight.pops ▸ enough)
  | aliasMethod newName oldName =>
      exact repeats_target fun _ _ => (repeats_intern _).bind fun _ _ _ _ =>
        (repeats_intern _).bind fun _ _ _ _ => repeats_emit fun _ _ => Nat.zero_le _
  | yield hasArgs =>
      obtain ⟨-, taken, -⟩ : _ ∧ _ ∧ _ := form ▸ acts
      exact repeats_emitYield (taken ▸ enough)
  | line line => exact (repeats_setLine line).bind fun _ _ _ _ => .modifies rfl

/-! ### Units -/

theorem ensures_enter : Ensures enter bench fun _ bench' => bench' = bench.enterRegion ∧
    bench.units.size + bench.units.nesting + 1 ≤ bench.units.maxNesting := by
  intro value bench' run
  unfold enter at run
  rw [UnitStack.enter_eq] at run
  by_cases room : bench.units.size + bench.units.nesting + 1 ≤ bench.units.maxNesting
  · simp only [if_pos room] at run
    cases run
    exact ⟨rfl, room⟩
  · simp only [if_neg room] at run
    cases run

theorem repeats_enter : Repeats checking enter enter bench := by
  refine ensures_enter.mono ?_
  rintro _ _ ⟨rfl, room⟩
  have still : bench.checking.units.size + bench.checking.units.nesting + 1 ≤
      bench.checking.units.maxNesting := by
    rw [checking_size]
    exact room
  unfold enter
  simp only [UnitStack.enter_eq, if_pos still]
  rfl

theorem repeats_openUnit (kind : UnitKind) (name : String) (arity localCount : Nat)
    (locals : List String) : Repeats checking (openUnit kind name arity localCount locals)
      (openUnit kind name arity localCount locals) bench := by
  refine ensures_opens.mono ?_
  rintro handle _ ⟨units, room, opens, rfl⟩
  have within : bench.units.size + bench.units.nesting + 1 ≤ bench.units.maxNesting := by
    rw [UnitStack.open_eq] at opens
    by_contra full
    rw [if_neg full] at opens
    cases opens
  obtain ⟨rfl, rfl⟩ := UnitStack.open_ok opens
  have again : bench.checking.units.open kind name (some ⟨bench.checking.program.code.size.toUInt32,
      bench.checking.opening kind name arity localCount locals⟩) = .ok (⟨bench.units.owner,
        bench.units.nextId⟩, UnitStack.checking { bench.units with
          nextId := bench.units.nextId + 1
          units := ⟨bench.units.nextId, kind, name, some ⟨bench.program.code.size.toUInt32,
            bench.opening kind name arity localCount locals⟩⟩ :: bench.units.units }) := by
    have still : bench.checking.units.size + bench.checking.units.nesting + 1 ≤
        bench.checking.units.maxNesting := by
      rw [checking_size]
      exact within
    rw [UnitStack.open_eq, if_pos still, checking_opening]
    rfl
  have room' : bench.checking.program.code.size < bench.checking.config.maxPoolEntries := room
  rw [openUnit_eq room', again]
  rfl

theorem repeats_install (slot : UInt32) (code : Code) :
    Repeats checking (install slot code) (install slot code) bench := by
  intro installed bench' run
  unfold install at run ⊢
  cases shared : (if bench.sharing then bench.recorded.find? (·.1 = code) else none) with
  | some entry =>
      have same : (if bench.checking.sharing then
          bench.checking.recorded.find? (·.1 = code) else none) = some entry := shared
      simp only [shared] at run
      simp only [same]
      cases run
      rfl
  | none =>
      have same : (if bench.checking.sharing then
          bench.checking.recorded.find? (·.1 = code) else none) = none := shared
      simp only [shared] at run
      simp only [same]
      cases fills : bench.program.install? slot code with
      | none =>
          simp only [fills] at run
          split at run <;> cases run
      | some program =>
          have fills' : bench.checking.program.install? slot code = some program := fills
          simp only [fills] at run
          simp only [fills']
          cases run
          rfl

/-- What is installed is what the builder is finished as. -/
theorem repeats_installUnit (slot : UInt32) {builder builder' : Builder} {code : Code}
    (finished : builder.finish = .ok code) (again : builder'.finish = .ok code) :
    Repeats checking (installUnit slot builder) (installUnit slot builder') bench := by
  unfold installUnit
  rw [finished, again]
  refine .get (.ite (fun _ => ?_) fun _ => repeats_install slot code)
  cases code.verify with
  | error error => exact Ensures.stop Ensures.throws
  | ok most => exact repeats_install slot code

/-- A unit that is closed was the innermost one, and has been finished and installed. -/
theorem closeUnit_ok {handle : UnitHandle} {kind : UnitKind} {installed : UInt32}
    {recording : Recording} (found : bench.recording? = some recording)
    (run : closeUnit handle kind bench = .ok installed bench') :
    ∃ unit outer code, bench.units.units = unit :: outer ∧ unit.payload = some recording ∧
      bench.units.owner = handle.owner ∧ unit.id = handle.id ∧ unit.kind = kind ∧
      recording.builder.finish = .ok code ∧ installUnit recording.slot recording.builder
        { bench with units := { bench.units with units := outer } } = .ok installed bench' := by
  obtain ⟨unit, outer, hunits, payload⟩ := recording?_eq_some.mp found
  obtain ⟨slot, builder⟩ := recording
  unfold closeUnit at run
  cases closed : bench.units.close handle kind bench.currentLine with
  | error error =>
      simp only [closed] at run
      cases run
  | ok result =>
      obtain ⟨unit', units⟩ := result
      obtain ⟨owner, id, kind, units', same⟩ := UnitStack.close_ok closed
      obtain ⟨rfl, rest⟩ := List.cons.inj (hunits.symm.trans units')
      rw [← rest] at same
      subst same
      simp only [closed, payload] at run
      cases installs : installUnit slot builder
          { bench with units := { bench.units with units := outer } } with
      | error error bench₁ =>
          simp only [installs] at run
          cases run
      | ok value bench₁ =>
          simp only [installs] at run
          cases run
          obtain ⟨code, finished, -⟩ := (ends_installUnit slot builder).ok installs
          exact ⟨unit, outer, code, hunits, payload, owner.symm, id, kind, finished, installs⟩

/-- The innermost unit is closed when it can be finished and installed. -/
theorem closeUnit_eq {handle : UnitHandle} {kind : UnitKind} {installed : UInt32}
    {unit : OpenUnit (Option Recording)} {outer : List (OpenUnit (Option Recording))}
    {recording : Recording} (hunits : bench.units.units = unit :: outer)
    (payload : unit.payload = some recording) (owner : bench.units.owner = handle.owner)
    (id : unit.id = handle.id) (same : unit.kind = kind)
    (installs : installUnit recording.slot recording.builder
      { bench with units := { bench.units with units := outer } } = .ok installed bench') :
    closeUnit handle kind bench = .ok installed bench' := by
  subst same
  obtain ⟨slot, builder⟩ := recording
  unfold closeUnit
  simp only [UnitStack.close_eq hunits owner id, payload, installs]

/-- A unit is closed in the same way with another builder that is finished as the same code. -/
theorem repeats_closeUnit {handle : UnitHandle} {kind : UnitKind} {recording : Recording}
    {builder : Builder} {code : Code} (found : bench.recording? = some recording)
    (finished : recording.builder.finish = .ok code) (again : builder.finish = .ok code)
    (one : builder.depth = 1) {installed : UInt32}
    (run : closeUnit handle kind bench = .ok installed bench') :
    closeUnit handle kind (bench.setBuilder builder).checking = .ok installed bench'.checking := by
  obtain ⟨unit, outer, _, hunits, payload, owner, id, rfl, -, installs⟩ := closeUnit_ok found run
  have set := setBuilder_units hunits payload builder
  have hunits' : (bench.setBuilder builder).checking.units.units =
      { unit with payload := some ⟨recording.slot, builder.under true⟩ } ::
        outer.map (·.under true) := congrArg (List.map _) set
  refine closeUnit_eq hunits' rfl ?_ id rfl ?_
  · exact (bench.setBuilder_rest builder).2.1.trans owner
  · have same := repeats_installUnit recording.slot finished
      ((Builder.finish_under one true).trans again) installed bench' installs
    refine Eq.trans (congrArg _ ?_) same
    obtain ⟨nextId, owner, nesting, maxNesting⟩ := bench.setBuilder_rest builder
    change Bench.mk _ ⟨(bench.setBuilder builder).units.owner, (bench.setBuilder builder).units.nextId,
      _, (bench.setBuilder builder).units.nesting, (bench.setBuilder builder).units.maxNesting⟩
      _ _ _ _ = _
    rw [nextId, owner, nesting, maxNesting]
    rfl

end Bench

/-! ## Sessions -/

section Sessions

variable {β υ α γ : Type}

/-- The same session with the check of stacks turned on. -/
def Session.checking (session : Session β υ) : Session β υ :=
  { session with bench := session.bench.checking }

namespace Work

variable {session : Session β υ} {first second : Work β υ α}

theorem repeats_onBench {action action' : BenchM α}
    (h : Repeats Bench.checking action action' session.bench) :
    Repeats Session.checking (onBench action : Work β υ α) (onBench action') session :=
  ensures_onBench (h.mono fun _ _ again => onBench_ok again)

theorem repeats_openUnit (kind : UnitKind) (name : String) (arity localCount : Nat)
    (locals : List String) : Repeats Session.checking
      (onBench (Bench.openUnit kind name arity localCount locals) : Work β υ UnitHandle)
      (onBench (Bench.openUnit kind name arity localCount locals)) session :=
  repeats_onBench (Bench.repeats_openUnit kind name arity localCount locals)

/-- What comes after a look at the bench. -/
theorem repeats_bench {next next' : Bench → Work β υ γ}
    (h : Repeats Session.checking (next session.bench) (next' session.bench.checking) session) :
    Repeats Session.checking (bench >>= next) (bench >>= next') session :=
  h

theorem repeats_modifyBench {f : Bench → Bench}
    (same : f session.bench.checking = (f session.bench).checking) :
    Repeats Session.checking (modifyBench f : Work β υ Unit) (modifyBench f) session :=
  .modifies (congrArg (fun bench => Session.mk bench session.backend session.client) same)

theorem repeats_violate {kind : Violation} :
    Repeats Session.checking (violate kind : Work β υ α) second session :=
  Ensures.get Ensures.throws

theorem repeats_cleaning (h : Repeats Session.checking first second session)
    (cleanUp cleanUp' : Bench → Bench) :
    Repeats Session.checking (first.cleaning cleanUp) (second.cleaning cleanUp') session :=
  ensures_cleaning (h.mono fun value session' again => by simp only [cleaning, again])

/-- A region one level deeper. -/
theorem repeats_nested
    (h : Repeats Session.checking first second
      { session with bench := session.bench.enterRegion }) :
    Repeats Session.checking (nested first) (nested second) session := by
  have enters : Repeats Session.checking (onBench Bench.enter : Work β υ Unit) (onBench Bench.enter)
      session := repeats_onBench Bench.repeats_enter
  refine enters.bind fun _ entered run _ => ?_
  obtain ⟨_, ⟨rfl, -⟩, rfl⟩ := ensures_runs Bench.ensures_enter _ _ run
  refine repeats_bench ((repeats_cleaning h _ _).bind fun value left _ _ => ?_)
  have exits : Repeats Session.checking (modifyBench Bench.exitRegion : Work β υ Unit)
      (modifyBench Bench.exitRegion) left := repeats_modifyBench rfl
  exact exits.bind fun _ _ _ _ => .pure value

/-- What comes after it was found that as many units are open as before. -/
theorem repeats_ensureSameUnit (construct : String) (before : Nat) {next next' : Work β υ α}
    (h : Repeats Session.checking next next' session) :
    Repeats Session.checking (do ensureSameUnit construct before; next)
      (do ensureSameUnit construct before; next') session := by
  have same : Repeats Session.checking (ensureSameUnit construct before : Work β υ Unit)
      (ensureSameUnit construct before) session := by
    refine repeats_bench ?_
    rw [Bench.checking_size]
    exact .ite (fun _ => repeats_violate) fun _ => .pure ()
  have still : Ensures (ensureSameUnit construct before : Work β υ Unit) session
      fun _ session' => session' = session :=
    Ensures.get (.ite (fun _ => .get .throws) fun _ => .pure rfl)
  refine same.bind fun _ session' run _ => ?_
  obtain rfl := still _ _ run
  exact h

end Work

end Sessions

end BlockScript
