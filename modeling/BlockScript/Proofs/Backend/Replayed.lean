import BlockScript.Proofs.Backend.Bodies
import BlockScript.Proofs.Backend.Reached
import BlockScript.Proofs.Backend.Secured

/-!
# Recording the same again

The same computation records twice. Between the two recordings constants may have joined the
pool and code objects may have been installed, but nothing that the first recording refers to was
given back. If both succeed, then they append the same operations: a constant is found where the
first recording left it, and what decides about a jump or a check is in the builder.

`Rerun.Replays` says this of a computation in the unit that is open, and that it leads on in any
case. It holds of what operations are put together from.
-/

namespace BlockScript

variable {υ α γ : Type}

/-- A step on the bench has succeeded. -/
theorem Work.run_of_onBench {β : Type} {action : BenchM α} {session after : Session β υ} {value : α}
    (run : Work.onBench action session = .ok value after) :
    action session.bench = .ok value after.bench := by
  have ran : Ensures (Work.onBench action) session fun value after =>
      action session.bench = .ok value after.bench := Work.ensures_onBench fun _ _ => id
  exact ran _ _ run

/-! ## What survives -/

namespace Bench

/-- The slot that an equal code object is given. -/
def shared? (bench : Bench) (code : Code) : Option UInt32 :=
  (bench.recorded.find? (·.1 = code)).map (·.2)

/-- The slot holds a code object that may be shared, and later it still does. -/
def Survives (bench later : Bench) (slot : UInt32) : Prop :=
  ∃ entry ∈ bench.recorded, bench.shared? entry.1 = some slot ∧ later.shared? entry.1 = some slot

instance (bench later : Bench) (slot : UInt32) : Decidable (bench.Survives later slot) :=
  inferInstanceAs (Decidable (∃ entry ∈ bench.recorded, bench.shared? entry.1 = some slot ∧
    later.shared? entry.1 = some slot))

variable {bench later : Bench} {code : Code} {slot : UInt32}

theorem mem_of_shared? (h : bench.shared? code = some slot) : (code, slot) ∈ bench.recorded := by
  obtain ⟨entry, found, rfl⟩ := Option.map_eq_some_iff.mp h
  have same := List.find?_some found
  exact of_decide_eq_true same ▸ List.mem_of_find?_eq_some found

theorem survives_iff : bench.Survives later slot ↔
    ∃ code, bench.shared? code = some slot ∧ later.shared? code = some slot := by
  constructor
  · rintro ⟨entry, -, here, there⟩
    exact ⟨entry.1, here, there⟩
  · rintro ⟨code, here, there⟩
    exact ⟨(code, slot), mem_of_shared? here, here, there⟩

end Bench

/-- What the innermost recording refers to survives. -/
def Event.Survives (event : Event Interpreter) (later : Bench) : Prop :=
  ∀ recording ∈ event.bench.recording?, ∀ op ∈ recording.builder.code.ops, ∀ slot ∈ op.codeRef?,
    event.bench.Survives later slot

instance (event : Event Interpreter) (later : Bench) : Decidable (event.Survives later) :=
  -- Only the slots that are referred to are looked at, of all that there may be.
  have _ (op : Op) : Decidable (∀ slot ∈ op.codeRef?, event.bench.Survives later slot) :=
    Option.decidableForallMem _
  inferInstanceAs (Decidable (∀ recording ∈ event.bench.recording?,
    ∀ op ∈ recording.builder.code.ops, ∀ slot ∈ op.codeRef?, event.bench.Survives later slot))

namespace Interpreter

/-! ## Two recordings side by side -/

/-- A second recording: the bench that it begins on, how many events there were when the first
one began, and whether a line was current then. -/
structure Rerun where
  start : Bench
  tabled : start.Tabled
  since : Nat
  lined : Prop

namespace Rerun

/-- Up to this state of the first recording, all that was recorded is still there when the second
one begins. -/
structure Kept (rerun : Rerun) (session : Watched υ) : Prop where
  pool : session.bench.KeepsPool rerun.start
  survives : ∀ event ∈ session.client.events, rerun.since ≤ event.since →
    event.Survives rerun.start

/-- The benches of the two recordings. Only the second one is known to share what was there when
it began. If no line was current at first, then the last line that was set is the same. -/
structure Beside (rerun : Rerun) (first second : Bench) : Prop where
  config : second.config = first.config
  shares : first.sharing = true
  shares' : second.sharing = true
  pool : second.program.constants = rerun.start.program.constants
  shared : ∀ code slot, rerun.start.shared? code = some slot → second.shared? code = some slot
  size : rerun.start.program.code.size ≤ second.program.code.size
  line : rerun.lined ∨ second.line = first.line

end Rerun

/-- The innermost unit apart from its builder, and the units around it. -/
structure Sheet where
  id : Nat
  kind : UnitKind
  name : String
  slot : UInt32
  outer : List (OpenUnit (Option Recording))

/-- The innermost unit of the bench is this one, with that builder. -/
def Sheet.Shows (sheet : Sheet) (builder : Builder) (bench : Bench) : Prop :=
  bench.units.units = ⟨sheet.id, sheet.kind, sheet.name, some ⟨sheet.slot, builder⟩⟩ :: sheet.outer

section Sheet

variable {sheet : Sheet} {builder : Builder} {bench bench' : Bench}

theorem Sheet.Shows.found (h : sheet.Shows builder bench) :
    bench.recording? = some ⟨sheet.slot, builder⟩ :=
  Bench.recording?_eq_some.mpr ⟨_, _, h, rfl⟩

theorem Sheet.Shows.blockName (h : sheet.Shows builder bench) :
    bench.blockName = "block in " ++ sheet.name := by
  unfold Bench.blockName UnitStack.top?
  rw [h]
  rfl

theorem Sheet.Shows.setBuilder (h : sheet.Shows builder bench) (builder' : Builder) :
    sheet.Shows builder' (bench.setBuilder builder') :=
  Bench.setBuilder_units h rfl builder'

theorem Sheet.Shows.congr (h : sheet.Shows builder bench)
    (units : bench'.units.units = bench.units.units) : sheet.Shows builder bench' :=
  units.trans h

end Sheet

namespace Rerun

/-- Both recordings have come to the same in their innermost units. -/
structure Copies (rerun : Rerun) (sheet sheet' : Sheet) (builder : Builder)
    (first second : Bench) : Prop extends rerun.Beside first second where
  first : sheet.Shows builder first
  second : sheet'.Shows builder second
  name : sheet'.name = sheet.name
  lined : rerun.lined → builder.line.isSome

/-- Two sessions in which the recordings have come to the same, while the second one has not
begun before the first one. -/
structure Level (rerun : Rerun) (sheet sheet' : Sheet) (builder : Builder)
    (session again : Watched υ) : Prop where
  since : rerun.since ≤ session.client.events.length
  order : session.bench.InOrder
  order' : again.bench.InOrder
  copies : rerun.Copies sheet sheet' builder session.bench again.bench

/-- Wherever both computations succeed in sessions in which the same was recorded, they have the
same result and record the same, provided that nothing of what the first one refers to has been
given back. -/
structure Replays (rerun : Rerun) (action action' : Work Interpreter (Journal Interpreter υ) α) :
    Prop where
  leads : Moves Leads action
  leads' : Moves Leads action'
  replays : ∀ {sheet sheet' : Sheet} {builder : Builder} {session again after after' : Watched υ}
    {value value' : α}, rerun.Level sheet sheet' builder session again →
    action session = .ok value after → action' again = .ok value' after' → rerun.Kept after →
    value' = value ∧ ∃ builder', rerun.Copies sheet sheet' builder' after.bench after'.bench

variable {rerun : Rerun} {sheet sheet' : Sheet} {builder builder' : Builder}
  {first second first' second' : Bench} {session again after after' : Watched υ}

/-- What was kept in the end was kept before. -/
theorem Kept.earlier (h : rerun.Kept after) (leads : Leads session after) : rerun.Kept session := by
  obtain ⟨events, appended, -⟩ := leads.noted
  refine ⟨leads.reaches.keepsPool.trans h.pool, fun event member => h.survives event ?_⟩
  rw [appended]
  exact List.mem_append_right _ member

theorem Leads.length_le (leads : Leads session after) :
    session.client.events.length ≤ after.client.events.length := by
  obtain ⟨events, appended, -⟩ := leads.noted
  rw [appended, List.length_append]
  exact Nat.le_add_left ..

theorem Level.onward (h : rerun.Level sheet sheet' builder session again)
    (leads : Leads session after) (leads' : Leads again after')
    (copies : rerun.Copies sheet sheet' builder' after.bench after'.bench) :
    rerun.Level sheet sheet' builder' after after' where
  since := Nat.le_trans h.since (Leads.length_le leads)
  order := (leads.reaches.regards h.order).1
  order' := (leads'.reaches.regards h.order').1
  copies := copies

/-- Notes are taken of both. -/
theorem Level.note (h : rerun.Level sheet sheet' builder session again)
    (event event' : Event Interpreter) :
    rerun.Level sheet sheet' builder (session.note event) (again.note event') where
  since := Nat.le_succ_of_le h.since
  order := h.order
  order' := h.order'
  copies := h.copies

/-- Changes of the benches that neither open nor close a unit. -/
theorem Beside.follow (h : rerun.Beside first second) (config : first'.config = first.config)
    (config' : second'.config = second.config) (sharing : first'.sharing = first.sharing)
    (sharing' : second'.sharing = second.sharing)
    (pool : second'.program.constants = second.program.constants)
    (recorded : second'.recorded = second.recorded)
    (code : second'.program.code = second.program.code)
    (line : rerun.lined ∨ second'.line = first'.line) : rerun.Beside first' second' where
  config := config'.trans (h.config.trans config.symm)
  shares := sharing.trans h.shares
  shares' := sharing'.trans h.shares'
  pool := pool.trans h.pool
  shared code slot known := by
    have still := h.shared code slot known
    unfold Bench.shared? at still ⊢
    rwa [recorded]
  size := code ▸ h.size
  line := line

/-- Both builders are replaced by the same one. -/
theorem Copies.setBuilder (h : rerun.Copies sheet sheet' builder first second)
    (lined : builder.line.isSome → builder'.line.isSome) :
    rerun.Copies sheet sheet' builder' (first.setBuilder builder')
      (second.setBuilder builder') where
  toBeside := h.toBeside.follow rfl rfl rfl rfl rfl rfl rfl h.line
  first := h.first.setBuilder builder'
  second := h.second.setBuilder builder'
  name := h.name
  lined := lined ∘ h.lined

/-- The open units are left alone. -/
theorem Copies.follow (h : rerun.Copies sheet sheet' builder first second)
    (beside : rerun.Beside first' second') (units : first'.units.units = first.units.units)
    (units' : second'.units.units = second.units.units) :
    rerun.Copies sheet sheet' builder first' second' where
  toBeside := beside
  first := h.first.congr units
  second := h.second.congr units'
  name := h.name
  lined := h.lined

/-- Both levels of control flow are changed. -/
theorem Copies.nesting (h : rerun.Copies sheet sheet' builder first second) (one other : Nat) :
    rerun.Copies sheet sheet' builder { first with units := { first.units with nesting := one } }
      { second with units := { second.units with nesting := other } } :=
  h.follow (h.toBeside.follow rfl rfl rfl rfl rfl rfl rfl h.line) rfl rfl

/-! ## What replays -/

namespace Replays

variable {action action' : Work Interpreter (Journal Interpreter υ) α}

theorem pure (value : α) : rerun.Replays (υ := υ) (Pure.pure value) (Pure.pure value) where
  leads := .pure value
  leads' := .pure value
  replays level run run' _ := by
    cases run
    cases run'
    exact ⟨rfl, _, level.copies⟩

theorem bind {next next' : α → Work Interpreter (Journal Interpreter υ) γ}
    (h : rerun.Replays action action') (h' : ∀ value, rerun.Replays (next value) (next' value)) :
    rerun.Replays (action >>= next) (action' >>= next') where
  leads := h.leads.bind fun value => (h' value).leads
  leads' := h.leads'.bind fun value => (h' value).leads'
  replays level run run' kept := by
    obtain ⟨value, middle, run, rest⟩ := run_of_bind run
    obtain ⟨value', middle', run', rest'⟩ := run_of_bind run'
    obtain ⟨rfl, builder, copies⟩ :=
      h.replays level run run' (kept.earlier ((h' value).leads.ok rest))
    exact (h' value').replays
      (level.onward (h.leads.ok run) (h.leads'.ok run') copies) rest rest' kept

theorem ite {c : Prop} [Decidable c] {yes no yes' no' : Work Interpreter (Journal Interpreter υ) α}
    (h₁ : rerun.Replays yes yes') (h₂ : rerun.Replays no no') :
    rerun.Replays (if c then yes else no) (if c then yes' else no') := by
  by_cases h : c
  · rw [if_pos h, if_pos h]
    exact h₁
  · rw [if_neg h, if_neg h]
    exact h₂

/-- Of the benches, only the name that a block would get is known to be the same. -/
theorem bench {next next' : Bench → Work Interpreter (Journal Interpreter υ) α}
    (h : ∀ first second : Bench, second.blockName = first.blockName →
      rerun.Replays (next first) (next' second)) :
    rerun.Replays (Work.bench >>= next) (Work.bench >>= next') where
  leads session := (h session.bench session.bench rfl).leads session
  leads' session := (h session.bench session.bench rfl).leads' session
  replays {_ _ _ session again _ _ _ _} level run run' kept := by
    refine (h session.bench again.bench ?_).replays level run run' kept
    rw [level.copies.second.blockName, level.copies.first.blockName, level.copies.name]

theorem fail (error error' : CompileError) :
    rerun.Replays (υ := υ) (Work.fail error : Work Interpreter (Journal Interpreter υ) α)
      (Work.fail error') where
  leads := .throws _
  leads' := .throws _
  replays _ run _ _ := nomatch run

theorem breakOff :
    rerun.Replays (υ := υ) (Work.breakOff : Work Interpreter (Journal Interpreter υ) α)
      Work.breakOff where
  leads := .throws _
  leads' := .throws _
  replays _ run _ _ := nomatch run

/-- What comes after a breach of contract does not matter. -/
theorem halts (kind kind' : Violation) {next next' : α → Work Interpreter (Journal Interpreter υ) γ}
    (h : ∀ value, rerun.Replays (next value) (next' value)) :
    rerun.Replays (Work.violate kind >>= next) (Work.violate kind' >>= next') where
  leads := (Work.moves_violate kind).bind fun value => (h value).leads
  leads' := (Work.moves_violate kind').bind fun value => (h value).leads'
  replays _ run _ _ := by
    obtain ⟨value, middle, run, -⟩ := run_of_bind run
    cases run

/-- While a unit is recorded, the computation does the same as another one. -/
theorem congr {emitted : Work Interpreter (Journal Interpreter υ) α} (leads : Moves Leads action)
    (same : ∀ (session : Watched υ) (recording : Recording),
      session.bench.recording? = some recording → action session = emitted session)
    (h : rerun.Replays emitted emitted) : rerun.Replays action action where
  leads := leads
  leads' := leads
  replays level run run' kept :=
    h.replays level ((same _ _ level.copies.first.found).symm.trans run)
      ((same _ _ level.copies.second.found).symm.trans run') kept

/-! ### Steps on the bench -/

/-- A step on the bench that records the same. -/
theorem onBench {action : BenchM α} (reaches : Moves Bench.Reaches action)
    (h : ∀ {sheet sheet' : Sheet} {builder : Builder} {first second first' second' : Bench}
      {value value' : α}, rerun.Copies sheet sheet' builder first second →
      action first = .ok value first' → action second = .ok value' second' →
      first'.KeepsPool rerun.start →
      value' = value ∧ ∃ builder', rerun.Copies sheet sheet' builder' first' second') :
    rerun.Replays (υ := υ) (Work.onBench action) (Work.onBench action) where
  leads := leads_onBench reaches
  leads' := leads_onBench reaches
  replays level run run' kept :=
    h level.copies (Work.run_of_onBench run) (Work.run_of_onBench run') kept.pool

theorem target :
    rerun.Replays (υ := υ) (Work.onBench Bench.target) (Work.onBench Bench.target) := by
  refine onBench Bench.Appending.moves_target fun copies run run' _ => ?_
  cases (Bench.target_eq copies.first.found).symm.trans run
  cases (Bench.target_eq copies.second.found).symm.trans run'
  exact ⟨rfl, _, copies⟩

/-- What a builder does is decided by the builder. -/
theorem build {action : Builder → Except CompileError (α × Builder)}
    (checked : ∀ builder, Checked (action builder))
    (lines : ∀ builder value builder', action builder = .ok (value, builder') →
      builder'.line = builder.line) :
    rerun.Replays (υ := υ) (Work.onBench (Bench.build action))
      (Work.onBench (Bench.build action)) := by
  refine onBench (Bench.reaches_build checked) fun copies run run' _ => ?_
  obtain ⟨slot, builder, builder₁, found, built, rfl⟩ := Bench.ensures_build _ _ run
  obtain ⟨slot', builder', builder₂, found', built', rfl⟩ := Bench.ensures_build _ _ run'
  cases copies.first.found.symm.trans found
  cases copies.second.found.symm.trans found'
  cases built.symm.trans built'
  exact ⟨rfl, _, copies.setBuilder fun lined => lines _ _ _ built ▸ lined⟩

theorem modifyBuilder (f : Builder → Builder)
    (lines : ∀ builder, builder.line.isSome → (f builder).line.isSome) :
    rerun.Replays (υ := υ) (Work.onBench (Bench.modifyBuilder f))
      (Work.onBench (Bench.modifyBuilder f)) := by
  refine onBench (Bench.reaches_modifyBuilder f) fun copies run run' _ => ?_
  cases (Bench.modifyBuilder_eq copies.first.found f).symm.trans run
  cases (Bench.modifyBuilder_eq copies.second.found f).symm.trans run'
  exact ⟨rfl, _, copies.setBuilder (lines _)⟩

/-- A constant is found where the first recording has left it. -/
theorem intern (constant : Constant) :
    rerun.Replays (υ := υ) (Work.onBench (Bench.intern constant))
      (Work.onBench (Bench.intern constant)) := by
  refine onBench (Bench.reaches_intern constant)
    fun {_ _ _ _ second _ _ _ _} copies run run' kept => ?_
  obtain ⟨constants, interned, rfl⟩ := Bench.ensures_intern _ _ run
  obtain ⟨constants', interned', rfl⟩ := Bench.ensures_intern _ _ run'
  obtain ⟨-, found, known, rfl⟩ := Pool.intern_within interned
  have there : second.program.constants.find? constant = some found :=
    copies.pool ▸ kept constant found known
  cases (Pool.intern_found there).symm.trans interned'
  exact ⟨rfl, _, copies.follow
    (copies.toBeside.follow rfl rfl rfl rfl rfl rfl rfl copies.line) rfl rfl⟩

theorem checkScopeDepth (depth : Nat) :
    rerun.Replays (υ := υ) (Work.onBench (Bench.checkScopeDepth depth))
      (Work.onBench (Bench.checkScopeDepth depth)) := by
  refine onBench (Bench.reaches_appending.checkScopeDepth depth) fun copies run run' _ => ?_
  obtain ⟨rfl, -⟩ := Bench.ensures_checkScopeDepth _ _ run
  obtain ⟨rfl, -⟩ := Bench.ensures_checkScopeDepth _ _ run'
  exact ⟨rfl, _, copies⟩

/-- The line that is set is the same for both. -/
theorem setCurrent (line : UInt32) :
    rerun.Replays (υ := υ) (Work.onBench (modify fun bench => { bench with line := some line }))
      (Work.onBench (modify fun bench => { bench with line := some line })) := by
  refine onBench (.modifies fun bench => (Bench.Step.setLine bench _).reaches)
    fun copies run run' _ => ?_
  cases run
  cases run'
  exact ⟨rfl, _, copies.follow
    (copies.toBeside.follow rfl rfl rfl rfl rfl rfl rfl (.inr rfl)) rfl rfl⟩

theorem enterRegion : rerun.Replays (υ := υ)
    (Work.onBench fun bench => match bench.units.enter with
      | .ok units => .ok () { bench with units }
      | .error error => .error error bench)
    (Work.onBench fun bench => match bench.units.enter with
      | .ok units => .ok () { bench with units }
      | .error error => .error error bench) := by
  have entered (bench : Bench) : Ensures (fun bench : Bench => match bench.units.enter with
      | .ok units => EStateM.Result.ok () { bench with units }
      | .error error => .error error bench : BenchM Unit) bench
      fun _ bench' => bench' = bench.enterRegion := by
    intro _ bench' run
    dsimp only at run
    rw [UnitStack.enter_eq] at run
    split at run
    · rename_i units granted
      split at granted
      · cases granted
        cases run
        rfl
      · cases granted
    · cases run
  refine onBench Bench.reaches_enter fun copies run run' _ => ?_
  cases entered _ _ _ run
  cases entered _ _ _ run'
  exact ⟨rfl, _, copies.nesting _ _⟩

theorem exitRegion : rerun.Replays (υ := υ) (Work.modifyBench Bench.exitRegion)
    (Work.modifyBench Bench.exitRegion) where
  leads := leads_modifyBench fun bench => (Bench.Step.exitRegion bench).reaches
  leads' := leads_modifyBench fun bench => (Bench.Step.exitRegion bench).reaches
  replays level run run' _ := by
    cases run
    cases run'
    exact ⟨rfl, _, level.copies.nesting _ _⟩

/-! ### Code of the open unit -/

theorem emit (operation : String) (op : Op) :
    rerun.Replays (υ := υ) (Work.onBench (Bench.emit operation op))
      (Work.onBench (Bench.emit operation op)) := by
  refine build (fun builder => .bind (builder.checked_emit _ _) fun _ => .ok _) ?_
  intro builder _ builder' run
  obtain ⟨appended, emitted, same⟩ := Verifier.bind_ok run
  cases same
  obtain ⟨stack, -, rfl⟩ := Builder.emit_ok emitted
  rfl

theorem emitTimes (operation : String) (op : Op) (count : Nat) :
    rerun.Replays (υ := υ) (Work.emitTimes operation op count)
      (Work.emitTimes operation op count) := by
  induction count with
  | zero => exact pure ()
  | succ count ih => exact (emit operation op).bind fun _ => ih

theorem emitJump (operation : String) (kind : JumpKind) :
    rerun.Replays (υ := υ) (Work.emitJump operation kind) (Work.emitJump operation kind) := by
  refine build (fun builder => builder.checked_emitJump _ _) fun builder patch builder' run => ?_
  obtain ⟨stack, -, rfl⟩ := Builder.emit_ok (Builder.emitJump_ok run).2
  rfl

theorem emitJumpBack (operation : String) (kind : JumpKind) (label : Nat) :
    rerun.Replays (υ := υ) (Work.emitJumpBack operation kind label)
      (Work.emitJumpBack operation kind label) := by
  refine build (fun builder => .bind (builder.checked_emit _ _) fun _ => .ok _) ?_
  intro builder _ builder' run
  obtain ⟨appended, emitted, same⟩ := Verifier.bind_ok run
  cases same
  obtain ⟨stack, -, rfl⟩ := Builder.emit_ok emitted
  rfl

theorem patchHere (patch : JumpPatch) :
    rerun.Replays (υ := υ) (Work.patchHere patch) (Work.patchHere patch) := by
  refine target.bind fun builder => ?_
  cases builder.patchHere? patch with
  | some _ => exact modifyBuilder _ fun builder => by rw [Builder.patchHere_eq]; exact id
  | none => exact breakOff

theorem depth : rerun.Replays (υ := υ) Work.depth Work.depth :=
  target.bind fun builder => pure builder.depth

/-- A yield passes as many values as the builder and the configuration say. -/
theorem emitYield (operation : String) (hasArgs : Bool) :
    rerun.Replays (υ := υ) (Work.onBench (Bench.emitYield operation hasArgs))
      (Work.onBench (Bench.emitYield operation hasArgs)) := by
  have yields (bench : Bench) {value : Unit} {bench' : Bench} {recording : Recording}
      (found : bench.recording? = some recording)
      (run : Bench.emitYield operation hasArgs bench = .ok value bench') :
      Bench.emit operation (.yield (if hasArgs && !(hasArgs && recording.builder.depth == 0 &&
        decide (bench.config.yieldMode = .lenient)) then 1 else 0)) bench = .ok value bench' := by
    obtain ⟨_, _, looked, run⟩ := run_of_bind run
    cases looked
    split at run
    · obtain ⟨_, _, failed, -⟩ := run_of_bind run
      cases failed
    · exact (run_bind_ok (Bench.target_eq found)).symm.trans run
  refine onBench (Bench.reaches_appending.emitYield operation hasArgs)
    fun {_ _ _ first second _ _ _ _} copies run run' kept => ?_
  have once := yields first copies.first.found run
  have twice := yields second copies.second.found run'
  rw [copies.config] at twice
  obtain ⟨slot, builder, builder₁, found, built, rfl⟩ := Bench.ensures_emit _ _ once
  obtain ⟨slot', builder', builder₂, found', built', rfl⟩ := Bench.ensures_emit _ _ twice
  cases copies.first.found.symm.trans found
  cases copies.second.found.symm.trans found'
  cases built.symm.trans built'
  obtain ⟨stack, -, rfl⟩ := Builder.emit_ok built
  exact ⟨rfl, _, copies.setBuilder id⟩

theorem emitPrimitive (p : Primitive) :
    rerun.Replays (υ := υ) (Work.onBench (Bench.emitPrimitive p))
      (Work.onBench (Bench.emitPrimitive p)) := by
  unfold Bench.emitPrimitive
  split
  · exact emit _ _
  · unfold Bench.emitPooled
    simp only [Work.onBench_bind]
    exact target.bind fun _ => (intern _).bind fun position => emit _ _
  · unfold Bench.emitLocal
    rw [Work.onBench_bind]
    exact (checkScopeDepth _).bind fun _ => emit _ _
  · unfold Bench.emitAlias
    simp only [Work.onBench_bind]
    exact target.bind fun _ => (intern _).bind fun _ => (intern _).bind fun _ => emit _ _
  · exact emitYield _ _
  · unfold Bench.setLine
    simp only [Work.onBench_bind]
    exact (target.bind fun _ => modifyBuilder _ fun _ _ => rfl).bind fun _ => setCurrent _

theorem emitSend (operation name : String) (shape : Invocation) (block : Option UInt32) :
    rerun.Replays (υ := υ) (Work.onBench (Bench.emitSend operation name shape block))
      (Work.onBench (Bench.emitSend operation name shape block)) := by
  unfold Bench.emitSend
  simp only [Work.onBench_bind]
  exact target.bind fun _ => (intern _).bind fun _ => emit _ _

/-! ### Nested code in the open unit -/

/-- Only what breaks off is cleaned up. -/
theorem cleaning (h : rerun.Replays action action') {f f' : Bench → Bench}
    (cleans : ∀ bench : Bench, bench.Reaches (f bench))
    (cleans' : ∀ bench : Bench, bench.Reaches (f' bench)) :
    rerun.Replays (action.cleaning f) (action'.cleaning f') where
  leads := leads_cleaning h.leads cleans
  leads' := leads_cleaning h.leads' cleans'
  replays {_ _ _ session again _ _ _ _} level run run' kept := by
    have ran (action : Work Interpreter (Journal Interpreter υ) α) (session : Watched υ)
        (f : Bench → Bench) : Ensures (action.cleaning f) session
        fun value session' => action session = .ok value session' :=
      Work.ensures_cleaning fun _ _ => id
    exact h.replays level (ran _ _ _ _ _ run) (ran _ _ _ _ _ run') kept

theorem nested (h : rerun.Replays action action') :
    rerun.Replays (Work.nested action) (Work.nested action') := by
  have cleans (count : Nat) (bench : Bench) : bench.Reaches (bench.exitRegion.abandon count) :=
    trans_of Bench.Reaches (Bench.Step.exitRegion bench).reaches (Bench.Step.abandon _ _).reaches
  exact enterRegion.bind fun _ => bench fun _ _ _ =>
    (h.cleaning (cleans _) (cleans _)).bind fun value => exitRegion.bind fun _ => pure value

/-- The number of open units may differ, but both checks have been passed. -/
theorem ensureSameUnit (construct : String) (before before' : Nat) :
    rerun.Replays (υ := υ) (Work.ensureSameUnit construct before)
      (Work.ensureSameUnit construct before') where
  leads := Moves.sequenced.ensureSameUnit construct before
  leads' := Moves.sequenced.ensureSameUnit construct before'
  replays {_ _ _ session again _ _ _ _} level run run' _ := by
    have ends (session : Watched υ) (before : Nat) : Ends (Work.ensureSameUnit construct before)
        session (fun _ session' => session' = session) fun _ _ => True :=
      Work.ends_ensureSameUnit (fun _ => rfl) fun _ => trivial
    have passed (session : Watched υ) (before : Nat) :
        Ensures (Work.ensureSameUnit construct before) session
        fun _ session' => session' = session := (ends session before).ensures
    cases passed _ _ _ _ run
    cases passed _ _ _ _ run'
    exact ⟨rfl, _, level.copies⟩

theorem runRegion (construct : String) (allowed : DepthTracker.Allowance)
    {part part' : Work Interpreter (Journal Interpreter υ) Unit} (h : rerun.Replays part part') :
    rerun.Replays (Work.runRegion construct allowed part)
      (Work.runRegion construct allowed part') := by
  refine bench fun _ _ _ => target.bind fun before => h.bind fun _ =>
    (ensureSameUnit _ _ _).bind fun _ => bench fun first second _ => target.bind fun builder => ?_
  unfold DepthTracker.expectDelta
  by_cases passes : (allowed.admits (builder.stack.deltaSince before.depth) ||
      !builder.stack.strict) = true
  · simp only [passes, if_true]
    exact pure _
  · simp only [passes, Bool.false_eq_true, if_false]
    exact fail _ _

theorem emitBranch {onTrue onFalse : Work Interpreter (Journal Interpreter υ) Unit}
    (h₁ : rerun.Replays onTrue onTrue) (h₂ : rerun.Replays onFalse onFalse) :
    rerun.Replays (Work.emitBranch onTrue onFalse) (Work.emitBranch onTrue onFalse) :=
  nested (bench fun _ _ _ => (emitJump _ _).bind fun toElse => depth.bind fun before =>
    h₁.bind fun _ => (ensureSameUnit _ _ _).bind fun _ => depth.bind fun _ =>
    (emitJump _ _).bind fun toEnd => (patchHere toElse).bind fun _ =>
    (modifyBuilder (·.resetTo before) fun _ => id).bind fun _ => h₂.bind fun _ =>
    (ensureSameUnit _ _ _).bind fun _ => target.bind fun _ =>
    ite (halts _ _ fun _ => patchHere toEnd) (patchHere toEnd))

theorem emitLogical (connective : Connective)
    {right : Work Interpreter (Journal Interpreter υ) Unit} (h : rerun.Replays right right) :
    rerun.Replays (Work.emitLogical connective right) (Work.emitLogical connective right) :=
  nested ((emit _ _).bind fun _ => (emitJump _ _).bind fun toEnd => (emit _ _).bind fun _ =>
    (runRegion _ _ h).bind fun _ => patchHere toEnd)

theorem emitLoop {condition body : Work Interpreter (Journal Interpreter υ) Unit}
    (h₁ : rerun.Replays condition condition) (h₂ : rerun.Replays body body) (checkFirst : Bool) :
    rerun.Replays (Work.emitLoop condition body checkFirst)
      (Work.emitLoop condition body checkFirst) := by
  have tests : rerun.Replays (Work.emitCondition condition) (Work.emitCondition condition) :=
    (runRegion _ _ h₁).bind fun _ => pure ()
  have passes : rerun.Replays (Work.emitLoopBody body) (Work.emitLoopBody body) :=
    (runRegion _ _ h₂).bind fun _ => emitTimes _ _ _
  refine nested (target.bind fun builder => ite ?_ ?_)
  · exact tests.bind fun _ => (emitJump _ _).bind fun toEnd => passes.bind fun _ =>
      (emitJumpBack _ _ _).bind fun _ => patchHere toEnd
  · exact passes.bind fun _ => tests.bind fun _ => emitJumpBack _ _ _

theorem forEachIndex {part : Nat → Work Interpreter (Journal Interpreter υ) Unit}
    (h : ∀ index, rerun.Replays (part index) (part index)) (first count : Nat) :
    rerun.Replays (Work.forEachIndex part first count) (Work.forEachIndex part first count) := by
  induction count generalizing first with
  | zero => exact pure ()
  | succ count ih => exact (h first).bind fun _ => ih (first + 1)

theorem emitArray (count : Nat) {element : Nat → Work Interpreter (Journal Interpreter υ) Unit}
    (h : ∀ index, rerun.Replays (element index) (element index)) :
    rerun.Replays (Work.emitArray count element) (Work.emitArray count element) :=
  nested ((forEachIndex (fun index => (runRegion _ _ (h index)).bind fun _ => pure ()) 0 count).bind
    fun _ => emit _ _)

/-- An operation with nested code in the open unit. -/
theorem control (inner : Control (Watched υ))
    (parts : ∀ part, inner.Has part → rerun.Replays part part) :
    rerun.Replays inner.emit inner.emit := by
  cases inner with
  | branch onTrue onFalse => exact emitBranch (parts _ (.inl rfl)) (parts _ (.inr rfl))
  | logical connective right => exact emitLogical connective (parts _ rfl)
  | loop condition body checkFirst =>
      exact emitLoop (parts _ (.inl rfl)) (parts _ (.inr rfl)) checkFirst
  | array count element => exact emitArray count fun index => parts _ ⟨index, rfl⟩

/-! ### Operations that are noted -/

/-- A note does not change what was recorded. -/
theorem journaled (h : rerun.Replays action action') (name : String) :
    rerun.Replays (Work.journaled name action) (Work.journaled name action') where
  leads := leads_journaled h.leads name
  leads' := leads_journaled h.leads' name
  replays level run run' kept := by
    obtain ⟨ended, ran, rfl⟩ := Work.run_of_journaled run
    obtain ⟨ended', ran', rfl⟩ := Work.run_of_journaled run'
    obtain ⟨same, builder, copies⟩ :=
      h.replays (level.note _ _) ran ran' (kept.earlier (leads_note ended ..))
    exact ⟨same, builder, copies⟩

end Replays

end Rerun

end Interpreter

end BlockScript
