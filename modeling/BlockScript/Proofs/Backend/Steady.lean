import BlockScript.Contract.Action
import BlockScript.Proofs.Backend.Composed
import BlockScript.Proofs.Node.Plain

/-!
# Recording keeps the bench scoped

Every operation of the bytecode backend, with whatever nested code, takes a session with a
scoped bench to one with a scoped bench, if it succeeds. This is an induction over the
nesting of the code that is handed over; nested code may open and close units as it likes,
since a unit that was opened around it is only closed again with the same units around it.
-/

namespace BlockScript.Recorder

variable {υ α β : Type}

/-- How far a session got by operations that succeeded. The table is only empty as long as
the script has not started, and the script is the first to get a slot, with no reach. -/
def Progress (reach : UInt32 → Nat) (session session' : Session Recorder υ) : Prop :=
  ∃ reach', session.bench.Extends reach reach' session'.bench ∧
    (session.bench.program.code.size = 0 →
      session'.bench.program.code.size = 0 ∨ reach' 0 = 0) ∧
    (session'.backend.script ≠ .notStarted →
      session.backend.script ≠ .notStarted ∨ 0 < session'.bench.program.code.size)

/-- The computation keeps the bench scoped whenever it succeeds. -/
def Steady (action : Work Recorder υ α) : Prop :=
  ∀ session reach, session.bench.Scoped reach →
    Ensures action session fun _ session' => Progress reach session session'

theorem Progress.refl {reach : UInt32 → Nat} {session : Session Recorder υ}
    (h : session.bench.Scoped reach) : Progress reach session session :=
  ⟨reach, .refl h, .inl, .inl⟩

theorem Progress.trans {reach : UInt32 → Nat} {first second third : Session Recorder υ}
    (h₁ : Progress reach first second)
    (h₂ : ∀ reach', second.bench.Scoped reach' → Progress reach' second third) :
    Progress reach first third := by
  obtain ⟨reach', grows, start, script⟩ := h₁
  obtain ⟨reach'', grows', start', script'⟩ := h₂ reach' grows.fits
  refine ⟨reach'', grows.trans grows', fun empty => ?_, fun started => ?_⟩
  · rcases Nat.eq_zero_or_pos second.bench.program.code.size with zero | positive
    · exact start' zero
    · have flat := (start empty).resolve_left (Nat.ne_of_gt positive)
      exact .inr (((grows'.program.has 0 (Program.has_iff.mpr positive)).2).trans flat)
  · rcases script' started with started | positive
    · exact (script started).imp id grows'.program.size_pos
    · exact .inr positive

namespace Steady

theorem pure (value : α) : Steady (Pure.pure value : Work Recorder υ α) :=
  fun _ _ h => Ensures.pure (.refl h)

theorem bind {first : Work Recorder υ α} {next : α → Work Recorder υ β} (h₁ : Steady first)
    (h₂ : ∀ value, Steady (next value)) : Steady (first >>= next) := by
  intro session reach h
  refine (h₁ session reach h).bind ?_
  intro value session' progress value' session'' run
  exact progress.trans fun reach' h' => h₂ value session' reach' h' value' session'' run

/-- A computation that only looks. -/
theorem reads {action : Work Recorder υ α}
    (h : ∀ session, Ensures action session fun _ session' => session' = session) :
    Steady action := by
  intro session reach inside
  refine (h session).mono ?_
  rintro _ session rfl
  exact .refl inside

theorem fails (error : CompileError) : Steady (Work.fail error : Work Recorder υ α) :=
  fun _ _ _ => Ensures.throws

theorem bench : Steady (Work.bench : Work Recorder υ Bench) :=
  reads fun _ => Ensures.get (Ensures.pure rfl)

theorem look : Steady (MonadState.get : Work Recorder υ (Session Recorder υ)) :=
  reads fun _ => Ensures.get (Ensures.pure rfl)

theorem get {next : Session Recorder υ → Work Recorder υ α} (h : ∀ session, Steady (next session)) :
    Steady (MonadStateOf.get >>= next) :=
  fun session reach inside => Ensures.get (h session session reach inside)

theorem ite {c : Prop} [Decidable c] {yes no : Work Recorder υ α} (h₁ : c → Steady yes)
    (h₂ : ¬c → Steady no) : Steady (if c then yes else no) :=
  fun session reach inside =>
    Ensures.ite (fun h => h₁ h session reach inside) fun h => h₂ h session reach inside

/-- An operation of the bench that fits. -/
theorem onBench {action : BenchM α}
    (h : ∀ bench reach, bench.Scoped reach → Ensures action bench fun _ bench' =>
      bench.Extends reach reach bench' ∧ 0 < bench.program.code.size) :
    Steady (Work.onBench action : Work Recorder υ α) := by
  intro session reach inside
  refine Work.ensures_onBench ((h session.bench reach inside).mono ?_)
  rintro _ bench' ⟨grows, positive⟩
  exact ⟨reach, grows, fun empty => absurd empty (Nat.ne_of_gt positive), .inl⟩

theorem target : Steady (Work.onBench Bench.target : Work Recorder υ Builder) := by
  refine onBench fun bench reach inside => Bench.ensures_target.mono ?_
  rintro builder bench ⟨rfl, slot, found⟩
  exact ⟨.refl inside, inside.size_pos found⟩

theorem emit {operation : String} {op : Op} (plain : op.Plain) :
    Steady (Work.onBench (Bench.emit operation op) : Work Recorder υ Unit) :=
  onBench fun _ _ inside => inside.emit fun _ _ _ => plain _ _ _

theorem emitJump (operation : String) (kind : JumpKind) :
    Steady (Work.emitJump operation kind : Work Recorder υ JumpPatch) := by
  refine onBench fun bench reach inside => Bench.ensures_build.mono ?_
  rintro patch _ ⟨slot, builder, builder', found, run, rfl⟩
  exact ⟨inside.setBuilder found ((inside.recording found).2.2.emitJump
    (fun offset => Op.plain_jump kind offset _ _ _) run), inside.size_pos found⟩

theorem emitJumpBack (operation : String) (kind : JumpKind) (label : Nat) :
    Steady (Work.emitJumpBack operation kind label : Work Recorder υ Unit) := by
  refine onBench fun bench reach inside => Bench.ensures_build.mono ?_
  rintro _ _ ⟨slot, builder, builder', found, run, rfl⟩
  obtain ⟨appended, hemit, heq⟩ := Verifier.bind_ok run
  cases heq
  exact ⟨inside.setBuilder found ((inside.recording found).2.2.emit
    (Op.plain_jump kind _ _ _ _) hemit), inside.size_pos found⟩

theorem cleaning {action : Work Recorder υ α} (h : Steady action) (cleanUp : Bench → Bench) :
    Steady (action.cleaning cleanUp) :=
  fun session reach inside => Work.ensures_cleaning (h session reach inside)

theorem checked {operation : Work Recorder υ α} (h : Steady operation) :
    Steady (Recorder.checked operation) :=
  fun session reach inside => ensures_checked (h session reach inside)

/-- Entering or leaving a region. -/
theorem sameUnits {session : Session Recorder υ} {reach : UInt32 → Nat}
    (inside : session.bench.Scoped reach) {units : UnitStack (Option Recording)}
    (same : units.units = session.bench.units.units)
    (nextId : units.nextId = session.bench.units.nextId)
    (owner : units.owner = session.bench.units.owner) :
    Progress reach session { session with bench := { session.bench with units } } := by
  have fresh : units.Fresh := by
    intro unit member
    rw [nextId]
    exact inside.fresh unit (same ▸ member)
  have opened := inside.opened
  rw [← same] at opened
  exact ⟨reach, ⟨⟨inside.sharing, inside.limit, inside.constants, fresh, opened,
    inside.installed⟩, .refl, rfl, .of_units_eq (fun _ => trivial) same nextId owner⟩, .inl, .inl⟩

theorem nested {region : Work Recorder υ α} (h : Steady region) : Steady (Work.nested region) := by
  intro session reach inside
  have entered : Progress reach session { session with bench := session.bench.enterRegion } :=
    sameUnits inside rfl rfl rfl
  refine Work.ensures_nested fun value session' run => entered.trans fun reach' inside' => ?_
  exact (h _ reach' inside' value session' run).trans fun _ inside'' =>
    sameUnits inside'' rfl rfl rfl

/-- Changing the builder of the innermost recording, if there is one. -/
theorem modifyBuilder {f : Builder → Builder}
    (keeps : ∀ (p : Op → Prop) builder, (∀ kind offset, p (JumpKind.op kind offset)) →
      builder.All p → (f builder).All p) :
    Steady (Work.onBench (Bench.modifyBuilder f) : Work Recorder υ Unit) := by
  intro session reach inside
  refine Work.ensures_onBench ?_
  cases hunits : session.bench.units.units with
  | nil =>
      intro value bench' run
      cases run
      obtain ⟨nextId, owner, -, -⟩ := UnitStack.mapTop_rest session.bench.units _
      exact sameUnits inside (UnitStack.mapTop_nil hunits _) nextId owner
  | cons unit outer =>
      obtain ⟨slot, builder, hpayload, -⟩ := inside.opened unit outer (hunits ▸ List.suffix_rfl)
      have found := Bench.recording?_eq_some.mpr ⟨unit, outer, hunits, hpayload⟩
      refine (Bench.ensures_modifyBuilder found _).mono ?_
      rintro _ _ rfl
      have kept := keeps _ builder (fun kind offset => Op.plain_jump kind offset _ _ _)
        (inside.recording found).2.2
      exact ⟨reach, inside.setBuilder found kept, .inl, .inl⟩

theorem sequenced : Sequenced (fun {α} (action : Work Recorder υ α) => Steady action) where
  pure := pure
  bind := bind
  bench := bench
  fail _ := fails _
  breakOff := fun _ _ _ => Ensures.throws

theorem patchHere (patch : JumpPatch) : Steady (Work.patchHere patch : Work Recorder υ Unit) :=
  sequenced.patchHere target (modifyBuilder fun _ _ jumps all => all.patchHere (jumps patch.kind))

theorem compositional : Compositional (fun {α} (action : Work Recorder υ α) => Steady action) where
  toSequenced := sequenced
  target := target
  emit _ _ plain _ := emit plain
  emitJump := emitJump
  emitJumpBack := emitJumpBack
  patchHere := patchHere
  resetTo _ := modifyBuilder fun _ _ _ all => all
  nested := nested

end Steady

/-- A unit whose body is nested code. Its slot gets the reach of the units around it, and
those are as before when it is closed. -/
theorem ensures_recordUnit {kind : UnitKind} {name : String} {arity localCount : Nat}
    {locals : List String} {body : Work Recorder υ Unit} (hbody : Steady body)
    {session : Session Recorder υ} {reach : UInt32 → Nat} (inside : session.bench.Scoped reach) :
    Ensures (Work.recordUnit kind name arity localCount locals body) session fun slot session' =>
      ∃ reach', session.bench.Extends reach reach' session'.bench ∧
        (session'.backend.script ≠ .notStarted →
          session.backend.script ≠ .notStarted ∨ 0 < session'.bench.program.code.size) ∧
        session'.bench.units.units = session.bench.units.units ∧
        session'.bench.program.Has slot ∧
        reach' slot =
          if kind = .closure then enclosing session.bench.units.units + 1 else 0 := by
  refine Ensures.get (Ensures.bind (Work.ensures_runs inside.openUnit) ?_)
  rintro handle _ ⟨opened, ⟨reach₁, payload, grows₁, hopen, -, -⟩, rfl⟩
  refine Work.ensures_cleaning (Ensures.bind (hbody _ reach₁ grows₁.fits) ?_)
  rintro _ recorded ⟨reach₂, grows₂, -, script⟩
  refine Work.ensures_onBench (grows₂.fits.closeUnit.mono ?_)
  rintro slot bench' ⟨grows₃, unit, line, has, hclose, hreach⟩
  obtain ⟨units, hkind, -⟩ :=
    UnitStack.units_after_close inside.fresh hopen grows₂.units hclose
  obtain ⟨-, -, -, hunits, -⟩ := UnitStack.close_ok hclose
  refine ⟨reach₂, (grows₁.trans grows₂).trans grows₃, ?_, units, (grows₃.program.has _ has).1, ?_⟩
  · exact fun started => (script started).imp id grows₃.program.size_pos
  · rw [hreach, hunits, enclosing_cons, hkind, units]

theorem ensures_recordBlock {scope : StaticScope} {arity : Nat} {body : Work Recorder υ Unit}
    (hbody : Steady body) {session : Session Recorder υ} {reach : UInt32 → Nat}
    (inside : session.bench.Scoped reach) :
    Ensures (Work.recordBlock scope arity body) session fun slot session' =>
      ∃ reach', session.bench.Extends reach reach' session'.bench ∧
        (session'.backend.script ≠ .notStarted →
          session.backend.script ≠ .notStarted ∨ 0 < session'.bench.program.code.size) ∧
        session'.bench.units.units = session.bench.units.units ∧
        session'.bench.program.Has slot ∧
        reach' slot = session'.bench.units.reachableDepth + 1 := by
  refine Ensures.get ((ensures_recordUnit hbody inside).mono ?_)
  rintro slot session' ⟨reach', grows, script, units, has, hreach⟩
  refine ⟨reach', grows, script, units, has, ?_⟩
  rw [hreach, if_pos rfl, UnitStack.reachableDepth, units]
  rfl

namespace Steady

/-- The block of a call is recorded before the call, with the same units around both. -/
theorem emitCall {name : String} {shape : Invocation}
    {block : Option (BlockBody (Session Recorder υ))} (h : ∀ b ∈ block, Steady b.body) :
    Steady (Work.emitCall name shape block) := by
  intro session reach inside
  cases block with
  | none =>
      refine (Work.ensures_runs (inside.emitSend fun _ none => by cases none)).mono ?_
      rintro _ _ ⟨bench', ⟨grows, isSome⟩, rfl⟩
      obtain ⟨⟨slot, builder⟩, found⟩ := Option.isSome_iff_exists.mp isSome
      exact ⟨reach, grows, fun empty => absurd empty (Nat.ne_of_gt (inside.size_pos found)), .inl⟩
  | some b =>
      refine Ensures.bind (Ensures.map (ensures_recordBlock (h b rfl) inside) some) ?_
      rintro _ recorded ⟨slot, rfl, reach', grows, script, units, has, hreach⟩
      refine (Work.ensures_runs (grows.fits.emitSend fun code heq => ?_)).mono ?_
      · cases heq
        exact ⟨has, Nat.le_of_eq hreach⟩
      · rintro _ _ ⟨bench', ⟨grows', isSome⟩, rfl⟩
        have same : recorded.bench.recording? = session.bench.recording? := by
          rw [Bench.recording?, Bench.recording?, UnitStack.top?, UnitStack.top?, units]
        obtain ⟨⟨slot, builder⟩, found⟩ := Option.isSome_iff_exists.mp (same ▸ isSome)
        exact ⟨reach', grows.trans grows',
          fun empty => absurd empty (Nat.ne_of_gt (inside.size_pos found)),
          fun started => (script started).imp id grows'.program.size_pos⟩

/-- What is appended for a code object that was just recorded. -/
theorem append {session session' : Session Recorder υ} {reach reach' : UInt32 → Nat}
    {action : BenchM Unit} (positive : 0 < session.bench.program.code.size)
    (grows : session.bench.Extends reach reach' session'.bench)
    (script : session'.backend.script ≠ .notStarted → session.backend.script ≠ .notStarted ∨
      0 < session'.bench.program.code.size)
    (h : Ensures action session'.bench fun _ bench' =>
      session'.bench.Extends reach' reach' bench' ∧ 0 < session'.bench.program.code.size) :
    Ensures (Work.onBench action) session' fun _ session'' => Progress reach session session'' := by
  refine (Work.ensures_runs h).mono ?_
  rintro _ _ ⟨bench', ⟨grows', -⟩, rfl⟩
  exact ⟨reach', grows.trans grows', fun empty => absurd empty (Nat.ne_of_gt positive),
    fun started => (script started).imp id grows'.program.size_pos⟩

theorem closure (scope : StaticScope) (arity : Nat) {body : Work Recorder υ Unit}
    (h : Steady body) : Steady (Recorder.closure scope arity body) := by
  refine checked fun session reach inside => Ensures.bind Work.ensures_target ?_
  rintro builder session ⟨rfl, slot, found⟩
  refine (ensures_recordBlock h inside).bind ?_
  rintro slot recorded ⟨reach', grows, script, units, has, hreach⟩
  refine append (inside.size_pos found) grows script
    (grows.fits.emit fun around builder found => ?_)
  rw [(grows.fits.recording found).2.1]
  exact ⟨trivial, Nat.zero_le _, has, Nat.le_of_eq hreach⟩

theorem defineMethod (name : String) (arity localCount : Nat) {body : Work Recorder υ Unit}
    (h : Steady body) : Steady (Recorder.defineMethod name arity localCount body) := by
  refine checked fun session reach inside => Ensures.bind Work.ensures_target ?_
  rintro builder session ⟨rfl, slot, found⟩
  refine (ensures_recordUnit h inside).bind ?_
  rintro slot recorded ⟨reach', grows, script, units, has, hreach⟩
  refine append (inside.size_pos found) grows script (grows.fits.emitPooled ?_)
  intro program position around grows' pooled
  obtain ⟨has', heq⟩ := grows'.has slot has
  exact ⟨⟨name, by rw [Pool.text?, pooled]; rfl⟩, Nat.zero_le _, has', hreach⟩

theorem beginMethod (name : String) (arity localCount : Nat) :
    Steady (Recorder.beginMethod name arity localCount : Work Recorder υ UnitHandle) := by
  refine checked fun session reach inside => Ensures.bind Work.ensures_target ?_
  rintro builder session ⟨rfl, slot, found⟩
  refine (Work.ensures_runs inside.openUnit).mono ?_
  rintro handle _ ⟨bench', ⟨reach', payload, grows, hopen, positive, -⟩, rfl⟩
  exact ⟨reach', grows, fun empty => absurd empty (Nat.ne_of_gt (inside.size_pos found)), .inl⟩

/-- Closing a unit by any handle. -/
theorem closeUnit (handle : UnitHandle) (kind : UnitKind) :
    Steady (Work.onBench (Bench.closeUnit handle kind) : Work Recorder υ UInt32) := by
  refine onBench fun bench reach inside => inside.closeUnit.mono ?_
  rintro slot bench' ⟨grows, unit, line, has, -, -⟩
  exact ⟨grows, Nat.lt_of_le_of_lt (Nat.zero_le _) (Program.has_iff.mp has)⟩

theorem endMethod (handle : UnitHandle) :
    Steady (Recorder.endMethod handle : Work Recorder υ Unit) :=
  checked (bind (closeUnit handle .method) fun _ => pure ())

/-- The script gets a slot whose reach is zero. -/
theorem startScript : Steady (Recorder.startScript : Work Recorder υ Unit) := by
  have opens : Steady (do
      setScript (.opened (← Work.onBench (Bench.openUnit .script mainName 0 0 []))) :
      Work Recorder υ Unit) := by
    intro session reach inside
    refine (Work.ensures_runs inside.openUnit).bind ?_
    rintro handle _ ⟨bench', ⟨reach', payload, grows, hopen, positive, flat⟩, rfl⟩
    exact Ensures.modifies ⟨reach', grows, fun empty => .inr (flat empty (by decide)),
      fun _ => .inr positive⟩
  exact checked (bind bench fun _ => get fun _ =>
    ite (fun _ => bind (fails _) fun _ => opens) fun _ => opens)

/-- The script must have been opened to be closed. -/
theorem endScript : Steady (Recorder.endScript : Work Recorder υ Unit) := by
  have closes : ∀ before : Bench, Steady (closeScript before : Work Recorder υ Unit) := by
    intro before session reach inside
    refine Ensures.get ?_
    cases hscript : session.backend.script with
    | notStarted | ended => exact fails _ session reach inside
    | opened handle =>
        have started : session.backend.script ≠ .notStarted := by
          rw [hscript]
          exact ScriptState.noConfusion
        simp only
        refine (Ensures.modifies rfl).bind fun _ ended (heq : ended = _) => ?_
        have closed : Steady (do let _ ← Work.onBench (Bench.closeUnit handle .script) :
            Work Recorder υ Unit) := bind (closeUnit handle .script) fun _ => pure ()
        refine (closed ended reach (heq ▸ inside)).mono ?_
        rintro _ session' ⟨reach', grows, empty, -⟩
        subst heq
        exact ⟨reach', grows, empty, fun _ => .inl started⟩
  exact checked (bind bench fun before =>
    ite (fun _ => bind (compositional.violate _) fun _ => closes before) fun _ => closes before)

/-- Every operation keeps the bench scoped if its nested code does. -/
theorem issue (operation : Operation (Session Recorder υ) α)
    (parts : ∀ part, operation.Has part → Steady part) :
    Steady (operation.issue (contract υ)) := by
  cases operation with
  | startScript => exact startScript
  | endScript => exact endScript
  | beginMethod name arity localCount => exact beginMethod name arity localCount
  | endMethod handle => exact endMethod handle
  | primitive p => exact checked (onBench fun _ _ inside => inside.emitPrimitive p)
  | invoke name shape block =>
      exact checked (emitCall fun given same => parts _ ⟨given, same, rfl⟩)
  | control inner =>
      have emits : Steady inner.emit := compositional.control inner parts
      cases inner <;> exact checked emits
  | closure scope arity body => exact closure scope arity (parts body rfl)
  | defineMethod name arity localCount body =>
      exact defineMethod name arity localCount (parts body rfl)

end Steady

end BlockScript.Recorder

namespace BlockScript.Action

variable {ε : Type}

/-- The action uses nothing but the contract, and recovers from no failure. So its run only
succeeds if every operation that it issues does. -/
def Straight : Action ε → Prop
  | seq first next => first.Straight ∧ next.Straight
  | callBlock _ _ _ _ body | logical _ body | closure _ _ body | method _ _ _ body => body.Straight
  | array _ element => ∀ index, (element index).Straight
  | branch first second | loop first second _ => first.Straight ∧ second.Straight
  | rescue _ _ | extra _ => False
  | _ => True

/-- What program trees become fails as a whole if an operation of it does. -/
theorem Plain.straight {action : Action ε} (plain : action.Plain) :
    action.Straight := by
  induction action with
  | seq first next ih₁ ih₂ => exact ⟨ih₁ plain.1, ih₂ plain.2⟩
  | callBlock _ _ _ _ body ih => exact ih plain
  | array count element ih => exact fun index => ih index (plain index)
  | branch first second ih₁ ih₂ => exact ⟨ih₁ plain.1, ih₂ plain.2⟩
  | loop first second _ ih₁ ih₂ => exact ⟨ih₁ plain.1, ih₂ plain.2⟩
  | logical _ right ih => exact ih plain
  | closure _ _ body ih => exact ih plain
  | method _ _ _ body ih => exact ih plain
  | rescue | extra => exact plain.elim
  | _ => trivial

/-- A property that everything has which an action does on its own account, and that is kept
when computations are put together. -/
structure Owned {β : Type} (P : ∀ {α : Type}, Work β Notes α → Prop) : Prop where
  pure : ∀ {α : Type} (value : α), P (Pure.pure value : Work β Notes α)
  bind : ∀ {α γ : Type} {first : Work β Notes α} {next : α → Work β Notes γ},
    P first → (∀ value, P (next value)) → P (first >>= next)
  look : P (get : Work β Notes (Session β Notes))
  note : ∀ f : Notes → Notes, P (note f : Work β Notes Unit)
  fail : ∀ error : CompileError, P (Work.fail error : Work β Notes Unit)

/-- What every operation has whose nested code has it, every straight action has. -/
theorem Straight.run {β : Type} {P : ∀ {α : Type}, Work β Notes α → Prop} (owned : Owned P)
    {contract : Contract (Session β Notes)}
    (operations : ∀ {α : Type} (operation : Operation (Session β Notes) α),
      (∀ part, operation.Has part → P part) → P (operation.issue contract))
    {onExtra : ε → Work β Notes Unit} {action : Action ε} (h : action.Straight) :
    P (action.run contract onExtra) := by
  induction action with
  | skip => exact owned.pure ()
  | seq first next ih₁ ih₂ => exact owned.bind (ih₁ h.1) fun _ => ih₂ h.2
  | startScript => exact operations .startScript nofun
  | endScript => exact operations .endScript nofun
  | beginMethod key name arity localCount =>
      exact owned.bind (operations (.beginMethod name arity localCount) nofun) fun _ => owned.note _
  | endMethod key =>
      refine owned.bind owned.look fun session => ?_
      split
      · rename_i handle _
        exact owned.bind (owned.note _) fun _ => operations (.endMethod handle) nofun
      · exact owned.note _
  | hold key handle => exact owned.note _
  | primitive p => exact operations (.primitive p) nofun
  | call name shape => exact operations (.invoke name shape none) nofun
  | callBlock name shape scope arity body ih =>
      refine operations (.invoke name shape
        (some { scope, arity, body := body.run contract onExtra })) ?_
      rintro _ ⟨_, same, rfl⟩
      cases same
      exact ih h
  | array count element ih =>
      refine operations (.control (.array count
        fun index => (element index).run contract onExtra)) ?_
      rintro _ ⟨index, rfl⟩
      exact ih index (h index)
  | branch onTrue onFalse ih₁ ih₂ =>
      refine operations (.control (.branch (onTrue.run contract onExtra)
        (onFalse.run contract onExtra))) ?_
      rintro _ (rfl | rfl)
      · exact ih₁ h.1
      · exact ih₂ h.2
  | logical connective right ih =>
      refine operations (.control (.logical connective (right.run contract onExtra))) ?_
      rintro _ rfl
      exact ih h
  | loop condition body checkFirst ih₁ ih₂ =>
      refine operations (.control (.loop (condition.run contract onExtra)
        (body.run contract onExtra) checkFirst)) ?_
      rintro _ (rfl | rfl)
      · exact ih₁ h.1
      · exact ih₂ h.2
  | closure scope arity body ih =>
      refine operations (.closure scope arity (body.run contract onExtra)) ?_
      rintro _ rfl
      exact ih h
  | method name arity localCount body ih =>
      refine operations (.defineMethod name arity localCount (body.run contract onExtra)) ?_
      rintro _ rfl
      exact ih h
  | mark label => exact owned.note _
  | fail error => exact owned.fail error
  | rescue | extra => exact h.elim

open Recorder in
/-- Every operation of a straight action keeps the bench scoped. -/
theorem steady_run {onExtra : ε → Work Recorder Notes Unit} {action : Action ε}
    (h : action.Straight) : Steady (action.run (Recorder.contract Notes) onExtra) := by
  have owned : Owned fun {α} (action : Work Recorder Notes α) => Steady action :=
    { pure := .pure
      bind := .bind
      look := .look
      note := fun _ _ reach inside => Ensures.modifies ⟨reach, .refl inside, .inl, .inl⟩
      fail := .fails }
  exact h.run owned Steady.issue

end BlockScript.Action
