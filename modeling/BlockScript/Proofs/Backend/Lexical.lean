import BlockScript.Proofs.Backend.Composed
import BlockScript.Proofs.Backend.Lasting
import BlockScript.Proofs.Backend.Lineage
import BlockScript.Proofs.Backend.Recorded
import BlockScript.Proofs.Backend.Sketch

/-!
# Recorded programs are nested

Every operation of the bytecode backend, with whatever nested code, takes a session whose bodies
agree with their lineages to one of which the same is true. A block gets its lineage when its
unit opens, and the operation that makes it is appended when the same units are open again; so
what is said there of its lineage still holds. A program that was recorded is therefore nested.
-/

namespace BlockScript

/-- What refers to nothing, and is no yield, refers to no body. -/
theorem Op.Plain.free {op : Op} (plain : op.Plain) (own : ∀ argc, op ≠ .yield argc) : op.Free := by
  refine ⟨?_, own⟩
  obtain ⟨pooled, -, links⟩ := plain .empty (fun _ => 0) 0
  cases op with
  | send name argc receiver block =>
      obtain ⟨text, found⟩ := pooled
      cases found
  | makeClosure code =>
      obtain ⟨⟨body, found⟩, -⟩ := links
      cases found
  | defineMethod name code =>
      obtain ⟨⟨body, found⟩, -⟩ := links
      cases found
  | _ => rfl

theorem Op.free_jump (kind : JumpKind) (offset : Int32) : (kind.op offset).Free := by
  cases kind <;> exact ⟨rfl, nofun⟩

/-- The innermost recording may change if its operations still agree. -/
theorem Bench.Nested.modifyBuilder {bench : Bench} {lineage : UInt32 → Lineage}
    (nested : bench.Nested lineage) {f : Builder → Builder}
    (kind : ∀ builder, (f builder).code.kind = builder.code.kind)
    (keeps : ∀ (p : Op → Prop) builder, (∀ kind offset, p (JumpKind.op kind offset)) →
      builder.All p → (f builder).All p) :
    Ensures (Bench.modifyBuilder f) bench fun _ bench' =>
      bench.Continues lineage lineage bench' := by
  cases found : bench.recording? with
  | some recording =>
      refine (ensures_modifyBuilder found f).mono ?_
      rintro _ _ rfl
      exact nested.setBuilder found (kind _) (keeps _ _ (fun kind offset =>
        (Op.free_jump kind offset).nests ..) (nested.recording found).2.2)
  | none =>
      intro _ bench' run
      rw [modifyBuilder_of_none found] at run
      cases run
      exact .refl nested

namespace Recorder

variable {υ α β : Type}

/-- Whenever the computation succeeds, the bodies still agree with their lineages. -/
def Lexical (action : Work Recorder υ α) : Prop :=
  ∀ session lineage, session.bench.Nested lineage → Ensures action session fun _ session' =>
    ∃ lineage', session.bench.Continues lineage lineage' session'.bench

namespace Lexical

theorem pure (value : α) : Lexical (Pure.pure value : Work Recorder υ α) :=
  fun _ lineage nested => Ensures.pure ⟨lineage, .refl nested⟩

theorem bind {first : Work Recorder υ α} {next : α → Work Recorder υ β} (h₁ : Lexical first)
    (h₂ : ∀ value, Lexical (next value)) : Lexical (first >>= next) := by
  intro session lineage nested
  refine (h₁ session lineage nested).bind ?_
  rintro value session' ⟨lineage', continues⟩
  refine (h₂ value session' lineage' continues.nested).mono ?_
  rintro _ _ ⟨lineage'', continues'⟩
  exact ⟨lineage'', continues.trans continues'⟩

theorem get {next : Session Recorder υ → Work Recorder υ α}
    (h : ∀ session, Lexical (next session)) : Lexical (MonadStateOf.get >>= next) :=
  fun session lineage nested => Ensures.get (h session session lineage nested)

theorem fails (error : CompileError) : Lexical (Work.fail error : Work Recorder υ α) :=
  fun _ _ _ => Ensures.throws

/-- The bench stays as it is. -/
theorem modifies {f : Session Recorder υ → Session Recorder υ}
    (same : ∀ session, (f session).bench = session.bench) :
    Lexical (modify f : Work Recorder υ Unit) := by
  intro session lineage nested
  apply Ensures.modifies
  rw [same]
  exact ⟨lineage, .refl nested⟩

/-- An operation of the bench that agrees with the lineages. -/
theorem onBench {action : BenchM α}
    (h : ∀ bench lineage, bench.Nested lineage → Ensures action bench fun _ bench' =>
      ∃ lineage', bench.Continues lineage lineage' bench') :
    Lexical (Work.onBench action : Work Recorder υ α) :=
  fun session lineage nested => Work.ensures_onBench (h session.bench lineage nested)

/-- An operation that leaves every lineage as it is. -/
theorem steady {action : BenchM α}
    (h : ∀ bench lineage, bench.Nested lineage → Ensures action bench fun _ bench' =>
      bench.Continues lineage lineage bench') :
    Lexical (Work.onBench action : Work Recorder υ α) :=
  onBench fun bench lineage nested => (h bench lineage nested).mono fun _ _ continues =>
    ⟨lineage, continues⟩

theorem target : Lexical (Work.onBench Bench.target : Work Recorder υ Builder) := by
  refine steady fun bench lineage nested => Bench.ensures_target.mono ?_
  rintro builder _ ⟨rfl, -⟩
  exact .refl nested

theorem build {action : Builder → Except CompileError (α × Builder)}
    (appends : ∀ builder value builder', action builder = .ok (value, builder') →
      ∃ operation op, op.Free ∧ builder.emit operation op = .ok builder') :
    Lexical (Work.onBench (Bench.build action) : Work Recorder υ α) := by
  refine steady fun bench lineage nested => Bench.ensures_build.mono ?_
  rintro value _ ⟨slot, builder, builder', found, run, rfl⟩
  obtain ⟨operation, op, free, appended⟩ := appends builder value builder' run
  exact nested.setBuilder found (Builder.kind_emit appended)
    ((nested.recording found).2.2.emit (free.nests ..) appended)

theorem checked {operation : Work Recorder υ α} (h : Lexical operation) :
    Lexical (Recorder.checked operation) :=
  fun session lineage nested => ensures_checked (h session lineage nested)

/-- Entering or leaving a region. -/
theorem sameUnits {bench : Bench} {lineage : UInt32 → Lineage} (nested : bench.Nested lineage)
    {units : UnitStack (Option Recording)} (same : units.units = bench.units.units)
    (nextId : units.nextId = bench.units.nextId) (owner : units.owner = bench.units.owner) :
    bench.Continues lineage lineage { bench with units } := by
  have fresh : units.Fresh := by
    intro unit member
    rw [nextId]
    exact nested.fresh unit (same ▸ member)
  have opened := nested.opened
  rw [← same] at opened
  exact ⟨⟨nested.sharing, nested.limit, fresh, opened, nested.installed⟩,
    fun _ has => ⟨has, rfl⟩, rfl, .of_units_eq (fun _ => trivial) same nextId owner, .inl⟩

theorem nested {region : Work Recorder υ α} (h : Lexical region) :
    Lexical (Work.nested region) := by
  intro session lineage nested
  have entered : session.bench.Continues lineage lineage session.bench.enterRegion :=
    sameUnits nested rfl rfl rfl
  refine Work.ensures_nested ((h _ lineage entered.nested).mono ?_)
  rintro value session' ⟨lineage', continues⟩
  exact ⟨lineage', (entered.trans continues).trans (sameUnits continues.nested rfl rfl rfl)⟩

theorem sequenced : Sequenced (fun {α} (action : Work Recorder υ α) => Lexical action) where
  pure := pure
  bind := bind
  bench := get fun _ => pure _
  fail _ := fails _
  breakOff := fun _ _ _ => Ensures.throws

theorem compositional : Compositional (fun {α} (action : Work Recorder υ α) => Lexical action) where
  toSequenced := sequenced
  target := target
  emit operation op plain own := steady fun _ _ nested =>
    nested.emit fun _ _ _ => (plain.free own).nests ..
  emitJump operation kind := build fun builder value builder' run =>
    ⟨_, _, Op.free_jump kind 0, (Builder.emitJump_ok run).2⟩
  emitJumpBack operation kind label := build fun builder value builder' run => by
    obtain ⟨appended, emitted, same⟩ := Verifier.bind_ok run
    cases same
    exact ⟨_, _, Op.free_jump kind _, emitted⟩
  patchHere patch := sequenced.patchHere target <| steady fun _ _ nested =>
    nested.modifyBuilder (fun builder => by rw [Builder.patchHere_eq])
      fun _ _ jumps all => all.patchHere (jumps patch.kind)
  resetTo depth := steady fun _ _ nested =>
    nested.modifyBuilder (fun _ => rfl) fun _ _ _ => id
  nested := nested

end Lexical

/-- A unit whose body is nested code. Its slot gets its lineage when it opens, and the units
around are as before when it is closed. -/
theorem ensures_recordUnit_lineage {kind : UnitKind} {name : String} {arity localCount : Nat}
    {locals : List String} {body : Work Recorder υ Unit} (hbody : Lexical body)
    {session : Session Recorder υ} {lineage : UInt32 → Lineage}
    (nested : session.bench.Nested lineage) :
    Ensures (Work.recordUnit kind name arity localCount locals body) session fun slot session' =>
      session'.bench.units.units = session.bench.units.units ∧
      (0 < session.bench.program.code.size → ∃ lineage',
        session.bench.Continues lineage lineage' session'.bench ∧
        session'.bench.program.Has slot ∧
        lineage' slot = (slot, kind) ::
          if kind = .closure then lineageOf session.bench.units.units else []) := by
  refine Ensures.get (Ensures.bind (Work.ensures_runs nested.openUnit) ?_)
  rintro handle _ ⟨opened, ⟨lineage₁, payload, inside, first, hopen⟩, rfl⟩
  refine Work.ensures_cleaning (Ensures.bind (hbody _ lineage₁ inside) ?_)
  rintro _ recorded ⟨lineage₂, second⟩
  refine Work.ensures_onBench (second.nested.closeUnit.mono ?_)
  rintro slot bench' ⟨third, unit, line, has, hclose, inner⟩
  obtain ⟨units, -, -⟩ := UnitStack.units_after_close nested.fresh hopen second.units hclose
  refine ⟨units, fun positive => ?_⟩
  have first := first fun empty => absurd empty (Nat.ne_of_gt positive)
  exact ⟨lineage₂, (first.trans second).trans third, (third.has _ has).1, units ▸ inner⟩

namespace Lexical

/-- An operation is appended for a code object that was just recorded, with the units open that
were open before. -/
theorem recordBlock {scope : StaticScope} {arity : Nat} {body : Work Recorder υ Unit}
    (h : Lexical body) {session : Session Recorder υ} {lineage : UInt32 → Lineage}
    (nested : session.bench.Nested lineage) :
    Ensures (Work.recordBlock scope arity body) session fun slot session' =>
      session'.bench.units.units = session.bench.units.units ∧
      (0 < session.bench.program.code.size → ∃ lineage',
        session.bench.Continues lineage lineage' session'.bench ∧
        session'.bench.program.Has slot ∧
        lineage' slot = (slot, .closure) :: lineageOf session'.bench.units.units) := by
  refine Ensures.get ((ensures_recordUnit_lineage h nested).mono ?_)
  rintro slot session' ⟨units, recorded⟩
  refine ⟨units, fun positive => ?_⟩
  rw [units]
  exact recorded positive

/-- The block of a call is recorded before the call, with the same units around both. -/
theorem emitCall {name : String} {shape : Invocation}
    {block : Option (BlockBody (Session Recorder υ))} (h : ∀ b ∈ block, Lexical b.body) :
    Lexical (Work.emitCall name shape block) := by
  intro session lineage nested
  cases block with
  | none =>
      refine (Work.ensures_runs (nested.emitSend fun _ none => by cases none)).mono ?_
      rintro _ _ ⟨bench', ⟨continues, -⟩, rfl⟩
      exact ⟨lineage, continues⟩
  | some b =>
      refine Ensures.bind (Ensures.map (recordBlock (h b rfl) nested) some) ?_
      rintro _ recorded ⟨slot, rfl, units, inside⟩
      -- without a unit the call is refused after its block was recorded
      have same : recorded.bench.recording? = session.bench.recording? := by
        rw [Bench.recording?, Bench.recording?, UnitStack.top?, UnitStack.top?, units]
      cases found : session.bench.recording? with
      | none =>
          refine Work.ensures_onBench (Bench.ensures_target.bind ?_)
          rintro builder _ ⟨rfl, other, found'⟩
          cases (same ▸ found').symm.trans found
      | some recording =>
          have positive := Nat.lt_of_le_of_lt (Nat.zero_le _)
            (Program.has_iff.mp (nested.recording found).1)
          obtain ⟨lineage', continues, has, inner⟩ := inside positive
          refine (Work.ensures_runs (continues.nested.emitSend fun code same => ?_)).mono ?_
          · cases same
            exact ⟨has, inner⟩
          · rintro _ _ ⟨bench', ⟨continues', -⟩, rfl⟩
            exact ⟨lineage', continues.trans continues'⟩

theorem closure (scope : StaticScope) (arity : Nat) {body : Work Recorder υ Unit}
    (h : Lexical body) : Lexical (Recorder.closure scope arity body) := by
  refine checked fun session lineage nested => Ensures.bind Work.ensures_target ?_
  rintro builder session ⟨rfl, slot, found⟩
  have positive := Nat.lt_of_le_of_lt (Nat.zero_le _)
    (Program.has_iff.mp (nested.recording found).1)
  refine (recordBlock h nested).bind ?_
  rintro target recorded ⟨units, inside⟩
  obtain ⟨lineage', continues, has, inner⟩ := inside positive
  refine Work.ensures_onBench ((continues.nested.emit fun slot builder found => ?_).mono
    fun _ _ continues' => ⟨lineage', continues.trans continues'⟩)
  refine ⟨fun code same => ?_, fun code same => ?_, nofun, nofun⟩
  · cases same
    exact has
  · cases same
    rw [(continues.nested.recording found).2.1]
    exact inner

theorem defineMethod (name : String) (arity localCount : Nat) {body : Work Recorder υ Unit}
    (h : Lexical body) : Lexical (Recorder.defineMethod name arity localCount body) := by
  refine checked fun session lineage nested => Ensures.bind Work.ensures_target ?_
  rintro builder session ⟨rfl, slot, found⟩
  have positive := Nat.lt_of_le_of_lt (Nat.zero_le _)
    (Program.has_iff.mp (nested.recording found).1)
  refine (ensures_recordUnit_lineage h nested).bind ?_
  rintro target recorded ⟨units, inside⟩
  obtain ⟨lineage', continues, has, inner⟩ := inside positive
  refine Work.ensures_onBench ((continues.nested.emitPooled ?_).mono
    fun _ _ continues' => ⟨lineage', continues.trans continues'⟩)
  intro bench' position slot builder grows _ _
  refine ⟨fun code same => ?_, nofun, fun constant code same => ?_, nofun⟩
  · cases same
    exact (grows.has target has).1
  · cases same
    exact inner

theorem beginMethod (name : String) (arity localCount : Nat) :
    Lexical (Recorder.beginMethod name arity localCount : Work Recorder υ UnitHandle) := by
  refine checked fun session lineage nested => Ensures.bind Work.ensures_target ?_
  rintro builder session ⟨rfl, slot, found⟩
  refine Work.ensures_onBench (nested.openUnit.mono ?_)
  rintro handle bench' ⟨lineage', payload, -, continues, -⟩
  have positive := Nat.lt_of_le_of_lt (Nat.zero_le _)
    (Program.has_iff.mp (nested.recording found).1)
  exact ⟨lineage', continues fun empty => absurd empty (Nat.ne_of_gt positive)⟩

theorem closeUnit (handle : UnitHandle) (kind : UnitKind) :
    Lexical (Work.onBench (Bench.closeUnit handle kind) : Work Recorder υ UInt32) :=
  steady fun _ _ nested => nested.closeUnit.mono fun _ _ closed => closed.1

theorem endMethod (handle : UnitHandle) :
    Lexical (Recorder.endMethod handle : Work Recorder υ Unit) :=
  checked (bind (closeUnit handle .method) fun _ => pure ())

theorem startScript : Lexical (Recorder.startScript : Work Recorder υ Unit) := by
  have opens : Lexical (do
      setScript (.opened (← Work.onBench (Bench.openUnit .script mainName 0 0 []))) :
      Work Recorder υ Unit) := by
    refine bind (onBench fun bench lineage nested => nested.openUnit.mono ?_) fun handle =>
      modifies fun _ => rfl
    rintro handle bench' ⟨lineage', payload, -, continues, -⟩
    exact ⟨lineage', continues fun _ => rfl⟩
  exact checked (get fun _ => get fun _ => Sequenced.ite (bind (fails _) fun _ => opens) opens)

theorem endScript : Lexical (Recorder.endScript : Work Recorder υ Unit) := by
  have closes (before : Bench) : Lexical (closeScript before : Work Recorder υ Unit) := by
    refine get fun session => ?_
    cases session.backend.script with
    | notStarted | ended => exact fails _
    | opened handle =>
        exact bind (modifies fun _ => rfl) fun _ => bind (closeUnit handle .script) fun _ => pure ()
  exact checked (get fun before =>
    Sequenced.ite (bind (compositional.violate _) fun _ => closes _) (closes _))

/-- Every operation keeps bodies in agreement with their lineages if its nested code does. -/
theorem issue (operation : Operation (Session Recorder υ) α)
    (parts : ∀ part, operation.Has part → Lexical part) :
    Lexical (operation.issue (contract υ)) := by
  cases operation with
  | startScript => exact startScript
  | endScript => exact endScript
  | beginMethod name arity localCount => exact beginMethod name arity localCount
  | endMethod handle => exact endMethod handle
  | primitive p => exact checked (steady fun _ _ nested => nested.emitPrimitive p)
  | invoke name shape block =>
      exact checked (emitCall fun given same => parts _ ⟨given, same, rfl⟩)
  | control inner =>
      have emits : Lexical inner.emit := compositional.control inner parts
      cases inner <;> exact checked emits
  | closure scope arity body => exact closure scope arity (parts body rfl)
  | defineMethod name arity localCount body =>
      exact defineMethod name arity localCount (parts body rfl)

end Lexical

end Recorder

namespace Action

variable {ε : Type}

open Recorder in
/-- Every operation of a straight action keeps bodies in agreement with their lineages. -/
theorem lexical_run {onExtra : ε → Work Recorder Notes Unit} {action : Action ε}
    (h : action.Straight) : Lexical (action.run (Recorder.contract Notes) onExtra) := by
  have owned : Owned fun {α} (action : Work Recorder Notes α) => Lexical action :=
    { pure := .pure
      bind := .bind
      look := fun _ lineage nested => Ensures.get (Ensures.pure ⟨lineage, .refl nested⟩)
      note := fun _ => .modifies fun _ => rfl
      fail := .fails }
  exact h.run owned Lexical.issue

end Action

/-! ## Recorded programs -/

theorem Bench.nested_new {config : Config} (limit : config.maxPoolEntries ≤ UInt32.size)
    (owner : Nat) (lineage : UInt32 → Lineage) : (Bench.new config owner false).Nested lineage where
  sharing := rfl
  limit := limit
  fresh := by simp [UnitStack.Fresh, Bench.new, UnitStack.new]
  opened := by
    intro unit outer suffix
    cases List.suffix_nil.mp suffix
  installed := by simp [Bench.new, Program.empty, Program.code?]

/-- A verified program has no slot that was never filled. -/
theorem Program.not_placeholder_of_verify {program : Program} (verified : program.verify = .ok ())
    {code : Code} (member : code ∈ program.code) : code ≠ .placeholder := by
  rintro rfl
  obtain ⟨⟨most, ok⟩, -⟩ := verify_code verified member
  cases ok

theorem Program.filled_of_verify {program : Program} (verified : program.verify = .ok ())
    {position : UInt32} {code : Code} (found : program.code? position = some code) :
    code ≠ .placeholder :=
  not_placeholder_of_verify verified (Array.mem_of_getElem? found)

/-- Whatever was recorded, operation by operation without a failure, is nested. -/
theorem Recorder.recorded_nested {ε : Type} {action : Action ε} (straight : action.Straight)
    {onExtra : ε → Work Recorder Notes Unit} {owner : Nat} {session : Session Recorder Notes}
    (recorded : action.run (contract Notes) onExtra (new .strict owner {}) = .ok () session)
    {program : Program} (finished : Recorder.program session = .ok program) :
    ∃ lineage, program.Nested lineage := by
  have begins : (new .strict owner ({} : Notes)).bench.Nested fun _ => [] :=
    Bench.nested_new (by decide) owner _
  obtain ⟨lineage, continues⟩ := Action.lexical_run straight _ _ begins _ _ recorded
  obtain ⟨-, -, rfl, verify⟩ := program_ok finished
  have verified := verify (by rw [continues.config]; rfl)
  refine ⟨lineage, ?_, ?_, ?_⟩
  · intro position code found
    exact (continues.nested.installed position code found
      (Program.filled_of_verify verified found)).1
  · intro position code found
    exact (continues.nested.installed position code found
      (Program.filled_of_verify verified found)).2
  · intro code found
    have found' : session.bench.program.code? 0 = some code := found
    have script := (continues.first rfl).resolve_left
      (Nat.ne_of_gt (Program.has_iff.mp ⟨code, found'⟩))
    obtain ⟨⟨outer, line, -⟩, -⟩ := continues.nested.installed 0 code found'
      (Program.filled_of_verify verified found')
    rw [script] at line
    injection line with first
    injection first with _ kind
    exact kind.symm

end BlockScript
