import BlockScript.Proofs.Backend.Restored
import BlockScript.Proofs.Backend.Rooted
import BlockScript.Proofs.Backend.SameUnit

/-!
# Operations succeed while a unit is open

Every operation but the one that opens the script begins by looking for an open unit, or by
appending to it, so without an open unit none succeeds. Those that close no unit also end that
way: the last step appends to a unit or compares the number of open units with that from before.
-/

namespace BlockScript

variable {executes : Bool} {β υ α γ : Type}

namespace Bench

variable {bench bench' : Bench}

/-- Some unit is open. -/
def Occupied (bench : Bench) : Prop := bench.units.units ≠ []

theorem Occupied.of_recording {recording : Recording} (h : bench.recording? = some recording) :
    bench.Occupied := by
  obtain ⟨unit, outer, hunits, -⟩ := recording?_eq_some.mp h
  simp [Occupied, hunits]

theorem occupied_iff : bench.Occupied ↔ 0 < bench.units.size := List.length_pos_iff.symm

theorem Occupied.still (h : bench.Occupied) (still : bench.Still bench') : bench'.Occupied := by
  rw [occupied_iff] at h ⊢
  rwa [still.size]

theorem ensures_target_occupied : Ensures target bench fun _ _ => bench.Occupied :=
  ensures_target.mono fun _ _ ⟨_, _, found⟩ => .of_recording found

theorem ensures_emit_occupied (operation : String) (op : Op) :
    Ensures (emit operation op) bench fun _ _ => bench.Occupied :=
  ensures_target_occupied.first

/-- An operation without nested code is only recorded into an open unit. -/
theorem ensures_emitPrimitive_occupied (p : Primitive) :
    Ensures (emitPrimitive p) bench fun _ _ => bench.Occupied := by
  unfold emitPrimitive
  cases p.form with
  | op op => exact ensures_emit_occupied _ op
  | pooled constant op => exact ensures_target_occupied.first
  | access index depth assign =>
      refine ensures_checkScopeDepth.bind ?_
      rintro _ _ ⟨rfl, -⟩
      exact ensures_emit_occupied _ _
  | aliasMethod newName oldName => exact ensures_target_occupied.first
  | yield hasArgs =>
      exact Ensures.get (Ensures.ite (fun _ => Ensures.stop Ensures.throws)
        fun _ => ensures_target_occupied.first)
  | line line => exact ensures_target_occupied.first.first

end Bench

/-- The computation only succeeds while a unit is open, and leaves one open. -/
def Attends (action : Work β υ α) : Prop :=
  ∀ session, Ensures action session fun _ session' =>
    session.bench.Occupied ∧ session'.bench.Occupied

namespace Attends

theorem bind {first : Work β υ α} {next : α → Work β υ γ} (h₁ : Attends first)
    (h₂ : ∀ value session, Ensures (next value) session fun _ session' => session'.bench.Occupied) :
    Attends (first >>= next) :=
  fun state => (h₁ state).bind fun value state' ⟨occupied, _⟩ =>
    (h₂ value state').mono fun _ _ left => ⟨occupied, left⟩

/-- Before it, the open units may be looked at. -/
theorem after {first : Work β υ α} {next : α → Work β υ γ}
    (still : Moves (Session.Related Bench.Still) first) (h : ∀ value, Attends (next value)) :
    Attends (first >>= next) :=
  fun _ => Ensures.bind (fun _ _ run => still.ok run) fun value state' same =>
    (h value state').mono fun _ _ ⟨occupied, left⟩ => ⟨occupied.still same.symm, left⟩

/-- After it, something may follow that leaves the open units as they are. -/
theorem before {first : Work β υ α} {next : α → Work β υ γ} (h : Attends first)
    (still : ∀ value, Moves (Session.Related Bench.Still) (next value)) :
    Attends (first >>= next) :=
  fun state => (h state).bind fun value _ ⟨occupied, left⟩ => fun _ _ run =>
    ⟨occupied, left.still ((still value).ok run)⟩

theorem ite {c : Prop} [Decidable c] {yes no : Work β υ α} (h₁ : Attends yes) (h₂ : Attends no) :
    Attends (if c then yes else no) :=
  fun session => Ensures.ite (fun _ => h₁ session) fun _ => h₂ session

/-- A failure is not a success. -/
theorem refuses {action : Work β υ α} (h : ∀ session, Ensures action session fun _ _ => False) :
    Attends action :=
  fun session => (h session).mono fun _ _ => False.elim

end Attends

namespace Work

variable {session : Session β υ}

/-- A step on the bench that needs an open unit and leaves the open units as they are. -/
theorem attends_onBench {action : BenchM α} (still : Moves Bench.Still action)
    (needs : ∀ bench, Ensures action bench fun _ _ => bench.Occupied) :
    Attends (onBench action : Work β υ α) :=
  fun session => ensures_onBench fun value bench run =>
    have occupied := needs session.bench value bench run
    ⟨occupied, occupied.still (still.ok run)⟩

theorem attends_target : Attends (onBench Bench.target : Work β υ Builder) :=
  attends_onBench Bench.Appending.moves_target fun _ => Bench.ensures_target_occupied

theorem attends_emit (operation : String) (op : Op) :
    Attends (onBench (Bench.emit operation op) : Work β υ Unit) :=
  attends_onBench (Bench.still.emit _ _) fun _ => Bench.ensures_emit_occupied _ _

theorem attends_patchHere (patch : JumpPatch) : Attends (patchHere patch : Work β υ Unit) := by
  intro session
  refine (attends_target session).bind fun builder session' occupied => ?_
  cases builder.patchHere? patch with
  | some _ =>
      exact (ensures_onBench fun _ _ run =>
        occupied.2.still ((Bench.still.modifyBuilder _).ok run)).mono fun _ _ after => ⟨occupied.1, after⟩
  | none => exact Ensures.throws

theorem attends_emitJumpBack (operation : String) (kind : JumpKind) (label : Nat) :
    Attends (emitJumpBack operation kind label : Work β υ Unit) :=
  attends_onBench (Bench.still.build fun builder => .bind (builder.checked_emit _ _) fun _ => .ok _)
    fun _ => Bench.ensures_target_occupied.first

theorem attends_emitSend (operation name : String) (shape : Invocation) (block : Option UInt32) :
    Attends (onBench (Bench.emitSend operation name shape block) : Work β υ Unit) :=
  attends_onBench (Bench.still.appending.emitSend _ _ _ _)
    fun _ => Bench.ensures_target_occupied.first

/-- A unit is open once it is opened. -/
theorem ensures_openUnit_occupied (kind : UnitKind) (name : String) (arity localCount : Nat)
    (locals : List String) : Ensures (onBench (Bench.openUnit kind name arity localCount locals))
      session fun _ session' => session'.bench.Occupied := by
  refine ensures_onBench ((Bench.ends_openUnit_units _ kind name arity localCount locals).ensures.mono ?_)
  rintro _ _ ⟨unit, opened, -⟩
  simp [Bench.Occupied, opened]

/-- A unit that is recorded is closed again. -/
theorem ensures_recordUnit_still {body : Work β υ Unit} (lasts : Moves (Session.Lasts executes) body)
    {kind : UnitKind} (inner : kind ≠ .script) (name : String) (arity localCount : Nat)
    (locals : List String) (proper : session.bench.Proper executes) :
    Ensures (recordUnit kind name arity localCount locals body) session fun _ session' =>
      session.bench.Still session'.bench := by
  refine Ensures.get ((ensures_onBench fun handle bench₁ run => ?_).bind fun handle session₁
    (opens : session.bench.Lasts executes session₁.bench ∧ ∃ payload,
      session.bench.units.open kind name payload = .ok (handle, session₁.bench.units)) => ?_)
  · obtain ⟨builder, units, room, -, hopen, rfl⟩ := Bench.ends_openUnit.ok run
    exact ⟨Bench.lasts_openUnit room hopen (absurd · inner), _, hopen⟩
  · obtain ⟨opened, payload, hopen⟩ := opens
    refine ensures_cleaning (Ensures.bind (fun _ _ run => lasts.ok run) fun _ session₂ later => ?_)
    exact ensures_onBench (Bench.ends_closeUnit_opened proper.fresh hopen
      (later (opened proper).proper).units).ensures

/-- Nested code that leaves units open is refused. -/
theorem ensures_ensureSameUnit (construct : String) (before : Nat) :
    Ensures (ensureSameUnit construct before) session fun _ session' =>
      session' = session ∧ session.bench.units.size = before :=
  have ends : Ends (ensureSameUnit construct before) session
      (fun _ session' => session' = session ∧ session.bench.units.size = before) fun _ _ => True :=
    ends_ensureSameUnit (fun same => ⟨rfl, same⟩) fun _ => trivial
  ends.ensures

end Work

namespace Control

/-- An operation with nested code ends by appending to a unit. -/
theorem ensures_emit_left (control : Control (Session β υ)) (session : Session β υ) :
    Ensures control.emit session fun _ session' => session'.bench.Occupied := by
  have left {action : Work β υ Unit} (h : Attends action) (session : Session β υ) :
      Ensures action session fun _ session' => session'.bench.Occupied :=
    (h session).mono fun _ _ => And.right
  cases control with
  | branch onTrue onFalse =>
      refine Work.ensures_nested (.last fun _ _ => .last fun toElse _ => .last fun before _ =>
        .last fun _ _ => .last fun _ _ => .last fun _ _ => .last fun toEnd _ => .last fun _ _ =>
        .last fun _ _ => .last fun _ _ => .last fun _ _ => .last fun _ _ => ?_)
      exact .ite (fun _ => .last fun _ _ => left (Work.attends_patchHere _) _)
        fun _ => left (Work.attends_patchHere _) _
  | logical connective right =>
      exact Work.ensures_nested (.last fun _ _ => .last fun toEnd _ => .last fun _ _ =>
        .last fun _ _ => left (Work.attends_patchHere _) _)
  | loop condition body checkFirst =>
      exact Work.ensures_nested (.last fun _ _ => .ite
        (fun _ => .last fun _ _ => .last fun _ _ => .last fun _ _ => .last fun _ _ =>
          left (Work.attends_patchHere _) _)
        fun _ => .last fun _ _ => .last fun _ _ => left (Work.attends_emitJumpBack _ _ _) _)
  | array count element =>
      exact Work.ensures_nested (.last fun _ _ => left (Work.attends_emit _ _) _)

/-- It also begins that way. -/
theorem attends_emit (control : Control (Session β υ)) : Attends control.emit := by
  intro session value session' run
  refine ⟨?_, control.ensures_emit_left session value session' run⟩
  cases found : session.bench.recording? with
  | some recording => exact .of_recording found
  | none =>
      have refused : Ends control.emit session (fun _ _ => False) fun _ => session.Lasts true :=
        lasts_emit_refused found
      exact (refused.ok run).elim

end Control

/-- An operation that closes no unit, and does not open the script. -/
def Operation.Stays {σ : Type} : Operation σ α → Prop
  | .startScript | .endScript | .endMethod _ => False
  | _ => True

/-! ## The immediate backend -/

namespace Interpreter

theorem attends_ensureOpen : Attends (ensureOpen : Work Interpreter υ Unit) := by
  refine fun session => Ensures.get (Ensures.ite (fun _ => ?_) fun some_open => ?_)
  · exact Ensures.get Ensures.throws
  · have occupied : session.bench.Occupied := by simpa [Bench.Occupied] using some_open
    exact Ensures.pure ⟨occupied, occupied⟩

theorem attends_perform (fuel : Nat) (operation : String) (op : Op) :
    Attends (perform fuel operation op : Work Interpreter υ Unit) := by
  have still : Moves (Session.Related Bench.Still)
      (perform fuel operation op : Work Interpreter υ Unit) :=
    moves_perform (Work.moves_onBench (Bench.still.emit operation op)) fuel
  intro session value session' run
  have occupied : session.bench.Occupied :=
    (attends_ensureOpen session).mono (fun _ _ => And.left) |>.first value session' run
  exact ⟨occupied, occupied.still (still.ok run)⟩

theorem attends_primitive (fuel : Nat) (p : Primitive) :
    Attends (primitive fuel p : Work Interpreter υ Unit) := by
  have interns (constant : Constant) : Moves (Session.Related Bench.Still)
      (Work.onBench (Bench.intern constant) : Work Interpreter υ UInt32) :=
    Work.moves_onBench (Bench.still.appending.intern constant)
  unfold primitive
  split
  · exact attends_perform _ _ _
  · rename_i constant op form
    have pooled : Attends (do
        perform fuel p.operation (op (← Work.onBench (Bench.intern constant))) :
          Work Interpreter υ Unit) :=
      .after (interns constant) fun _ => attends_perform _ _ _
    split
    · exact .after moves_ensureOpen fun _ => .after moves_recording fun _ =>
        .after (fun session => refl_of (Session.Related Bench.Still) session) fun _ => .ite
          (.after Work.moves_bench fun _ => .refuses fun _ => Ensures.stop Ensures.throws) pooled
    · exact pooled
  · exact .after (Work.moves_onBench (Bench.still.appending.checkScopeDepth _))
      fun _ => attends_perform _ _ _
  · exact .after (interns _) fun _ => .after (interns _) fun _ => attends_perform _ _ _
  · exact attends_ensureOpen.before fun _ =>
      Work.moves_onBench (Bench.still.appending.emitYield _ _)
  · rename_i line form
    have sets : Moves (Session.Related Bench.Still) (Work.modifyBench fun bench =>
        { bench with line := some line } : Work Interpreter υ Unit) := .modifies fun _ => rfl
    exact attends_ensureOpen.before fun _ => moves_recording.bind fun _ => .ite
      (fun _ => (Work.moves_onBench (Bench.still.setLine _)).bind fun _ => sets) fun _ => sets

/-- A computation that leaves a unit open if one is open before it. -/
def Stays (action : Work Interpreter υ α) : Prop :=
  ∀ session, session.bench.Occupied → Ensures action session fun _ session' =>
    session'.bench.Occupied

namespace Stays

theorem of_still {action : Work Interpreter υ α} (still : Moves (Session.Related Bench.Still) action) :
    Stays action :=
  fun _ occupied _ _ run => occupied.still (still.ok run)

theorem bind {first : Work Interpreter υ α} {next : α → Work Interpreter υ γ} (h₁ : Stays first)
    (h₂ : ∀ value, Stays (next value)) : Stays (first >>= next) :=
  fun session occupied => (h₁ session occupied).bind fun value session' occupied' =>
    h₂ value session' occupied'

theorem ite {c : Prop} [Decidable c] {yes no : Work Interpreter υ α} (h₁ : Stays yes)
    (h₂ : Stays no) : Stays (if c then yes else no) :=
  fun session occupied => Ensures.ite (fun _ => h₁ session occupied) fun _ => h₂ session occupied

theorem nested {region : Work Interpreter υ α} (h : Stays region) : Stays (Work.nested region) :=
  fun _ occupied => Work.ensures_nested (h _ occupied)

/-- As many units are open after nested code as before it. -/
theorem ensureSameUnit (construct : String) {before : Nat} (positive : 0 < before)
    (session : Session Interpreter υ) : Ensures (Work.ensureSameUnit construct before) session
      fun _ session' => session'.bench.Occupied := by
  refine (Work.ensures_ensureSameUnit construct before).mono ?_
  rintro _ _ ⟨rfl, same⟩
  exact Bench.occupied_iff.mpr (same ▸ positive)

theorem runRegion (construct : String) (allowed : DepthTracker.Allowance)
    (region : Work Interpreter υ Unit) : Stays (runRegion construct allowed region) := by
  refine fun session occupied => Ensures.get (Ensures.get ?_)
  refine .last fun _ session₁ => (ensureSameUnit construct (Bench.occupied_iff.mp occupied)
    session₁).bind fun _ => of_still ?_
  exact moves_stack.bind fun _ => Work.moves_bench.bind fun _ => .ite
    (fun _ => (Work.moves_violate _).bind fun _ => .pure _) fun _ => .pure _

theorem passes (condition body : Work Interpreter υ Unit) (fuel : Nat) (test : Bool) :
    Stays (passes condition body fuel test) := by
  induction fuel generalizing test with
  | zero => exact of_still (.throws _)
  | succ fuel ih =>
      have pass (goOn : Bool) : Stays (do
          if goOn then
            let produced ← Interpreter.runRegion (Work.loopOperation ++ " body") .atMostOne body
            drop Work.loopOperation produced.toNat
            Interpreter.passes condition body fuel true : Work Interpreter υ Unit) :=
        .ite ((runRegion _ _ body).bind fun _ => (of_still (moves_drop _ _)).bind fun _ => ih true)
          (of_still (.pure ()))
      exact .ite ((runRegion _ _ condition).bind fun _ => (of_still (moves_pop _)).bind fun _ => pass _)
        (pass true)

theorem forEachIndex {action : Nat → Work Interpreter υ Unit} (h : ∀ index, Stays (action index))
    (first count : Nat) : Stays (Work.forEachIndex action first count) := by
  induction count generalizing first with
  | zero => exact of_still (.pure ())
  | succ count ih => exact (h first).bind fun _ => ih (first + 1)

/-- An operation is recorded or carried out, while a unit is open. -/
theorem either {recorded live : Work Interpreter υ Unit} (h₁ : Stays recorded) (h₂ : Stays live) :
    Attends (do ensureOpen; if ← recording then recorded else live) := by
  have stays : Stays (do if ← recording then recorded else live) :=
    (of_still moves_recording).bind fun _ => .ite h₁ h₂
  refine fun session => (attends_ensureOpen session).bind fun _ session' ⟨occupied, occupied'⟩ => ?_
  exact (stays session' occupied').mono fun _ _ left => ⟨occupied, left⟩

end Stays

/-- An operation with nested code is carried out while a unit is open. -/
theorem attends_control (control : Control (Session Interpreter υ)) (fuel : Nat) :
    Attends (control.issue (contract υ fuel)) := by
  have emits : Stays control.emit := fun session _ => control.ensures_emit_left session
  cases control with
  | branch onTrue onFalse =>
      refine Stays.either emits ((Stays.of_still (moves_pop _)).bind fun condition session occupied => ?_)
      exact Ensures.get (.last fun _ _ => Stays.ensureSameUnit _ (Bench.occupied_iff.mp occupied) _)
  | logical connective right =>
      refine Stays.either emits ((Stays.of_still moves_stack).bind fun values => ?_)
      cases values with
      | nil => exact .of_still (Work.moves_violate _)
      | cons left rest =>
          exact .ite ((Stays.of_still (moves_pop _)).bind fun _ =>
            .nested ((Stays.runRegion _ _ right).bind fun _ => .of_still (.pure _)))
            (.of_still (.pure _))
  | loop condition body checkFirst =>
      exact Stays.either emits (.nested (.passes condition body fuel checkFirst))
  | array count element =>
      refine Stays.either emits (Stays.bind (.nested (.forEachIndex (fun index =>
        (Stays.runRegion _ _ (element index)).bind fun _ => .of_still (.pure _)) 0 count)) fun _ => ?_)
      exact fun session _ => (attends_perform _ _ _ session).mono fun _ _ => And.right

/-- An operation that closes no unit is carried out while a unit is open. -/
theorem attends_issue {operation : Operation (Session Interpreter υ) α} (other : operation.Stays)
    (fuel : Nat) : Attends (operation.issue (contract υ fuel)) := by
  have left {action : Work Interpreter υ Unit} (h : Attends action)
      (session : Session Interpreter υ) :
      Ensures action session fun _ session' => session'.bench.Occupied :=
    (h session).mono fun _ _ => And.right
  cases operation with
  | startScript => exact other.elim
  | endScript => exact other.elim
  | endMethod handle => exact other.elim
  | beginMethod name arity localCount =>
      exact attends_ensureOpen.bind fun _ _ => Work.ensures_openUnit_occupied _ _ _ _ _
  | primitive p => exact attends_primitive fuel p
  | control inner => exact attends_control inner fuel
  | invoke name shape block =>
      have calls (session : Session Interpreter υ) : Ensures (do
          let block ← Work.recordBlock? block
          let position ← Work.onBench (Bench.intern (.name name))
          perform fuel Work.callOperation
            (.send position shape.argc.toUInt32 shape.hasReceiver block)) session
          fun _ session' => session'.bench.Occupied :=
        .last fun _ _ => .last fun _ _ => left (attends_perform _ _ _) _
      refine Stays.either (fun session _ => .last fun _ _ => left (Work.attends_emitSend _ _ _ _) _)
        fun session _ => .last fun values session' => .ite (fun _ => .last fun _ _ => calls _)
          fun _ => calls _
  | closure scope arity body =>
      exact attends_ensureOpen.bind fun _ _ => .last fun _ _ => left (attends_perform _ _ _) _
  | defineMethod name arity localCount body =>
      exact attends_ensureOpen.bind fun _ _ => .last fun _ _ => .last fun _ _ =>
        left (attends_perform _ _ _) _

end Interpreter

/-! ## The bytecode backend -/

namespace Recorder

/-- The block of a call that is issued while no unit is open is closed again before the call
looks for a unit. -/
theorem ensures_emitCall_occupied (name : String) (shape : Invocation)
    {block : Option (BlockBody (Session Recorder υ))}
    (lasts : ∀ given, block = some given → Moves (Session.Lasts false) given.body)
    {session : Session Recorder υ} (proper : session.bench.Proper false) :
    Ensures (Work.emitCall name shape block) session fun _ session' =>
      session.bench.Occupied ∧ session'.bench.Occupied := by
  have records : Ensures (Work.recordBlock? block) session fun _ session' =>
      session'.bench.Occupied → session.bench.Occupied := by
    cases block with
    | none => exact Ensures.pure id
    | some given =>
        refine Ensures.bind (Ensures.get (Work.ensures_recordUnit_still (lasts given rfl) (by nofun)
          _ _ _ _ proper)) fun _ _ still => ?_
        exact Ensures.pure fun occupied => occupied.still still.symm
  refine records.bind fun slot session' back => ?_
  exact (Work.attends_emitSend _ _ _ _ session').mono fun _ _ ⟨occupied, left⟩ =>
    ⟨back occupied, left⟩

/-- An operation that closes no unit is carried out while a unit is open. -/
theorem ensures_issue_occupied {operation : Operation (Session Recorder υ) α}
    (other : operation.Stays) (lasts : ∀ part, operation.Has part → Moves (Session.Lasts false) part)
    {session : Session Recorder υ} (proper : session.bench.Proper false) :
    Ensures (operation.issue (contract υ)) session fun _ session' =>
      session.bench.Occupied ∧ session'.bench.Occupied := by
  have left {action : Work Recorder υ Unit} (h : Attends action) (session : Session Recorder υ) :
      Ensures action session fun _ session' => session'.bench.Occupied :=
    (h session).mono fun _ _ => And.right
  cases operation with
  | startScript => exact other.elim
  | endScript => exact other.elim
  | endMethod handle => exact other.elim
  | beginMethod name arity localCount =>
      exact ensures_checked (Work.attends_target.bind
        (fun _ _ => Work.ensures_openUnit_occupied _ _ _ _ _) session)
  | primitive p =>
      exact ensures_checked (Work.attends_onBench (Bench.still.emitPrimitive p)
        (fun _ => Bench.ensures_emitPrimitive_occupied p) session)
  | control inner =>
      have emits := ensures_checked (inner.attends_emit session)
      cases inner <;> exact emits
  | invoke name shape block =>
      exact ensures_checked (ensures_emitCall_occupied name shape
        (fun given h => lasts _ ⟨given, h, rfl⟩) proper)
  | closure scope arity body =>
      exact ensures_checked (Work.attends_target.bind
        (fun _ _ => .last fun _ _ => left (Work.attends_emit _ _) _) session)
  | defineMethod name arity localCount body =>
      have defines (slot : UInt32) : Attends (Work.onBench (Bench.emitNamed Work.defineOperation
          name fun name => .defineMethod name slot) : Work Recorder υ Unit) :=
        Work.attends_onBench (Bench.still.appending.emitPooled _ _ (fun _ => rfl) fun _ => rfl)
          fun _ => Bench.ensures_target_occupied.first
      exact ensures_checked (Work.attends_target.bind
        (fun _ _ => .last fun _ _ => left (defines _) _) session)

end Recorder

/-! ## Both backends -/

namespace Backend

variable {backend : Backend} {session : Session backend.State υ}

/-- An operation that closes no unit is carried out while a unit is open, and leaves one open. -/
theorem ensures_issue_occupied {operation : Operation (Session backend.State υ) α}
    (other : operation.Stays)
    (lasts : ∀ part, operation.Has part → Moves (Session.Lasts backend.executes) part)
    (proper : session.bench.Proper backend.executes) :
    Ensures (operation.issue (backend.contract υ)) session fun _ session' =>
      session.bench.Occupied ∧ session'.bench.Occupied := by
  cases backend with
  | recording => exact Recorder.ensures_issue_occupied other lasts proper
  | immediate fuel => exact Interpreter.attends_issue other fuel session

end Backend

end BlockScript
