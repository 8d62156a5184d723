import BlockScript.Proofs.Backend.Bodies
import BlockScript.Proofs.Backend.Checking
import BlockScript.Proofs.Backend.Verified

/-!
# Units that are closed with one value

A computation completes another one if it does with checks what that one does without them, and
takes and leaves a number of values that can be read off it. Bodies make the difference: a body
may be closed with any number of values, and the one that completes it goes on until there is one
value. The code that is recorded for both is the same, since a unit that is closed drops what there
is too much of, and pushes nil if there is nothing.
-/

namespace BlockScript

variable {υ α : Type}

/-! ## Steps of both backends -/

namespace Work

variable {β γ : Type} {session : Session β υ}

/-- What comes after a look at the innermost recording. -/
theorem repeats_target {next next' : Builder → Work β υ γ}
    (h : ∀ recording, session.bench.recording? = some recording →
      Repeats Session.checking (next recording.builder) (next' (recording.builder.under true))
        session) :
    Repeats Session.checking (onBench Bench.target >>= next) (onBench Bench.target >>= next')
      session := by
  refine ensures_target.bind ?_
  rintro builder session ⟨rfl, slot, found⟩ value session' run
  have found' : session.checking.bench.recording? = _ := Bench.checking_found found
  exact (run_bind_ok (onBench_ok (Bench.target_eq found'))).trans (h _ found value session' run)

end Work

/-- The same units are open. -/
theorem Page.ids {β : Type} {start session : Session β υ} {unit : OpenUnit (Option Recording)}
    {outer : List (OpenUnit (Option Recording))} {slot : UInt32} {builder : Builder}
    (page : Page start unit outer slot builder session)
    (hunits : start.bench.units.units = unit :: outer) :
    session.bench.units.ids = start.bench.units.ids := by
  rw [UnitStack.ids, UnitStack.ids, page.units, hunits]
  rfl

theorem Recorder.repeats_checked {session : Session Recorder υ} {operation operation' : Work Recorder υ α}
    (h : Repeats Session.checking operation operation' session) :
    Repeats Session.checking (checked operation) (checked operation') session := by
  intro value session' run
  unfold checked at run ⊢
  cases poisoned : session.backend.poisoned with
  | some error =>
      simp only [poisoned] at run
      cases run
  | none =>
      have poisoned' : session.checking.backend.poisoned = none := poisoned
      simp only [poisoned] at run
      simp only [poisoned']
      cases result : operation session with
      | error halt state => cases halt <;> simp only [result] at run <;> cases run
      | ok value' state =>
          simp only [result] at run
          cases run
          simp only [h value session' result]

/-- Nothing has failed, so the operation is not refused. -/
theorem Recorder.checked_ok {operation : Work Recorder υ α} {session session' : Session Recorder υ}
    {value : α} (unpoisoned : session.backend.poisoned = none)
    (run : operation session = .ok value session') :
    checked operation session = .ok value session' := by
  unfold checked
  simp only [unpoisoned, run]

/-- The guard lets code pass that closes no unit around it. -/
theorem Recorder.keeping_ok {region : Work Recorder υ Unit} {session session' : Session Recorder υ}
    (run : region session = .ok () session')
    (same : session'.bench.units.ids = session.bench.units.ids) :
    keeping region session = .ok () session' := by
  have looked (session : Session Recorder υ) :
      (Work.bench : Work Recorder υ Bench) session = .ok session.bench session := rfl
  have kept : (session.bench.units.ids.any fun id => decide (id ∉ session.bench.units.ids)) = false := by
    simp
  unfold keeping
  rw [run_bind_ok (looked _), run_bind_ok run, run_bind_ok (looked _), same]
  simp only [kept]
  rfl

namespace Interpreter

variable {session : Session Interpreter υ} {fuel : Nat}

theorem repeats_ensureOpen {next next' : Work Interpreter υ α}
    (h : Repeats Session.checking next next' session) :
    Repeats Session.checking (do ensureOpen; next) (do ensureOpen; next') session := by
  have opens : Repeats Session.checking (ensureOpen : Work Interpreter υ Unit) ensureOpen session := by
    refine Work.repeats_bench ?_
    rw [Bench.checking_isEmpty]
    exact .ite (fun _ => Work.repeats_violate) fun _ => .pure ()
  have still : Ensures (ensureOpen : Work Interpreter υ Unit) session
      fun _ session' => session' = session :=
    Ensures.get (.ite (fun _ => .get .throws) fun _ => .pure rfl)
  refine opens.bind fun _ session' run _ => ?_
  obtain rfl := still _ _ run
  exact h

/-- What comes after it was found out whether the innermost unit is recorded. -/
theorem repeats_recording {next next' : Bool → Work Interpreter υ α}
    (h : Repeats Session.checking (next session.bench.recording?.isSome)
      (next' session.bench.recording?.isSome) session) :
    Repeats Session.checking (recording >>= next) (recording >>= next') session := by
  have same : session.checking.bench.recording?.isSome = session.bench.recording?.isSome := by
    change session.bench.checking.recording?.isSome = _
    rw [Bench.checking_recording?, Option.isSome_map]
  intro value session' run
  rw [run_bind_ok (recording_eq _)] at run ⊢
  rw [same]
  exact h value session' run

/-- What is recorded, and what is carried out where nothing is recorded. -/
theorem repeats_either {recorded recorded' live live' : Work Interpreter υ Unit}
    (h₁ : session.bench.recording?.isSome = true → Repeats Session.checking recorded recorded' session)
    (h₂ : session.bench.recording? = none → Repeats Session.checking live live' session) :
    Repeats Session.checking (do ensureOpen; if ← recording then recorded else live)
      (do ensureOpen; if ← recording then recorded' else live') session :=
  repeats_ensureOpen (repeats_recording (.ite h₁ fun none =>
    h₂ (Option.not_isSome_iff_eq_none.mp none)))

/-- An operation of the machine does not depend on how stacks are checked. -/
theorem repeats_execute (op : Op) (line : Option UInt32) :
    Repeats Session.checking (execute fuel op line : Work Interpreter υ Unit) (execute fuel op line)
      session := by
  obtain ⟨bench, ⟨limits, world, top, script, result⟩, client⟩ := session
  intro value session' run
  unfold execute at run ⊢
  have same : bench.checking.program = bench.program := rfl
  simp only [Session.checking, same]
  cases completed : Machine.complete bench.program limits fuel op (top, world) with
  | error halt state => cases halt <;> simp only [completed] at run <;> cases run
  | ok flow state =>
      simp only [completed] at run ⊢
      cases run
      rfl

theorem repeats_perform {operation : String} {op : Op} (enough : session.bench.Offers op.pops) :
    Repeats Session.checking (perform fuel operation op : Work Interpreter υ Unit)
      (perform fuel operation op) session := by
  refine repeats_either (fun _ => Work.repeats_onBench (Bench.repeats_emit enough)) fun _ => ?_
  refine .get (.ite (fun _ => Ensures.stop (Ensures.get Ensures.throws)) fun _ => ?_)
  refine Work.repeats_bench ?_
  rw [Bench.checking_currentLine]
  exact repeats_execute op _

/-- A constant joins the pool in the same way. -/
theorem repeats_intern {constant : Constant} {next next' : UInt32 → Work Interpreter υ α}
    (h : ∀ position session', session'.bench.recording? = session.bench.recording? →
      Repeats Session.checking (next position) (next' position) session') :
    Repeats Session.checking (Work.onBench (Bench.intern constant) >>= next)
      (Work.onBench (Bench.intern constant) >>= next') session := by
  refine (Work.repeats_onBench (Bench.repeats_intern constant)).bind fun position session' run _ => ?_
  obtain ⟨_, ⟨constants, -, rfl⟩, rfl⟩ := Work.ensures_runs Bench.ensures_intern _ _ run
  exact h position _ rfl

theorem repeats_primitive (p : Primitive) (enough : session.bench.Offers p.taken) :
    Repeats Session.checking (primitive fuel p : Work Interpreter υ Unit) (primitive fuel p) session := by
  have acts := p.acts_form
  unfold primitive
  cases form : p.form with
  | op single =>
      obtain ⟨-, straight⟩ : _ ∧ _ := form ▸ acts
      exact repeats_perform (straight.pops ▸ enough)
  | pooled constant make =>
      obtain ⟨-, straight⟩ : _ ∧ _ := form ▸ acts
      have pooled : Repeats Session.checking (do
            perform fuel p.operation (make (← Work.onBench (Bench.intern constant))))
          (do perform fuel p.operation (make (← Work.onBench (Bench.intern constant)))) session :=
        repeats_intern fun position session' same =>
          repeats_perform ((straight position).pops ▸ enough.congr same)
      dsimp only
      split
      · refine repeats_ensureOpen (repeats_recording (.get (.ite (fun _ => ?_) fun _ => pooled)))
        exact Ensures.get (Ensures.stop Ensures.throws)
      · exact pooled
  | access index depth assign =>
      obtain ⟨-, straight⟩ : _ ∧ _ := form ▸ acts
      refine (Work.repeats_onBench (Bench.repeats_checkScopeDepth depth)).bind fun _ session' run _ => ?_
      obtain ⟨_, ⟨rfl, -⟩, rfl⟩ := Work.ensures_runs Bench.ensures_checkScopeDepth _ _ run
      exact repeats_perform (straight.pops ▸ enough)
  | aliasMethod newName oldName =>
      exact repeats_intern fun _ _ _ => repeats_intern fun _ _ _ =>
        repeats_perform fun _ _ => Nat.zero_le _
  | yield hasArgs =>
      obtain ⟨-, taken, -⟩ : _ ∧ _ ∧ _ := form ▸ acts
      exact repeats_ensureOpen (Work.repeats_onBench (Bench.repeats_emitYield (taken ▸ enough)))
  | line line =>
      exact repeats_ensureOpen (repeats_recording (.ite
        (fun _ => (Work.repeats_onBench (Bench.repeats_setLine line)).bind
          fun _ _ _ _ => Work.repeats_modifyBench rfl)
        fun _ => Work.repeats_modifyBench rfl))

end Interpreter

/-! ## Computations in a unit that is recorded -/

namespace Backend

variable {backend : Backend} {height taken given count taken' given' count' : Nat}

/-- A session that may go on, where the unit that is recorded has that many values. -/
structure Stands (backend : Backend) (height : Nat) (session : Session backend.State υ) : Prop where
  prepared : backend.Prepared session
  recording : ∃ recording, session.bench.recording? = some recording ∧
    recording.builder.depth = height

namespace Stands

variable {session session' : Session backend.State υ}

theorem found (stands : backend.Stands height session.checking) :
    ∃ recording, session.bench.recording? = some recording ∧ recording.builder.depth = height := by
  obtain ⟨_, checked, depth⟩ := stands.recording
  obtain ⟨recording, found, rfl⟩ := Option.map_eq_some_iff.mp
    (Bench.checking_recording?.symm.trans checked)
  exact ⟨recording, found, depth⟩

theorem depth (stands : backend.Stands height session.checking) {recording : Recording}
    (found : session.bench.recording? = some recording) : recording.builder.depth = height := by
  obtain ⟨other, found', depth⟩ := stands.found
  obtain rfl := Option.some.inj (found.symm.trans found')
  exact depth

theorem offers (stands : backend.Stands height session.checking) (enough : count ≤ height) :
    session.bench.Offers count :=
  fun _ found => stands.depth found ▸ enough

theorem intact (stands : backend.Stands height session) (intact : session.Intact session') :
    backend.Stands height session' := by
  refine ⟨stands.prepared.beside intact.beside intact.backend, ?_⟩
  obtain ⟨recording, found, depth⟩ := stands.recording
  refine ⟨recording, ?_, depth⟩
  rw [Bench.recording?, UnitStack.top?, intact.units]
  exact found

/-- A computation that finds its operands has taken and left its values in the same unit. -/
theorem ensures_writes (stands : backend.Stands height session) {work : Work backend.State υ Unit}
    (writes : backend.Writes taken given count work) (enough : taken ≤ height)
    (room : height + count < 2 ^ 63) :
    Ensures work session fun _ session' => backend.Stands (height - taken + given) session' ∧
      session'.bench.units.ids = session.bench.units.ids := by
  obtain ⟨⟨slot, builder⟩, found, rfl⟩ := stands.recording
  obtain ⟨unit, outer, hunits, payload⟩ := Bench.recording?_eq_some.mp found
  refine (writes.ends stands.prepared hunits payload enough room).ensures.mono ?_
  rintro _ session' ⟨builder', wrote, page⟩
  exact ⟨⟨page.still_prepared stands.prepared, _, page.found, wrote.depth⟩, page.ids hunits⟩

/-- A unit that was just opened has no value yet. -/
theorem ensures_openUnit (prepared : backend.Prepared session) (kind : UnitKind) (name : String)
    (arity localCount : Nat) (locals : List String) :
    Ensures (Work.onBench (Bench.openUnit kind name arity localCount locals)) session
      fun _ session' => backend.Stands 0 session' := by
  refine Work.ensures_onBench ((Bench.ends_openUnit_fresh kind name arity localCount locals).ensures.mono ?_)
  rintro handle bench' ⟨-, beside, slot, builder, -, -, stack, hunits⟩
  refine ⟨prepared.beside beside rfl, _, Bench.recording?_eq_some.mpr ⟨_, _, hunits, rfl⟩, ?_⟩
  change builder.stack.depth = 0
  rw [stack]
  rfl

end Stands

/-- Wherever a unit is recorded, the second computation does with checks what the first one does
without them, and it takes and leaves that many values. -/
structure Completes (backend : Backend) (taken given count : Nat)
    (work work' : Work backend.State υ Unit) : Prop where
  writes : backend.Writes taken given count work'
  repeats {session : Session backend.State υ} {height : Nat} :
    backend.Stands height session.checking → taken ≤ height → height + count < 2 ^ 63 →
    Repeats Session.checking work work' session

/-- The second body does with checks what the first one does without them, until its unit has one
value. -/
structure Finishes (backend : Backend) (body body' : Work backend.State υ Unit) : Prop where
  fits : backend.Fits body'
  closes {session : Session backend.State υ} : backend.Stands 0 session.checking →
    ∀ (handle : UnitHandle) (kind : UnitKind), Repeats Session.checking
      (do body; Work.onBench (Bench.closeUnit handle kind))
      (do body'; Work.onBench (Bench.closeUnit handle kind)) session

/-! ## Nested code that closes no unit around it -/

/-- Nested code is guarded where the backend only records. -/
def guard : (backend : Backend) → Work backend.State υ Unit → Work backend.State υ Unit
  | recording, part => Recorder.keeping part
  | immediate _, part => part

/-- What the backend offers, for nested code that is guarded. -/
def guarded (υ : Type) : (backend : Backend) → Contract (Session backend.State υ)
  | recording => Recorder.guarded υ
  | immediate fuel => Interpreter.contract υ fuel

theorem guard_ok {work : Work backend.State υ Unit} {session session' : Session backend.State υ}
    (run : work session = .ok () session')
    (same : session'.bench.units.ids = session.bench.units.ids) :
    backend.guard work session = .ok () session' := by
  cases backend with
  | recording => exact Recorder.keeping_ok run same
  | immediate fuel => exact run

theorem Writes.guard {work : Work backend.State υ Unit}
    (h : backend.Writes taken given count work) :
    backend.Writes taken given count (backend.guard work) := by
  cases backend with
  | immediate fuel => exact h
  | recording =>
      refine ⟨h.counts, fun prepared hunits payload enough room => ?_⟩
      refine Ends.get ((h.ends prepared hunits payload enough room).bind ?_)
      rintro _ session' ⟨builder', wrote, page⟩
      refine Ends.get (Ends.ite (fun lost => ?_) fun _ => Ends.pure ⟨builder', wrote, page⟩)
      have same := page.ids hunits
      rw [same] at lost
      simp at lost

theorem Completes.guard {work work' : Work backend.State υ Unit}
    (h : backend.Completes taken given count work work') :
    backend.Completes taken given count work (backend.guard work') where
  writes := h.writes.guard
  repeats stands enough room := by
    intro _ session' run
    have again := h.repeats stands enough room () session' run
    exact guard_ok again (stands.ensures_writes h.writes enough room _ _ again).2

theorem Finishes.guard {body body' : Work backend.State υ Unit} (h : backend.Finishes body body') :
    backend.Finishes body (backend.guard body') where
  fits := by
    obtain ⟨count, short, writes⟩ := h.fits
    exact ⟨count, short, writes.guard⟩
  closes stands handle kind := by
    obtain ⟨count, short, writes⟩ := h.fits
    intro installed session' run
    obtain ⟨_, session₁, records, closes⟩ := run_of_bind (h.closes stands handle kind _ _ run)
    refine (run_bind_ok (guard_ok records ?_)).trans closes
    exact (stands.ensures_writes writes (Nat.zero_le _) (by omega) _ _ records).2

namespace Completes

variable {work work' next next' : Work backend.State υ Unit}

theorem cast (h : backend.Completes taken given count work work') (same : given = given')
    (same' : count = count') : backend.Completes taken given' count' work work' :=
  same ▸ same' ▸ h

/-- What is below the operands stays there. -/
theorem frame (h : backend.Completes taken given count work work') {whole : Nat}
    (enough : taken ≤ whole) : backend.Completes whole (whole - taken + given) count work work' where
  writes := h.writes.frame enough
  repeats stands covered room := h.repeats stands (Nat.le_trans enough covered) room

theorem skip : backend.Completes 0 0 0 (pure () : Work backend.State υ Unit) (pure ()) where
  writes := .pure
  repeats _ _ _ := .pure ()

/-- One after the other, where the second one takes nothing that the first one has not left. -/
theorem seq (h₁ : backend.Completes taken given count work work')
    (h₂ : backend.Completes taken' given' count' next next') (owned : taken' ≤ given) :
    backend.Completes taken (given - taken' + given') (count + count') (do work; next)
      (do work'; next') where
  writes := h₁.writes.seq h₂.writes owned
  repeats stands enough room := by
    have counts := h₁.writes.counts
    refine (h₁.repeats stands enough (by omega)).bind fun _ session₁ _ again => ?_
    obtain ⟨stands₁, -⟩ := stands.ensures_writes h₁.writes enough (by omega) _ _ again
    exact h₂.repeats stands₁ (by omega) (by omega)

/-- What comes before changes nothing. -/
theorem after {first first' : Work backend.State υ α} {next next' : α → Work backend.State υ Unit}
    (spares : backend.Spares first')
    (again : ∀ {session : Session backend.State υ} {height : Nat},
      backend.Stands height session.checking → Repeats Session.checking first first' session)
    (counts : given ≤ taken + count)
    (h : ∀ value, backend.Completes taken given count (next value) (next' value)) :
    backend.Completes taken given count (first >>= next) (first' >>= next') where
  writes := .after spares counts fun value => (h value).writes
  repeats stands enough room := by
    refine (again stands).bind fun value session₁ _ run => (h value).repeats ?_ enough room
    obtain ⟨recording, found, -⟩ := stands.recording
    exact stands.intact ((spares.ends stands.prepared found).ok run)

/-- A region one level deeper. -/
theorem nested (h : backend.Completes taken given count work work') :
    backend.Completes taken given count (Work.nested work) (Work.nested work') where
  writes := h.writes.nested
  repeats stands enough room := Work.repeats_nested (h.repeats ⟨⟨stands.prepared.unpoisoned,
    stands.prepared.checks, stands.prepared.sharing⟩, stands.recording⟩ enough room)

/-- An operation that control goes past. -/
theorem emit {operation : String} {op : Op} (straight : op.Straight taken given) :
    backend.Completes taken given 1 (Work.onBench (Bench.emit operation op) :
      Work backend.State υ Unit) (Work.onBench (Bench.emit operation op)) where
  writes := .emitStraight straight
  repeats stands enough _ := Work.repeats_onBench
    (Bench.repeats_emit (stands.offers (straight.pops ▸ enough)))

theorem emitPooled {operation : String} {constant : Constant} {make : UInt32 → Op}
    (straight : ∀ position, (make position).Straight taken given) :
    backend.Completes taken given 1
      (Work.onBench (Bench.emitPooled operation constant make) : Work backend.State υ Unit)
      (Work.onBench (Bench.emitPooled operation constant make)) where
  writes := .emitPooled straight
  repeats stands enough _ := Work.repeats_onBench
    (Bench.repeats_emitPooled (fun position => (straight position).pops) (stands.offers enough))

/-- A call takes its arguments, and its receiver if it has one. -/
theorem emitSend (name : String) {shape : Invocation} (few : shape.argc < 2 ^ 31)
    (block : Option UInt32) : backend.Completes shape.consumed 1 1
      (Work.onBench (Bench.emitSend Work.callOperation name shape block) : Work backend.State υ Unit)
      (Work.onBench (Bench.emitSend Work.callOperation name shape block)) where
  writes := .emitSend few _ name block
  repeats stands enough _ :=
    Work.repeats_onBench (Bench.repeats_emitSend few block (stands.offers enough))

/-- A region that leaves one value leaves as many as it owes, and this is found by both. -/
theorem repeats_runRegion (h : backend.Completes 0 1 count work work')
    {session : Session backend.State υ} (stands : backend.Stands height session.checking)
    (room : height + count < 2 ^ 63) (construct : String) {allowed : DepthTracker.Allowance}
    (admits : allowed.admits 1 = true) : Repeats Session.checking
      (Work.runRegion construct allowed work) (Work.runRegion construct allowed work') session := by
  have counts := h.writes.counts
  refine Work.repeats_bench ?_
  rw [Bench.checking_size]
  refine Work.repeats_target fun recording found => ?_
  obtain rfl := stands.depth found
  refine (h.repeats stands (Nat.zero_le _) room).bind fun _ session₁ _ again => ?_
  obtain ⟨stands₁, -⟩ := stands.ensures_writes h.writes (Nat.zero_le _) room _ _ again
  refine Work.repeats_ensureSameUnit construct _ (Work.repeats_bench ?_)
  rw [Bench.checking_currentLine]
  refine Work.repeats_target fun recording₁ found₁ => ?_
  have depth : recording₁.builder.stack.depth = recording.builder.depth + 1 := stands₁.depth found₁
  have produced : recording₁.builder.stack.deltaSince recording.builder.depth = 1 := by
    simp only [DepthTracker.deltaSince, DepthTracker.signed, depth]
    rw [if_pos (by omega), if_pos (by omega)]
    omega
  have met (strict : Bool) (line : Option UInt32) :
      (recording₁.builder.stack.under strict).expectDelta construct recording.builder.depth allowed
        line = .ok () :=
    if_pos (Bool.or_eq_true_iff.mpr (.inl ((congrArg allowed.admits produced).trans admits)))
  have left (line : Option UInt32) : recording₁.builder.stack.expectDelta construct
      recording.builder.depth allowed line = .ok () := met recording₁.builder.stack.strict line
  have right (line : Option UInt32) : (recording₁.builder.under true).stack.expectDelta construct
      (recording.builder.under true).depth allowed line = .ok () := met true line
  simp only [left, right]
  exact .pure _

/-- A region whose value stays. -/
theorem keeping (h : backend.Completes 0 1 count work work') (construct : String) :
    backend.Completes 0 1 count (do let _ ← Work.runRegion construct .one work)
      (do let _ ← Work.runRegion construct .one work') where
  writes := h.writes.keeping construct
  repeats stands _ room :=
    (repeats_runRegion h stands room construct (by decide)).bind fun _ _ _ _ => .pure ()

/-- The elements of an aggregate leave one value each. -/
theorem elements {element element' : Nat → Work backend.State υ Unit} {counts : Nat → Nat}
    (construct : String) (first total : Nat) (h : ∀ index, first ≤ index → index < first + total →
      backend.Completes 0 1 (counts index) (element index) (element' index)) :
    backend.Completes 0 total ((List.range' first total).map counts).sum
      (Work.forEachIndex (fun index => do
        let _ ← Work.runRegion construct .one (element index)) first total)
      (Work.forEachIndex (fun index => do
        let _ ← Work.runRegion construct .one (element' index)) first total) := by
  induction total generalizing first with
  | zero => exact skip
  | succ total ih =>
      have rest := ih (first + 1) fun index low high => h index (by omega) (by omega)
      refine (((h first (Nat.le_refl _) (by omega)).keeping construct).seq rest (Nat.zero_le _)).cast
        (by omega) ?_
      rw [List.range'_succ, List.map_cons, List.sum_cons]

theorem emitArray {element element' : Nat → Work backend.State υ Unit} {counts : Nat → Nat}
    {total : Nat}
    (h : ∀ index < total, backend.Completes 0 1 (counts index) (element index) (element' index))
    (short : total < 2 ^ 31) :
    backend.Completes 0 1 (((List.range total).map counts).sum + 1) (Work.emitArray total element)
      (Work.emitArray total element') := by
  have collapse : (Op.makeArray total.toUInt32).Straight total 1 :=
    ⟨Program.toNat_toUInt32_short short, rfl, rfl, rfl⟩
  have parts := elements (Work.arrayOperation ++ " element") 0 total fun index _ inside =>
    h index (by omega)
  rw [← List.range_eq_range'] at parts
  exact nested ((parts.seq (.emit collapse) (Nat.le_refl _)).cast (by omega) rfl)

end Completes

/-! ### Units of their own -/

namespace Finishes

variable {body body' : Work backend.State υ Unit} (finishes : backend.Finishes body body')

include finishes

/-- A unit is recorded wherever another one may be opened. -/
theorem repeats_recordUnit {session : Session backend.State υ}
    (prepared : backend.Prepared session.checking) (kind : UnitKind) (name : String)
    (arity localCount : Nat) (locals : List String) : Repeats Session.checking
      (Work.recordUnit kind name arity localCount locals body)
      (Work.recordUnit kind name arity localCount locals body') session := by
  refine Work.repeats_bench ?_
  rw [Bench.checking_size]
  refine (Work.repeats_openUnit kind name arity localCount locals).bind fun handle session₁ _ again => ?_
  have opened := Stands.ensures_openUnit prepared kind name arity localCount locals _ _ again
  exact Work.repeats_cleaning (finishes.closes opened handle kind) _ _

/-- A block is named in the same way. -/
theorem repeats_recordBlock {session : Session backend.State υ}
    (prepared : backend.Prepared session.checking) (scope : StaticScope) (arity : Nat) :
    Repeats Session.checking (Work.recordBlock scope arity body)
      (Work.recordBlock scope arity body') session := by
  refine Work.repeats_bench ?_
  rw [Bench.checking_blockName]
  exact finishes.repeats_recordUnit prepared _ _ _ _ _

end Finishes

namespace Completes

section Bodies

variable {body body' : Work backend.State υ Unit} (finishes : backend.Finishes body body')

include finishes

/-- What comes after a unit that was recorded. -/
theorem afterUnit (kind : UnitKind) (name : String) (arity localCount : Nat) (locals : List String)
    {next next' : UInt32 → Work backend.State υ Unit} (counts : given ≤ taken + count)
    (h : ∀ slot, backend.Completes taken given count (next slot) (next' slot)) :
    backend.Completes taken given count
      (Work.recordUnit kind name arity localCount locals body >>= next)
      (Work.recordUnit kind name arity localCount locals body' >>= next') :=
  after (.recordUnit finishes.fits kind name arity localCount locals)
    (fun stands => finishes.repeats_recordUnit stands.prepared kind name arity localCount locals)
    counts h

theorem afterBlock (scope : StaticScope) (arity : Nat)
    {next next' : UInt32 → Work backend.State υ Unit} (counts : given ≤ taken + count)
    (h : ∀ slot, backend.Completes taken given count (next slot) (next' slot)) :
    backend.Completes taken given count (Work.recordBlock scope arity body >>= next)
      (Work.recordBlock scope arity body' >>= next') :=
  after (.recordBlock finishes.fits scope arity)
    (fun stands => finishes.repeats_recordBlock stands.prepared scope arity) counts h

theorem emitCallBlock (name : String) {shape : Invocation} (few : shape.argc < 2 ^ 31)
    (scope : StaticScope) (arity : Nat) : backend.Completes shape.consumed 1 1
      (Work.emitCall name shape (some ⟨scope, arity, body⟩))
      (Work.emitCall name shape (some ⟨scope, arity, body'⟩)) := by
  have sends := afterBlock finishes scope arity (Nat.le_add_left 1 shape.consumed)
    fun slot => emitSend name few (some slot)
  simpa only [Work.emitCall, Work.recordBlock?, Option.mapM_some, map_eq_pure_bind, bind_assoc,
    pure_bind] using sends

end Bodies

end Completes

/-! ## Operations of the contract -/

namespace Completes

variable {work work' : Work backend.State υ Unit}

/-- An operation that looks for the unit that it is recorded in. -/
theorem targeting (h : backend.Completes taken given count work work') :
    backend.Completes taken given count (do let _ ← Work.onBench Bench.target; work)
      (do let _ ← Work.onBench Bench.target; work') where
  writes := .after .target h.writes.counts fun _ => h.writes
  repeats stands enough room := Work.repeats_target fun _ _ => h.repeats stands enough room

theorem opened {fuel : Nat} {work work' : Work Interpreter υ Unit}
    (h : (Backend.immediate fuel).Completes taken given count work work') :
    (Backend.immediate fuel).Completes taken given count (do Interpreter.ensureOpen; work)
      (do Interpreter.ensureOpen; work') where
  writes := .after Interpreter.spares_ensureOpen h.writes.counts fun _ => h.writes
  repeats stands enough room := Interpreter.repeats_ensureOpen (h.repeats stands enough room)

/-- Nothing has failed, so the operation is not refused. -/
theorem checked {work work' : Work Recorder υ Unit}
    (h : Backend.recording.Completes taken given count work work') :
    Backend.recording.Completes taken given count (Recorder.checked work) (Recorder.checked work') where
  writes := Recorder.writes_checked h.writes
  repeats stands enough room := Recorder.repeats_checked (h.repeats stands enough room)

theorem either {fuel : Nat} {work work' live live' : Work Interpreter υ Unit}
    (h : (Backend.immediate fuel).Completes taken given count work work') :
    (Backend.immediate fuel).Completes taken given count
      (do Interpreter.ensureOpen; if ← Interpreter.recording then work else live)
      (do Interpreter.ensureOpen; if ← Interpreter.recording then work' else live') where
  writes := Interpreter.writes_either h.writes
  repeats stands enough room := by
    obtain ⟨recording, found, -⟩ := stands.found
    refine Interpreter.repeats_either (fun _ => h.repeats stands enough room) fun none => ?_
    cases found.symm.trans none

theorem primitive (p : Primitive) : backend.Completes p.taken p.given p.count
    ((backend.contract υ).primitive p) ((backend.guarded υ).primitive p) := by
  cases backend with
  | recording =>
      exact checked ⟨.emitPrimitive p, fun stands enough _ =>
        Work.repeats_onBench (Bench.repeats_emitPrimitive (stands.offers enough))⟩
  | immediate fuel =>
      exact ⟨Interpreter.writes_primitive p, fun stands enough _ =>
        Interpreter.repeats_primitive p (stands.offers enough)⟩

theorem call (name : String) {shape : Invocation} (few : shape.argc < 2 ^ 31) :
    backend.Completes shape.consumed 1 1 ((backend.contract υ).invoke name shape none)
      ((backend.guarded υ).invoke name shape none) := by
  cases backend with
  | recording => exact checked (emitSend name few none)
  | immediate fuel => exact either (emitSend name few none)

theorem array {element element' : Nat → Work backend.State υ Unit} {counts : Nat → Nat} {total : Nat}
    (h : ∀ index < total, backend.Completes 0 1 (counts index) (element index) (element' index))
    (short : total < 2 ^ 31) :
    backend.Completes 0 1 (((List.range total).map counts).sum + 1)
      ((backend.contract υ).objectArray total element)
      ((backend.guarded υ).objectArray total element') := by
  cases backend with
  | recording => exact checked (emitArray (fun index inside => (h index inside).guard) short)
  | immediate fuel => exact either (emitArray h short)

section Bodies

variable {body body' : Work backend.State υ Unit} (finishes : backend.Finishes body body')

include finishes

theorem callBlock (name : String) {shape : Invocation} (few : shape.argc < 2 ^ 31)
    (scope : StaticScope) (arity : Nat) : backend.Completes shape.consumed 1 1
      ((backend.contract υ).invoke name shape (some ⟨scope, arity, body⟩))
      ((backend.guarded υ).invoke name shape (some ⟨scope, arity, body'⟩)) := by
  cases backend with
  | recording => exact checked (emitCallBlock finishes.guard name few scope arity)
  | immediate fuel => exact either (emitCallBlock finishes name few scope arity)

/-- A block is pushed after its body was recorded. -/
theorem closure (scope : StaticScope) (arity : Nat) : backend.Completes 0 1 1
      ((backend.contract υ).closure scope arity body)
      ((backend.guarded υ).closure scope arity body') := by
  cases backend with
  | recording =>
      exact checked (targeting (afterBlock finishes.guard scope arity (Nat.le_refl 1) fun slot =>
        emit ⟨rfl, rfl, rfl, rfl⟩))
  | immediate fuel =>
      exact opened (afterBlock finishes scope arity (Nat.le_refl 1) fun slot =>
        either (emit ⟨rfl, rfl, rfl, rfl⟩))

/-- A method is bound after its body was recorded. -/
theorem method (name : String) (arity localCount : Nat) : backend.Completes 0 0 1
      ((backend.contract υ).defineMethod name arity localCount body)
      ((backend.guarded υ).defineMethod name arity localCount body') := by
  cases backend with
  | recording =>
      exact checked (targeting (afterUnit finishes.guard .method name arity localCount []
        (Nat.zero_le 1) fun slot => emitPooled fun _ => ⟨rfl, rfl, rfl, rfl⟩))
  | immediate fuel =>
      exact opened (afterUnit finishes .method name arity localCount [] (Nat.zero_le 1)
        fun slot => after (.intern _) (fun _ => Work.repeats_onBench (Bench.repeats_intern _))
          (Nat.zero_le 1) fun position => either (emit ⟨rfl, rfl, rfl, rfl⟩))

end Bodies

end Completes

end Backend

end BlockScript
