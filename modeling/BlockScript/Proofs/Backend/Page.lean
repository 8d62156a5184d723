import BlockScript.Proofs.Backend.SameUnit
import BlockScript.Proofs.Builder.Carries

/-!
# Code that finds its operands

While nested code only takes what it has put there itself, none of the checks of a backend can
fail: a builder refuses no operation, all arms leave as many values, and a unit that is closed
is one that the verifier accepts. What is left are the limits and the few errors that depend on
what is around the code.

A page is the innermost recording and what has become of it since an operation began.
`Backend.Writes` says that a computation takes and leaves a fixed number of values wherever it
is recorded, and how many operations it records for that.
-/

namespace BlockScript

variable {β υ α : Type}

/-! ## Errors that do not blame the caller -/

/-- The error is a limit, or it depends on what is around the code. Errors of a running program
only occur where the script is executed. -/
def CompileError.Permitted (executes : Bool) : CompileError → Prop
  | .violation (.scopeDepth _ _) _ | .violation .yieldWithoutBlock _ | .exhausted _ _ => True
  | .runtime _ _ | .resolution _ _ _ => executes = true
  | _ => False

/-- A budget is only used up where the script is executed. -/
def Halt.Permitted (executes : Bool) : Halt CompileError → Prop
  | .failure error => error.Permitted executes
  | .outOfFuel => executes = true

/-! ## Builders -/

namespace Builder

/-- The builder has taken and produced that many values with that many operations. -/
structure Wrote (builder : Builder) (taken given count : Nat) (builder' : Builder) : Prop where
  depth : builder'.depth = builder.depth - taken + given
  label : builder'.label = builder.label + count
  grows : builder.Grows builder'

variable {builder builder' builder'' : Builder} {taken given count taken' given' count' : Nat}

theorem Wrote.refl (builder : Builder) : builder.Wrote 0 0 0 builder := ⟨rfl, rfl, .refl builder⟩

theorem Wrote.trans (h₁ : builder.Wrote taken given count builder')
    (h₂ : builder'.Wrote taken' given' count' builder'') (owned : taken' ≤ given) :
    builder.Wrote taken (given - taken' + given') (count + count') builder'' where
  depth := by
    have := h₁.depth
    have := h₂.depth
    omega
  label := by rw [h₂.label, h₁.label, Nat.add_assoc]
  grows := h₁.grows.trans h₂.grows

/-- An operation that finds its operands is appended, whether the builder is strict or not. -/
theorem emit_enough (operation : String) {op : Op} (enough : op.pops ≤ builder.depth) :
    ∃ builder', builder.emit operation op = .ok builder' ∧
      builder'.depth = op.after builder.depth ∧ builder'.label = builder.label + 1 :=
  ⟨_, emit_eq (if_pos enough), rfl, Array.size_push ..⟩

theorem emitJump_enough (operation : String) {kind : JumpKind}
    (enough : (kind.op 0).pops ≤ builder.depth) :
    ∃ patch builder', builder.emitJump operation kind = .ok (patch, builder') ∧
      builder'.depth = (kind.op 0).after builder.depth ∧ builder'.label = builder.label + 1 := by
  obtain ⟨builder', run, depth, label⟩ := emit_enough operation enough
  exact ⟨⟨builder.label, kind⟩, builder', by rw [emitJump, run]; rfl, depth, label⟩

end Builder

/-! ## Pages -/

/-- The bench has only grown beside the open units. A bench that shares code objects may have
given slots back. -/
structure Bench.Beside (bench bench' : Bench) : Prop where
  config : bench'.config = bench.config
  sharing : bench'.sharing = bench.sharing
  owner : bench'.units.owner = bench.units.owner
  nesting : bench'.units.nesting = bench.units.nesting
  table : bench.sharing = false → bench.program.code.size ≤ bench'.program.code.size

instance : IsPreorder Bench Bench.Beside where
  refl _ := ⟨rfl, rfl, rfl, rfl, fun _ => Nat.le_refl _⟩
  trans _ _ _ h₁ h₂ := ⟨h₂.config.trans h₁.config, h₂.sharing.trans h₁.sharing,
    h₂.owner.trans h₁.owner, h₂.nesting.trans h₁.nesting, fun shared =>
      Nat.le_trans (h₁.table shared) (h₂.table (h₁.sharing.trans shared))⟩

/-- The innermost recording of a session, and nothing else that an operation depends on has
changed since it began with `start`. -/
structure Page (start : Session β υ) (unit : OpenUnit (Option Recording))
    (outer : List (OpenUnit (Option Recording))) (slot : UInt32) (builder : Builder)
    (session : Session β υ) : Prop where
  units : session.bench.units.units = { unit with payload := some ⟨slot, builder⟩ } :: outer
  beside : start.bench.Beside session.bench
  backend : session.backend = start.backend
  client : session.client = start.client

namespace Page

variable {start session session' : Session β υ} {unit : OpenUnit (Option Recording)}
  {outer : List (OpenUnit (Option Recording))} {slot : UInt32} {builder builder' : Builder}

/-- The innermost recording as an operation finds it. -/
theorem begin (hunits : start.bench.units.units = unit :: outer)
    (payload : unit.payload = some ⟨slot, builder⟩) : Page start unit outer slot builder start where
  units := by rw [hunits, ← payload]
  beside := refl_of Bench.Beside start.bench
  backend := rfl
  client := rfl

variable (page : Page start unit outer slot builder session)

include page

theorem found : session.bench.recording? = some ⟨slot, builder⟩ :=
  Bench.recording?_eq_some.mpr ⟨_, outer, page.units, rfl⟩

theorem size : session.bench.units.size = outer.length + 1 := by
  rw [UnitStack.size, page.units]
  rfl

/-- What a part of the operation has done is done for the operation. -/
theorem trans (part : Page session { unit with payload := some ⟨slot, builder⟩ } outer slot builder'
    session') : Page start unit outer slot builder' session' where
  units := part.units
  beside := trans_of Bench.Beside page.beside part.beside
  backend := part.backend.trans page.backend
  client := part.client.trans page.client

/-- Beside the units something was added. -/
theorem added {bench : Bench} (same : bench.units.units = session.bench.units.units)
    (beside : session.bench.Beside bench) :
    Page start unit outer slot builder { session with bench } where
  units := same.trans page.units
  beside := trans_of Bench.Beside page.beside beside
  backend := page.backend
  client := page.client

/-- Another builder in the innermost recording. -/
theorem setBuilder (builder' : Builder) : Page start unit outer slot builder'
    { session with bench := session.bench.setBuilder builder' } := by
  obtain ⟨-, owner, nesting, -⟩ := session.bench.setBuilder_rest builder'
  have beside : session.bench.Beside (session.bench.setBuilder builder') :=
    ⟨rfl, rfl, owner, nesting, fun _ => Nat.le_refl _⟩
  exact ⟨Bench.setBuilder_units page.units rfl builder', trans_of Bench.Beside page.beside beside,
    page.backend, page.client⟩

theorem ends_target {failed : Halt CompileError → Session β υ → Prop} :
    Ends (Work.onBench Bench.target) session
      (fun found session' => builder = found ∧ session = session') failed := by
  refine Work.ends_onBench ?_
  unfold Ends
  rw [Bench.target_eq page.found]
  exact ⟨rfl, rfl⟩

theorem ends_depth {failed : Halt CompileError → Session β υ → Prop} :
    Ends Work.depth session (fun depth session' => depth = builder.depth ∧ session = session')
      failed := by
  refine page.ends_target.bind ?_
  rintro _ _ ⟨rfl, rfl⟩
  exact Ends.pure ⟨rfl, rfl⟩

/-- The builder does something that it can do. -/
theorem ends_build {action : Builder → Except CompileError (α × Builder)} {value : α}
    (run : action builder = .ok (value, builder'))
    {failed : Halt CompileError → Session β υ → Prop} :
    Ends (Work.onBench (Bench.build action)) session
      (fun found session' => found = value ∧ Page start unit outer slot builder' session')
      failed := by
  refine Work.ends_onBench ?_
  unfold Ends
  rw [Bench.build_eq page.found run]
  exact ⟨rfl, page.setBuilder builder'⟩

theorem ends_emit {operation : String} {op : Op} (enough : op.pops ≤ builder.depth)
    {failed : Halt CompileError → Session β υ → Prop} :
    Ends (Work.onBench (Bench.emit operation op)) session
      (fun _ session' => ∃ builder', builder.emit operation op = .ok builder' ∧
        builder'.depth = op.after builder.depth ∧ builder'.label = builder.label + 1 ∧
        Page start unit outer slot builder' session') failed := by
  obtain ⟨builder', run, depth, label⟩ := Builder.emit_enough operation enough
  have appended : (do return ((), ← builder.emit operation op)) = Except.ok ((), builder') := by
    rw [run]
    rfl
  exact (page.ends_build appended).weaken fun _ _ ⟨_, page'⟩ => ⟨builder', run, depth, label, page'⟩

theorem ends_emitJump {operation : String} {kind : JumpKind}
    (enough : (kind.op 0).pops ≤ builder.depth)
    {failed : Halt CompileError → Session β υ → Prop} :
    Ends (Work.emitJump operation kind) session
      (fun patch session' => ∃ builder', builder.emitJump operation kind = .ok (patch, builder') ∧
        builder'.depth = (kind.op 0).after builder.depth ∧ builder'.label = builder.label + 1 ∧
        Page start unit outer slot builder' session') failed := by
  obtain ⟨patch, builder', run, depth, label⟩ :=
    Builder.emitJump_enough operation enough
  exact (page.ends_build run).weaken fun _ _ ⟨same, page'⟩ =>
    ⟨builder', same ▸ run, depth, label, page'⟩

theorem ends_emitJumpBack {operation : String} {kind : JumpKind} {label : Nat}
    (enough : (kind.op 0).pops ≤ builder.depth)
    {failed : Halt CompileError → Session β υ → Prop} :
    Ends (Work.emitJumpBack operation kind label) session
      (fun _ session' => ∃ builder', builder.emitJumpBack operation kind label = .ok builder' ∧
        builder'.depth = (kind.op 0).after builder.depth ∧ builder'.label = builder.label + 1 ∧
        Page start unit outer slot builder' session') failed := by
  have enough : (kind.op (Builder.offset builder.label label)).pops ≤ builder.depth := by
    rwa [kind.pops_op _ 0]
  obtain ⟨builder', run, depth, length⟩ := Builder.emit_enough operation enough
  have appended : (do return ((), ← builder.emitJumpBack operation kind label)) =
      Except.ok ((), builder') := by
    rw [Builder.emitJumpBack, run]
    rfl
  rw [kind.after_op _ 0] at depth
  exact (page.ends_build appended).weaken fun _ _ ⟨_, page'⟩ =>
    ⟨builder', run, depth, length, page'⟩

theorem ends_modifyBuilder (f : Builder → Builder)
    {failed : Halt CompileError → Session β υ → Prop} :
    Ends (Work.onBench (Bench.modifyBuilder f)) session
      (fun _ session' => Page start unit outer slot (f builder) session') failed := by
  refine Work.ends_onBench ?_
  unfold Ends
  rw [Bench.modifyBuilder_eq page.found]
  exact page.setBuilder (f builder)

/-- A jump that was appended to the code is aimed. -/
theorem ends_patchHere {patch : JumpPatch} (inside : patch.ip < builder.label)
    {failed : Halt CompileError → Session β υ → Prop} :
    Ends (Work.patchHere patch) session
      (fun _ session' => Page start unit outer slot (builder.patchHere patch) session') failed := by
  unfold Ends
  rw [Work.patchHere_eq page.found inside]
  exact page.setBuilder (builder.patchHere patch)

theorem ends_ensureSameUnit (construct : String) {failed : Halt CompileError → Session β υ → Prop} :
    Ends (Work.ensureSameUnit construct (outer.length + 1)) session
      (fun _ session' => session = session') failed :=
  Work.ends_ensureSameUnit (fun _ => rfl) fun leaked => absurd page.size leaked

end Page

/-- The same units are open with the same code, and nothing else that an operation depends on
has changed. -/
structure Session.Intact (session session' : Session β υ) : Prop where
  units : session'.bench.units.units = session.bench.units.units
  beside : session.bench.Beside session'.bench
  backend : session'.backend = session.backend
  client : session'.client = session.client

theorem Session.Intact.page {session session' : Session β υ} (intact : session.Intact session')
    {unit : OpenUnit (Option Recording)} {outer : List (OpenUnit (Option Recording))}
    {slot : UInt32} {builder : Builder} (hunits : session.bench.units.units = unit :: outer)
    (payload : unit.payload = some ⟨slot, builder⟩) :
    Page session unit outer slot builder session' where
  units := by rw [intact.units, hunits, ← payload]
  beside := intact.beside
  backend := intact.backend
  client := intact.client

/-! ## Nested code -/

namespace Backend

/-- No operation has failed. Only a backend that records remembers it. -/
def Unpoisoned : (backend : Backend) → backend.State → Prop
  | recording, recorder => recorder.poisoned = none
  | immediate _, _ => True

/-- A session of the backend that may go on, with the check of stacks turned on. -/
structure Prepared (backend : Backend) (session : Session backend.State υ) : Prop where
  unpoisoned : backend.Unpoisoned session.backend
  checks : session.bench.config.checkStack = true
  sharing : session.bench.sharing = backend.executes

variable {backend : Backend}

theorem Prepared.beside {session session' : Session backend.State υ} (prepared : backend.Prepared session)
    (beside : session.bench.Beside session'.bench) (same : session'.backend = session.backend) :
    backend.Prepared session' :=
  ⟨same ▸ prepared.unpoisoned, beside.config ▸ prepared.checks, beside.sharing.trans prepared.sharing⟩

/-- Wherever it is recorded, the computation takes and leaves that many values, and records that
many operations. Depths are numbers of 63 bits. -/
structure Writes (backend : Backend) (taken given count : Nat) (action : Work backend.State υ Unit) :
    Prop where
  counts : given ≤ taken + count
  ends {session : Session backend.State υ} {unit : OpenUnit (Option Recording)}
    {outer : List (OpenUnit (Option Recording))} {slot : UInt32} {builder : Builder} :
    backend.Prepared session → session.bench.units.units = unit :: outer →
    unit.payload = some ⟨slot, builder⟩ → taken ≤ builder.depth →
    builder.depth + count < 2 ^ 63 →
    Ends action session (fun _ session' => ∃ builder', builder.Wrote taken given count builder' ∧
      Page session unit outer slot builder' session') fun halt _ => halt.Permitted backend.executes

end Backend

namespace Page

variable {backend : Backend} {start session : Session backend.State υ}
  {unit : OpenUnit (Option Recording)} {outer : List (OpenUnit (Option Recording))} {slot : UInt32}
  {builder : Builder} {taken given count : Nat} {part : Work backend.State υ Unit}
  (page : Page start unit outer slot builder session) (prepared : backend.Prepared start)

include page prepared

theorem still_prepared : backend.Prepared session := Backend.Prepared.beside prepared page.beside page.backend

/-- Nested code goes on with the page. -/
theorem ends_part (writes : backend.Writes taken given count part) (enough : taken ≤ builder.depth)
    (room : builder.depth + count < 2 ^ 63) :
    Ends part session (fun _ session' => ∃ builder', builder.Wrote taken given count builder' ∧
      Page start unit outer slot builder' session') fun halt _ => halt.Permitted backend.executes :=
  (writes.ends (page.still_prepared prepared) page.units rfl enough room).weaken
    fun _ _ ⟨builder', wrote, part⟩ => ⟨builder', wrote, page.trans part⟩

/-- A region that leaves one value leaves as many as it owes. -/
theorem ends_runRegion (writes : backend.Writes 0 1 count part)
    (room : builder.depth + count < 2 ^ 63) (construct : String)
    {allowed : DepthTracker.Allowance} (admits : allowed.admits 1 = true) :
    Ends (Work.runRegion construct allowed part) session
      (fun produced session' => produced = 1 ∧ ∃ builder', builder.Wrote 0 1 count builder' ∧
        Page start unit outer slot builder' session') fun halt _ => halt.Permitted backend.executes := by
  refine Ends.get ?_
  rw [page.size]
  refine page.ends_target.bind ?_
  rintro _ _ ⟨rfl, rfl⟩
  refine (page.ends_part prepared writes (Nat.zero_le _) room).bind ?_
  rintro _ session' ⟨builder', wrote, page'⟩
  refine (page'.ends_ensureSameUnit construct).bind ?_
  rintro _ _ rfl
  refine Ends.get (page'.ends_target.bind ?_)
  rintro _ _ ⟨rfl, rfl⟩
  have depth : builder'.stack.depth = builder.depth + 1 := wrote.depth
  have counts := writes.counts
  have produced : builder'.stack.deltaSince builder.depth = 1 := by
    simp only [DepthTracker.deltaSince, DepthTracker.signed, depth]
    rw [if_pos (by omega), if_pos (by omega)]
    omega
  have met (line : Option UInt32) :
      builder'.stack.expectDelta construct builder.depth allowed line = .ok () := by
    simp only [DepthTracker.expectDelta, produced, admits, Bool.true_or, if_true]
  simp only [met, produced]
  exact Ends.pure ⟨rfl, builder', wrote, page'⟩

end Page

end BlockScript
