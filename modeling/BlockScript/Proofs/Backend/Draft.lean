import BlockScript.Proofs.Backend.Regular

/-!
# Recording one unit with nested code

While an operation with nested code records its parts, the innermost unit and those around
it are held. A draft says how far such an operation has come: the units are as they were
when it began, except for the builder of the innermost one. Nested code that keeps the units
that were open lets that builder grow; in the end the operation as a whole has let it grow.
-/

namespace BlockScript.Recorder

variable {υ α β : Type}

/-- Nothing is open once the script has ended. -/
def Closed (session : Session Recorder υ) : Prop :=
  session.backend.script = .ended → session.bench.units.units = []

/-- A session after successful operations. -/
structure Onward (held : List Nat) (session session' : Session Recorder υ) : Prop where
  grown : session.bench.Grown session'.bench
  regular : session'.bench.Regular held
  closed : Closed session → Closed session'

/-- The computation keeps benches regular whenever it succeeds. -/
def Orderly (action : Work Recorder υ α) : Prop :=
  ∀ session held, session.bench.Regular held →
    Ensures action session fun _ session' => Onward held session session'

/-- The same, and every unit that was open is still open. -/
def Keeps (action : Work Recorder υ α) : Prop :=
  ∀ session held, session.bench.Regular held →
    Ensures action session fun _ session' => Onward held session session' ∧
      session.bench.units.ids ⊆ session'.bench.units.ids

/-- How far an operation that began with `start` has come with the innermost unit. -/
structure Draft (held : List Nat) (start : Session Recorder υ)
    (unit : OpenUnit (Option Recording)) (outer : List (OpenUnit (Option Recording)))
    (slot : UInt32) (builder : Builder) (session : Session Recorder υ) : Prop where
  units : session.bench.units.units = { unit with payload := some ⟨slot, builder⟩ } :: outer
  nextId : start.bench.units.nextId ≤ session.bench.units.nextId
  owner : session.bench.units.owner = start.bench.units.owner
  size : start.bench.program.code.size ≤ session.bench.program.code.size
  regular : session.bench.Regular (held ++ session.bench.units.ids)
  script : start.backend.script ≠ .ended → session.backend.script ≠ .ended

theorem Onward.refl {held : List Nat} {session : Session Recorder υ}
    (h : session.bench.Regular held) : Onward held session session :=
  ⟨.refl _, h, id⟩

theorem Onward.trans {held : List Nat} {first second third : Session Recorder υ}
    (h₁ : Onward held first second) (h₂ : Onward held second third) : Onward held first third :=
  ⟨h₁.grown.trans h₂.grown, h₂.regular, h₂.closed ∘ h₁.closed⟩

namespace Draft

variable {held : List Nat} {start session : Session Recorder υ}
  {unit : OpenUnit (Option Recording)} {outer : List (OpenUnit (Option Recording))}
  {slot : UInt32} {builder builder' : Builder}

/-- The innermost recording as an operation finds it. -/
theorem begin (h : start.bench.Regular held)
    (hunits : start.bench.units.units = unit :: outer)
    (payload : unit.payload = some ⟨slot, builder⟩) :
    Draft held start unit outer slot builder start where
  units := by rw [hunits, ← payload]
  nextId := Nat.le_refl _
  owner := rfl
  size := Nat.le_refl _
  regular := h.hold
  script := id

variable (draft : Draft held start unit outer slot builder session)

include draft

theorem ids : session.bench.units.ids = unit.id :: outer.map (·.id) := by
  rw [UnitStack.ids, draft.units]
  rfl

theorem found : session.bench.recording? = some ⟨slot, builder⟩ :=
  Bench.recording?_eq_some.mpr ⟨_, outer, draft.units, rfl⟩

theorem unit_size : session.bench.units.size = outer.length + 1 := by
  rw [UnitStack.size, draft.units]
  rfl

/-- The operation is done, and the innermost recording has grown. -/
theorem done (h : start.bench.Regular held) {first : Builder}
    (hunits : start.bench.units.units = unit :: outer)
    (payload : unit.payload = some ⟨slot, first⟩) (grows : first.Grows builder) :
    Onward held start session := by
  have ids : start.bench.units.ids = session.bench.units.ids := by
    rw [draft.ids, UnitStack.ids, hunits]
    rfl
  have grown : start.bench.Grown session.bench := by
    refine ⟨draft.size, draft.nextId, draft.owner, ?_⟩
    intro found rest suffix _
    rw [draft.units] at suffix
    rcases List.suffix_cons_iff.mp suffix with heq | suffix
    · cases heq
      refine ⟨unit, hunits ▸ List.suffix_rfl, rfl, rfl, rfl, ?_⟩
      intro slot' first' payload'
      cases payload.symm.trans payload'
      exact ⟨builder, rfl, grows⟩
    · exact ⟨found, hunits ▸ suffix.trans (List.suffix_cons ..), rfl, rfl, rfl, .refl _⟩
  refine ⟨grown, h.release grown (fun _ member => ids ▸ member) (ids ▸ draft.regular), ?_⟩
  intro closed ended
  have running : start.backend.script ≠ .ended := by
    intro ended
    rw [closed ended] at hunits
    cases hunits
  exact absurd ended (draft.script running)

/-- Another builder in the innermost recording. -/
theorem setBuilder (inside : Code.Inside session.bench.program.code.size builder'.code.ops) :
    Draft held start unit outer slot builder'
      { session with bench := session.bench.setBuilder builder' } := by
  have hset := Bench.setBuilder_units draft.units rfl builder'
  have ids : (session.bench.setBuilder builder').units.ids = session.bench.units.ids :=
    UnitStack.ids_mapTop ..
  obtain ⟨nextId, owner, -, -⟩ := session.bench.setBuilder_rest builder'
  refine ⟨hset, nextId ▸ draft.nextId, owner ▸ draft.owner, draft.size, ?_, draft.script⟩
  show (session.bench.setBuilder builder').Regular (held ++ (session.bench.setBuilder _).units.ids)
  rw [ids]
  refine draft.regular.setBuilder draft.units rfl (List.mem_append_right _ ?_) inside
  rw [draft.ids]
  exact List.mem_cons_self ..

/-- Nested code that keeps the units that were open lets the builder grow, if as many units
are open after it as before. -/
theorem nestedCode {region : Work Recorder υ Unit} (keeps : Keeps region) :
    Ensures region session fun _ session' =>
      session'.bench.units.size = session.bench.units.size →
        ∃ builder', builder.Grows builder' ∧
          Draft held start unit outer slot builder' session' := by
  refine (keeps session _ draft.regular).mono ?_
  rintro _ session' ⟨onward, alive⟩ size
  have top : unit.id ∈ session'.bench.units.ids := by
    apply alive
    rw [draft.ids]
    exact List.mem_cons_self ..
  obtain ⟨inner, ⟨id, kind, name, payload⟩, hunits, rfl, rfl, rfl, grows⟩ :=
    onward.grown.units.innermost draft.regular.fresh draft.regular.distinct draft.units top
  have none_inside : inner = [] := by
    rw [draft.unit_size, UnitStack.size, hunits] at size
    simpa using size
  subst none_inside
  obtain ⟨builder', rfl, larger⟩ := grows slot builder rfl
  have ids : session'.bench.units.ids = session.bench.units.ids := by
    rw [draft.ids, UnitStack.ids, hunits]
    rfl
  refine ⟨builder', larger, {
    units := hunits, nextId := ?nextId, owner := ?owner, size := ?size
    regular := ?regular, script := ?script }⟩
  case nextId =>
    exact Nat.le_trans draft.nextId onward.grown.units.nextId
  case owner =>
    exact onward.grown.units.owner.trans draft.owner
  case size =>
    exact Nat.le_trans draft.size onward.grown.size
  case regular =>
    rw [ids]
    exact onward.regular
  case script =>
    intro running ended
    have := onward.closed (fun ended => absurd ended (draft.script running)) ended
    rw [hunits] at this
    cases this

/-- What is recorded refers to slots of the table. -/
theorem inside : Code.Inside session.bench.program.code.size builder.code.ops := by
  obtain ⟨slot', builder', payload, -, inside⟩ :=
    draft.regular.opened _ (draft.units ▸ List.mem_cons_self ..)
  cases payload
  exact inside

theorem ensures_target : Ensures (Work.onBench Bench.target) session fun builder' session' =>
    builder = builder' ∧ session = session' := by
  refine Work.ensures_onBench (Bench.ensures_target.mono ?_)
  rintro builder' _ ⟨rfl, slot', found⟩
  cases draft.found.symm.trans found
  exact ⟨rfl, rfl⟩

/-- Letting the builder do something. -/
theorem ensures_build {action : Builder → Except CompileError (α × Builder)}
    {post : α → Builder → Prop}
    (h : ∀ value builder', action builder = .ok (value, builder') →
      Code.Inside session.bench.program.code.size builder'.code.ops ∧ post value builder') :
    Ensures (Work.onBench (Bench.build action)) session fun value session' => ∃ builder',
      post value builder' ∧ Draft held start unit outer slot builder' session' := by
  refine Work.ensures_onBench (Bench.ensures_build.mono ?_)
  rintro value _ ⟨slot', _, builder', found, run, rfl⟩
  cases draft.found.symm.trans found
  obtain ⟨inside, hpost⟩ := h value builder' run
  exact ⟨builder', hpost, draft.setBuilder inside⟩

theorem bench_emit {operation : String} {op : Op}
    (inside : ∀ target, op.codeRef? = some target →
      target.toNat < session.bench.program.code.size) :
    Ensures (Bench.emit operation op) session.bench fun _ bench' => ∃ builder',
      builder.emit operation op = .ok builder' ∧
      Draft held start unit outer slot builder' { session with bench := bench' } := by
  refine Bench.ensures_emit.mono ?_
  rintro _ _ ⟨slot', _, builder', found, run, rfl⟩
  cases draft.found.symm.trans found
  exact ⟨builder', run, draft.setBuilder (Builder.All.emit draft.inside inside run)⟩

theorem ensures_emit {operation : String} {op : Op}
    (inside : ∀ target, op.codeRef? = some target →
      target.toNat < session.bench.program.code.size) :
    Ensures (Work.onBench (Bench.emit operation op)) session fun _ session' => ∃ builder',
      builder.emit operation op = .ok builder' ∧
      Draft held start unit outer slot builder' session' :=
  Work.ensures_onBench (draft.bench_emit inside)

theorem ensures_emitJump (operation : String) (kind : JumpKind) :
    Ensures (Work.emitJump operation kind) session fun patch session' => ∃ builder',
      builder.emitJump operation kind = .ok (patch, builder') ∧
      Draft held start unit outer slot builder' session' := by
  refine draft.ensures_build fun patch builder' run => ⟨?_, run⟩
  exact Builder.All.emitJump draft.inside
    (fun offset target ref => by cases kind <;> cases ref) run

theorem ensures_emitJumpBack (operation : String) (kind : JumpKind) (label : Nat) :
    Ensures (Work.emitJumpBack operation kind label) session fun _ session' => ∃ builder',
      builder.emitJumpBack operation kind label = .ok builder' ∧
      Draft held start unit outer slot builder' session' := by
  refine draft.ensures_build fun _ builder' run => ?_
  obtain ⟨appended, hemit, heq⟩ := Verifier.bind_ok run
  cases heq
  exact ⟨Builder.All.emit draft.inside (fun target ref => by cases kind <;> cases ref) hemit,
    hemit⟩

theorem ensures_modifyBuilder (f : Builder → Builder)
    (inside : Code.Inside session.bench.program.code.size (f builder).code.ops) :
    Ensures (Work.onBench (Bench.modifyBuilder f)) session fun _ session' =>
      Draft held start unit outer slot (f builder) session' := by
  refine Work.ensures_onBench ((Bench.ensures_modifyBuilder draft.found f).mono ?_)
  rintro _ _ rfl
  exact draft.setBuilder inside

theorem ensures_patchHere (patch : JumpPatch) :
    Ensures (Work.patchHere patch) session fun _ session' =>
      Draft held start unit outer slot (builder.patchHere patch) session' := by
  refine draft.ensures_target.bind ?_
  rintro _ _ ⟨rfl, rfl⟩
  cases builder.patchHere? patch with
  | none => exact Ensures.throws
  | some _ =>
      refine draft.ensures_modifyBuilder (·.patchHere patch)
        (Builder.All.patchHere draft.inside fun offset target ref => ?_)
      cases hkind : patch.kind <;> rw [hkind] at ref <;> cases ref

/-- Neither the pool nor the current line is part of a draft. -/
theorem rest (constants : Pool) (line : Option UInt32) :
    Draft held start unit outer slot builder { session with bench := { session.bench with
      program := { session.bench.program with constants }, line } } := by
  exact ⟨draft.units, draft.nextId, draft.owner, draft.size,
    draft.regular.rest _ constants line, draft.script⟩

theorem ensures_depth : Ensures Work.depth session fun depth session' =>
    depth = builder.depth ∧ session = session' := by
  refine draft.ensures_target.bind ?_
  rintro _ _ ⟨rfl, rfl⟩
  exact Ensures.pure ⟨rfl, rfl⟩

end Draft

theorem ensures_ensureSameUnit (construct : String) (before : Nat) {session : Session Recorder υ} :
    Ensures (Work.ensureSameUnit construct before) session fun _ session' =>
      session = session' ∧ session.bench.units.size = before := by
  refine Ensures.get (Ensures.ite (fun _ => ?_) fun same => ?_)
  · exact Ensures.get Ensures.throws
  · exact Ensures.pure ⟨rfl, Classical.not_not.mp same⟩

/-! ## Regions -/

theorem Draft.ensures_runRegion {held : List Nat} {start session : Session Recorder υ}
    {unit : OpenUnit (Option Recording)} {outer : List (OpenUnit (Option Recording))}
    {slot : UInt32} {builder : Builder} (draft : Draft held start unit outer slot builder session)
    {region : Work Recorder υ Unit} (keeps : Keeps region) (construct : String)
    {allowed : DepthTracker.Allowance} (least : 0 ≤ allowed.least) :
    Ensures (Work.runRegion construct allowed region) session fun produced session' =>
      ∃ builder', builder.Grows builder' ∧ builder.Produces builder' allowed produced ∧
        Draft held start unit outer slot builder' session' := by
  refine Ensures.get (draft.ensures_target.bind ?_)
  rintro _ _ ⟨rfl, rfl⟩
  refine (draft.nestedCode keeps).bind ?_
  rintro _ session' left
  refine (ensures_ensureSameUnit construct _).bind ?_
  rintro _ _ ⟨rfl, same⟩
  obtain ⟨builder', grows, draft'⟩ := left same
  refine Ensures.get (draft'.ensures_target.bind ?_)
  rintro _ _ ⟨rfl, rfl⟩
  cases passed : builder'.stack.expectDelta construct builder.depth allowed
      session'.bench.currentLine with
  | error error =>
      simp only [passed]
      exact Ensures.throws
  | ok _ =>
      simp only [passed]
      exact Ensures.pure ⟨builder', grows, .of_check least passed, draft'⟩

end BlockScript.Recorder
