import BlockScript.Proofs.Backend.Exact
import BlockScript.Proofs.Backend.Filed

/-!
# Code that is laid out

A drawing is a page together with the operations that were recorded on it since an operation
began, and with what is known of the program: how the parts of these operations are laid out.
`Backend.Draws` says of a computation that it records what is laid out for an action wherever a
unit is recorded at a site. It only fails over a limit, unless the action cannot be laid out at
the site at all.
-/

namespace BlockScript

variable {ε : Type} {β υ α : Type}

/-! ## Sites -/

namespace UnitStack

/-- What is around the code of the innermost unit. -/
def site (stack : UnitStack α) : Site :=
  ⟨(stack.top?.map (·.name)).getD "", stack.reachableDepth, stack.insideMethod⟩

variable {stack later : UnitStack α}

theorem site_congr (names : later.units.map (·.name) = stack.units.map (·.name))
    (kinds : later.units.map (·.kind) = stack.units.map (·.kind)) : later.site = stack.site := by
  have top : later.top?.map (·.name) = stack.top?.map (·.name) := by
    rw [top?, top?, ← List.head?_map, ← List.head?_map, names]
  rw [site, site, top, reachableDepth_congr kinds, insideMethod_congr kinds]

/-- A block inside the innermost unit. -/
theorem site_closure {id : Nat} {payload : α}
    (units : later.units = ⟨id, .closure, "block in " ++ stack.site.name, payload⟩ :: stack.units) :
    later.site = stack.site.closure := by
  simp [site, Site.closure, top?, reachableDepth, insideMethod, units]

/-- A method inside any unit. -/
theorem site_method {id : Nat} {name : String} {payload : α}
    (units : later.units = ⟨id, .method, name, payload⟩ :: stack.units) :
    later.site = .method name := by
  simp [site, Site.method, top?, reachableDepth, insideMethod, units]

theorem site_script {id : Nat} {payload : α}
    (units : later.units = [⟨id, .script, mainName, payload⟩]) : later.site = .script := by
  simp [site, Site.script, top?, reachableDepth, insideMethod, units]

end UnitStack

/-- The action can be laid out at the site in some program. -/
def Action.Recordable (action : Action ε) (site : Site) : Prop :=
  ∃ program ops, action.Lays program site ops

/-- What holds of a program still holds when it has grown. -/
def Program.Stable (laid : Program → Prop) : Prop :=
  ∀ {program other : Program}, program.Carries other (fun _ => True) → laid program → laid other

theorem Program.Stable.pooled (position : UInt32) (constant : Constant) :
    Stable fun program => program.constants.get? position = some constant :=
  fun carries => carries.constants position constant

/-- One value more, as a region that owes one value has to leave. -/
theorem Builder.Wrote.produces_one {builder builder' : Builder} {count : Nat}
    (wrote : builder.Wrote 0 1 count builder') (counts : 1 ≤ 0 + count)
    (room : builder.depth + count < 2 ^ 63) : builder'.stack.deltaSince builder.depth = 1 := by
  have depth : builder'.stack.depth = builder.depth + 1 := wrote.depth
  simp only [DepthTracker.deltaSince, DepthTracker.signed, depth]
  rw [if_pos (by omega), if_pos (by omega)]
  omega

/-! ## Drawings -/

/-- A page with the operations that were recorded on it. -/
structure Drawing (start : Session β υ) (unit : OpenUnit (Option Recording))
    (outer : List (OpenUnit (Option Recording))) (slot : UInt32) (builder : Builder)
    (laid : Program → Prop) (ops : List Op) (builder' : Builder) (session : Session β υ) : Prop where
  page : Page start unit outer slot builder' session
  appends : builder.Appends builder' ops
  grew : start.bench.Grew session.bench ops
  holds : laid session.bench.program
  stable : Program.Stable laid

namespace Drawing

variable {start session : Session β υ} {unit : OpenUnit (Option Recording)}
  {outer : List (OpenUnit (Option Recording))} {slot : UInt32} {builder builder' builder'' : Builder}
  {laid fact : Program → Prop} {ops ops' : List Op}
  {failed : Halt CompileError → Session β υ → Prop}

theorem begin (tidy : start.bench.Tidy) (hunits : start.bench.units.units = unit :: outer)
    (payload : unit.payload = some ⟨slot, builder⟩) :
    Drawing start unit outer slot builder (fun _ => True) [] builder start where
  page := .begin hunits payload
  appends := .refl builder
  grew := .refl tidy []
  holds := trivial
  stable _ _ := trivial

variable (drawing : Drawing start unit outer slot builder laid ops builder' session)

include drawing

/-- Something else is known of the program. -/
theorem also (stable : Program.Stable fact) (holds : fact session.bench.program) :
    Drawing start unit outer slot builder (fun program => laid program ∧ fact program) ops builder'
      session :=
  { drawing with
    holds := ⟨drawing.holds, holds⟩
    stable := fun carries both => ⟨drawing.stable carries both.1, stable carries both.2⟩ }

/-- Another builder in the innermost recording, which refers to no less. -/
theorem setBuilder (appends : builder.Appends builder'' ops')
    (refs : ∀ ref, Op.Refer ops ref → Op.Refer ops' ref) :
    Drawing start unit outer slot builder laid ops' builder''
      { session with bench := session.bench.setBuilder builder'' } where
  page := drawing.page.setBuilder builder''
  appends := appends
  grew := (drawing.grew.mono refs).congr rfl rfl rfl
  holds := drawing.holds
  stable := drawing.stable

theorem ends_build {action : Builder → Except CompileError (α × Builder)} {value : α}
    (run : action builder' = .ok (value, builder'')) (appends : builder'.Appends builder'' ops') :
    Ends (Work.onBench (Bench.build action)) session
      (fun found session' => found = value ∧
        Drawing start unit outer slot builder laid (ops ++ ops') builder'' session') failed := by
  refine Work.ends_onBench ?_
  unfold Ends
  rw [Bench.build_eq drawing.page.found run]
  exact ⟨rfl, drawing.setBuilder (drawing.appends.trans appends)
    fun _ => (·.mono (List.subset_append_left ..))⟩

theorem ends_emit {operation : String} {op : Op} (enough : op.pops ≤ builder'.depth) :
    Ends (Work.onBench (Bench.emit operation op)) session
      (fun _ session' => ∃ builder'', builder''.depth = op.after builder'.depth ∧
        Drawing start unit outer slot builder laid (ops ++ [op]) builder'' session') failed := by
  obtain ⟨builder'', run, depth, -⟩ := Builder.emit_enough operation enough
  have appended : (do return ((), ← builder'.emit operation op)) = Except.ok ((), builder'') := by
    rw [run]
    rfl
  exact (drawing.ends_build appended (.emit run)).weaken
    fun _ _ ⟨_, drawing'⟩ => ⟨builder'', depth, drawing'⟩

theorem ends_emitJump {operation : String} {kind : JumpKind}
    (enough : (kind.op 0).pops ≤ builder'.depth) :
    Ends (Work.emitJump operation kind) session
      (fun patch session' => patch = ⟨builder.label + ops.length, kind⟩ ∧ ∃ builder'',
        builder''.depth = (kind.op 0).after builder'.depth ∧
        Drawing start unit outer slot builder laid (ops ++ [kind.op 0]) builder'' session')
      failed := by
  obtain ⟨patch, builder'', run, depth, -⟩ := Builder.emitJump_enough operation enough
  obtain ⟨rfl, appended⟩ := Builder.emitJump_ok run
  refine (drawing.ends_build run (.emit appended)).weaken ?_
  rintro _ _ ⟨rfl, drawing'⟩
  exact ⟨by rw [drawing.appends.label], builder'', depth, drawing'⟩

theorem ends_emitJumpBack {operation : String} {kind : JumpKind}
    (enough : (kind.op 0).pops ≤ builder'.depth) :
    Ends (Work.emitJumpBack operation kind builder.label) session
      (fun _ session' => ∃ builder'', Drawing start unit outer slot builder laid
        (ops ++ [Control.jump kind ops.length 0]) builder'' session') failed := by
  have target : Builder.offset builder'.label builder.label = Builder.offset ops.length 0 := by
    rw [drawing.appends.label]
    exact Builder.offset_add builder.label ops.length 0
  have enough : (Control.jump kind ops.length 0).pops ≤ builder'.depth := by
    rwa [Control.jump, kind.pops_op _ 0]
  obtain ⟨builder'', run, -⟩ := Builder.emit_enough operation enough
  have appended : (do return ((), ← builder'.emitJumpBack operation kind builder.label)) =
      Except.ok ((), builder'') := by
    rw [Builder.emitJumpBack, target]
    change (do return ((), ← builder'.emit operation (Control.jump kind ops.length 0))) = _
    rw [run]
    rfl
  refine (drawing.ends_build appended (.emit run)).weaken ?_
  rintro _ _ ⟨-, drawing'⟩
  exact ⟨builder'', drawing'⟩

theorem ends_modifyBuilder (f : Builder → Builder) (code : (f builder').code = builder'.code) :
    Ends (Work.onBench (Bench.modifyBuilder f)) session
      (fun _ session' => Drawing start unit outer slot builder laid ops (f builder') session')
      failed := by
  refine Work.ends_onBench ?_
  unfold Ends
  rw [Bench.modifyBuilder_eq drawing.page.found]
  exact drawing.setBuilder (drawing.appends.same code) fun _ => id

/-- The jump that waits among the operations is aimed at their end. -/
theorem ends_patchHere (before : List Op) (op : Op) (after : List Op)
    (parts : ops = before ++ op :: after) (none : op.codeRef? = none) (kind : JumpKind) :
    Ends (Work.patchHere ⟨builder.label + before.length, kind⟩) session
      (fun _ session' => ∃ builder'', builder''.depth = builder'.depth ∧
        Drawing start unit outer slot builder laid (before ++
          Control.jump kind before.length (before.length + 1 + after.length) :: after) builder''
          session') failed := by
  have inside : builder.label + before.length < builder'.label := by
    rw [drawing.appends.label, parts, List.length_append, List.length_cons]
    omega
  unfold Ends
  rw [Work.patchHere_eq drawing.page.found inside]
  refine ⟨builder'.patchHere _, Builder.depth_patchHere _,
    drawing.setBuilder (drawing.appends.patchHere parts rfl kind) fun ref refers => ?_⟩
  rw [parts, Op.refer_append, Op.refer_cons_none none] at refers
  rwa [Op.refer_append, Op.refer_cons_none (Control.codeRef?_jump ..)]

/-- A constant joins the pool if there is room. -/
theorem ends_intern (constant : Constant) {whole : Prop} :
    Ends (Work.onBench (Bench.intern constant)) session
      (fun position session' => Drawing start unit outer slot builder
        (fun program => laid program ∧ program.constants.get? position = some constant) ops builder'
        session') fun halt _ => whole → halt.Limit := by
  refine Work.ends_onBench (Ends.intro (fun position bench' run => ?_) fun error bench' run => ?_)
  · obtain ⟨grew, units, pooled⟩ := Bench.grew_intern drawing.grew.tidy run
    obtain ⟨constants, -, rfl⟩ := Bench.ensures_intern position bench' run
    refine ⟨drawing.page.added (congrArg UnitStack.units units)
      ⟨rfl, rfl, rfl, rfl, fun _ => Nat.le_refl _⟩, drawing.appends,
      drawing.grew.trans (grew.mono fun _ refers => absurd refers Op.not_refer_nil), ?_, ?_⟩
    · exact ⟨drawing.stable grew.carries drawing.holds, pooled⟩
    · exact fun carries both => ⟨drawing.stable carries both.1,
        Program.Stable.pooled position constant carries both.2⟩
  · obtain ⟨limit, rfl⟩ := Bench.intern_error run
    exact fun _ => ⟨_, _, rfl⟩

end Drawing

/-! ## Computations that record what is laid out -/

namespace Backend

/-- A session that may go on, where a unit is recorded at the site. -/
structure Records (backend : Backend) (site : Site) (unit : OpenUnit (Option Recording))
    (outer : List (OpenUnit (Option Recording))) (slot : UInt32) (builder : Builder)
    (session : Session backend.State υ) : Prop where
  prepared : backend.Prepared session
  tidy : session.bench.Tidy
  units : session.bench.units.units = unit :: outer
  payload : unit.payload = some ⟨slot, builder⟩
  site : session.bench.units.site = site

variable {backend : Backend} {site : Site} {taken given count : Nat}

namespace Records

variable {start session : Session backend.State υ} {unit : OpenUnit (Option Recording)}
  {outer : List (OpenUnit (Option Recording))} {slot : UInt32} {builder builder' : Builder}
  (records : backend.Records site unit outer slot builder start)

include records

theorem found : start.bench.recording? = some ⟨slot, builder⟩ :=
  Bench.recording?_eq_some.mpr ⟨unit, outer, records.units, records.payload⟩

theorem page (page : Page start unit outer slot builder' session) (tidy : session.bench.Tidy) :
    backend.Records site { unit with payload := some ⟨slot, builder'⟩ } outer slot builder' session where
  prepared := records.prepared.beside page.beside page.backend
  tidy := tidy
  units := page.units
  payload := rfl
  site := by
    rw [← records.site]
    refine UnitStack.site_congr ?_ ?_ <;> rw [page.units, records.units] <;> rfl

theorem drawing : Drawing start unit outer slot builder (fun _ => True) [] builder start :=
  .begin records.tidy records.units records.payload

end Records

/-- Wherever a unit is recorded at the site, the computation appends what is laid out for the
action, or fails over a limit. Other failures show that the action cannot be laid out there. -/
structure Draws (backend : Backend) (taken given count : Nat) (action : Action ε) (site : Site)
    (work : Work backend.State υ Unit) : Prop where
  writes : backend.Writes taken given count work
  draws {session : Session backend.State υ} {unit : OpenUnit (Option Recording)}
    {outer : List (OpenUnit (Option Recording))} {slot : UInt32} {builder : Builder} :
    backend.Records site unit outer slot builder session → taken ≤ builder.depth →
    builder.depth + count < 2 ^ 63 →
    Ends work session (fun _ session' => ∃ laid ops builder',
      Drawing session unit outer slot builder laid ops builder' session' ∧
      action.Lays session'.bench.program site ops)
      fun halt _ => action.Recordable site → halt.Limit

end Backend

namespace Drawing

variable {backend : Backend} {site : Site} {taken given count : Nat} {action : Action ε}
  {start session : Session backend.State υ} {unit : OpenUnit (Option Recording)}
  {outer : List (OpenUnit (Option Recording))} {slot : UInt32} {builder builder' : Builder}
  {laid : Program → Prop} {ops : List Op} {part : Work backend.State υ Unit} {whole : Prop}
  (drawing : Drawing start unit outer slot builder laid ops builder' session)
  (records : backend.Records site unit outer slot builder start)

include drawing records

theorem still_records : backend.Records site { unit with payload := some ⟨slot, builder'⟩ } outer slot
    builder' session :=
  records.page drawing.page drawing.grew.tidy

/-- Nested code goes on with the drawing. -/
theorem ends_part (draws : backend.Draws taken given count action site part)
    (within : whole → action.Recordable site) (enough : taken ≤ builder'.depth)
    (room : builder'.depth + count < 2 ^ 63) :
    Ends part session (fun _ session' => ∃ builder'' ops',
      builder'.Wrote taken given count builder'' ∧
      Drawing start unit outer slot builder
        (fun program => laid program ∧ action.Lays program site ops') (ops ++ ops') builder'' session')
      fun halt _ => whole → halt.Limit := by
  have still := drawing.still_records records
  have writes := draws.writes.ends still.prepared still.units still.payload enough room
  have draws := draws.draws still enough room
  refine Ends.intro (fun _ session' run => ?_) fun _ _ run holds => draws.error run (within holds)
  obtain ⟨builder₁, wrote, page₁⟩ := writes.ok run
  obtain ⟨laid', ops', builder₂, drawing₂, lays⟩ := draws.ok run
  obtain rfl : builder₁ = builder₂ := by
    have same := page₁.units.symm.trans drawing₂.page.units
    simp only [List.cons.injEq, OpenUnit.mk.injEq, Option.some.injEq, Recording.mk.injEq] at same
    exact same.1.2.2.2.2
  refine ⟨builder₁, ops', wrote, drawing.page.trans drawing₂.page, drawing.appends.trans drawing₂.appends,
    drawing.grew.append drawing₂.grew, ⟨drawing.stable drawing₂.grew.carries drawing.holds, lays⟩, ?_⟩
  exact fun carries both => ⟨drawing.stable carries both.1, both.2.carry carries fun _ _ => trivial⟩

/-- A region that leaves one value leaves as many as it owes. -/
theorem ends_runRegion (draws : backend.Draws 0 1 count action site part)
    (within : whole → action.Recordable site) (room : builder'.depth + count < 2 ^ 63)
    (construct : String) {allowed : DepthTracker.Allowance} (admits : allowed.admits 1 = true) :
    Ends (Work.runRegion construct allowed part) session
      (fun produced session' => produced = 1 ∧ ∃ builder'' ops',
        builder'.Wrote 0 1 count builder'' ∧
        Drawing start unit outer slot builder
          (fun program => laid program ∧ action.Lays program site ops') (ops ++ ops') builder''
          session') fun halt _ => whole → halt.Limit := by
  refine Ends.get ?_
  rw [drawing.page.size]
  refine drawing.page.ends_target.bind ?_
  rintro _ _ ⟨rfl, rfl⟩
  refine (drawing.ends_part records draws within (Nat.zero_le _) room).bind ?_
  rintro _ session' ⟨builder'', ops', wrote, drawing'⟩
  refine (drawing'.page.ends_ensureSameUnit construct).bind ?_
  rintro _ _ rfl
  refine Ends.get (drawing'.page.ends_target.bind ?_)
  rintro _ _ ⟨rfl, rfl⟩
  have produced := wrote.produces_one draws.writes.counts room
  have met (line : Option UInt32) :
      builder''.stack.expectDelta construct builder'.depth allowed line = .ok () := by
    simp only [DepthTracker.expectDelta, produced, admits, Bool.true_or, if_true]
  simp only [met, produced]
  exact Ends.pure ⟨rfl, builder'', ops', wrote, drawing'⟩

end Drawing

end BlockScript
