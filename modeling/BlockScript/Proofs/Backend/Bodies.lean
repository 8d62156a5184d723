import BlockScript.Proofs.Backend.Balanced
import BlockScript.Proofs.Backend.Draws

/-!
# Bodies are filed as they are laid out

The body of a method or a block is recorded into a unit of its own. When that is closed, a slot
holds the code object that is laid out for the body, whether it was installed there or an equal
one was. Operations that refer to the slot find it from then on.
-/

namespace BlockScript

variable {ε υ : Type}

/-! ## Units that are closed -/

theorem Builder.finish_appends {builder : Builder} (one : builder.depth = 1) :
    ∃ code, builder.finish = .ok code ∧ code.ops.toList = builder.code.ops.toList ++ [.ret] ∧
      code.head = builder.code.head := by
  obtain ⟨closed, run, -⟩ := emit_enough "end of unit"
    (show Op.ret.pops ≤ builder.depth from Nat.le_of_eq one.symm)
  have appended := Appends.emit run
  refine ⟨{ closed.code with maxStack := closed.stack.maxDepth.toUInt32 }, ?_, appended.ops,
    appended.head⟩
  have surplus : builder.stack.surplus builder.describe builder.line = .ok 0 :=
    if_pos (Nat.le_of_eq one)
  have valued : builder.depth ≠ 0 := by omega
  simp only [finish, surplus, bind, Except.bind, emitTimes, valued, if_false, pure, Except.pure, run]

namespace Bench

variable {bench opened recorded : Bench} {slot : UInt32}

theorem opening_head (bench : Bench) (kind : UnitKind) (name : String) (arity localCount : Nat)
    (locals : List String) : (bench.opening kind name arity localCount locals).code.head =
      Code.headOf kind name arity localCount locals := by
  unfold opening
  dsimp only
  split <;> rfl

/-- A unit opens in the next slot, with nothing recorded. -/
theorem ends_openUnit_opened (tidy : bench.Tidy) (kind : UnitKind) (name : String)
    (arity localCount : Nat) (locals : List String) :
    Ends (openUnit kind name arity localCount locals) bench
      (fun handle opened => ∃ slot, bench.Opened opened slot ∧
        bench.units.owner = handle.owner ∧ opened.units = { bench.units with
          nextId := handle.id + 1
          units := ⟨handle.id, kind, name,
            some ⟨slot, bench.opening kind name arity localCount locals⟩⟩ :: bench.units.units } ∧
        opened.sharing = bench.sharing)
      fun error _ => ∃ resource limit, error = .exhausted resource limit := by
  refine Ends.intro (fun handle opened run => ?_) fun error _ run => openUnit_error run
  obtain ⟨units, room, hopen, rfl⟩ := ensures_opens handle opened run
  obtain ⟨rfl, rfl⟩ := UnitStack.open_ok hopen
  have slot : bench.program.code.size.toUInt32.toNat = bench.program.code.size :=
    Program.toNat_toUInt32 (Nat.lt_of_lt_of_le room tidy.tables)
  exact ⟨_, ⟨slot, rfl, rfl, rfl⟩, rfl, rfl, rfl⟩

/-- A unit was closed that had claimed the slot on the bench. Its code object is installed in
some slot, which is its own unless code objects are shared. -/
structure ClosedAs (bench : Bench) (sharing : Bool) (slot : UInt32) (head : Code) (body : Action ε)
    (site : Site) (length : Nat) (installed : UInt32) (closed : Bench) : Prop where
  code : ∃ code, closed.program.code? installed = some code ∧ code.ops.size = length
  files : closed.program.Files head (body.Lays closed.program site) installed
  own : sharing = false → installed = slot
  grew : ∀ ops, Op.Refer ops installed → bench.Grew closed ops

/-- A unit that has one value is closed. -/
theorem ends_closeUnit_filed {head : Code} {body : Action ε} {site : Site} {ops : List Op}
    {unit : OpenUnit (Option Recording)} {outer : List (OpenUnit (Option Recording))}
    {builder : Builder} (tidy : bench.Tidy) (opens : bench.Opened opened slot)
    (grew : opened.Grew recorded ops) (lays : body.Lays recorded.program site ops)
    (hunits : recorded.units.units = unit :: outer) (payload : unit.payload = some ⟨slot, builder⟩)
    {handle : UnitHandle} (owner : recorded.units.owner = handle.owner) (id : unit.id = handle.id)
    (sound : builder.Sound) (one : builder.depth = 1) (short : builder.label + 1 < 2 ^ 31)
    (whole : builder.code.ops.toList = ops) (same : builder.code.head = head)
    {failed : CompileError → Bench → Prop} :
    Ends (closeUnit handle unit.kind) recorded
      (bench.ClosedAs recorded.sharing slot head body site (builder.label + 1)) failed := by
  obtain ⟨code, finished, appended, head'⟩ := Builder.finish_appends one
  have size : code.ops.size = builder.label + 1 := by
    rw [← Array.length_toList, appended, List.length_append, Array.length_toList]
    rfl
  have verified : code.verify = .ok code.maxStack.toNat := sound.finish finished (by omega)
  have installs : Ends (install slot code)
      { recorded with units := { recorded.units with units := outer } }
      (bench.ClosedAs recorded.sharing slot head body site (builder.label + 1)) fun _ _ => False :=
    (ends_install_filed opens grew (head'.trans same) (whole ▸ appended) lays tidy _).weaken
      fun _ _ ⟨found, files, own, grew⟩ => ⟨⟨code, found, size⟩, files, own, grew⟩
  have installed : Ends (installUnit slot builder)
      { recorded with units := { recorded.units with units := outer } }
      (bench.ClosedAs recorded.sharing slot head body site (builder.label + 1)) fun _ _ => False := by
    simp only [installUnit, finished, verified]
    exact Ends.get (Ends.ite (fun _ => installs) fun _ => installs)
  unfold Ends closeUnit
  simp only [UnitStack.close_eq hunits owner id, payload]
  cases run : installUnit slot builder
      { recorded with units := { recorded.units with units := outer } } with
  | ok value closed => exact installed.ok run
  | error error closed => exact (installed.error run).elim

end Bench

/-! ## Bodies -/

/-- A body was recorded beside the open units, and is found in the slot. -/
structure Session.Files {β : Type} (session : Session β υ) (head : Code) (body : Action ε) (site : Site)
    (slot : UInt32) (session' : Session β υ) : Prop where
  intact : session.Intact session'
  files : session'.bench.program.Files head (body.Lays session'.bench.program site) slot
  grew : ∀ ops, Op.Refer ops slot → session.bench.Grew session'.bench ops

namespace Backend.Draws

variable {backend : Backend} {site inner : Site} {taken given count : Nat} {action body : Action ε}
  {work : Work backend.State υ Unit}

theorem ends_filed (h : backend.Draws 0 1 count body inner work) (short : count + 1 < 2 ^ 31)
    {session : Session backend.State υ} (prepared : backend.Prepared session)
    (tidy : session.bench.Tidy) {kind : UnitKind} {name : String}
    (surrounds : ∀ {later : UnitStack (Option Recording)} {id : Nat} {payload : Option Recording},
      later.units = ⟨id, kind, name, payload⟩ :: session.bench.units.units → later.site = inner)
    (arity localCount : Nat) (locals : List String) :
    Ends (Work.recordUnit kind name arity localCount locals work) session
      (fun slot session' => session.Files (Code.headOf kind name arity localCount locals) body
        inner slot session')
      fun halt _ => body.Recordable inner → halt.Limit := by
  have intact := (Backend.ends_recordUnit h.writes short prepared kind name arity localCount locals).ensures
  suffices filed : Ends (Work.recordUnit kind name arity localCount locals work) session
      (fun slot session' =>
        session'.bench.program.Files (Code.headOf kind name arity localCount locals)
          (body.Lays session'.bench.program inner) slot ∧
        ∀ ops, Op.Refer ops slot → session.bench.Grew session'.bench ops)
      fun halt _ => body.Recordable inner → halt.Limit from
    (filed.ensured intact).weaken fun _ _ ⟨⟨files, grew⟩, intact⟩ => ⟨intact, files, grew⟩
  have opens : Ends (Work.onBench (Bench.openUnit kind name arity localCount locals)) session
      (fun handle session' => ∃ slot, session.bench.Opened session'.bench slot ∧
        session.bench.units.owner = handle.owner ∧
        session'.bench.units = { session.bench.units with
          nextId := handle.id + 1
          units := ⟨handle.id, kind, name, some ⟨slot,
            session.bench.opening kind name arity localCount locals⟩⟩ :: session.bench.units.units } ∧
        session'.bench.sharing = session.bench.sharing ∧ session'.backend = session.backend)
      fun halt _ => body.Recordable inner → halt.Limit := by
    refine Work.ends_onBench ((Bench.ends_openUnit_opened tidy kind name arity localCount locals).mono
      ?_ ?_)
    · rintro handle opened ⟨slot, opens, owner, units, sharing⟩
      exact ⟨slot, opens, owner, units, sharing, rfl⟩
    · rintro _ _ ⟨resource, limit, rfl⟩ _
      exact ⟨resource, limit, rfl⟩
  refine Ends.get (opens.bind ?_)
  rintro handle session₁ ⟨slot, opens, owner, units, sharing, same⟩
  obtain ⟨empty, stack⟩ := session.bench.opening_empty kind name arity localCount locals
  rw [prepared.checks] at stack
  have depth : (session.bench.opening kind name arity localCount locals).depth = 0 := by
    rw [Builder.depth, stack]
    rfl
  have label : (session.bench.opening kind name arity localCount locals).label = 0 := by
    rw [Builder.label, empty]
    rfl
  have records : backend.Records inner ⟨handle.id, kind, name, some ⟨slot,
      session.bench.opening kind name arity localCount locals⟩⟩ session.bench.units.units slot
      (session.bench.opening kind name arity localCount locals) session₁ :=
    ⟨⟨same ▸ prepared.unpoisoned, opens.config ▸ prepared.checks, sharing.trans prepared.sharing⟩,
      opens.tidy tidy, congrArg UnitStack.units units, rfl,
      surrounds (congrArg UnitStack.units units)⟩
  refine Work.ends_cleaning ((records.drawing.ends_part records h id (Nat.zero_le _)
    (by omega)).bind ?_)
  rintro _ session₂ ⟨builder', ops, wrote, drawing⟩
  have one := wrote.depth
  have length := wrote.label
  have sound : builder'.Sound := (Builder.sound_new empty stack).grows wrote.grows
  refine Work.ends_onBench ((Bench.ends_closeUnit_filed tidy opens drawing.grew drawing.holds.2
    drawing.page.units rfl (drawing.page.beside.owner.trans (units ▸ owner)) rfl sound (by omega)
    (by omega) ?_ ?_).weaken fun _ _ closes => ⟨closes.files, closes.grew⟩)
  · rw [drawing.appends.ops, empty]
    rfl
  · rw [drawing.appends.head, Bench.opening_head]

/-- A block is named after the unit that it is made in. -/
theorem ends_recordBlock (h : backend.Draws 0 1 count body site.closure work)
    (short : count + 1 < 2 ^ 31) {session : Session backend.State υ}
    (prepared : backend.Prepared session) (tidy : session.bench.Tidy)
    (opened : session.bench.units.units ≠ []) (here : session.bench.units.site = site)
    (scope : StaticScope) (arity : Nat) :
    Ends (Work.recordBlock scope arity work) session
      (fun slot session' => session.Files (.headOf .closure site.closure.name arity scope.size
        scope.names) body site.closure slot session')
      fun halt _ => body.Recordable site.closure → halt.Limit := by
  subst here
  have name : session.bench.blockName = session.bench.units.site.closure.name := by
    obtain ⟨unit, outer, hunits⟩ := List.exists_cons_of_ne_nil opened
    simp [Bench.blockName, Site.closure, UnitStack.site, UnitStack.top?, hunits]
  refine Ends.get ?_
  rw [name]
  exact ends_filed h short prepared tidy UnitStack.site_closure arity _ _

/-- What is recorded after a body refers to its slot. -/
theorem after_filed {head : Code} {record : Work backend.State υ UInt32}
    {issue : UInt32 → Work backend.State υ Unit} (spares : backend.Spares record)
    (writes : ∀ slot, backend.Writes taken given count (issue slot))
    (filed : ∀ {session : Session backend.State υ} {unit : OpenUnit (Option Recording)}
      {outer : List (OpenUnit (Option Recording))} {slot : UInt32} {builder : Builder},
      backend.Records site unit outer slot builder session →
      Ends record session (fun slot session' => session.Files head body inner slot session')
        fun halt _ => body.Recordable inner → halt.Limit)
    (within : action.Recordable site → body.Recordable inner)
    (issues : ∀ (found : UInt32) {session : Session backend.State υ}
      {unit : OpenUnit (Option Recording)} {outer : List (OpenUnit (Option Recording))}
      {slot : UInt32} {builder : Builder}, backend.Records site unit outer slot builder session →
      taken ≤ builder.depth → Ends (issue found) session (fun _ session' => ∃ laid ops builder',
        Drawing session unit outer slot builder laid ops builder' session' ∧ Op.Refer ops found ∧
        (session'.bench.program.Files head (body.Lays session'.bench.program inner) found →
          action.Lays session'.bench.program site ops))
        fun halt _ => action.Recordable site → halt.Limit) :
    backend.Draws taken given count action site (record >>= issue) where
  writes := .after spares (writes 0).counts writes
  draws {session unit outer slot builder} records enough _ := by
    refine ((filed records).mono (fun _ _ => id) fun _ _ limit holds => limit (within holds)).bind ?_
    rintro found session₁ ⟨intact, files, grew⟩
    have page := intact.page records.units records.payload
    have tidy := (grew [.makeClosure found] (Op.refer_single.mpr rfl)).tidy
    refine (issues found (records.page page tidy) enough).weaken ?_
    rintro _ session₂ ⟨laid, ops, builder', drawing, refers, lays⟩
    exact ⟨laid, ops, builder', ⟨page.trans drawing.page, drawing.appends,
      (grew ops refers).trans drawing.grew, drawing.holds, drawing.stable⟩, lays (drawing.grew.files files)⟩

section Issued

/-- A block is pushed after it was recorded. -/
theorem closing {scope : StaticScope} {arity : Nat}
    (h : backend.Draws 0 1 count body site.closure work) (short : count + 1 < 2 ^ 31)
    {issue : UInt32 → Work backend.State υ Unit}
    (same : ∀ (slot : UInt32) {session : Session backend.State υ} {recording : Recording},
      session.bench.recording? = some recording → issue slot session =
        Work.onBench (Bench.emit Work.closureOperation (.makeClosure slot)) session) :
    backend.Draws 0 1 1 (.closure scope arity body) site
      (Work.recordBlock scope arity work >>= issue) := by
  refine after_filed (.recordBlock ⟨count, short, h.writes⟩ scope arity)
    (fun slot => .congr (.emitStraight ⟨rfl, rfl, rfl, rfl⟩) (same slot)) (fun records =>
      ends_recordBlock h short records.prepared records.tidy (by rw [records.units]; exact nofun)
        records.site scope arity)
    ?_ fun found session unit outer slot builder records enough => ?_
  · rintro ⟨program, _, slot, ⟨code, ops, -, -, lays, -⟩, -⟩
    exact ⟨program, ops, lays⟩
  · unfold Ends
    rw [same found records.found]
    refine (records.drawing.ends_emit (Nat.zero_le _)).weaken ?_
    rintro _ session' ⟨builder', -, drawing⟩
    exact ⟨_, _, builder', drawing, Op.refer_single.mpr rfl, fun files => ⟨found, files, rfl⟩⟩

/-- A method is bound after it was recorded. -/
theorem defining {name : String} {arity localCount : Nat}
    (h : backend.Draws 0 1 count body (.method name) work) (short : count + 1 < 2 ^ 31)
    {issue : UInt32 → Work backend.State υ Unit}
    (same : ∀ (slot : UInt32) {session : Session backend.State υ} {recording : Recording},
      session.bench.recording? = some recording → issue slot session = Work.onBench (Bench.emitNamed
        Work.defineOperation name fun name => .defineMethod name slot) session) :
    backend.Draws 0 0 1 (.method name arity localCount body) site
      (Work.recordUnit .method name arity localCount [] work >>= issue) := by
  refine after_filed (.recordUnit ⟨count, short, h.writes⟩ .method name arity localCount [])
    (fun slot => .congr (.emitPooled fun _ => ⟨rfl, rfl, rfl, rfl⟩) (same slot)) (fun records =>
      ends_filed h short records.prepared records.tidy UnitStack.site_method arity localCount [])
    ?_ fun found session unit outer slot builder records enough => ?_
  · rintro ⟨program, _, slot, _, ⟨code, ops, -, -, lays, -⟩, -⟩
    exact ⟨program, ops, lays⟩
  · unfold Ends
    rw [same found records.found, Bench.emitNamed, Bench.emitPooled, Work.onBench_bind]
    refine records.drawing.page.ends_target.bind ?_
    rintro _ _ ⟨rfl, rfl⟩
    rw [Work.onBench_bind]
    refine (records.drawing.ends_intern _).bind fun position session₁ drawing₁ => ?_
    refine (drawing₁.ends_emit (Nat.zero_le _)).weaken ?_
    rintro _ session₂ ⟨builder₂, -, drawing₂⟩
    exact ⟨_, _, builder₂, drawing₂, Op.refer_single.mpr rfl,
      fun files => ⟨found, position, files, drawing₂.holds.2, rfl⟩⟩

variable {shape : Invocation} (few : shape.argc < 2 ^ 31)

include few

/-- A call takes its operands. -/
theorem ends_emitSend (name : String) (block : Option UInt32) {session : Session backend.State υ}
    {unit : OpenUnit (Option Recording)} {outer : List (OpenUnit (Option Recording))}
    {slot : UInt32} {builder : Builder} (records : backend.Records site unit outer slot builder session)
    (enough : shape.consumed ≤ builder.depth) {whole : Prop} :
    Ends (Work.onBench (Bench.emitSend Work.callOperation name shape block)) session
      (fun _ session' => ∃ laid position builder', Drawing session unit outer slot builder laid
        [.send position shape.argc.toUInt32 shape.hasReceiver block] builder' session' ∧
        session'.bench.program.constants.get? position = some (.name name))
      fun halt _ => whole → halt.Limit := by
  rw [Bench.emitSend, Work.onBench_bind]
  refine records.drawing.page.ends_target.bind ?_
  rintro _ _ ⟨rfl, rfl⟩
  rw [Work.onBench_bind]
  refine (records.drawing.ends_intern _).bind fun position session₁ drawing₁ => ?_
  refine (drawing₁.ends_emit ((shape.straight_send few position block).pops ▸ enough)).weaken ?_
  rintro _ session₂ ⟨builder₂, -, drawing₂⟩
  exact ⟨_, position, builder₂, drawing₂, drawing₂.holds.2⟩

theorem emitCall (name : String) : backend.Draws shape.consumed 1 1 (.call name shape : Action ε)
    site (Work.emitCall name shape none : Work backend.State υ Unit) where
  writes := .emitCall few name nofun
  draws records enough _ := (ends_emitSend few name none records enough).weaken
    fun _ _ ⟨laid, position, builder', drawing, pooled⟩ =>
      ⟨laid, _, builder', drawing, position, pooled, rfl⟩

theorem emitCallBlock (name : String) {scope : StaticScope} {arity : Nat}
    (h : backend.Draws 0 1 count body site.closure work) (short : count + 1 < 2 ^ 31) :
    backend.Draws shape.consumed 1 1 (.callBlock name shape scope arity body) site
      (Work.emitCall name shape (some ⟨scope, arity, work⟩)) := by
  have filed : backend.Draws shape.consumed 1 1 (.callBlock name shape scope arity body) site (do
      let slot ← Work.recordBlock scope arity work
      Work.onBench (Bench.emitSend Work.callOperation name shape (some slot))) := by
    refine after_filed (.recordBlock ⟨count, short, h.writes⟩ scope arity) (fun slot => ?_)
      (fun records => ends_recordBlock h short records.prepared records.tidy
        (by rw [records.units]; exact nofun) records.site scope arity)
      ?_ fun found session unit outer slot builder records enough => ?_
    · rw [Bench.emitSend, Work.onBench_bind]
      refine .after .target (Nat.le_add_left 1 _) fun _ => ?_
      rw [Work.onBench_bind]
      exact .after (.intern _) (Nat.le_add_left 1 _) fun position =>
        .emitStraight (shape.straight_send few position _)
    · rintro ⟨program, _, slot, _, ⟨code, ops, -, -, lays, -⟩, -⟩
      exact ⟨program, ops, lays⟩
    · refine (ends_emitSend few name (some found) records enough).weaken ?_
      rintro _ session' ⟨laid, position, builder', drawing, pooled⟩
      exact ⟨laid, _, builder', drawing, Op.refer_single.mpr rfl,
        fun files => ⟨found, position, files, pooled, rfl⟩⟩
  simpa only [Work.emitCall, Work.recordBlock?, Option.mapM_some, map_eq_pure_bind, bind_assoc,
    pure_bind] using filed

end Issued

end Backend.Draws

/-! ## Operations as they are offered -/

section Offered

variable {site : Site} {taken given count count' fuel : Nat} {action : Action ε}

theorem Recorder.draws_checked {operation : Work Recorder υ Unit}
    (h : Backend.recording.Draws taken given count action site operation) :
    Backend.recording.Draws taken given count action site (checked operation) where
  writes := writes_checked h.writes
  draws records enough room := by
    refine ends_checked (fun error poisoned => ?_) fun _ =>
      (h.draws records enough room).mono (fun _ _ => id) ?_
    · cases poisoned.symm.trans records.prepared.unpoisoned
    · rintro (error | _) session' limit <;> exact limit

namespace Interpreter

theorem draws_either {recorded live : Work Interpreter υ Unit}
    (h : (Backend.immediate fuel).Draws taken given count action site recorded) :
    (Backend.immediate fuel).Draws taken given count action site
      (do ensureOpen; if ← recording then recorded else live) :=
  h.congr fun found => either_of_recording found recorded live

theorem perform_of_recording {session : Session Interpreter υ} {recording : Recording}
    (found : session.bench.recording? = some recording) (fuel : Nat) (operation : String) (op : Op) :
    perform fuel operation op session = Work.onBench (Bench.emit operation op) session :=
  either_of_recording found _ _

/-- What comes after a step beside the open units still finds the recording. -/
theorem bind_congr_of_intact {α : Type} {session : Session Interpreter υ} {recording : Recording}
    (found : session.bench.recording? = some recording) {first : Work Interpreter υ α}
    {next next' : α → Work Interpreter υ Unit} {failed : Halt CompileError → Session Interpreter υ → Prop}
    (intact : Ends first session (fun _ session' => session.Intact session') failed)
    (same : ∀ value (session' : Session Interpreter υ),
      session'.bench.recording? = some recording → next value session' = next' value session') :
    (first >>= next) session = (first >>= next') session := by
  refine intact.bind_congr fun value session' intact => same value session' ?_
  rw [Bench.recording?, UnitStack.top?, intact.units]
  exact found

/-- While a unit is recorded, an operation without nested code is. -/
theorem primitive_of_recording {session : Session Interpreter υ} {recording : Recording}
    (found : session.bench.recording? = some recording) (fuel : Nat) (p : Primitive) :
    primitive fuel p session = Work.onBench (Bench.emitPrimitive p) session := by
  obtain ⟨unit, outer, hunits, -⟩ := Bench.recording?_eq_some.mp found
  have target : (Work.onBench Bench.target : Work Interpreter υ Builder) session =
      .ok recording.builder session := Work.onBench_ok (Bench.target_eq found)
  unfold primitive Bench.emitPrimitive
  cases form : p.form with
  | op single => exact perform_of_recording found fuel _ _
  | pooled constant make =>
      dsimp only
      rw [Bench.emitPooled, Work.onBench_bind, run_bind_ok target, Work.onBench_bind]
      have performs : (Work.onBench (Bench.intern constant) >>= fun position =>
          perform fuel p.operation (make position)) session = _ :=
        bind_congr_of_intact found (Work.ends_intern constant session true)
          fun position session' found => perform_of_recording found fuel _ _
      split
      · rw [run_bind_ok (ensureOpen_eq hunits), run_bind_ok (recording_eq session), found]
        exact performs
      · exact performs
  | access index depth assign =>
      dsimp only
      rw [Bench.emitLocal, Work.onBench_bind]
      exact bind_congr_of_intact found (Work.ends_checkScopeDepth depth session true)
        fun _ session' found => perform_of_recording found fuel _ _
  | aliasMethod newName oldName =>
      dsimp only
      rw [Bench.emitAlias, Work.onBench_bind, run_bind_ok target, Work.onBench_bind]
      refine bind_congr_of_intact found (Work.ends_intern _ session true)
        fun new session' found => ?_
      rw [Work.onBench_bind]
      exact bind_congr_of_intact found (Work.ends_intern _ session' true)
        fun old session' found => perform_of_recording found fuel _ _
  | yield hasArgs =>
      dsimp only
      rw [run_bind_ok (ensureOpen_eq hunits)]
  | line line =>
      dsimp only
      rw [run_bind_ok (ensureOpen_eq hunits), run_bind_ok (recording_eq session), found,
        Work.onBench_bind]
      rfl

end Interpreter

end Offered

end BlockScript
