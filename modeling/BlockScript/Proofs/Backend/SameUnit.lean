import BlockScript.Proofs.Backend.Nested

/-!
# Control flow finishes in the unit that it began in

An operation with nested code in the same unit counts the open units before and after each
piece of it, and refuses to go on when the numbers differ. That is what `Control.guarded`
makes explicit. A piece that leaves as many units open as there were may nevertheless have
closed the unit that the operation began in, and have opened another in its place; unless it
did, the operation finishes in its unit and has added nothing but its layout to it.
-/

namespace BlockScript

variable {β υ α γ ε σ : Type}

/-- Two computations go on in the same way from wherever a first one gets to. -/
theorem Ends.bind_congr {action : EStateM ε σ α} {state : σ} {done : α → σ → Prop}
    {failed : ε → σ → Prop} (h : Ends action state done failed) {next next' : α → EStateM ε σ γ}
    (same : ∀ value state', done value state' → next value state' = next' value state') :
    (action >>= next) state = (action >>= next') state := by
  change EStateM.bind action next state = EStateM.bind action next' state
  unfold EStateM.bind
  cases run : action state with
  | ok value state' => exact same value state' (h.ok run)
  | error error state' => rfl

/-! ## Checks after nested code -/

namespace Work

/-- Nested code that must leave as many units open as there were. -/
def guarded (construct : String) (part : Work β υ Unit) : Work β υ Unit := do
  let before := (← bench).units.size
  part
  ensureSameUnit construct before

theorem ensureSameUnit_eq (construct : String) (session : Session β υ) (before : Nat) :
    ensureSameUnit construct before session =
      if session.bench.units.size = before then .ok () session
      else .error (.failure (session.bench.violation (.callbackLeakedUnit construct))) session := by
  change (if session.bench.units.size ≠ before then violate (.callbackLeakedUnit construct)
    else pure () : Work β υ Unit) session = _
  by_cases same : session.bench.units.size = before
  · rw [if_neg (Classical.not_not.mpr same), if_pos same]
    rfl
  · rw [if_pos same, if_neg same]
    rfl

/-- A check that follows anyway may be made by the nested code itself. -/
theorem guarded_then_ensure (construct : String) (part : Work β υ Unit) (next : Work β υ α)
    (session : Session β υ) :
    (do part.guarded construct; ensureSameUnit construct session.bench.units.size; next) session =
      (do part; ensureSameUnit construct session.bench.units.size; next) session := by
  change EStateM.bind (part.guarded construct) _ session = EStateM.bind part _ session
  have reads : part.guarded construct session =
      EStateM.bind part (fun _ => ensureSameUnit construct session.bench.units.size) session := rfl
  simp only [EStateM.bind, reads]
  cases run : part session with
  | error halt session' => rfl
  | ok value session' =>
      simp only [ensureSameUnit_eq, bind, EStateM.bind]
      by_cases same : session'.bench.units.size = session.bench.units.size
      · simp only [if_pos same]
      · simp only [if_neg same]

theorem runRegion_guarded (construct : String) (allowed : DepthTracker.Allowance)
    (part : Work β υ Unit) :
    runRegion construct allowed (part.guarded construct) = runRegion construct allowed part := by
  funext session
  have reads : Ends (onBench Bench.target) session (fun _ session' => session' = session)
      fun _ (_ : Session β υ) => True :=
    ends_onBench (Bench.ends_target.mono (fun _ _ ⟨same, _⟩ => same ▸ rfl) fun _ _ _ => trivial)
  refine reads.bind_congr ?_
  rintro before _ rfl
  exact guarded_then_ensure construct part _ _

theorem ends_still {action : Work β υ α} (h : Moves Session.Still action) (session : Session β υ) :
    Ends action session
      (fun _ session' => session'.bench.units.size = session.bench.units.size) fun _ _ => True :=
  (h session).mono (fun _ _ => Bench.Still.size) fun _ _ _ => trivial

theorem ends_depth (session : Session β υ) :
    Ends depth session (fun _ session' => session' = session) fun _ _ => True := by
  have reads : Ends (onBench Bench.target) session (fun _ session' => session' = session)
      fun _ (_ : Session β υ) => True :=
    ends_onBench (Bench.ends_target.mono (fun _ _ ⟨same, _⟩ => same ▸ rfl) fun _ _ _ => trivial)
  exact reads.bind fun _ _ same => Ends.pure same

theorem emitBranch_guarded (onTrue onFalse : Work β υ Unit) :
    emitBranch (guarded "perform_boolean_branch" onTrue)
      (guarded "perform_boolean_branch" onFalse) = emitBranch onTrue onFalse := by
  refine congrArg nested (funext fun session => ?_)
  refine (ends_still (still_emitJump _ _) session).bind_congr fun toElse session₁ level₁ => ?_
  refine (ends_depth session₁).bind_congr ?_
  rintro before session₁ rfl
  rw [← level₁]
  refine (guarded_then_ensure _ onTrue _ session₁).trans ?_
  have anything : Ends onTrue session₁ (fun _ _ => True) fun _ _ => True :=
    Ends.intro (fun _ _ _ => trivial) fun _ _ _ => trivial
  have ensures (session₂ : Session β υ) :
      Ends (ensureSameUnit "perform_boolean_branch" session₁.bench.units.size) session₂
        (fun _ session' => session' = session₂ ∧
          session₂.bench.units.size = session₁.bench.units.size) fun _ _ => True :=
    ends_ensureSameUnit (fun same => ⟨rfl, same⟩) fun _ => trivial
  refine anything.bind_congr fun _ session₂ _ => (ensures session₂).bind_congr ?_
  rintro _ session₂ ⟨rfl, level₂⟩
  refine (ends_depth session₂).bind_congr ?_
  rintro after session₂ rfl
  refine (ends_still (still_emitJump _ _) session₂).bind_congr fun toEnd session₃ level₃ => ?_
  refine (ends_still (still_patchHere _) session₃).bind_congr fun _ session₄ level₄ => ?_
  have resets : Moves Session.Still
      (onBench (Bench.modifyBuilder (·.resetTo before)) : Work β υ Unit) :=
    moves_onBench (Bench.still.modifyBuilder _)
  refine (ends_still resets session₄).bind_congr fun _ session₅ level₅ => ?_
  rw [← level₅.trans (level₄.trans (level₃.trans level₂))]
  exact guarded_then_ensure _ onFalse _ session₅

end Work

namespace Control

/-- The operation with nested code that checks itself. -/
def guarded : Control (Session β υ) → Control (Session β υ)
  | branch onTrue onFalse => .branch (Work.guarded "perform_boolean_branch" onTrue)
      (Work.guarded "perform_boolean_branch" onFalse)
  | logical connective right => .logical connective (Work.guarded connective.operation right)
  | loop condition body checkFirst => .loop (Work.guarded (Work.loopOperation ++ " condition") condition)
      (Work.guarded (Work.loopOperation ++ " body") body) checkFirst
  | array count element => .array count fun index =>
      Work.guarded (Work.arrayOperation ++ " element") (element index)

/-- What is recorded does not depend on it: nested code that leaves another number of units
open is refused anyway. -/
theorem emit_guarded (control : Control (Session β υ)) : control.guarded.emit = control.emit := by
  cases control with
  | branch onTrue onFalse => exact Work.emitBranch_guarded onTrue onFalse
  | logical connective right => simp only [guarded, emit, Work.emitLogical, Work.runRegion_guarded]
  | loop condition body checkFirst =>
      simp only [guarded, emit, Work.emitLoop, Work.emitCondition, Work.emitLoopBody,
        Work.runRegion_guarded]
  | array count element => simp only [guarded, emit, Work.emitArray, Work.runRegion_guarded]

end Control

/-! ## Both backends -/

/-- One of the backends. The immediate one has a budget for bodies and loops. -/
inductive Backend where
  | recording
  | immediate (fuel : Nat)

namespace Backend

/-- What the backend keeps beside the bench. -/
def State : Backend → Type
  | recording => Recorder
  | immediate _ => Interpreter

/-- What the backend offers. -/
def contract (υ : Type) : (backend : Backend) → Contract (Session backend.State υ)
  | recording => Recorder.contract υ
  | immediate fuel => Interpreter.contract υ fuel

/-- A session in which nothing has happened. -/
def new (config : Config) (limits : Limits) (owner : Nat) (client : υ) :
    (backend : Backend) → Session backend.State υ
  | recording => Recorder.new config owner client
  | immediate _ => Interpreter.new config limits owner client

/-- Whether the script is executed. -/
def executes : Backend → Bool
  | recording => false
  | immediate _ => true

theorem lasts_contract (backend : Backend) (nests : Work backend.State υ Unit → Prop) :
    (backend.contract υ).Keeps nests (Session.Lasts backend.executes) := by
  cases backend with
  | recording => exact Recorder.lasts_contract nests
  | immediate fuel => exact Interpreter.lasts_contract nests fuel

/-- Whatever a caller does lasts. -/
theorem lasts_client {backend : Backend} {manner : Manner backend.State υ}
    {action : Work backend.State υ α} (client : Client (backend.contract υ) manner action) :
    Moves (Session.Lasts backend.executes) action :=
  client.moves (backend.lasts_contract manner.nests)
    fun _ _ session => refl_of (Bench.Lasts backend.executes) session.bench

end Backend

theorem Interpreter.ensureOpen_eq {session : Session Interpreter υ}
    {unit : OpenUnit (Option Recording)} {outer : List (OpenUnit (Option Recording))}
    (hunits : session.bench.units.units = unit :: outer) :
    ensureOpen session = .ok () session := by
  have looked : (Work.bench : Work Interpreter υ Bench) session = .ok session.bench session := rfl
  unfold ensureOpen
  rw [run_bind_ok looked, hunits]
  rfl

theorem Interpreter.recording_eq (session : Session Interpreter υ) :
    recording session = .ok session.bench.recording?.isSome session := rfl

/-- While a unit is recorded, the immediate backend records. -/
theorem Interpreter.either_of_recording {session : Session Interpreter υ} {recording : Recording}
    (found : session.bench.recording? = some recording) (recorded live : Work Interpreter υ Unit) :
    (do ensureOpen; if ← Interpreter.recording then recorded else live) session =
      recorded session := by
  obtain ⟨unit, outer, hunits, -⟩ := Bench.recording?_eq_some.mp found
  rw [run_bind_ok (ensureOpen_eq hunits), run_bind_ok (recording_eq session), found]
  rfl

namespace Backend

/-- While a unit is recorded, its control flow is recorded by either backend. The recording one
remembers an error. -/
theorem emit_of_issue {backend : Backend} {control : Control (Session backend.State υ)}
    {session : Session backend.State υ} {recording : Recording}
    (found : session.bench.recording? = some recording) {done : Unit → Session backend.State υ → Prop}
    {failed : Halt CompileError → Session backend.State υ → Prop}
    (emits : Ends control.emit session done failed) :
    Ends (control.issue (backend.contract υ)) session done fun halt session' =>
      halt = .outOfFuel → failed halt session' := by
  cases backend with
  | recording =>
      have checked : Ends (Recorder.checked control.emit) session done fun halt session' =>
          halt = .outOfFuel → failed halt session' := by
        refine Recorder.ends_checked nofun fun _ => emits.mono (fun _ _ => id) ?_
        intro halt session' broke
        cases halt with
        | failure error => exact nofun
        | outOfFuel => exact fun _ => broke
      cases control <;> exact checked
  | immediate fuel =>
      have recorded : control.issue (Interpreter.contract υ fuel) session = control.emit session := by
        cases control <;> exact Interpreter.either_of_recording found _ _
      unfold Ends
      rw [show control.issue (contract υ (immediate fuel)) session = _ from recorded]
      exact (emits.mono (fun _ _ => id) fun _ _ broke _ => broke)

/-- Nested code may check itself. -/
theorem issue_guarded {backend : Backend} (control : Control (Session backend.State υ))
    {session : Session backend.State υ} {recording : Recording}
    (found : session.bench.recording? = some recording) :
    control.guarded.issue (backend.contract υ) session =
      control.issue (backend.contract υ) session := by
  have emitted := control.emit_guarded
  cases backend with
  | recording =>
      have checked := congrFun (congrArg Recorder.checked emitted) session
      cases control <;> exact checked
  | immediate fuel =>
      cases control <;> exact (Interpreter.either_of_recording found _ _).trans
        ((congrFun emitted session).trans
        (Interpreter.either_of_recording found _ _).symm)

/-- While a unit is recorded, control flow that succeeds leaves as many units open as there
were, and none of those that were open before has lost any of its code. If the unit that it
began in is still open, it is the innermost one and has been given the operation's layout, in
which every jump has its source and its target; the code of the units around it and of those that
were closed before is what it was. No jump is looked for outside that code: where control flow
ends without an answer, nested code did, or has closed the unit. Nested code that leaves another
number of units open is refused, since the operation does the same if nested code checks that
itself. -/
theorem control_in_unit (backend : Backend) {manner : Manner backend.State υ}
    {control : Control (Session backend.State υ)}
    (callers : ∀ part, control.Has part → Client (backend.contract υ) manner part)
    {session : Session backend.State υ} (proper : session.bench.Proper backend.executes)
    {unit : OpenUnit (Option Recording)} {outer : List (OpenUnit (Option Recording))}
    (hunits : session.bench.units.units = unit :: outer) {slot : UInt32} {builder : Builder}
    (payload : unit.payload = some ⟨slot, builder⟩) :
    control.guarded.issue (backend.contract υ) session =
      control.issue (backend.contract υ) session ∧
    (∀ session', control.issue (backend.contract υ) session = .error .outOfFuel session' →
      unit.id ∈ session'.bench.units.ids → ∃ part before after, control.Has part ∧
        part before = .error .outOfFuel after ∧ after.backend = session'.backend ∧
        after.client = session'.client) ∧
    ∀ session', control.issue (backend.contract υ) session = .ok () session' →
      session'.bench.units.size = session.bench.units.size ∧
      session.bench.units.Evolves Recording.Extends session'.bench.units ∧
      (unit.id ∈ session'.bench.units.ids → ∃ builder' added, control.Layout added ∧
        session'.bench.units.units =
          { unit with payload := some ⟨slot, builder'⟩ } :: outer ∧
        builder'.code.ops.toList = builder.code.ops.toList ++ added ∧
        (session.bench.Tabled → ∀ position < session.bench.program.code.size,
          session'.bench.program.code[position]? = session.bench.program.code[position]?)) := by
  have found : session.bench.recording? = some ⟨slot, builder⟩ :=
    Bench.recording?_eq_some.mpr ⟨unit, outer, hunits, payload⟩
  let quits (state : backend.State) (client : υ) : Prop := ∃ part before after, control.Has part ∧
    part before = .error .outOfFuel after ∧ after.backend = state ∧ after.client = client
  have nests (part : Work backend.State υ Unit) (has : control.Has part) :
      part.Nests backend.executes quits :=
    ⟨lasts_client (callers part has), fun before after run => ⟨part, before, after, has, run, rfl, rfl⟩⟩
  have issues := emit_of_issue found (control.ends_emit proper hunits payload nests)
  refine ⟨issue_guarded control found, fun session' run => (issues.error run rfl).cause rfl,
    fun session' run => ?_⟩
  obtain ⟨added, layout, sketch⟩ := issues.ok run
  refine ⟨sketch.level, sketch.later.units, fun alive => ?_⟩
  obtain ⟨builder', units, ops⟩ := sketch.units_eq proper hunits payload alive
  refine ⟨builder', added, layout, units, ops, fun tabled position inside => ?_⟩
  have places : session'.bench.places = session.bench.places := by
    simp [Bench.places, Bench.place, units, hunits, payload]
  exact ((sketch.later.table tabled).2 [] [] _ rfl places position ⟨inside, by simp [Bench.slots]⟩).2

/-- A script in which a value was pushed. -/
def started : Session Recorder Unit where
  bench :=
    { config := .strict
      units := {
        owner := 0, nextId := 2, units := [⟨1, .script, mainName, some ⟨0, pushed⟩⟩], maxNesting := 8 }
      sharing := false }
  backend := { script := .opened ⟨0, 1⟩ }
  client := ()
where
  pushed : Builder :=
    { code := { name := mainName, kind := .script, ops := #[.pushTrue] }
      stack := { depth := 1, maxDepth := 1, strict := true } }

/-- An operator whose right-hand side is another value. -/
def conjunction : Control (Session Recorder Unit) :=
  .logical .conjunction ((Operation.primitive .loadFalse).issue (Recorder.contract Unit))

theorem conjunction_in_unit : ∃ session', conjunction.issue (Recorder.contract Unit) started =
    .ok () session' ∧ ∃ builder added, conjunction.Layout added ∧
      (session'.bench.recording?.map (·.builder)) = some builder ∧
      builder.code.ops.toList = .pushTrue :: added := by
  have outcome : (Work.session? (conjunction.issue (Recorder.contract Unit)) started).map
      (·.bench.units.ids) = some [1] := by decide +kernel
  obtain ⟨session', ends, ids⟩ := Option.map_eq_some_iff.mp outcome
  obtain ⟨value, run⟩ := Work.run_of_session? ends
  have proper : started.bench.Proper false :=
    ⟨by simp [UnitStack.Fresh, started], by decide, by simp [started]⟩
  have callers : ∀ part, conjunction.Has part → Client (Recorder.contract Unit) {} part := by
    rintro part rfl
    exact .issue (fun _ has => has.elim) fun _ has => has.elim
  obtain ⟨-, -, stays⟩ := control_in_unit .recording callers proper rfl rfl
  obtain ⟨-, -, drawn⟩ := stays session' run
  obtain ⟨builder, added, layout, units, ops, -⟩ := drawn (ids ▸ List.mem_singleton_self _)
  refine ⟨session', run, builder, added, layout, ?_, ops⟩
  simp [Bench.recording?, UnitStack.top?, units]

/-- A loop whose condition closes the method around it and opens another one. -/
def replacing : Action Empty :=
  .loop (.seq (.endMethod "m") (.seq (.beginMethod "g" "g" 0 0) (.primitive .loadTrue))) .skip true

/-- The open units before and after such a loop in a method, if it succeeds. -/
def unitsAround (backend : Backend) (fresh : Session backend.State Notes) :
    Option (List String × List String) :=
  let method : Action Empty := .seq .startScript (.beginMethod "m" "m" 0 0)
  match method.run (backend.contract Notes) Empty.elim fresh with
  | .error _ _ => none
  | .ok _ session =>
    match replacing.run (backend.contract Notes) Empty.elim session with
    | .error _ _ => none
    | .ok _ session' =>
      some (session.bench.units.units.map (·.name), session'.bench.units.units.map (·.name))

/-- Counting the open units does not tell one unit from another. -/
theorem loop_changes_unit :
    recording.unitsAround (Recorder.new .strict 0 {}) =
      some (["m", "<main>"], ["g", "<main>"]) ∧
    (immediate 0).unitsAround (Interpreter.new .strict {} 0 {}) =
      some (["m", "<main>"], ["g", "<main>"]) := by
  decide +kernel

/-- A branch in a method, with these arms, the first of which closes the method before and opens
another one. -/
def misplaced (arm : Action Empty) : Action Empty :=
  .all [.startScript, .beginMethod "m" "m" 0 0, .primitive .loadTrue,
    .branch (.all [.endMethod "m", .beginMethod "g" "g" 0 0, arm]) arm]

/-- Whether such a script succeeds, if it gives an answer, and the operations of the innermost
unit by then. -/
def misplacedIn (backend : Backend) (fresh : Session backend.State Notes) (arm : Action Empty) :
    Option Bool × Option (List Op) :=
  let ops (session : Session backend.State Notes) : Option (List Op) :=
    session.bench.recording?.map (·.builder.code.ops.toList)
  match (misplaced arm).run (backend.contract Notes) Empty.elim fresh with
  | .ok _ session => (some true, ops session)
  | .error (.failure _) session => (some false, ops session)
  | .error .outOfFuel session => (none, ops session)

/-- Where the verifier does not look at the unit that was closed, the branch goes on in the other
one. There is no operation at the position of its jump, or it is another one that is overwritten. -/
theorem branch_aims_elsewhere :
    recording.misplacedIn (Recorder.new { verifyUnits := false } 0 {}) .skip =
      (none, some [.jump 0]) ∧
    recording.misplacedIn (Recorder.new { verifyUnits := false } 0 {})
      (.all [.primitive .loadTrue, .primitive .loadFalse]) =
      (some true, some [.pushTrue, .jumpIfFalse 2, .jump 3, .pushTrue, .pushFalse]) ∧
    (immediate 0).misplacedIn (Interpreter.new { verifyUnits := false } {} 0 {}) .skip =
      (none, some [.jump 0]) := by
  decide +kernel

end Backend

end BlockScript
