import BlockScript.Proofs.Backend.Shadow

/-!
# Operations of a script in the shadow of its artifact

`Interpreter.Shadowed` says that a computation shadows what is laid out for an action: wherever the
session shadows a machine that is about to run that code, it still does so at the end of the code.
There is a rule for each operation of the contract. The arm of a branch that is not taken and a
right-hand side that is skipped are what the machine jumps over, and each pass of a loop is one of
the machine's.
-/

namespace BlockScript.Interpreter

variable {ε υ α : Type}

/-- Where the script is executed, the computation shadows what is laid out for the action. -/
structure Shadowed (fuel taken given : Nat) (action : Action ε) (work : Work Interpreter υ Unit) :
    Prop where
  runs : Runs taken given work
  shadows {artifact : Program} {limits : Limits} {start : Machine} {code : Code}
    {ip least : Nat} {ops : List Op} {session : Session Interpreter υ} :
    start.Quiet artifact limits → code.ops.size < 2 ^ 31 → code.Holds ip ops →
    action.Lays artifact .script ops → Shadow ε artifact limits start code ip least session →
    taken ≤ session.backend.top.stack.length →
    Ends work session
      (fun _ session' => Shadow ε artifact limits start code (ip + ops.length) least session')
      (Echoes artifact limits start fuel)

/-! ## Control of the machine -/

namespace Shadow

variable {artifact : Program} {limits : Limits} {start : Machine} {code : Code} {ip least : Nat}
  {session : Session Interpreter υ} (quiet : start.Quiet artifact limits)

include quiet

/-- The machine jumps. -/
theorem step_always {base source target : Nat}
    (shadow : Shadow ε artifact limits start code (base + source) least session)
    (low : source < 2 ^ 31) (high : target < 2 ^ 31)
    (here : code.ops[base + source]? = some (Control.jump .always source target)) :
    Shadow ε artifact limits start code (base + target) (least + 1) session :=
  shadow.moves quiet fun world still => ⟨0, world.count, still.step_always low high here, .counted⟩

/-- The machine takes a value and jumps if it is as wanted. -/
theorem step_conditional {base source target : Nat} {kind : JumpKind} {value : Value}
    {rest : List Value} (shadow : Shadow ε artifact limits start code (base + source) least session)
    (low : source < 2 ^ 31) (high : target < 2 ^ 31)
    (here : code.ops[base + source]? = some (Control.jump kind source target))
    (conditional : kind ≠ .always) (stack : session.backend.top.stack = value :: rest) :
    Shadow ε artifact limits start code (if value.isTruthy = decide (kind = .ifTrue) then base + target
      else base + source + 1) (least + 1) (withStack session rest) :=
  shadow.moves quiet fun world still =>
    ⟨0, world.count, still.step_conditional low high here conditional stack, .counted⟩

/-- The machine drops a value. -/
theorem step_pop {value : Value} {rest : List Value}
    (shadow : Shadow ε artifact limits start code ip least session)
    (here : code.ops[ip]? = some .pop) (stack : session.backend.top.stack = value :: rest) :
    Shadow ε artifact limits start code (ip + 1) (least + 1) (withStack session rest) :=
  shadow.moves quiet fun world still => ⟨0, world.count, still.step_pop here stack, .counted⟩

/-- The machine looks at the value on top, and jumps if it is as wanted. -/
theorem step_test {target : Nat} {kind : JumpKind} {value : Value} {rest : List Value}
    (shadow : Shadow ε artifact limits start code ip least session)
    (high : target < 2 ^ 31) (double : code.ops[ip]? = some .dup)
    (here : code.ops[ip + 1]? = some (Control.jump kind 1 target))
    (conditional : kind ≠ .always) (stack : session.backend.top.stack = value :: rest) :
    Shadow ε artifact limits start code (if value.isTruthy = decide (kind = .ifTrue) then ip + target
      else ip + 2) (least + 1) session := by
  have same : withStack session session.backend.top.stack = session := rfl
  rw [← same]
  refine shadow.moves quiet fun world still =>
    ⟨1, world.count.count, ?_, fun alike => alike.counted.counted⟩
  have doubled := still.step_dup double stack
  have again := still.after 1
  rw [Function.iterate_one, doubled] at again
  rw [Function.iterate_succ_apply', Function.iterate_one, doubled,
    again.step_conditional (by omega) high here conditional rfl, stack]

end Shadow

/-! ## Nested code -/

namespace Shadowed

variable {artifact : Program} {limits : Limits} {start : Machine} {code : Code} {ip least : Nat}
  {ops : List Op} {session : Session Interpreter υ} {fuel taken given : Nat} {action : Action ε}
  {work : Work Interpreter υ Unit}

/-- The stack of the script has become what the computation leaves. -/
theorem ends (h : Shadowed fuel taken given action work) (quiet : start.Quiet artifact limits)
    (short : code.ops.size < 2 ^ 31) (holds : code.Holds ip ops)
    (lays : action.Lays artifact .script ops)
    (shadow : Shadow ε artifact limits start code ip least session)
    (enough : taken ≤ session.backend.top.stack.length) :
    Ends work session
      (fun _ session' => Shadow ε artifact limits start code (ip + ops.length) least session' ∧
        Scene taken given session session')
      (Echoes artifact limits start fuel) :=
  (h.shadows quiet short holds lays shadow enough).ensured (h.runs.ends shadow.live enough).ensures

/-- A region one level deeper. -/
theorem ends_nested {region : Work Interpreter υ Unit} {ip' least' : Nat}
    (shadow : Shadow ε artifact limits start code ip least session)
    (h : Shadow ε artifact limits start code ip least
        { session with bench := session.bench.enterRegion } →
      Ends region { session with bench := session.bench.enterRegion }
        (fun _ session' => Shadow ε artifact limits start code ip' least' session')
        (Echoes artifact limits start fuel)) :
    Ends (Work.nested region) session
      (fun _ session' => Shadow ε artifact limits start code ip' least' session')
      (Echoes artifact limits start fuel) := by
  have entered : Shadow ε artifact limits start code ip least
      { session with bench := session.bench.enterRegion } :=
    ⟨shadow.reached, shadow.limits,
      ⟨shadow.script.checks, shadow.script.sharing, shadow.script.opened⟩,
      shadow.tidy.congr rfl rfl rfl⟩
  refine Work.ends_nested (.inl ⟨_, _, rfl⟩) ((h entered).mono (fun _ session' left => ?_) ?_)
  · exact ⟨left.reached, left.limits, ⟨left.script.checks, left.script.sharing,
      left.script.opened⟩, left.tidy.congr rfl rfl rfl⟩
  · rintro (error | _) session' echoes <;> exact echoes

/-- A region that leaves one value leaves as many as it owes. -/
theorem ends_runRegion (h : Shadowed fuel 0 1 action work) (quiet : start.Quiet artifact limits)
    (short : code.ops.size < 2 ^ 31) (holds : code.Holds ip ops)
    (lays : action.Lays artifact .script ops)
    (shadow : Shadow ε artifact limits start code ip least session) (construct : String)
    {allowed : DepthTracker.Allowance} (admits : allowed.admits 1 = true) :
    Ends (runRegion construct allowed work) session
      (fun produced session' => produced = 1 ∧
        Shadow ε artifact limits start code (ip + ops.length) least session' ∧
        ∃ value, session'.backend.top.stack = value :: session.backend.top.stack)
      (Echoes artifact limits start fuel) := by
  refine Ends.get (Ends.get ((h.ends quiet short holds lays shadow (Nat.zero_le _)).bind ?_))
  rintro _ session' ⟨shadow', scene⟩
  have length := scene.stack.length
  have produced : (session'.backend.top.stack.length : Int) - session.backend.top.stack.length = 1 := by
    omega
  refine (scene.ends_ensureSameUnit construct).bind ?_
  rintro _ _ rfl
  refine Ends.get (Ends.get ?_)
  rw [produced, admits]
  obtain ⟨values, one, stack⟩ := scene.stack
  obtain ⟨value, rfl⟩ := List.length_eq_one_iff.mp one
  exact Ends.pure ⟨rfl, shadow', value, stack⟩

/-! ## Operations in order -/

variable {taken' given' : Nat} {action' : Action ε} {work' : Work Interpreter υ Unit}

theorem cast (h : Shadowed fuel taken given action work) (same : given = given') :
    Shadowed fuel taken given' action work :=
  same ▸ h

/-- What is below the operands stays there. -/
theorem frame (h : Shadowed fuel taken given action work) {whole : Nat} (enough : taken ≤ whole) :
    Shadowed fuel whole (whole - taken + given) action work where
  runs := h.runs.frame enough
  shadows quiet short holds lays shadow covered :=
    h.shadows quiet short holds lays shadow (Nat.le_trans enough covered)

theorem skip : Shadowed fuel 0 0 (.skip : Action ε) (pure () : Work Interpreter υ Unit) where
  runs := .pure ()
  shadows _ _ _ lays shadow _ := by
    obtain rfl := lays
    exact Ends.pure shadow

/-- One after the other, where the second one takes nothing that the first one has not left. -/
theorem seq (h₁ : Shadowed fuel taken given action work)
    (h₂ : Shadowed fuel taken' given' action' work') (owned : taken' ≤ given) :
    Shadowed fuel taken (given - taken' + given') (.seq action action') (do work; work') where
  runs := (Runs.bind h₁.runs fun _ => h₂.runs).cast (by omega) (by omega)
  shadows quiet short holds lays shadow enough := by
    obtain ⟨ops₁, ops₂, lays₁, lays₂, rfl⟩ := lays
    refine (h₁.ends quiet short holds.left lays₁ shadow enough).bind ?_
    rintro _ session₁ ⟨shadow₁, scene⟩
    have length := scene.stack.length
    refine (h₂.shadows quiet short holds.right lays₂ shadow₁ (by omega)).weaken fun _ _ shadow₂ => ?_
    rw [List.length_append, ← Nat.add_assoc]
    exact shadow₂

theorem relay (h : Shadowed fuel taken given action work)
    (same : ∀ program ops, action.Lays program .script ops ↔ action'.Lays program .script ops) :
    Shadowed fuel taken given action' work where
  runs := h.runs
  shadows quiet short holds lays := h.shadows quiet short holds ((same _ _).mpr lays)

/-! ## Operations without nested code -/

/-- An operation that refers to a constant is executed when the machine does one that is alike. -/
theorem ends_pooled {constant : Constant} {make : UInt32 → Op} {operation : String} {op : Op}
    (straight : ∀ position, (make position).Straight taken given)
    (quiet : start.Quiet artifact limits) (here : code.ops[ip]? = some op)
    (alike : ∀ (program : Program) (position : UInt32),
      session.bench.program.Carries program (fun _ => True) →
      program.constants.get? position = some constant →
      op.Alike artifact program (artifact.Twins ε program) (make position))
    (shadow : Shadow ε artifact limits start code ip least session)
    (enough : taken ≤ session.backend.top.stack.length) :
    Ends (do perform fuel operation (make (← Work.onBench (Bench.intern constant)))) session
      (fun _ session' => Shadow ε artifact limits start code (ip + 1) least session')
      (Echoes artifact limits start fuel) := by
  refine (shadow.ends_intern constant fuel).bind ?_
  rintro position session₁ ⟨shadow₁, pooled, backend, carries⟩
  rw [← backend] at enough
  exact shadow₁.ends_perform quiet here (alike _ position carries pooled) (straight position) enough
    fuel _

/-- A constant without a value is reported before the machine raises its error. -/
theorem ends_unset (quiet : start.Quiet artifact limits) {name : String} {position : UInt32}
    (here : code.ops[ip]? = some (.getConst position))
    (pooled : artifact.constants.get? position = some (.name name))
    (shadow : Shadow ε artifact limits start code ip least session)
    (unset : session.backend.world.constants.get? name = none) (line : Option UInt32) :
    Echoes artifact limits start fuel (.failure (.resolution .constant name line)) session := by
  obtain ⟨count, world, -, reached, alike⟩ := shadow.reached
  have still := reached ▸ quiet.after count
  have text : artifact.constants.text? position = some name := by
    rw [Pool.text?, pooled]
    rfl
  have named (state : Activation × World) :
      Exec.constantText artifact.constants position state = .ok name state := by
    rw [Exec.constantText, text]
    rfl
  have raised : Exec.perform artifact (.getConst position) (session.backend.top, world.count) =
      .error (.noConstant name) (session.backend.top, world.count) := by
    rw [alike.constants] at unset
    have unset : world.count.constants.get? name = none := unset
    simp only [Exec.perform]
    rw [run_bind_ok (named _), run_bind_ok run_get]
    dsimp only
    rw [unset]
    rfl
  have stepped := still.step_perform here
  rw [raised] at stepped
  refine .inr ⟨count + 1, (RuntimeError.noConstant name).leaving (code.place ip), world.count.endCall,
    ?_, ⟨rfl, rfl⟩, alike.output.symm⟩
  rw [Function.iterate_succ_apply', reached, stepped]

section Forms

variable {p : Primitive} (quiet : start.Quiet artifact limits) (holds : code.Holds ip ops)
  (laid : p.form.Lays artifact .script ops)
  (shadow : Shadow ε artifact limits start code ip least session)

include quiet shadow

/-- An operation of the contract that is laid out in both programs. -/
theorem ends_laid {op op' : Op} (here : code.ops[ip]? = some op)
    (laid : p.form.Lays artifact .script [op])
    (laid' : p.form.Lays session.bench.program .script [op']) (straight : op'.Straight p.taken p.given)
    (enough : p.taken ≤ session.backend.top.stack.length) :
    Ends (perform fuel p.operation op') session
      (fun _ session' => Shadow ε artifact limits start code (ip + 1) least session')
      (Echoes artifact limits start fuel) :=
  shadow.ends_perform quiet here (Primitive.Form.Lays.alike_single p laid laid') straight enough fuel _

include holds

/-- A constant is looked up before it is read. -/
theorem ends_retrieveConstant {name : String} (laid : Primitive.Form.Lays artifact .script ops
      (Primitive.retrieveConstant name).form) :
    Ends (Interpreter.primitive fuel (.retrieveConstant name)) session
      (fun _ session' => Shadow ε artifact limits start code (ip + ops.length) least session')
      (Echoes artifact limits start fuel) := by
  obtain ⟨position, found, rfl⟩ := laid
  refine shadow.ends_ensureOpen.bind ?_
  rintro _ _ rfl
  refine shadow.ends_recording.bind ?_
  rintro _ _ ⟨rfl, rfl⟩
  refine Ends.get (Ends.ite (fun unset => Ends.get (Ends.stops ?_)) fun _ => ?_)
  · exact ends_unset quiet holds.head found shadow
      (Option.isNone_iff_eq_none.mp (by simpa using unset)) _
  · exact ends_pooled (fun _ => ⟨rfl, rfl, rfl, rfl⟩) quiet holds.head
      (fun program position' _ found' => .getConst (Program.sameText rfl found found')) shadow
      (Nat.zero_le _)

include laid

/-- A local is within reach, as it was recorded. -/
theorem ends_access {index depth : Nat} {assign : Bool} (form : p.form = .access index depth assign)
    (enough : p.taken ≤ session.backend.top.stack.length) :
    Ends (do
        Work.onBench (Bench.checkScopeDepth depth)
        perform fuel p.operation (Bench.localOp index depth assign)) session
      (fun _ session' => Shadow ε artifact limits start code (ip + ops.length) least session')
      (Echoes artifact limits start fuel) := by
  have acts := p.acts_form
  obtain ⟨-, straight⟩ : _ ∧ _ := form ▸ acts
  obtain ⟨near, rfl⟩ : depth ≤ Site.script.reach ∧ ops = [Bench.localOp index depth assign] := by
    rw [form] at laid
    exact laid
  have reach : session.bench.units.reachableDepth = Site.script.reach :=
    congrArg Site.reach shadow.script.site
  have within : Ends (Work.onBench (Bench.checkScopeDepth depth)) session
      (fun _ session' => session = session') (Echoes artifact limits start fuel) := by
    refine Work.ends_onBench (Ends.get (Ends.ite (fun far => ?_) fun _ => Ends.pure rfl))
    omega
  refine within.bind ?_
  rintro _ _ rfl
  exact ends_laid quiet shadow holds.head laid (form ▸ ⟨near, rfl⟩) straight enough

theorem ends_alias {newName oldName : String} (form : p.form = .aliasMethod newName oldName) :
    Ends (do
        let new ← Work.onBench (Bench.intern (.name newName))
        let old ← Work.onBench (Bench.intern (.name oldName))
        perform fuel p.operation (.aliasMethod new old)) session
      (fun _ session' => Shadow ε artifact limits start code (ip + ops.length) least session')
      (Echoes artifact limits start fuel) := by
  have acts := p.acts_form
  obtain ⟨-, taken, given⟩ : _ ∧ _ ∧ _ := form ▸ acts
  obtain ⟨new, old, found, found', rfl⟩ : ∃ new old,
      artifact.constants.get? new = some (.name newName) ∧
      artifact.constants.get? old = some (.name oldName) ∧ ops = [.aliasMethod new old] := by
    rw [form] at laid
    exact laid
  refine (shadow.ends_intern _ fuel).bind ?_
  rintro new' session₁ ⟨shadow₁, pooled, -, -⟩
  refine (shadow₁.ends_intern _ fuel).bind ?_
  rintro old' session₂ ⟨shadow₂, pooled', -, carries⟩
  refine ends_laid quiet shadow₂ holds.head laid
    (form ▸ ⟨new', old', carries.constants _ _ pooled, pooled', rfl⟩) ?_ ?_
  · rw [taken, given]
    exact ⟨rfl, rfl, rfl, rfl⟩
  · rw [taken]
    exact Nat.zero_le _

end Forms

theorem primitive (p : Primitive) : Shadowed fuel p.taken p.given (.primitive p : Action ε)
    (Interpreter.primitive fuel p : Work Interpreter υ Unit) where
  runs := .primitive fuel p
  shadows {artifact limits start code ip least ops session} quiet short holds lays shadow enough := by
    have acts := p.acts_form
    have laid : p.form.Lays artifact .script ops := lays
    by_cases constant : ∃ name, p = .retrieveConstant name
    · obtain ⟨name, rfl⟩ := constant
      exact ends_retrieveConstant quiet holds shadow laid
    unfold Interpreter.primitive
    cases form : p.form with
    | op single =>
        obtain ⟨-, straight⟩ : _ ∧ _ := form ▸ acts
        obtain rfl : ops = [single] := by
          rw [form] at laid
          exact laid
        exact ends_laid quiet shadow holds.head laid (form ▸ rfl) straight enough
    | pooled constant make =>
        obtain ⟨-, straight⟩ : _ ∧ _ := form ▸ acts
        dsimp only
        split
        · exact absurd ⟨_, rfl⟩ constant
        · obtain ⟨position, found, rfl⟩ : ∃ position, artifact.constants.get? position =
              some constant ∧ ops = [make position] := by
            rw [form] at laid
            exact laid
          exact ends_pooled straight quiet holds.head (fun program position' _ pooled =>
            Primitive.Form.Lays.alike_single p laid (form ▸ ⟨position', pooled, rfl⟩)) shadow enough
    | access index depth assign => exact ends_access quiet holds laid shadow form enough
    | aliasMethod newName oldName => exact ends_alias quiet holds laid shadow form
    | yield hasArgs =>
        rw [form] at laid
        cases laid.1
    | line line =>
        obtain rfl : ops = [] := by
          rw [form] at laid
          exact laid
        refine shadow.ends_ensureOpen.bind ?_
        rintro _ _ rfl
        refine shadow.ends_recording.bind ?_
        rintro _ _ ⟨rfl, rfl⟩
        refine Ends.modifies ?_
        exact ⟨shadow.reached, shadow.limits, ⟨shadow.script.checks, shadow.script.sharing,
          shadow.script.opened⟩, shadow.tidy.congr rfl rfl rfl⟩

end Shadowed

end BlockScript.Interpreter
