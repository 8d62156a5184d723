import BlockScript.Proofs.Backend.Supplied

/-!
# Scripts that leave surplus values

Without checks a script may leave any number of values, and both backends take one of them for its
result. What is recorded drops values from the top of the stack until one is left, so the artifact
results in the value at the bottom. The immediate backend takes the value at the top. The worlds are
the same otherwise.
-/

namespace BlockScript

variable {ε : Type} {left count : Nat} {config : Config} {owner : Nat}

/-! ## The artifact -/

namespace Recorder

variable {υ : Type} {session session' : Session Recorder υ}

/-- A script that has ended was the only open unit, and was closed as any unit is. -/
theorem ensures_endScript_ended : Ensures (endScript : Work Recorder υ Unit) session
    fun _ session' => session.bench.units.size ≤ 1 ∧ ∃ handle installed bench,
      session.backend.script = .opened handle ∧
      Bench.closeUnit handle .script session.bench = .ok installed bench ∧
      session' = { session with bench, backend := { session.backend with script := .ended } } := by
  refine ensures_checked (Ensures.get (Ensures.ite
    (fun _ => Ensures.stop (Ensures.last fun _ _ => Ensures.throws)) fun few => Ensures.get ?_))
  cases script : session.backend.script with
  | opened handle =>
      have closes : Ensures (Work.onBench (Bench.closeUnit handle .script) : Work Recorder υ UInt32)
          { session with backend := { session.backend with script := .ended } }
          fun installed session' => ∃ bench,
            Bench.closeUnit handle .script session.bench = .ok installed bench ∧
            session' = { session with bench, backend := { session.backend with script := .ended } } :=
        Work.ensures_onBench fun _ bench run => ⟨bench, run, rfl⟩
      refine closes.bind fun installed _ closed => Ensures.pure ?_
      obtain ⟨bench, run, rfl⟩ := closed
      exact ⟨Nat.le_of_not_lt few, handle, installed, bench, rfl, run, rfl⟩
  | notStarted | ended => exact Ensures.throws

/-- The script can be ended if it is the only open unit, and can be closed. -/
theorem endScript_eq {handle : UnitHandle} {installed : UInt32} {bench : Bench}
    (unpoisoned : session.backend.poisoned = none) (alone : session.bench.units.size ≤ 1)
    (opened : session.backend.script = .opened handle)
    (closes : Bench.closeUnit handle .script session.bench = .ok installed bench) :
    endScript session =
      .ok () { session with bench, backend := { session.backend with script := .ended } } := by
  have closing : (Work.onBench (Bench.closeUnit handle .script) : Work Recorder υ UInt32)
      { session with backend := { session.backend with script := .ended } } =
      .ok installed { session with bench, backend := { session.backend with script := .ended } } :=
    Work.onBench_ok closes
  have closed : closeScript session.bench session =
      .ok () { session with bench, backend := { session.backend with script := .ended } } := by
    unfold closeScript
    rw [run_bind_ok run_get]
    simp only [opened]
    exact run_bind_ok closing
  have looked : (Work.bench : Work Recorder υ Bench) session = .ok session.bench session := rfl
  refine checked_ok unpoisoned ?_
  rw [run_bind_ok looked, if_neg (Nat.not_lt.mpr alone)]
  exact closed

theorem repeats_startScript : Repeats Session.checking (startScript : Work Recorder υ Unit)
    startScript session := by
  refine repeats_checked (Work.repeats_bench (.get (.ite (fun _ => Ensures.stop Ensures.throws)
    fun _ => ?_)))
  exact (Work.repeats_openUnit .script mainName 0 0 []).bind fun handle _ _ _ => .modifies rfl

/-- The script ends as if it had been brought to one value first. -/
theorem repeats_endScript {session : Session Recorder Notes} {height : Nat}
    {onExtra : ε → Work Recorder Notes Unit}
    (stands : Backend.recording.Stands height session.checking) (room : height + 1 < 2 ^ 63) :
    Repeats Session.checking endScript (do
      (Action.settle height).run (Recorder.guarded Notes) onExtra
      endScript) session := by
  intro _ session' run
  obtain ⟨alone, handle, installed, bench, opened, closes, rfl⟩ :=
    ensures_endScript_ended _ _ run
  obtain ⟨recording, found, -⟩ := stands.found
  obtain ⟨_, _, code, hunits, payload, -, -, -, finished, -⟩ := Bench.closeUnit_ok found closes
  obtain ⟨builder, one, same, settles⟩ := stands.settled onExtra room found finished
  refine (run_bind_ok settles).trans (endScript_eq stands.prepared.unpoisoned ?_ opened
    (Bench.repeats_closeUnit found finished same one closes))
  change (session.bench.setBuilder builder).checking.units.size ≤ 1
  rw [Bench.checking_size, UnitStack.size, Bench.setBuilder_units hunits payload builder]
  rwa [UnitStack.size, hunits] at alone

end Recorder

/-! ## The script that is executed -/

/-- Without checks a script may be ended with any number of values. -/
theorem Interpreter.Script.ends_unchecked {υ : Type} {session : Session Interpreter υ}
    (script : Script session.checking) (unchecked : session.bench.config.checkStack = false)
    {failed : Halt CompileError → Session Interpreter υ → Prop} :
    Ends endScript session (fun _ session' =>
      session'.backend.result = some (session.backend.top.stack.head?.getD .nil) ∧
      session'.backend.world = session.backend.world ∧
      session'.bench.program = session.bench.program) failed := by
  obtain ⟨handle, opened, owner, units⟩ := script.opened
  have opened : session.backend.script = some handle := opened
  obtain ⟨unit, single, same⟩ : ∃ unit, session.bench.units.units = [unit] ∧ unit.under true = _ :=
    List.map_eq_singleton_iff.mp units
  exact ends_endScript_top opened owner single (congrArg OpenUnit.id same)
    (congrArg OpenUnit.kind same) fun _ => unchecked

/-! ## Scripts that are completed -/

namespace Action

variable {action twin : Action Empty} {limits : Limits} {owner' : Nat}
  {session : Session Recorder Notes} {artifact : Program}

/-- The table of code objects is as small as that of constants. -/
theorem size_of_run (tables : config.maxPoolEntries ≤ UInt32.size)
    (run : action.run (Recorder.contract Notes) Empty.elim (Recorder.new config owner {}) =
      .ok () session) : session.bench.program.code.size ≤ UInt32.size := by
  have client : Client (Recorder.contract Notes) {} (action.run (Recorder.contract Notes) Empty.elim) :=
    action.client fun operation => operation.elim
  have later := (Backend.recording.lasts_client client _).ok run (Bench.proper_new config owner false)
  have tabled := (later.table (Bench.tabled_new tables owner false)).1
  exact Nat.le_trans tabled.size tabled.limit

namespace Completion

variable (h : Completion 0 left count action twin) (room : count + settleCount left + 1 < 2 ^ 31)
  (tables : config.maxPoolEntries ≤ UInt32.size)

include h room tables

/-- The whole script is recorded with checks as it is without them. -/
theorem repeats_script : Repeats Session.checking
    ((Action.seq .startScript (.seq action .endScript)).run (Recorder.contract Notes) Empty.elim)
    ((Action.seq .startScript (.seq (.seq twin (.settle left)) .endScript)).run
      (Recorder.guarded Notes) Empty.elim) (Recorder.new config owner {}) := by
  refine Recorder.repeats_startScript.bind fun _ session₁ _ again => ?_
  have stands : Backend.recording.Stands 0 session₁.checking := by
    have started : Recorder.startScript (Recorder.new config.checking owner {}) =
        .ok () session₁.checking := again
    have tables : config.checking.maxPoolEntries ≤ UInt32.size := tables
    obtain ⟨handle, opened, -, units, sharing, backend⟩ :=
      Recorder.ensures_startScript_opened tables _ _ started
    obtain ⟨-, stack⟩ := (Bench.new config.checking owner false).opening_empty .script mainName 0 0 []
    refine ⟨⟨congrArg Recorder.poisoned backend, congrArg Config.checkStack opened.config, sharing⟩, _,
      Bench.recording?_eq_some.mpr ⟨_, _, units, rfl⟩, ?_⟩
    rw [Builder.depth, stack]
    rfl
  have records := h.records .recording Empty.elim
  have counts := records.writes.counts
  change Repeats _ (_ >>= _) ((_ >>= _) >>= _) _
  rw [bind_assoc]
  refine (records.repeats stands (Nat.zero_le _) (by omega)).bind fun _ session₂ _ again => ?_
  obtain ⟨stands₂, -⟩ := stands.ensures_writes records.writes (Nat.zero_le _) (by omega) _ _ again
  rw [Nat.sub_zero, Nat.zero_add] at stands₂
  exact Recorder.repeats_endScript stands₂ (by omega)

/-- The artifact is verified, and holds what is laid out for the script that is brought to one
value. -/
theorem files_of_script
    (compiled : (Action.seq .startScript (.seq action .endScript)).run (Recorder.contract Notes)
      Empty.elim (Recorder.new config owner {}) = .ok () session)
    (finished : Recorder.program session = .ok artifact)
    (short : config.verifyUnits = false → ∀ code ∈ artifact.code, code.ops.size < 2 ^ 31) :
    artifact.verify = .ok () ∧ (∃ code, artifact.code? 0 = some code ∧ code.ops.size < 2 ^ 31) ∧
      artifact.Files (.headOf .script mainName 0 0 [])
        ((Action.seq twin (.settle left)).Lays artifact .script) 0 := by
  have guarded := h.repeats_script room tables _ _ compiled
  have straight : (Action.seq .startScript (.seq (.seq twin (.settle left)) .endScript)).Straight :=
    ⟨trivial, ⟨h.straight, straight_settle left⟩, trivial⟩
  have recorded := Action.run_follows straight _ _ _ guarded
  have checks : config.checking.checkStack = true := rfl
  obtain ⟨⟨code, found, size⟩, files, verified⟩ := Action.files_of_script checks tables
    (h.draws_body .recording Empty.elim .script) room recorded finished
  refine ⟨?_, ⟨code, found, by omega⟩, files⟩
  cases verifies : config.verifyUnits with
  | true => exact verified verifies
  | false =>
      obtain ⟨-, ended, rfl, -⟩ := Recorder.program_ok finished
      have slots : session.bench.program.code.size ≤ UInt32.size := size_of_run tables compiled
      exact (Action.verifies_guarded straight rfl guarded ended slots (short verifies)).1

omit room in
/-- The machine that runs the artifact comes to the value at the bottom of what the script has left.
-/
theorem returns_bottom {fuel : Nat} {code : Code} (found : artifact.code? 0 = some code)
    (size : code.ops.size < 2 ^ 31) (files : artifact.Files (.headOf .script mainName 0 0 [])
      ((Action.seq twin (.settle left)).Lays artifact .script) 0)
    (quiet : Machine.opening.Quiet artifact limits) {live : Session Interpreter Notes}
    (issued : (Action.seq .startScript action).run (Interpreter.contract Notes fuel) Empty.elim
      (Interpreter.new config limits owner {}) = .ok () live) :
    Interpreter.Script live.checking ∧ live.backend.top.stack.length = left ∧
      ∃ count world, (Machine.step artifact limits)^[count] Machine.opening =
          ⟨.give (live.backend.top.stack.getLast?.getD .nil), [], world⟩ ∧
        world.resetExecution.Alike (artifact.Twins Empty live.bench.program)
          live.backend.world.resetExecution := by
  obtain ⟨_, _, begins, acts⟩ := run_of_bind issued
  obtain rfl := Interpreter.ends_startScript.ok begins
  obtain ⟨code', _, found', head, ⟨first, last, lays, settles, rfl⟩, whole⟩ := files
  obtain rfl := Option.some.inj (found.symm.trans found')
  obtain ⟨holds, returns⟩ := Code.holds_whole whole
  rw [List.length_append, ← Nat.add_assoc] at returns
  have tables : config.checking.maxPoolEntries ≤ UInt32.size := tables
  have shadow : Interpreter.Shadow Empty artifact limits Machine.opening code 0 0
      (Interpreter.begun config.checking limits owner ({} : Notes)) :=
    Interpreter.shadow_begun rfl tables found head quiet
  have begun : Interpreter.Live (Interpreter.begun config limits owner ({} : Notes)).checking :=
    shadow.live
  have again := (h.executes fuel Empty.elim).repeats begun (Nat.zero_le _) _ _ acts
  obtain ⟨shadow', scene⟩ := ((h.shadowed fuel Empty.elim).ends quiet size holds.left lays shadow
    (Nat.zero_le _)).ok again
  have length : live.checking.backend.top.stack.length = left := scene.stack.length
  have settled := shadow'.settle quiet holds.right settles length
  have returned := settled.returns quiet returns rfl
  exact ⟨shadow'.script, length, returned⟩

end Completion

/-- Without checks a script that leaves any number of values ends with the topmost one where it is
executed, and with the one at the bottom where the artifact that was recorded for it runs, unless
either runs into a limit or the machine shows a block. Nothing else differs: the output is the same,
and so are the worlds but for the positions of code. -/
theorem unchecked_results (unchecked : config.checkStack = false)
    (tables : config.maxPoolEntries ≤ UInt32.size) (supplied : action.Supplied 0 left count)
    (room : count + settleCount left + 1 < 2 ^ 31)
    (compiled : (Action.seq .startScript (.seq action .endScript)).run (Recorder.contract Notes)
      Empty.elim (Recorder.new config owner {}) = .ok () session)
    (finished : Recorder.program session = .ok artifact)
    (short : config.verifyUnits = false → ∀ code ∈ artifact.code, code.ops.size < 2 ^ 31)
    (quiet : Machine.opening.Quiet artifact limits) {fuel : Nat} {live : Session Interpreter Notes}
    (issued : (Action.seq .startScript action).run (Interpreter.contract Notes fuel) Empty.elim
      (Interpreter.new config limits owner' {}) = .ok () live) :
    live.backend.top.stack.length = left ∧ ∃ ended, Interpreter.endScript live = .ok () ended ∧
      ended.backend.result = some (live.backend.top.stack.head?.getD .nil) ∧
      ∃ least vm, (∀ budget ≥ least, (Vm.new limits).run budget artifact =
          (.ok (live.backend.top.stack.getLast?.getD .nil), vm)) ∧
        ended.backend.world.output = vm.world.output ∧
        vm.world.resetExecution.Alike (artifact.Twins Empty ended.bench.program)
          ended.backend.world.resetExecution := by
  obtain ⟨twin, complete⟩ := supplied.completion
  obtain ⟨verified, ⟨code, found, size⟩, files⟩ :=
    complete.files_of_script room tables compiled finished short
  have head : code.head = .headOf .script mainName 0 0 [] := by
    obtain ⟨code', -, found', head, -⟩ := files
    exact Option.some.inj (found.symm.trans found') ▸ head
  obtain ⟨script, length, least, world, reached, alike⟩ :=
    complete.returns_bottom tables found size files quiet issued
  have client : Client (Interpreter.contract Notes fuel) {}
      ((Action.seq .startScript action).run (Interpreter.contract Notes fuel) Empty.elim) :=
    Action.client (fun operation => operation.elim) _
  have later := ((Backend.immediate fuel).lasts_client client _).ok issued
    (Bench.proper_new config owner' true)
  have still : live.bench.config = config := later.config
  have ends : Ends Interpreter.endScript live _ fun _ _ => False :=
    script.ends_unchecked (still ▸ unchecked)
  cases run : Interpreter.endScript live with
  | error halt broken => exact (ends.error run).elim
  | ok _ ended =>
      obtain ⟨result, world', program⟩ := ends.ok run
      rw [← world', ← program] at alike
      have done : ((Machine.step artifact limits)^[least] Machine.opening).Done := by
        rw [reached]
        exact ⟨rfl, .inl ⟨_, rfl⟩⟩
      refine ⟨length, ended, rfl, result, least, ⟨artifact, limits, world⟩, fun budget enough => ?_,
        alike.output, alike⟩
      rw [Vm.run_new verified found head, done.run enough, reached]
      rfl

/-- A method whose body leaves two values is called and its value is printed. A number from before is
left under the value of the print. -/
def lavish : Action Empty :=
  .seq (.primitive (.fixnum 1)) (.seq
    (.method "pick" 0 0 (.seq (.primitive (.fixnum 2)) (.primitive (.fixnum 3))))
    (.seq (.call "pick" .name) (.call "print" (.function 1))))

theorem supplied_lavish : lavish.Supplied 0 2 4 := by
  have number (value : Int64) (height : Nat) :
      (Action.primitive (.fixnum value) : Action Empty).Supplied height (height + 1) 1 :=
    @Supplied.primitive Empty height (.fixnum value) (Nat.zero_le height)
  have picked : (Action.method "pick" 0 0 (.seq (.primitive (.fixnum 2)) (.primitive (.fixnum 3))) :
      Action Empty).Supplied 1 1 1 := .method (.seq (number 2 0) (number 3 1)) (by decide)
  have called : (Action.call "pick" .name : Action Empty).Supplied 1 2 1 :=
    @Supplied.call Empty 1 "pick" .name (by decide) (by decide)
  have printed : (Action.call "print" (.function 1) : Action Empty).Supplied 2 2 1 :=
    @Supplied.call Empty 2 "print" (.function 1) (by decide) (by decide)
  exact .seq (number 1 0) (.seq picked (.seq called printed))

theorem lavish_results : ∃ session artifact live,
    (Action.seq .startScript (.seq lavish .endScript)).run (Recorder.contract Notes) Empty.elim
      (Recorder.new { checkStack := false, verifyUnits := false } 0 {}) = .ok () session ∧
    Recorder.program session = .ok artifact ∧
    (Action.seq .startScript lavish).run (Interpreter.contract Notes 30) Empty.elim
      (Interpreter.new { checkStack := false, verifyUnits := false } {} 0 {}) = .ok () live ∧
    live.backend.top.stack = [.nil, .fixnum 1] ∧
    ∃ ended, Interpreter.endScript live = .ok () ended ∧ ended.backend.result = some .nil ∧
      ∃ least vm, (∀ budget ≥ least, (Vm.new {}).run budget artifact = (.ok (.fixnum 1), vm)) ∧
        ended.backend.world.output = vm.world.output := by
  have records : (Recorder.recorded?
      ((Action.seq .startScript (.seq lavish .endScript)).run (Recorder.contract Notes) Empty.elim)
      (Recorder.new { checkStack := false, verifyUnits := false } 0 {})).map (fun artifact =>
        decide (Machine.Calm artifact {} 100 Machine.opening ∧
          ∀ code ∈ artifact.code, code.ops.size < 2 ^ 31)) = some true := by decide +kernel
  have issues : (((Action.seq .startScript lavish).run (Interpreter.contract Notes 30)
      Empty.elim).session? (Interpreter.new { checkStack := false, verifyUnits := false } {} 0 {})).map
        (fun live => live.backend.top.stack) = some [.nil, .fixnum 1] := by decide +kernel
  have supplied := supplied_lavish
  generalize lavish = action at records issues supplied ⊢
  obtain ⟨artifact, recorded, holds⟩ := Option.map_eq_some_iff.mp records
  obtain ⟨calm, short⟩ := of_decide_eq_true holds
  obtain ⟨_, session, compiled, finished⟩ := Recorder.run_of_recorded? recorded
  obtain ⟨live, run, stack⟩ := Option.map_eq_some_iff.mp issues
  obtain ⟨_, issued⟩ := Work.run_of_session? run
  obtain ⟨-, ended, ends, result, least, vm, runs, output, -⟩ := unchecked_results rfl (by decide)
    supplied (by decide) compiled finished (fun _ => short) calm.quiet issued
  rw [stack] at result runs
  exact ⟨session, artifact, live, compiled, finished, issued, stack, ended, ends, result, least, vm,
    runs, output⟩

/-- So the backends differ as soon as two different values are left. -/
theorem two_values_differ :
    (Recorder.recorded? ((Action.all [.startScript, .primitive (.fixnum 1), .primitive (.fixnum 2),
        .endScript] : Action Empty).run (Recorder.contract Notes) Empty.elim)
      (Recorder.new { checkStack := false } 0 {})).map (fun artifact =>
        ((Vm.new {}).run 10 artifact).1.toOption) = some (some (.fixnum 1)) ∧
    (((Action.all [.startScript, .primitive (.fixnum 1), .primitive (.fixnum 2),
        .endScript] : Action Empty).run (Interpreter.contract Notes 10) Empty.elim).session?
      (Interpreter.new { checkStack := false } {} 0 {})).map (fun session =>
        session.backend.result) = some (some (.fixnum 2)) := by
  constructor <;> decide +kernel

end Action

end BlockScript
