import BlockScript.Proofs.Backend.Recorded
import BlockScript.Proofs.Backend.Reported
import BlockScript.Proofs.Backend.Stretch
import BlockScript.Proofs.Machine.Traced

/-!
# The line that an error is attributed to

The immediate backend reports an error of the script with its current line, and the machine with
the line that was recorded for the operation. Both are the line that is known where the operation
begins, wherever in the script it stands: in the arm of a branch, in a loop or in an aggregate, and
whatever methods and blocks were recorded before. The line is known unless a body has moved it, or
nested code that may be skipped or repeated, and no line has been set since.
-/

namespace BlockScript

namespace Recorder

/-- Recording breaks off here. -/
def stop : Action Empty := .fail (.artifact "stopped")

/-- How many operations of the script are recorded where the recording breaks off. -/
def reached (owner : Nat) (action : Action Empty) : Option Nat :=
  match (Action.seq .startScript action).run (contract Notes) Empty.elim (new .strict owner {}) with
  | .ok _ _ => none
  | .error _ session => session.bench.recording?.map (·.builder.label)

/-- The operation of the script at that position was recorded for the part of it in that context. -/
def Covers (owner : Nat) (context : List (Layer (Action Empty))) (operation : Action Empty)
    (ip : Nat) : Prop :=
  ∃ first last, reached owner (.inContext context (.seq stop operation)) = some first ∧
    reached owner (.inContext context (.seq operation stop)) = some last ∧ first ≤ ip ∧ ip < last

/-- The script has just been opened. -/
structure Opened (session : Session Recorder Notes) (unit : OpenUnit (Option Recording))
    (builder : Builder) : Prop where
  shows : session.bench.Shows unit [] 0 builder
  name : builder.code.name = mainName
  lines : builder.code.lines = #[]

theorem ensures_startScript (owner : Nat) :
    Ensures (startScript : Work Recorder Notes Unit) (new .strict owner {}) fun _ session =>
      ∃ unit builder, Opened session unit builder := by
  refine ensures_checked (Ensures.get (Ensures.get (Ensures.ite (fun never => absurd rfl never)
    fun _ => ?_)))
  refine Ensures.bind (Work.ensures_runs Bench.ensures_opens) ?_
  rintro handle _ ⟨bench, ⟨units, -, opens, rfl⟩, rfl⟩
  obtain ⟨-, rfl⟩ := UnitStack.open_ok opens
  exact Ensures.modifies ⟨⟨_, .script, mainName, none⟩, _, rfl, rfl, rfl⟩

/-- What is closed last becomes the script of the program. -/
theorem ensures_endScript {session : Session Recorder Notes} {unit : OpenUnit (Option Recording)}
    {builder : Builder} (shows : session.bench.Shows unit [] 0 builder)
    (own : session.bench.sharing = false) :
    Ensures (endScript : Work Recorder Notes Unit) session fun _ session' => ∃ main,
      session'.bench.program.main? = some main ∧ builder.finish = .ok main := by
  have closes (handle : UnitHandle) : Ensures (Bench.closeUnit handle .script) session.bench
      fun _ bench' => ∃ main, bench'.program.main? = some main ∧ builder.finish = .ok main := by
    refine (Bench.ensures_closeUnit own).mono ?_
    rintro _ _ ⟨closed, units, slot, builder', main, close, payload, finished, -, inside, -, rfl⟩
    obtain ⟨-, -, -, same, -⟩ := UnitStack.close_ok close
    obtain ⟨rfl, -⟩ := List.cons.inj (same.symm.trans shows)
    cases payload
    refine ⟨main, ?_, finished⟩
    exact (Program.getElem?_fill inside main _).trans (if_pos rfl)
  have closed : Ensures (closeScript session.bench : Work Recorder Notes Unit) session
      fun _ session' => ∃ main, session'.bench.program.main? = some main ∧
        builder.finish = .ok main := by
    refine Ensures.get ?_
    split
    · rename_i handle _
      have sets : Ensures (setScript .ended : Work Recorder Notes Unit) session
          fun _ session' => session'.bench = session.bench := Ensures.modifies rfl
      refine sets.bind fun _ session' same => ?_
      exact Ensures.bind (Work.ensures_onBench (same ▸ closes handle)) fun _ _ done => Ensures.pure done
    · exact Ensures.throws
  refine ensures_checked (Ensures.get (Ensures.ite (fun _ => ?_) fun _ => closed))
  exact Ensures.stop (Ensures.get Ensures.throws)

theorem reached_of_stops {owner : Nat} {opened : Session Recorder Notes}
    (starts : (startScript : Work Recorder Notes Unit) (new .strict owner {}) = .ok () opened)
    {action : Action Empty} {unit : OpenUnit (Option Recording)}
    {outer : List (OpenUnit (Option Recording))} {slot : UInt32} {builder : Builder}
    (stops : (action.run (contract Notes) Empty.elim).Stops opened unit outer slot builder) :
    reached owner action = some builder.label := by
  cases run : action.run (contract Notes) Empty.elim opened with
  | ok value session => exact (stops.ok run).elim
  | error halt session =>
      have whole : (Action.seq .startScript action).run (contract Notes) Empty.elim
          (new .strict owner {}) = .error halt session := (run_bind_ok starts).trans run
      simp only [reached, whole, (stops.error run).recording?, Option.map_some]

/-- In the script every operation has the line that is known where it is recorded. -/
theorem main_covered {context : List (Layer (Action Empty))} {operation : Action Empty}
    (plain : (Action.inContext context operation).Plain) {line : Option UInt32}
    (leads : Action.Leads operation context (.exactly none) (.exactly line))
    (silent : operation.Silent) {owner : Nat} {session : Session Recorder Notes}
    (recorded : (Action.seq .startScript (.seq (.inContext context operation) .endScript)).run
      (contract Notes) Empty.elim (new .strict owner {}) = .ok () session) :
    ∃ main, session.bench.program.main? = some main ∧ (main.ops.size < 2 ^ 32 → ∀ ip,
      Covers owner context operation ip → main.name = mainName ∧ main.lineFor ip = line) := by
  obtain ⟨_, opened, starts, rest⟩ := run_of_bind recorded
  obtain ⟨_, third, runs, ends⟩ := run_of_bind rest
  obtain ⟨unit, builder, fresh⟩ := ensures_startScript owner _ _ starts
  have listed := Builder.listed_of_empty fresh.lines
  have absent : builder.Knows (.exactly none) := fun _ => by
    rw [Code.lineFor, fresh.lines]
    rfl
  obtain ⟨first, last, builder₃, shows₃, -, stretch, stops, stops'⟩ :=
    stretches_context leads plain silent (.artifact "stopped") opened fresh.shows listed absent _ _ runs
  have own : third.bench.sharing = false := by
    have straight : (Action.seq .startScript (.inContext context operation)).Straight :=
      ⟨trivial, plain.straight⟩
    have inside : (new .strict owner ({} : Notes)).bench.Scoped fun _ => 0 :=
      Bench.scoped_new (by decide) owner
    obtain ⟨reach, grows, -⟩ := Action.steady_run straight _ _ inside () third
      ((run_bind_ok starts).trans runs)
    exact grows.fits.sharing
  obtain ⟨main, script, finished⟩ := ensures_endScript shows₃ own _ _ ends
  obtain ⟨lines, name, size⟩ := Builder.lines_finish finished
  refine ⟨main, script, fun small ip covers => ?_⟩
  -- the positions that were recorded for the operation
  obtain ⟨low, high, reach, reach', above, below⟩ := covers
  obtain rfl : first.label = low := Option.some.inj ((reached_of_stops starts stops).symm.trans reach)
  obtain rfl : last.label = high := Option.some.inj ((reached_of_stops starts stops').symm.trans reach')
  constructor
  · exact name.trans (stretch.name.trans fresh.name)
  · rw [Code.lineFor, lines, ← Code.lineFor]
    exact stretch.lineFor listed (Nat.lt_of_le_of_lt size small) above below

end Recorder

/-- The script and a line of it, as error messages list them. -/
def placeOfScript : Option UInt32 → String
  | some line => mainName ++ ":" ++ toString line.toNat
  | none => mainName

theorem Code.place_script {code : Code} {ip : Nat} {line : Option UInt32}
    (name : code.name = mainName) (shown : code.lineFor ip = line) :
    code.place ip = placeOfScript line := by
  rw [place, shown, name]
  cases line <;> rfl

/-- A program that was recorded fails with no error of the machine itself. -/
theorem Recorder.genuine_of_fails {ε : Type} {action : Action ε} (straight : action.Straight)
    {onExtra : ε → Work Recorder Notes Unit} {owner : Nat} {session : Session Recorder Notes}
    (recorded : action.run (contract Notes) onExtra (new .strict owner {}) = .ok () session)
    {program : Program} (finished : Recorder.program session = .ok program) {limits : Limits}
    {vm : Vm} (loaded : (Vm.new limits).load program = .ok vm) {main : Code}
    (found : program.main? = some main) {budget : Nat} {error : RuntimeError}
    (failed : (vm.runMain budget).1 = .error (.failure error)) : error.kind ≠ .internal := by
  have inside : (new .strict owner ({} : Notes)).bench.Scoped fun _ => 0 :=
    Bench.scoped_new (by decide) owner
  obtain ⟨reach, grows, start, -⟩ := Action.steady_run straight _ _ inside _ _ recorded
  obtain ⟨-, -, rfl, -⟩ := program_ok finished
  obtain ⟨verified, rfl⟩ := Vm.load_ok loaded
  obtain ⟨world, failed⟩ := Vm.run_of_runMain found failed
  have flat : reach 0 = 0 := (start rfl).resolve_left
    (Nat.ne_of_gt (Array.getElem?_eq_some_iff.mp found).1)
  have safe := Machine.start_safe World.closed_new found flat
  exact fun kind => grows.fits.excuses_nothing error
    (Machine.run_safe (grows.fits.linked verified) safe failed kind)

/-- The program fails on the immediate backend with this error, on this line, and it is a failure of
the operation in that context: if those are marked, it is marked. -/
def Interpreter.FailsIn (fuel : Nat) (session : Session Interpreter Notes)
    (context : List (Layer (Action Empty))) (operation : Action Empty) (error : RuntimeError)
    (line : Option UInt32) : Prop :=
  ∃ broken, (Action.seq .startScript (.inContext context operation.tagged)).run
    (contract Notes fuel) Empty.elim session = .error (.failure (.aborted (.runtime error line))) broken

/-- The operation fails wherever the script has come when it begins. -/
theorem Interpreter.FailsIn.opened {fuel : Nat} {session : Session Interpreter Notes}
    {context : List (Layer (Action Empty))} {operation : Action Empty} {error : RuntimeError}
    {line : Option UInt32} (fails : FailsIn fuel session context operation error line) :
    ∃ opened broken, (startScript : Work Interpreter Notes Unit) session = .ok () opened ∧
      (Action.inContext context operation.tagged).run (contract Notes fuel) Empty.elim opened =
        .error (.failure (.aborted (.runtime error line))) broken := by
  obtain ⟨broken, breaks⟩ := fails
  cases starts : (startScript : Work Interpreter Notes Unit) session with
  | ok value opened => exact ⟨opened, broken, rfl, (run_bind_ok starts).symm.trans breaks⟩
  | error halt session' =>
      cases (run_bind_error starts).symm.trans breaks
      exact absurd ⟨_, rfl⟩ (((immediate_unmarked fuel).startScript session).error starts).2

namespace Node

/-- The program that is recorded for a tree. -/
def recorded? (node : Node) : Option Program :=
  match (node.program : Action Empty).run (Recorder.contract Notes) Empty.elim
      (Recorder.new .strict 0 {}) with
  | .ok _ session => (Recorder.program session).toOption
  | .error _ _ => none

/-- The failure of a run on the immediate backend. -/
def failure? (fuel : Nat) (action : Action Empty) : Option (Halt CompileError) :=
  match action.run (Interpreter.contract Notes fuel) Empty.elim (Interpreter.new .strict {} 0 {}) with
  | .ok _ _ => none
  | .error halt _ => some halt

theorem failure?_eq_some {fuel : Nat} {action : Action Empty} {halt : Halt CompileError}
    (failed : failure? fuel action = some halt) : ∃ broken,
      action.run (Interpreter.contract Notes fuel) Empty.elim (Interpreter.new .strict {} 0 {}) =
        .error halt broken := by
  unfold failure? at failed
  split at failed
  · cases failed
  · rename_i run
    cases failed
    exact ⟨_, run⟩

/-- The number one has no such method. -/
def refusal (places : Array String) : RuntimeError where
  kind := .noMethod
  message := "undefined method `nope' for 1:Fixnum"
  callStack := places

/-- A call on a line of its own in a loop, after a method whose body is on another line. -/
def marked : Node := .seq [
  .method "m" 0 0 (.line ⟨"t.rb", 5⟩ .nil),
  .line ⟨"t.rb", 2⟩ (.loop (.bool true)
    (.line ⟨"t.rb", 3⟩ (.call (some (.fixnum 1)) "nope" [])) true)]

/-- What is recorded for it. -/
def markedProgram : Program where
  code := #[
    { name := "<main>", kind := .script, maxStack := 1, lines := #[⟨3, 2⟩, ⟨5, 3⟩]
      ops := #[.defineMethod 0 1, .pushNil, .pop, .pushTrue, .jumpIfFalse 5, .pushFixnum 1,
        .send 1 0 true none, .pop, .jump (-5), .pushNil, .ret] },
    { name := "m", kind := .method, maxStack := 1, lines := #[⟨0, 5⟩], ops := #[.pushNil, .ret] }]
  constants := ⟨#[.name "m", .name "nope"]⟩

/-- What is around the call, down to the body of the loop. -/
def aroundCall : List (Layer (Action Empty)) := [
  .next (.seq (.seq (.method "m" 0 0 (.seq (.primitive (.line 5)) (.primitive .loadNil)))
    (.primitive .loadNil)) (.primitive .consume)),
  .next (.primitive (.line 2)), .first (.primitive .loadNil),
  .nested (.body (.primitive .loadTrue) true),
  .next (.primitive (.line 3)), .next (.primitive (.fixnum 1)), .next .skip]

/-- The line of the call is known, since it is set in every pass of the loop. -/
theorem leads_aroundCall :
    Action.Leads (.call "nope" .property) aroundCall (.exactly none) (.exactly (some 3)) := by
  have receiver : (Action.primitive (.fixnum 1) : Action Empty).Silent := nofun
  have nothing : (Action.skip : Action Empty).Silent := trivial
  refine .marked _ _ (.marked _ _ (.marked _ _ (.marked _ _ ?_)))
  exact .inside (.mark 3 .any) (.inside (.silent receiver _) (.inside (.silent nothing _) (.here _)))

/-- A method whose body is on another line, and a call that has no line of its own. -/
def strayed : Node := .line ⟨"t.rb", 1⟩ (.seq [
  .method "m" 0 0 (.line ⟨"t.rb", 5⟩ .nil),
  .call (some (.fixnum 1)) "nope" []])

/-- What is recorded for it. -/
def strayedProgram : Program where
  code := #[
    { name := "<main>", kind := .script, maxStack := 1, lines := #[⟨0, 1⟩]
      ops := #[.defineMethod 0 1, .pushNil, .pop, .pushFixnum 1, .send 1 0 true none, .ret] },
    { name := "m", kind := .method, maxStack := 1, lines := #[⟨0, 5⟩], ops := #[.pushNil, .ret] }]
  constants := ⟨#[.name "m", .name "nope"]⟩

end Node

end BlockScript
