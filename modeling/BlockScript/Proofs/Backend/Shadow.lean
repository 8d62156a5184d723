import BlockScript.Proofs.Backend.Bodies
import BlockScript.Proofs.Machine.Passage

/-!
# A script in the shadow of its artifact

The immediate backend executes a script whose artifact a machine runs from a fixed start. The
session shadows the machine at a position of the script's code: the activation is the same, and
the worlds are alike along the bodies that both of them have recorded. What a failure of the
session reports, the machine raises after the same output; and if a budget of the session is
used up, as many steps of the machine do not suffice either.
-/

namespace BlockScript

variable {ε υ α : Type}

/-- The error of the backend tells of the error that the machine raises. A constant without a
value is reported by its name. -/
def CompileError.Tells (thrown : RuntimeError) : CompileError → Prop
  | .runtime told _ => thrown.Same told
  | .resolution .constant name _ => thrown.Same (.noConstant name)
  | _ => False

namespace Interpreter

/-- What a failure of the session means for the machine, unless it is a limit. -/
def Echoes (artifact : Program) (limits : Limits) (start : Machine) (fuel : Nat)
    (halt : Halt CompileError) (session : Session Interpreter υ) : Prop :=
  halt.Limit ∨ match halt with
    | .failure error => ∃ count thrown world,
        (Machine.step artifact limits)^[count] start = ⟨.fail thrown, [], world⟩ ∧
          error.Tells thrown ∧ world.output = session.backend.world.output
    | .outOfFuel => ¬((Machine.step artifact limits)^[fuel] start).Done

/-- Only the script is open, and it is executed. -/
structure Script (session : Session Interpreter υ) : Prop where
  checks : session.bench.config.checkStack = true
  sharing : session.bench.sharing = true
  opened : ∃ handle, session.backend.script = some handle ∧
    session.bench.units.owner = handle.owner ∧
    session.bench.units.units = [⟨handle.id, .script, mainName, none⟩]

/-- The session shadows the machine, which is at a position of the code after that many steps
at least. -/
structure Shadow (ε : Type) (artifact : Program) (limits : Limits) (start : Machine) (code : Code)
    (ip least : Nat) (session : Session Interpreter υ) : Prop where
  reached : ∃ count world, least ≤ count ∧ (Machine.step artifact limits)^[count] start =
    ⟨.run code ip session.backend.top, [], world⟩ ∧
    world.Alike (artifact.Twins ε session.bench.program) session.backend.world
  limits : session.backend.limits = limits
  script : Script session
  tidy : session.bench.Tidy

theorem Script.live {session : Session Interpreter υ} (script : Script session) : Live session := by
  obtain ⟨handle, -, -, units⟩ := script.opened
  exact ⟨script.checks, script.sharing, _, _, units, rfl, rfl⟩

theorem Script.site {session : Session Interpreter υ} (script : Script session) :
    session.bench.units.site = .script := by
  obtain ⟨handle, -, -, units⟩ := script.opened
  exact UnitStack.site_script units

theorem Script.congr {session session' : Session Interpreter υ} (script : Script session)
    (units : session'.bench.units.units = session.bench.units.units)
    (beside : session.bench.Beside session'.bench)
    (same : session'.backend.script = session.backend.script) : Script session' where
  checks := beside.config ▸ script.checks
  sharing := beside.sharing.trans script.sharing
  opened := by
    rw [units, beside.owner, same]
    exact script.opened

/-- The session with other values on the stack of the script. -/
def withStack (session : Session Interpreter υ) (stack : List Value) : Session Interpreter υ :=
  { session with backend := { session.backend with top := { session.backend.top with stack } } }

/-- The value on top is taken. -/
theorem ends_pop {session : Session Interpreter υ} {value : Value} {rest : List Value}
    (stack : session.backend.top.stack = value :: rest) (operation : String)
    {failed : Halt CompileError → Session Interpreter υ → Prop} :
    Ends (pop operation) session
      (fun taken session' => taken = value ∧ session' = withStack session rest) failed := by
  refine Ends.get ?_
  rw [stack]
  exact Ends.changes (Ends.pure ⟨rfl, rfl⟩)

theorem ends_drop_one {session : Session Interpreter υ} {value : Value} {rest : List Value}
    (stack : session.backend.top.stack = value :: rest) (operation : String)
    {failed : Halt CompileError → Session Interpreter υ → Prop} :
    Ends (drop operation (1 : Int).toNat) session
      (fun _ session' => session' = withStack session rest) failed :=
  (ends_pop stack operation).bind fun _ _ popped => Ends.pure popped.2

section Shadow

variable {artifact : Program} {limits : Limits} {start : Machine} {code : Code}
  {ip least : Nat} {session session' : Session Interpreter υ}
  (shadow : Shadow ε artifact limits start code ip least session)

include shadow

namespace Shadow

theorem live : Live session := shadow.script.live

theorem mono {least' : Nat} (fewer : least' ≤ least) :
    Shadow ε artifact limits start code ip least' session := by
  obtain ⟨count, world, enough, reached⟩ := shadow.reached
  exact { shadow with reached := ⟨count, world, Nat.le_trans fewer enough, reached⟩ }

theorem ensureOpen : Interpreter.ensureOpen session = .ok () session := by
  obtain ⟨unit, outer, hunits, -⟩ := shadow.live.executes
  exact ensureOpen_eq hunits

theorem ends_ensureOpen {failed : Halt CompileError → Session Interpreter υ → Prop} :
    Ends Interpreter.ensureOpen session (fun _ session' => session = session') failed := by
  unfold Ends
  rw [shadow.ensureOpen]

theorem recording : Interpreter.recording session = .ok false session := by
  rw [recording_eq, shadow.live.executes.recording?]
  rfl

theorem ends_recording {failed : Halt CompileError → Session Interpreter υ → Prop} :
    Ends Interpreter.recording session
      (fun recorded session' => recorded = false ∧ session = session') failed := by
  unfold Ends
  rw [shadow.recording]
  exact ⟨rfl, rfl⟩

/-- Nothing is recorded, so the operation is carried out. -/
theorem ends_either {recorded live : Work Interpreter υ Unit}
    {done : Unit → Session Interpreter υ → Prop}
    {failed : Halt CompileError → Session Interpreter υ → Prop}
    (h : Ends live session done failed) :
    Ends (do Interpreter.ensureOpen; if ← Interpreter.recording then recorded else live) session done
      failed := by
  refine shadow.ends_ensureOpen.bind ?_
  rintro _ _ rfl
  refine shadow.ends_recording.bind ?_
  rintro _ _ ⟨rfl, rfl⟩
  exact h

/-- The machine has not come to an end. -/
theorem not_done {fuel : Nat} (short : fuel ≤ least) :
    ¬((Machine.step artifact limits)^[fuel] start).Done := by
  obtain ⟨count, world, enough, reached, -⟩ := shadow.reached
  obtain ⟨more, rfl⟩ := Nat.exists_eq_add_of_le (Nat.le_trans short enough)
  refine Machine.not_done_of_steps
    (show ¬((Machine.step artifact limits)^[fuel + more] start).Done from ?_)
  rw [reached]
  rintro ⟨-, ⟨_, focus⟩ | ⟨_, focus⟩⟩ <;> cases focus

/-- The program of the session has grown beside its units. -/
theorem grow (units : session'.bench.units.units = session.bench.units.units)
    (beside : session.bench.Beside session'.bench) (backend : session'.backend = session.backend)
    (carries : session.bench.program.Carries session'.bench.program fun _ => True)
    (tidy : session'.bench.Tidy) : Shadow ε artifact limits start code ip least session' where
  reached := by
    obtain ⟨count, world, enough, reached, alike⟩ := shadow.reached
    rw [backend]
    exact ⟨count, world, enough, reached, alike.mono fun _ _ twins => twins.carry carries⟩
  limits := backend ▸ shadow.limits
  script := shadow.script.congr units beside (by rw [backend])
  tidy := tidy

/-- The machine goes on by itself, at most counting operations in its world. -/
theorem moves (quiet : start.Quiet artifact limits) {ip' : Nat} {rest : List Value}
    (move : ∀ world : World, Machine.Quiet artifact limits
      ⟨.run code ip session.backend.top, [], world⟩ → ∃ count world',
        (Machine.step artifact limits)^[count + 1] ⟨.run code ip session.backend.top, [], world⟩ =
          ⟨.run code ip' { session.backend.top with stack := rest }, [], world'⟩ ∧
        ∀ {twins : UInt32 → UInt32 → Prop} {other : World}, world.Alike twins other →
          world'.Alike twins other) :
    Shadow ε artifact limits start code ip' (least + 1) (withStack session rest) where
  reached := by
    obtain ⟨count, world, enough, reached, alike⟩ := shadow.reached
    obtain ⟨more, world', moved, kept⟩ := move world (reached ▸ quiet.after count)
    refine ⟨more + 1 + count, world', by omega, ?_, kept alike⟩
    rw [Function.iterate_add_apply, reached, moved]
    rfl
  limits := shadow.limits
  script := ⟨shadow.script.checks, shadow.script.sharing, shadow.script.opened⟩
  tidy := shadow.tidy

/-- A constant joins the pool if there is room. -/
theorem ends_intern (constant : Constant) (fuel : Nat) :
    Ends (Work.onBench (Bench.intern constant)) session
      (fun position session' => Shadow ε artifact limits start code ip least session' ∧
        session'.bench.program.constants.get? position = some constant ∧
        session'.backend = session.backend ∧
        session.bench.program.Carries session'.bench.program fun _ => True)
      (Echoes artifact limits start fuel) := by
  refine Work.ends_onBench (Ends.intro (fun position bench' run => ?_) fun error bench' run => ?_)
  · obtain ⟨grew, units, pooled⟩ := Bench.grew_intern shadow.tidy run
    obtain ⟨constants, -, rfl⟩ := Bench.ensures_intern position bench' run
    exact ⟨shadow.grow rfl ⟨rfl, rfl, rfl, rfl, fun _ => Nat.le_refl _⟩ rfl grew.carries grew.tidy,
      pooled, rfl, grew.carries⟩
  · obtain ⟨limit, rfl⟩ := Bench.intern_error run
    exact .inl ⟨_, _, rfl⟩

/-- An operation is executed when the machine does one that is alike. -/
theorem ends_perform (quiet : start.Quiet artifact limits) {op op' : Op} {taken given : Nat}
    (here : code.ops[ip]? = some op)
    (alike : op.Alike artifact session.bench.program (artifact.Twins ε session.bench.program) op')
    (straight : op'.Straight taken given) (enough : taken ≤ session.backend.top.stack.length)
    (fuel : Nat) (operation : String) :
    Ends (perform fuel operation op') session
      (fun _ session' => Shadow ε artifact limits start code (ip + 1) least session')
      (Echoes artifact limits start fuel) := by
  rw [← straight.pops] at enough
  refine shadow.ends_either (Ends.get (Ends.ite
    (fun few => absurd enough (Nat.not_le.mpr few)) fun _ => Ends.get (ends_execute ?_)))
  obtain ⟨count, world, reaches, reached, same⟩ := shadow.reached
  have still := reached ▸ quiet.after count
  have passes := still.passes_complete (Program.mirrors_twins ε artifact session.bench.program)
    same here alike straight.falls straight.straight fuel
  rw [shadow.limits]
  refine Ends.intro (fun flow state run => ?_) fun halt state run => ?_
  · rw [run] at passes
    obtain ⟨more, world', passed, same'⟩ := passes
    refine ⟨⟨more + 1 + count, world', by omega, ?_, same'⟩, shadow.limits,
      ⟨shadow.script.checks, shadow.script.sharing, shadow.script.opened⟩, shadow.tidy⟩
    rw [Function.iterate_add_apply, reached, passed]
  · rw [run] at passes
    cases halt with
    | failure error =>
        obtain ⟨more, thrown, world', passed, tells, output⟩ := passes
        refine .inr ⟨more + count, thrown, world', ?_, tells, output⟩
        rw [Function.iterate_add_apply, reached, passed]
    | outOfFuel =>
        refine .inr (Machine.not_done_of_steps
          (show ¬((Machine.step artifact limits)^[fuel + count] start).Done from ?_))
        rw [Function.iterate_add_apply, reached]
        exact passes

end Shadow

end Shadow

end Interpreter

end BlockScript
