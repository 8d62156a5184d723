import BlockScript.Proofs.Machine.Effect
import BlockScript.Proofs.Machine.Runs
import BlockScript.Proofs.Value.Depth

/-!
# Runs with a limit on operations

With a limit on the number of operations every run ends. Between two operations a machine only
enters bodies, goes on with loops over a block and hands results outward, and there is only so
much of that to do: every body that is entered is about to execute an operation, and every
result that is handed outward leaves less waiting for it. So the operations that are left under
the limit come first in the measure, and what waits comes second.
-/

namespace BlockScript

namespace Machine

variable {program : Program} {limits : Limits} {most : Nat}

/-! ## The operations that are executed -/

/-- The operation that the machine executes in its next step, if it executes one. -/
def executes? (limits : Limits) (machine : Machine) : Option Op :=
  match machine.focus with
  | .run code ip activation =>
    match brokenLimit limits machine.world.count.steps activation.stack.length with
    | none => code.ops[ip]?
    | some _ => none
  | _ => none

/-- How many operations the machine executes in so many steps, in all bodies together. -/
def executed (program : Program) (limits : Limits) : (count : Nat) → Machine → Nat
  | 0, _ => 0
  | count + 1, machine =>
    (if (machine.executes? limits).isSome then 1 else 0) +
      executed program limits count (step program limits machine)

/-- No more operations are executed than the limit allows. -/
theorem brokenLimit_none_le (limited : limits.maxSteps = some most) {steps size : Nat}
    (within : brokenLimit limits steps size = none) : steps ≤ most := by
  unfold brokenLimit at within
  simp only [limited] at within
  split at within
  · cases within
  · omega

/-- Once too many operations are counted, no more are executed. -/
theorem brokenLimit_over (limited : limits.maxSteps = some most) {steps : Nat} (size : Nat)
    (exceeded : most < steps) : brokenLimit limits steps size = some (.stepLimit most) := by
  unfold brokenLimit
  simp only [limited, if_pos exceeded]

/-! ## How steps count -/

theorem follow_steps (code : Code) (ip : Nat) (flow : Flow) (activation : Activation)
    (waiting : List Waiting) (world : World) :
    (follow code ip flow activation waiting world).world.steps = world.steps := by
  cases flow with
  | jump offset =>
      unfold follow
      dsimp only
      split <;> rfl
  | _ => rfl

variable (program limits) in
theorem advance_steps {code : Code} {ip : Nat} {op : Op} (found : code.ops[ip]? = some op)
    (activation : Activation) (waiting : List Waiting) (world : World) :
    (advance program limits code ip activation waiting world).world.steps = world.steps + 1 := by
  unfold advance
  simp only [found]
  cases brokenLimit limits world.count.steps activation.stack.length with
  | some error => rfl
  | none =>
      dsimp only
      cases performed : Exec.perform program op (activation, world.count) with
      | ok flow state => exact (follow_steps ..).trans ((Exec.uncounted_perform op).ok performed)
      | error error state => exact (Exec.uncounted_perform op).error performed

variable (program) in
theorem iterate_steps (loop : BlockLoop) (waiting : List Waiting) (world : World) :
    (iterate program loop waiting world).world.steps = world.steps := by
  unfold iterate
  cases loop.next? with
  | some pass =>
      obtain ⟨block, argument, rest⟩ := pass
      dsimp only
      cases entered : Run.enterBlock program block [argument] world with
      | ok value world' => exact (Run.uncounted_enterBlock block [argument]).ok entered
      | error error world' =>
          exact (Run.uncounted_enterBlock block [argument]).error entered
  | none =>
      dsimp only
      cases ended : loop.result world with
      | ok value world' => exact loop.uncounted_result.ok ended
      | error error world' => exact loop.uncounted_result.error ended

variable (program limits) in
theorem enter_steps (position : UInt32) (activation : Activation) (waiting : List Waiting)
    (world : World) :
    (enter program limits position activation waiting world).world.steps = world.steps := by
  unfold enter
  split
  · rfl
  · split <;> rfl

variable (program limits) in
/-- A step counts at most one operation, and it counts each one that it executes. -/
theorem step_steps (machine : Machine) :
    machine.world.steps + (if (machine.executes? limits).isSome then 1 else 0) ≤
      (step program limits machine).world.steps := by
  obtain ⟨focus, waiting, world⟩ := machine
  cases focus with
  | enter position activation => exact Nat.le_of_eq (enter_steps ..).symm
  | iterate loop => exact Nat.le_of_eq (iterate_steps ..).symm
  | give value => rcases waiting with _ | ⟨_ | _, rest⟩ <;> exact Nat.le_refl _
  | fail error => rcases waiting with _ | ⟨_ | _, rest⟩ <;> exact Nat.le_refl _
  | run code ip activation =>
      cases found : code.ops[ip]? with
      | some op =>
          have counted := advance_steps program limits found activation
            waiting world
          refine Nat.le_trans (Nat.add_le_add_left ?_ _) (Nat.le_of_eq counted.symm)
          split <;> omega
      | none =>
          have idle : (executes? limits ⟨.run code ip activation, waiting, world⟩).isSome = false := by
            unfold executes?
            dsimp only
            split
            · rw [found]
              rfl
            · rfl
          simp only [idle, step, advance, found]
          exact Nat.le_refl _

/-- In however many steps, a machine executes no more operations than are left to it. -/
theorem executed_le (limited : limits.maxSteps = some most) (count : Nat) (machine : Machine) :
    executed program limits count machine ≤ most - machine.world.steps := by
  induction count generalizing machine with
  | zero => exact Nat.zero_le _
  | succ count ih =>
      have counted := step_steps program limits machine
      have later := ih (step program limits machine)
      rw [executed]
      split
      · rename_i executes
        rw [if_pos executes] at counted
        have room : machine.world.steps + 1 ≤ most := by
          unfold executes? at executes
          split at executes
          · split at executes
            · rename_i within
              exact brokenLimit_none_le limited within
            · cases executes
          · cases executes
        omega
      · omega

/-! ## What is left to do -/

/-- A bound on the steps up to the next operation, or until less waits for a result. -/
def Focus.stage : Focus → Nat
  | .fail _ => 0
  | .run _ _ _ => 1
  | .enter _ _ => 2
  | .give _ => 4
  | .iterate _ => 7

/-- A bound on the steps that the machine can still take. An operation that is executed makes
room for what it leaves waiting and for what comes of it. -/
def remaining (most : Nat) (machine : Machine) : Nat :=
  12 * (most + 1 - machine.world.steps) + 4 * machine.waiting.length + Focus.stage machine.focus

/-- After an operation at most one body more waits for a result. -/
theorem follow_stage (code : Code) (ip : Nat) (flow : Flow) (activation : Activation)
    (waiting : List Waiting) (world : World) :
    4 * (follow code ip flow activation waiting world).waiting.length +
      Focus.stage (follow code ip flow activation waiting world).focus ≤
        4 * waiting.length + 11 := by
  cases flow with
  | jump offset =>
      unfold follow
      dsimp only
      split <;> simp only [Focus.stage] <;> omega
  | next | ret | enter | iterate =>
      simp only [follow, Focus.stage, List.length_cons]
      omega

theorem advance_remaining (limited : limits.maxSteps = some most) (code : Code) (ip : Nat)
    (activation : Activation) (waiting : List Waiting) (world : World) :
    remaining most (advance program limits code ip activation waiting world) <
      remaining most ⟨.run code ip activation, waiting, world⟩ := by
  have failing {error : RuntimeError} {world' : World} (counted : world.steps ≤ world'.steps) :
      remaining most ⟨.fail error, waiting, world'⟩ <
        remaining most ⟨.run code ip activation, waiting, world⟩ := by
    simp only [remaining, Focus.stage]
    omega
  cases found : code.ops[ip]? with
  | none =>
      simp only [advance, found]
      exact failing (Nat.le_refl _)
  | some op =>
      have counted := advance_steps program limits found activation
        waiting world
      revert counted
      simp only [advance, found]
      cases broken : brokenLimit limits world.count.steps activation.stack.length with
      | some error => exact fun _ => failing (Nat.le_succ _)
      | none =>
          have room : world.steps + 1 ≤ most := brokenLimit_none_le limited broken
          dsimp only
          cases Exec.perform program op (activation, world.count) with
          | error error state => exact fun counted => failing (Nat.le.intro counted.symm)
          | ok flow state =>
              intro counted
              have counted : (follow code ip flow state.1 waiting state.2).world.steps =
                  world.steps + 1 := counted
              have stage := follow_stage code ip flow state.1 waiting state.2
              change remaining most (follow code ip flow state.1 waiting state.2) <
                12 * (most + 1 - world.steps) + 4 * waiting.length + 1
              rw [remaining, counted]
              omega

variable (program) in
/-- Every step leaves less to do, as long as the machine is not done. -/
theorem step_remaining (limited : limits.maxSteps = some most) {machine : Machine}
    (busy : ¬machine.Done) :
    remaining most (step program limits machine) < remaining most machine := by
  obtain ⟨focus, waiting, world⟩ := machine
  cases focus with
  | run code ip activation => exact advance_remaining limited code ip activation waiting world
  | enter position activation =>
      have same := enter_steps program limits position activation waiting
        world
      simp only [remaining, step, same]
      unfold enter
      dsimp only
      split
      · simp only [Focus.stage]
        omega
      · split <;> simp only [Focus.stage] <;> omega
  | iterate loop =>
      have same := iterate_steps program loop waiting world
      simp only [remaining, step, same]
      unfold iterate
      split
      · split <;> simp only [Focus.stage, List.length_cons] <;> omega
      · split <;> simp only [Focus.stage] <;> omega
  | give value =>
      rcases waiting with _ | ⟨_ | _, rest⟩
      · exact absurd ⟨rfl, .inl ⟨value, rfl⟩⟩ busy
      all_goals
        simp only [remaining, step, Focus.stage, List.length_cons]
        omega
  | fail error =>
      rcases waiting with _ | ⟨_ | _, rest⟩
      · exact absurd ⟨rfl, .inr ⟨error, rfl⟩⟩ busy
      · change 12 * (most + 1 - world.steps) + 4 * rest.length + 0 <
          12 * (most + 1 - world.steps) + 4 * (rest.length + 1) + 0
        omega
      · simp only [remaining, step, Focus.stage, List.length_cons]
        omega

variable (program) in
/-- A machine is done after as many steps as it had left. -/
theorem done_after (limited : limits.maxSteps = some most) (machine : Machine) {count : Nat}
    (enough : remaining most machine ≤ count) :
    ((step program limits)^[count] machine).Done := by
  induction count generalizing machine with
  | zero =>
      by_contra busy
      have less : _ < remaining most machine := step_remaining program limited busy
      omega
  | succ count ih =>
      rw [Function.iterate_succ_apply]
      by_cases done : machine.Done
      · rw [done.step, done.steps]
        exact done
      · have := step_remaining program limited done
        exact ih _ (by omega)

/-- A machine that is done after so many steps needs no larger budget. -/
theorem run_finished {machine : Machine} {count : Nat}
    (done : ((step program limits)^[count] machine).Done) (more : Nat) :
    (∀ world, run program limits (more + count) machine ≠ .error .outOfFuel world) ∧
      run program limits (more + count) machine = run program limits count machine := by
  have whole := @run_steps program limits machine count
  rw [whole, ← Nat.zero_add count, whole, Nat.zero_add]
  refine ⟨fun world => ?_, run_done done more 0⟩
  generalize (step program limits)^[count] machine = last at done
  obtain ⟨focus, waiting, world'⟩ := last
  obtain ⟨rfl, ⟨value, rfl⟩ | ⟨error, rfl⟩⟩ := done <;> cases more <;> nofun

end Machine

/-! ## Runs of a program -/

/-- With a limit on operations, every run of a program that the machine has loaded ends with a
value or an error, and no more operations than that are executed on the way, in all bodies
together. Nor does any single operation go on for ever: what it renders or compares is finite,
even if the values refer to themselves. -/
theorem Vm.limited_run_ends {vm loaded : Vm} {program : Program} {most : Nat}
    (load : vm.load program = .ok loaded) (limited : loaded.limits.maxSteps = some most) :
    (∀ fuel ≥ 12 * (most + 1) + 2, (loaded.runMain fuel).1 ≠ .error .outOfFuel ∧
      loaded.runMain fuel = loaded.runMain (12 * (most + 1) + 2)) ∧
    (∀ main, program.main? = some main →
      (∀ fuel, Machine.runMain loaded.program loaded.limits fuel loaded.world =
        Machine.run loaded.program loaded.limits fuel (Machine.start main loaded.world)) ∧
      ∀ count, Machine.executed loaded.program loaded.limits count
        (Machine.start main loaded.world) ≤ most) ∧
    ∀ heap : Heap, heap.Settles := by
  obtain ⟨-, rfl⟩ := Vm.load_ok load
  refine ⟨fun fuel enough => ?_, fun main found =>
    ⟨fun fuel => Machine.runMain_eq found fuel _, fun count => ?_⟩, Heap.settles⟩
  · cases found : program.main? with
    | none =>
        simp only [Vm.runMain, Vm.apply, Machine.runMain_missing found]
        exact ⟨(by rintro ⟨⟩), trivial⟩
    | some main =>
        have left : Machine.remaining most (Machine.start main vm.world) =
            12 * (most + 1) + 2 := rfl
        have done := Machine.done_after program limited
          (Machine.start main vm.world) (Nat.le_of_eq left)
        obtain ⟨ended, same⟩ := Machine.run_finished done (fuel - (12 * (most + 1) + 2))
        rw [Nat.sub_add_cancel enough] at ended same
        simp only [Vm.runMain, Vm.apply, Machine.runMain_eq found, same] at ended ⊢
        refine ⟨?_, trivial⟩
        split
        · rintro ⟨⟩
        · rename_i halt world result
          rintro ⟨⟩
          exact ended _ result
  · exact Machine.executed_le limited count (Machine.start main vm.world)

/-- A script that calls a method for ever from a block that is called very often. -/
def Program.restless : Program where
  code := #[
    { name := "<main>", kind := .script, maxStack := 1
      ops := #[.defineMethod 1 2, .pushFixnum 0x7FFFFFFFFFFFFFFF, .send 0 0 true (some 1), .ret] },
    { name := "block", kind := .closure, maxStack := 1, ops := #[.send 1 0 false none, .ret] },
    { name := "again", kind := .method, maxStack := 1, ops := #[.send 1 0 false none, .ret] }]
  constants := ⟨#[.name "times", .name "again"]⟩

theorem Vm.restless_ends : ∃ loaded : Vm,
    (Vm.new { maxSteps := some 100 }).load Program.restless = .ok loaded ∧
      (loaded.runMain 1214).1 ≠ .error .outOfFuel ∧
      ∀ count, Machine.executed Program.restless { maxSteps := some 100 } count
        (Machine.start Program.restless.code[0] .new) ≤ 100 := by
  have load : (Vm.new { maxSteps := some 100 }).load Program.restless =
      .ok ⟨Program.restless, { maxSteps := some 100 }, .new⟩ := rfl
  obtain ⟨ended, executed, -⟩ := limited_run_ends load rfl
  exact ⟨_, load, (ended 1214 (Nat.le_refl _)).1, (executed _ rfl).2⟩

end BlockScript
