import BlockScript.Machine.Vm
import BlockScript.Proofs.Backend.Outcome
import BlockScript.Proofs.Machine.StepLimit

/-!
# Runs with and without a limit on operations

A limit on the number of operations changes nothing as long as it is kept. The step that would
break it fails instead, and the failure leaves every body that waits for a result. So a run
within the limit is the run without it, or it ends with the error that the limit was exceeded,
and then exactly one operation more than the limit was counted.
-/

namespace BlockScript

/-- The same limits, and one on the number of operations. -/
def Limits.within (limits : Limits) (most : Nat) : Limits := { limits with maxSteps := some most }

/-- The error says that the limit on operations was exceeded. -/
def RuntimeError.Exceeds (most : Nat) (error : RuntimeError) : Prop :=
  ∃ callStack, error = { RuntimeError.stepLimit most with callStack }

theorem RuntimeError.Exceeds.leaving {most : Nat} {error : RuntimeError}
    (h : error.Exceeds most) (frame : String) : (error.leaving frame).Exceeds most := by
  obtain ⟨callStack, rfl⟩ := h
  exact ⟨callStack.push frame, rfl⟩

namespace Machine

variable {program : Program} {limits : Limits} {most : Nat}

/-! ## Steps -/

theorem brokenLimit_within (unlimited : limits.maxSteps = none) {steps : Nat}
    (room : steps ≤ most) (size : Nat) :
    brokenLimit (limits.within most) steps size = brokenLimit limits steps size := by
  unfold brokenLimit Limits.within
  simp only [unlimited, if_neg (Nat.not_lt.mpr room)]

/-- A step that keeps the limit is the same without it. -/
theorem step_within (unlimited : limits.maxSteps = none) {machine : Machine}
    (room : (step program limits machine).world.steps ≤ most) :
    step program (limits.within most) machine = step program limits machine := by
  obtain ⟨focus, waiting, world⟩ := machine
  cases focus with
  | run code ip activation =>
      cases found : code.ops[ip]? with
      | none => simp only [step, advance, found]
      | some op =>
          have counted := advance_steps program limits found activation waiting world
          have room : world.steps + 1 ≤ most := counted ▸ room
          simp only [step, advance, found]
          rw [brokenLimit_within unlimited (show world.count.steps ≤ most from room)]
  | enter position activation => rfl
  | iterate loop => rfl
  | give value => rcases waiting with _ | ⟨_ | _, rest⟩ <;> rfl
  | fail error => rcases waiting with _ | ⟨_ | _, rest⟩ <;> rfl

/-- A step that would break the limit fails. -/
theorem step_exceeds {machine : Machine} (room : machine.world.steps ≤ most)
    (beyond : most < (step program limits machine).world.steps) :
    ∃ world, step program (limits.within most) machine =
        ⟨.fail (.stepLimit most), machine.waiting, world⟩ ∧ world.steps = most + 1 := by
  have idle (same : (step program limits machine).world.steps = machine.world.steps) : False := by
    omega
  obtain ⟨focus, waiting, world⟩ := machine
  cases focus with
  | run code ip activation =>
      cases found : code.ops[ip]? with
      | none =>
          refine absurd ?_ idle
          simp only [step, advance, found]
          rfl
      | some op =>
          have counted := advance_steps program limits found activation waiting world
          have beyond : most < world.steps + 1 := counted ▸ beyond
          have full : world.steps = most := Nat.le_antisymm room (Nat.le_of_lt_succ beyond)
          have broken : brokenLimit (limits.within most) world.count.steps
              activation.stack.length = some (.stepLimit most) :=
            brokenLimit_over rfl _ beyond
          refine ⟨world.count.endCall, ?_, congrArg Nat.succ full⟩
          simp only [step, advance, found, broken]
  | enter position activation => exact (idle (enter_steps ..)).elim
  | iterate loop => exact (idle (iterate_steps ..)).elim
  | give value => rcases waiting with _ | ⟨_ | _, rest⟩ <;> exact (idle rfl).elim
  | fail error => rcases waiting with _ | ⟨_ | _, rest⟩ <;> exact (idle rfl).elim

variable (program limits) in
/-- What is counted is never taken back. -/
theorem steps_le (machine : Machine) (count : Nat) :
    machine.world.steps ≤ ((step program limits)^[count] machine).world.steps := by
  induction count generalizing machine with
  | zero => exact Nat.le_refl _
  | succ count ih =>
      have counted := step_steps program limits machine
      have later := ih (step program limits machine)
      rw [Function.iterate_succ_apply]
      omega

variable (program limits) in
/-- Every operation that is executed is counted. -/
theorem executed_counted (machine : Machine) (count : Nat) :
    machine.world.steps + executed program limits count machine ≤
      ((step program limits)^[count] machine).world.steps := by
  induction count generalizing machine with
  | zero => exact Nat.le_refl _
  | succ count ih =>
      have counted := step_steps program limits machine
      have later := ih (step program limits machine)
      rw [Function.iterate_succ_apply, executed]
      omega

/-! ## Runs -/

variable (program limits) in
/-- A failure leaves the bodies that wait for a result one by one. -/
theorem run_exceeds {error : RuntimeError} (exceeds : error.Exceeds most) (waiting : List Waiting)
    (world : World) {fuel : Nat} (enough : waiting.length ≤ fuel) :
    ∃ error' world', run program limits fuel ⟨.fail error, waiting, world⟩ =
        .error (.failure error') world' ∧ error'.Exceeds most ∧ world'.steps = world.steps := by
  induction waiting generalizing error world fuel with
  | nil => exact ⟨error, world, by cases fuel <;> rfl, exceeds, rfl⟩
  | cons first rest ih =>
      cases fuel with
      | zero => exact absurd enough (Nat.not_succ_le_zero _)
      | succ fuel =>
          have shorter : rest.length ≤ fuel := Nat.le_of_succ_le_succ enough
          cases first with
          | body code ip activation =>
              exact ih (exceeds.leaving (code.place ip)) world.endCall shorter
          | loop loop => exact ih exceeds world shorter

variable (program limits) in
/-- The world that a run ends with, whether or not the budget suffices. -/
theorem run_world (machine : Machine) (fuel : Nat) :
    match run program limits fuel machine with
    | .ok _ world | .error _ world =>
      world = ((step program limits)^[fuel] machine).world := by
  have whole := @run_steps program limits machine fuel 0
  rw [Nat.zero_add] at whole
  rw [whole]
  generalize (step program limits)^[fuel] machine = last
  by_cases done : last.Done
  · obtain ⟨focus, waiting, world⟩ := last
    obtain ⟨rfl, ⟨value, rfl⟩ | ⟨error, rfl⟩⟩ := done <;> rfl
  · rw [run_zero done]

/-- A run within the limit is the run without it, unless that counts too many operations; then it
fails at the first one too many. -/
theorem run_within (unlimited : limits.maxSteps = none) {machine : Machine} {fuel : Nat}
    (room : machine.world.steps ≤ most) (enough : remaining most machine ≤ fuel) :
    if ((step program limits)^[fuel] machine).world.steps ≤ most then
      run program (limits.within most) fuel machine = run program limits fuel machine
    else ∃ error world, run program (limits.within most) fuel machine =
      .error (.failure error) world ∧ error.Exceeds most ∧ world.steps = most + 1 := by
  have finished {machine : Machine} (done : machine.Done) (fuel : Nat) :
      run program (limits.within most) fuel machine = run program limits fuel machine := by
    obtain ⟨focus, waiting, world⟩ := machine
    obtain ⟨rfl, ⟨value, rfl⟩ | ⟨error, rfl⟩⟩ := done <;> cases fuel <;> rfl
  have limited : (limits.within most).maxSteps = some most := rfl
  induction fuel generalizing machine with
  | zero =>
      have done : machine.Done := done_after program limited machine enough
      rw [Function.iterate_zero_apply, if_pos room]
      exact finished done 0
  | succ fuel ih =>
      by_cases done : machine.Done
      · rw [done.steps, if_pos room]
        exact finished done _
      · rw [Function.iterate_succ_apply, run_succ done, run_succ done]
        have less := step_remaining program limited done
        by_cases kept : (step program limits machine).world.steps ≤ most
        · rw [step_within unlimited kept] at less ⊢
          exact ih kept (by omega)
        · have beyond := Nat.lt_of_not_le kept
          have later := steps_le program limits (step program limits machine) fuel
          rw [if_neg (by omega)]
          obtain ⟨world, fails, counted⟩ := step_exceeds room beyond
          rw [fails] at less ⊢
          have short : machine.waiting.length ≤ fuel := by
            simp only [remaining] at less enough
            omega
          obtain ⟨error, world', ends, exceeds, same⟩ :=
            run_exceeds program (limits.within most) ⟨#[], rfl⟩ machine.waiting world short
          exact ⟨error, world', ends, exceeds, same.trans counted⟩

/-! ## Single operations that are run to their end -/

/-- A budget that every body called under the limit gets by with. -/
def ample (most : Nat) : Nat := 12 * (most + 1) + 7

theorem remaining_le (most : Nat) (focus : Focus) (world : World) :
    remaining most { focus, world } ≤ ample most := by
  have stage : Focus.stage focus ≤ 7 := by cases focus <;> simp [Focus.stage]
  simp only [remaining, ample, List.length_nil]
  omega

/-- The limit was exceeded, and the operation that exceeds it was counted. -/
def Exceeded (most : Nat) {σ α : Type} (steps : σ → Nat) :
    EStateM.Result (Halt RuntimeError) σ α → Prop
  | .error (.failure error) state => error.Exceeds most ∧ steps state = most + 1
  | _ => False

/-- Within the limit the computation comes to the same; otherwise it exceeds the limit. -/
def Bounds (most : Nat) {σ α : Type} (steps : σ → Nat)
    (limited free : EStateM (Halt RuntimeError) σ α) (state : σ) : Prop :=
  Ends free state
    (fun value state' => steps state ≤ steps state' ∧
      if steps state' ≤ most then limited state = .ok value state'
      else Exceeded most steps (limited state))
    fun halt state' => steps state ≤ steps state' ∧
      if steps state' ≤ most then limited state = .error halt state'
      else Exceeded most steps (limited state)

namespace Bounds

variable {σ α : Type} {steps : σ → Nat} {limited free : EStateM (Halt RuntimeError) σ α} {state : σ}

/-- What counts nothing is the same under the limit. -/
theorem of_uncounted (same : limited state = free state) (room : steps state ≤ most)
    (counts : Ends free state (fun _ state' => steps state' = steps state)
      fun _ state' => steps state' = steps state) : Bounds most steps limited free state := by
  apply Ends.intro
  · intro value state' run
    have counted : steps state' = steps state := counts.ok run
    exact ⟨Nat.le_of_eq counted.symm, by rw [if_pos (counted ▸ room), same, run]⟩
  · intro halt state' run
    have counted : steps state' = steps state := counts.error run
    exact ⟨Nat.le_of_eq counted.symm, by rw [if_pos (counted ▸ room), same, run]⟩

/-- Steps before that count nothing do not matter. -/
theorem after {limited' free' : EStateM (Halt RuntimeError) σ α} {state' : σ}
    (h : Bounds most steps limited' free' state') (same : limited state = limited' state')
    (same' : free state = free' state') (counts : steps state' = steps state) :
    Bounds most steps limited free state := by
  unfold Bounds Ends at h ⊢
  rw [same, same', ← counts]
  exact h

end Bounds

variable (program) in
/-- Whatever a machine begins with, the limit bounds its run. -/
theorem bounds_runFrom (unlimited : limits.maxSteps = none) {fuel : Nat}
    (enough : ample most ≤ fuel) (focus : Focus) {world : World} (room : world.steps ≤ most) :
    Bounds most World.steps (runFrom program (limits.within most) fuel focus)
      (runFrom program limits fuel focus) world := by
  have left : remaining most ⟨focus, [], world⟩ ≤ fuel :=
    Nat.le_trans (remaining_le most focus world) enough
  have later := steps_le program limits ⟨focus, [], world⟩ fuel
  have whole := @run_within program limits most unlimited ⟨focus, [], world⟩ fuel room left
  have ends := run_world program limits ⟨focus, [], world⟩ fuel
  have exceeds (beyond : ¬((step program limits)^[fuel] ⟨focus, [], world⟩).world.steps ≤ most) :
      Exceeded most World.steps (run program (limits.within most) fuel ⟨focus, [], world⟩) := by
    rw [if_neg beyond] at whole
    obtain ⟨error, world', fails, exceeds, counted⟩ := whole
    rw [fails]
    exact ⟨exceeds, counted⟩
  apply Ends.intro
  · intro value world' result
    have result : run program limits fuel ⟨focus, [], world⟩ = .ok value world' := result
    rw [result] at ends whole
    obtain rfl : world' = _ := ends
    refine ⟨later, ?_⟩
    split
    · rename_i kept
      rwa [if_pos kept] at whole
    · exact exceeds ‹_›
  · intro halt world' result
    have result : run program limits fuel ⟨focus, [], world⟩ = .error halt world' := result
    rw [result] at ends whole
    obtain rfl : world' = _ := ends
    refine ⟨later, ?_⟩
    split
    · rename_i kept
      rwa [if_pos kept] at whole
    · exact exceeds ‹_›

/-- Run a machine for an activation that takes the result. -/
def runFor (program : Program) (limits : Limits) (fuel : Nat) (focus : Focus) :
    EStateM (Halt RuntimeError) (Activation × World) Flow := fun (activation, world) =>
  match runFrom program limits fuel focus world with
  | .ok value world => .ok .next ({ activation with stack := value :: activation.stack }, world)
  | .error halt world => .error halt (activation, world)

theorem complete_eq (program : Program) (limits : Limits) (fuel : Nat) (op : Op)
    (state : Activation × World) : complete program limits fuel op state =
      match Exec.perform program op state with
      | .ok (.enter position callee) state =>
        runFor program limits fuel (.enter position callee) state
      | .ok (.iterate loop) state => runFor program limits fuel (.iterate loop) state
      | .ok flow state => .ok flow state
      | .error error state => .error (.failure error) state := by
  unfold complete
  cases Exec.perform program op state with
  | error error state => rfl
  | ok flow state => cases flow <;> rfl

/-- How many operations the bodies execute that an operation calls. -/
def called (program : Program) (limits : Limits) (fuel : Nat) (op : Op)
    (state : Activation × World) : Nat :=
  match Exec.perform program op state with
  | .ok (.enter position callee) (_, world) =>
    executed program limits fuel { focus := .enter position callee, world }
  | .ok (.iterate loop) (_, world) => executed program limits fuel { focus := .iterate loop, world }
  | _ => 0

/-- Whatever an operation comes to, all that the bodies have executed which it calls is counted. -/
theorem ends_complete_counted (program : Program) (limits : Limits) (fuel : Nat) (op : Op)
    (state : Activation × World) :
    Ends (complete program limits fuel op) state
      (fun _ after => state.2.steps + called program limits fuel op state ≤ after.2.steps)
      fun _ after => state.2.steps + called program limits fuel op state ≤ after.2.steps := by
  have uncounted := @Exec.uncounted_perform program op
  have runs (focus : Focus) (before : Activation × World) :
      Ends (runFor program limits fuel focus) before
        (fun _ after => before.2.steps + executed program limits fuel { focus, world := before.2 } ≤
          after.2.steps)
        fun _ after => before.2.steps + executed program limits fuel { focus, world := before.2 } ≤
          after.2.steps := by
    have later := executed_counted program limits { focus, world := before.2 } fuel
    have ends := run_world program limits { focus, world := before.2 } fuel
    unfold Ends runFor runFrom
    cases result : run program limits fuel { focus, world := before.2 } <;>
    · rw [result] at ends
      simp only [result]
      exact ends ▸ later
  unfold Ends called
  rw [complete_eq]
  cases result : Exec.perform program op state with
  | error error state' => exact Nat.le_of_eq (uncounted.error result).symm
  | ok flow state' =>
      have counts : state'.2.steps = state.2.steps := uncounted.ok result
      rw [← counts]
      cases flow with
      | enter position callee => exact runs (.enter position callee) state'
      | iterate loop => exact runs (.iterate loop) state'
      | next | jump | ret => exact Nat.le_refl _

/-- Under the limit the bodies that an operation calls come to an end. -/
theorem complete_ends {most fuel : Nat} (limited : limits.maxSteps = some most)
    (enough : ample most ≤ fuel) (program : Program) (op : Op) (state state' : Activation × World) :
    complete program limits fuel op state ≠ .error .outOfFuel state' := by
  have runs (focus : Focus) (before : Activation × World) :
      runFor program limits fuel focus before ≠ .error .outOfFuel state' := by
    have left : remaining most { focus, world := before.2 } ≤ fuel :=
      Nat.le_trans (remaining_le most focus before.2) enough
    have done := done_after program limited { focus, world := before.2 } left
    have ended := (run_finished done 0).1
    rw [Nat.zero_add] at ended
    unfold runFor runFrom
    cases result : run program limits fuel { focus, world := before.2 } with
    | ok value world => simp only [result]; nofun
    | error halt world =>
        simp only [result]
        rintro ⟨⟩
        exact ended _ result
  rw [complete_eq]
  cases Exec.perform program op state with
  | error error state' => nofun
  | ok flow state' =>
      cases flow with
      | enter position callee => exact runs (.enter position callee) state'
      | iterate loop => exact runs (.iterate loop) state'
      | next | jump | ret => nofun

variable (program) in
theorem bounds_runFor (unlimited : limits.maxSteps = none) {fuel : Nat}
    (enough : ample most ≤ fuel) (focus : Focus) {state : Activation × World}
    (room : state.2.steps ≤ most) :
    Bounds most (fun state => state.2.steps) (runFor program (limits.within most) fuel focus)
      (runFor program limits fuel focus) state := by
  obtain ⟨activation, world⟩ := state
  have runs := bounds_runFrom program unlimited enough focus room
  have beyond (h : Exceeded most World.steps (runFrom program (limits.within most) fuel focus world)) :
      Exceeded most (fun state => state.2.steps)
        (runFor program (limits.within most) fuel focus (activation, world)) := by
    unfold runFor
    cases result : runFrom program (limits.within most) fuel focus world with
    | ok value world' => exact (result ▸ h).elim
    | error halt world' =>
        rw [result] at h
        simp only [result]
        cases halt with
        | failure error => exact h
        | outOfFuel => exact h
  unfold Bounds Ends
  cases result : runFrom program limits fuel focus world with
  | ok value world' =>
      obtain ⟨grows, same⟩ := runs.ok result
      simp only [runFor, result]
      refine ⟨grows, ?_⟩
      by_cases kept : world'.steps ≤ most
      · rw [if_pos kept] at same ⊢
        simp only [same]
      · rw [if_neg kept] at same ⊢
        exact beyond same
  | error halt world' =>
      obtain ⟨grows, same⟩ := runs.error result
      simp only [runFor, result]
      refine ⟨grows, ?_⟩
      by_cases kept : world'.steps ≤ most
      · rw [if_pos kept] at same ⊢
        simp only [same]
      · rw [if_neg kept] at same ⊢
        exact beyond same

variable (program) in
/-- An operation of the script counts what the bodies that it calls execute, and the limit bounds
that. -/
theorem bounds_complete (unlimited : limits.maxSteps = none) {fuel : Nat}
    (enough : ample most ≤ fuel) (op : Op) {state : Activation × World}
    (room : state.2.steps ≤ most) :
    Bounds most (fun state => state.2.steps) (complete program (limits.within most) fuel op)
      (complete program limits fuel op) state := by
  have uncounted := @Exec.uncounted_perform program op
  cases result : Exec.perform program op state with
  | error error state' =>
      have ends (limits : Limits) :
          complete program limits fuel op state = .error (.failure error) state' := by
        rw [complete_eq, result]
      refine .of_uncounted ((ends _).trans (ends _).symm) room ?_
      unfold Ends
      rw [ends]
      exact uncounted.error result
  | ok flow state' =>
      have counts : state'.2.steps = state.2.steps := uncounted.ok result
      have runs (focus : Focus) (same : ∀ limits : Limits, complete program limits fuel op state =
          runFor program limits fuel focus state') :
          Bounds most (fun state => state.2.steps) (complete program (limits.within most) fuel op)
            (complete program limits fuel op) state :=
        (bounds_runFor program unlimited enough focus (counts ▸ room)).after (same _) (same _) counts
      have stops (ends : ∀ limits : Limits, complete program limits fuel op state = .ok flow state') :
          Bounds most (fun state => state.2.steps) (complete program (limits.within most) fuel op)
            (complete program limits fuel op) state := by
        refine .of_uncounted ((ends _).trans (ends _).symm) room ?_
        unfold Ends
        rw [ends]
        exact counts
      cases flow with
      | enter position callee =>
          exact runs (.enter position callee) fun _ => by rw [complete_eq, result]
      | iterate loop => exact runs (.iterate loop) fun _ => by rw [complete_eq, result]
      | next | jump | ret => exact stops fun _ => by rw [complete_eq, result]

end Machine

end BlockScript
