import Mathlib.Logic.Function.Iterate
import BlockScript.Proofs.Machine.StackSafety

/-!
# Runs and their steps

A run goes on until the machine is done, so what it comes to does not depend on how much of its
budget is left. It can be taken up after any number of steps, and it uses up its budget only
when the machine is not done after as many steps.
-/

namespace BlockScript.Machine

variable {program : Program} {limits : Limits}

/-- The machine has its result or its error, and nothing waits for it. -/
def Done (machine : Machine) : Prop :=
  machine.waiting = [] ∧
    ((∃ value, machine.focus = .give value) ∨ ∃ error, machine.focus = .fail error)

/-- A machine that is done stays as it is. -/
theorem Done.step {machine : Machine} (done : machine.Done) :
    Machine.step program limits machine = machine := by
  obtain ⟨focus, waiting, world⟩ := machine
  obtain ⟨rfl, ⟨value, rfl⟩ | ⟨error, rfl⟩⟩ := done <;> rfl

theorem Done.steps {machine : Machine} (done : machine.Done) (count : Nat) :
    (Machine.step program limits)^[count] machine = machine := by
  induction count with
  | zero => rfl
  | succ count ih => rw [Function.iterate_succ_apply, done.step, ih]

theorem run_done {machine : Machine} (done : machine.Done) (fuel fuel' : Nat) :
    run program limits fuel machine = run program limits fuel' machine := by
  obtain ⟨focus, waiting, world⟩ := machine
  obtain ⟨rfl, ⟨value, rfl⟩ | ⟨error, rfl⟩⟩ := done <;> cases fuel <;> cases fuel' <;> rfl

theorem run_succ {machine : Machine} (running : ¬machine.Done) (fuel : Nat) :
    run program limits (fuel + 1) machine =
      run program limits fuel (step program limits machine) := by
  rw [run]
  · rintro value world rfl
    exact running ⟨rfl, .inl ⟨value, rfl⟩⟩
  · rintro error world rfl
    exact running ⟨rfl, .inr ⟨error, rfl⟩⟩

theorem run_zero {machine : Machine} (running : ¬machine.Done) :
    run program limits 0 machine = .error .outOfFuel machine.world := by
  obtain ⟨focus, waiting, world⟩ := machine
  rw [run]
  · rintro value rfl rfl
    exact running ⟨rfl, .inl ⟨value, rfl⟩⟩
  · rintro error rfl rfl
    exact running ⟨rfl, .inr ⟨error, rfl⟩⟩

/-- A run may be taken up after some steps. -/
theorem run_steps (machine : Machine) (count fuel : Nat) :
    run program limits (fuel + count) machine =
      run program limits fuel ((step program limits)^[count] machine) := by
  induction count generalizing machine with
  | zero => rfl
  | succ count ih =>
      by_cases done : machine.Done
      · rw [done.steps, run_done done]
      · rw [← Nat.add_assoc, run_succ done, ih, Function.iterate_succ_apply]

/-- What a run results in is what the machine has after as many steps as its budget allows. -/
theorem run_ok {machine : Machine} {fuel : Nat} {value : Value} {world : World}
    (result : run program limits fuel machine = .ok value world) :
    (step program limits)^[fuel] machine = ⟨.give value, [], world⟩ := by
  fun_induction run program limits fuel machine with
  | case1 =>
      cases result
      exact Done.steps ⟨rfl, .inl ⟨_, rfl⟩⟩ _
  | case2 => cases result
  | case3 => cases result
  | case4 fuel machine _ _ ih =>
      rw [Function.iterate_succ_apply]
      exact ih result

/-- The same for an error. -/
theorem run_failure {machine : Machine} {fuel : Nat} {error : RuntimeError} {world : World}
    (result : run program limits fuel machine = .error (.failure error) world) :
    (step program limits)^[fuel] machine = ⟨.fail error, [], world⟩ := by
  fun_induction run program limits fuel machine with
  | case1 => cases result
  | case2 =>
      cases result
      exact Done.steps ⟨rfl, .inr ⟨_, rfl⟩⟩ _
  | case3 => cases result
  | case4 fuel machine _ _ ih =>
      rw [Function.iterate_succ_apply]
      exact ih result

/-- A machine that is not done after so many steps uses up a budget of as many. -/
theorem run_busy {machine : Machine} {fuel : Nat}
    (busy : ¬((step program limits)^[fuel] machine).Done) :
    run program limits fuel machine =
      .error .outOfFuel ((step program limits)^[fuel] machine).world := by
  rw [← Nat.zero_add fuel, run_steps, Nat.zero_add, run_zero busy]

/-- Nothing is done earlier than later. -/
theorem not_done_of_steps {machine : Machine} {count more : Nat}
    (busy : ¬((step program limits)^[more + count] machine).Done) :
    ¬((step program limits)^[more] machine).Done := by
  intro done
  rw [Nat.add_comm, Function.iterate_add_apply, done.steps] at busy
  exact busy done

end BlockScript.Machine
