import BlockScript.Proofs.Machine.Runs

/-!
# Where errors come from

An error leaves the bodies that wait for a result one by one and notes in each the line of the
operation that waits. The script body is the outermost one. So when a run of the script fails, the
last place that its error names is that of the operation of the script which was being executed,
unless it was a limit that the script itself ran into.
-/

namespace BlockScript

/-- The error names no place, or it names this one last. -/
def RuntimeError.Leaves (code : Code) (ip : Nat) (error : RuntimeError) : Prop :=
  error.callStack = #[] ∨ error.callStack.back? = some (code.place ip)

theorem RuntimeError.leaves_leaving (code : Code) (ip : Nat) (error : RuntimeError) :
    (error.leaving (code.place ip)).Leaves code ip :=
  .inr Array.back?_push

namespace Machine

variable {program : Program} {limits : Limits} {main code : Code} {ip : Nat} {machine : Machine}
  {error : RuntimeError}

/-- The operation of the outermost body that is being executed. -/
def outermost? (machine : Machine) : Option (Code × Nat) :=
  match machine.waiting.getLast?, machine.focus with
  | some (.body code ip _), _ => some (code, ip)
  | none, .run code ip _ => some (code, ip)
  | _, _ => none

/-- The error that the machine has come to an end with. -/
def failed? (machine : Machine) : Option RuntimeError :=
  match machine.waiting, machine.focus with
  | [], .fail error => some error
  | _, _ => none

theorem callStack_brokenLimit {steps size : Nat} (h : brokenLimit limits steps size = some error) :
    error.callStack = #[] := by
  unfold brokenLimit at h
  repeat' split at h
  all_goals cases h <;> rfl

theorem outermost?_append (focus : Focus) (above : List Waiting) (activation : Activation)
    (world : World) :
    outermost? ⟨focus, above ++ [.body code ip activation], world⟩ = some (code, ip) := by
  simp [outermost?]

/-- What the outermost body executes: the body itself is at it, or it waits for what it has called. -/
theorem outermost?_cases (h : machine.outermost? = some (code, ip)) :
    (∃ activation world, machine = ⟨.run code ip activation, [], world⟩) ∨
    ∃ focus above activation world,
      machine = ⟨focus, above ++ [.body code ip activation], world⟩ := by
  obtain ⟨focus, waiting, world⟩ := machine
  unfold outermost? at h
  split at h
  · rename_i last
    cases h
    obtain ⟨above, rfl⟩ := List.getLast?_eq_some_iff.mp last
    exact .inr ⟨focus, above, _, world, rfl⟩
  · rename_i last focused
    cases h
    obtain rfl := List.getLast?_eq_none_iff.mp last
    obtain rfl : focus = _ := focused
    exact .inl ⟨_, world, rfl⟩
  · cases h

/-! ## One step -/

/-- Work on something new is put before what waits already. -/
theorem waiting_step {focus : Focus} {waiting : List Waiting} {world : World}
    (busy : (∀ value, focus ≠ .give value) ∧ ∀ error, focus ≠ .fail error) :
    ∃ pushed, (step program limits ⟨focus, waiting, world⟩).waiting = pushed ++ waiting := by
  cases focus with
  | give value => exact absurd rfl (busy.1 value)
  | fail error => exact absurd rfl (busy.2 error)
  | enter position activation =>
      refine ⟨[], ?_⟩
      simp only [step, enter]
      repeat' split
      all_goals rfl
  | iterate loop =>
      simp only [step, iterate]
      repeat' split
      · exact ⟨[_], rfl⟩
      all_goals exact ⟨[], rfl⟩
  | run code ip activation =>
      simp only [step, advance, follow]
      repeat' split
      all_goals first | exact ⟨[], rfl⟩ | exact ⟨[_], rfl⟩

/-- What the outermost body does next: it goes on, it ends with a value, or it fails. -/
inductive Proceeds (code : Code) (ip : Nat) : Machine → Prop
  | goesOn {machine : Machine} {next : Nat} (h : machine.outermost? = some (code, next)) :
      Proceeds code ip machine
  | gives (value : Value) (world : World) : Proceeds code ip ⟨.give value, [], world⟩
  | fails {error : RuntimeError} (leaves : error.Leaves code ip) (world : World) :
      Proceeds code ip ⟨.fail error, [], world⟩

theorem proceeds_advance (activation : Activation) (world : World) :
    Proceeds code ip (advance program limits code ip activation [] world) := by
  unfold advance
  split
  · exact .fails (.inl rfl) _
  dsimp only
  split
  · rename_i broken
    exact .fails (.inl (callStack_brokenLimit broken)) _
  split
  · rename_i flow activation world _
    cases flow with
    | next => exact .goesOn (show outermost? _ = some (code, ip + 1) from rfl)
    | jump offset =>
        simp only [follow]
        split
        · exact .goesOn rfl
        · exact .fails (.inl rfl) _
    | ret value => exact .gives value _
    | enter position callee => exact .goesOn (outermost?_append _ [] activation world)
    | iterate loop => exact .goesOn (outermost?_append _ [] activation world)
  · rename_i error _ _ _
    exact .fails (error.leaves_leaving ..) _

/-- A step within the outermost body. -/
theorem proceeds_step (h : machine.outermost? = some (code, ip)) :
    Proceeds code ip (step program limits machine) := by
  obtain ⟨activation, world, rfl⟩ | ⟨focus, above, activation, world, rfl⟩ := outermost?_cases h
  · exact proceeds_advance activation world
  have pushes (busy : (∀ value, focus ≠ .give value) ∧ ∀ error, focus ≠ .fail error) :
      Proceeds code ip
        (step program limits ⟨focus, above ++ [.body code ip activation], world⟩) := by
    obtain ⟨pushed, waits⟩ := @waiting_step program limits focus
      (above ++ [.body code ip activation]) world busy
    rw [← List.append_assoc] at waits
    generalize step program limits _ = next at waits
    obtain ⟨focus', waiting', world'⟩ := next
    obtain rfl : waiting' = _ := waits
    exact .goesOn (outermost?_append focus' _ activation world')
  cases focus with
  | enter | run | iterate => exact pushes ⟨nofun, nofun⟩
  | give value =>
      cases above with
      | nil => exact .goesOn (show outermost? _ = some (code, ip + 1) from rfl)
      | cons frame rest => cases frame <;> exact .goesOn (outermost?_append _ rest activation _)
  | fail error =>
      cases above with
      | nil => exact .fails (error.leaves_leaving ..) _
      | cons frame rest => cases frame <;> exact .goesOn (outermost?_append _ rest activation _)

/-- An error that leaves the outermost body names the operation that was executed there. -/
theorem leaves_of_failed (works : machine.outermost? = some (code, ip))
    (failed : (step program limits machine).failed? = some error) : error.Leaves code ip := by
  have proceeds : Proceeds code ip (step program limits machine) := proceeds_step works
  generalize step program limits machine = next at failed proceeds
  cases proceeds with
  | goesOn h =>
      obtain ⟨activation, world, rfl⟩ | ⟨focus, above, activation, world, rfl⟩ := outermost?_cases h
      · cases failed
      · cases above <;> cases failed
  | gives value world => cases failed
  | fails leaves world =>
      cases failed
      exact leaves

/-! ## Runs -/

/-- A body that is being executed has not come to an end. -/
theorem not_done_of_outermost (h : machine.outermost? = some (code, ip)) : ¬machine.Done := by
  rintro ⟨waiting, ending⟩
  obtain ⟨activation, world, rfl⟩ | ⟨focus, above, activation, world, rfl⟩ := outermost?_cases h
  · obtain ⟨value, focus⟩ | ⟨error, focus⟩ := ending <;> cases focus
  · simp at waiting

theorem done_of_failed (h : machine.failed? = some error) : machine.Done := by
  unfold failed? at h
  split at h
  · rename_i nothing focused
    exact ⟨nothing, .inr ⟨_, focused⟩⟩
  · cases h

/-- The script begins with its first operation, unless there is no room for a call. -/
theorem step_begin (found : program.code? 0 = some main) (activation : Activation) (world : World) :
    (step program limits ⟨.enter 0 activation, [], world⟩).outermost? = some (main, 0) ∨
    ∃ error world', step program limits ⟨.enter 0 activation, [], world⟩ = ⟨.fail error, [], world'⟩ ∧
      error.callStack = #[] := by
  simp only [step, enter, found]
  split
  · exact .inr ⟨_, _, rfl, rfl⟩
  · exact .inl rfl

/-- When a run within the outermost body fails, it does so out of one of its operations. -/
theorem run_fails_at {fuel : Nat} {world : World} (works : machine.outermost? = some (code, ip))
    (failed : run program limits fuel machine = .error (.failure error) world) :
    ∃ count ip, ((step program limits)^[count] machine).outermost? = some (code, ip) ∧
      ((step program limits)^[count + 1] machine).failed? = some error := by
  induction fuel generalizing machine ip with
  | zero =>
      rw [run_zero (not_done_of_outermost works)] at failed
      cases failed
  | succ fuel ih =>
      rw [run_succ (not_done_of_outermost works)] at failed
      have proceeds : Proceeds code ip (step program limits machine) := proceeds_step works
      generalize next : step program limits machine = after at failed proceeds
      cases proceeds with
      | goesOn h =>
          obtain ⟨count, ip, works', fails⟩ := ih h failed
          exact ⟨count + 1, ip, by rwa [Function.iterate_succ_apply, next],
            by rwa [Function.iterate_succ_apply, next]⟩
      | gives value world =>
          rw [run_done ⟨rfl, .inl ⟨value, rfl⟩⟩ _ 0] at failed
          cases failed
      | fails leaves world =>
          rw [run_done ⟨rfl, .inr ⟨_, rfl⟩⟩ _ 0] at failed
          cases failed
          exact ⟨0, ip, works, by rw [Function.iterate_succ_apply, next]; rfl⟩

end Machine

namespace Vm

/-- While the machine executes the operation of the script at that position, it fails with the
error. -/
def FailsAt (vm : Vm) (ip : Nat) (error : RuntimeError) : Prop :=
  ∃ main, vm.program.main? = some main ∧ ∃ count,
    ((Machine.step vm.program vm.limits)^[count] (Machine.start main vm.world)).outermost? =
      some (main, ip) ∧
    ((Machine.step vm.program vm.limits)^[count + 1] (Machine.start main vm.world)).failed? =
      some error

variable {vm : Vm} {main : Code} {ip fuel : Nat} {error : RuntimeError}

/-- A script that fails is run until it has failed. -/
theorem run_of_runMain (found : vm.program.main? = some main)
    (failed : (vm.runMain fuel).1 = .error (.failure error)) :
    ∃ world, Machine.run vm.program vm.limits fuel (Machine.start main vm.world) =
      .error (.failure error) world := by
  simp only [runMain, apply, Machine.runMain_eq found] at failed
  split at failed <;> cases failed
  exact ⟨_, ‹_›⟩

/-- Whenever the script of a loaded program fails, it does so at one of its operations, unless the
error names no place at all. -/
theorem runMain_fails_at (found : vm.program.main? = some main)
    (failed : (vm.runMain fuel).1 = .error (.failure error)) :
    error.callStack = #[] ∨ ∃ ip, vm.FailsAt ip error := by
  obtain ⟨world, failed⟩ := run_of_runMain found failed
  have begins : ¬(Machine.start main vm.world).Done := by
    rintro ⟨-, ⟨value, focus⟩ | ⟨error, focus⟩⟩ <;> cases focus
  cases fuel with
  | zero =>
      rw [Machine.run_zero begins] at failed
      cases failed
  | succ fuel =>
      rw [Machine.run_succ begins] at failed
      obtain works | ⟨refusal, world', refused, empty⟩ :=
        @Machine.step_begin vm.program vm.limits main found _ _
      · obtain ⟨count, ip, works', fails⟩ := Machine.run_fails_at works failed
        exact .inr ⟨ip, main, found, count + 1, works', fails⟩
      · have stops : Machine.step vm.program vm.limits (Machine.start main vm.world) = _ := refused
        rw [stops, Machine.run_done ⟨rfl, .inr ⟨_, rfl⟩⟩ _ 0] at failed
        cases failed
        exact .inl empty

/-- The last place that the error names is the operation that it came from. -/
theorem FailsAt.leaves (h : vm.FailsAt ip error) (found : vm.program.main? = some main) :
    error.Leaves main ip := by
  obtain ⟨_, found', count, works, failed⟩ := h
  cases found.symm.trans found'
  rw [Function.iterate_succ_apply'] at failed
  exact Machine.leaves_of_failed works failed

/-- A script fails at one of its operations only, since nothing is executed after that. -/
theorem FailsAt.unique {ip' : Nat} {error' : RuntimeError} (h : vm.FailsAt ip error)
    (h' : vm.FailsAt ip' error') : ip = ip' := by
  obtain ⟨main, found, count, works, failed⟩ := h
  obtain ⟨main', found', count', works', failed'⟩ := h'
  cases found.symm.trans found'
  -- what is executed after a failure is not the script
  have apart {count count' ip : Nat} {error : RuntimeError} (later : count < count')
      (failed : ((Machine.step vm.program vm.limits)^[count + 1]
        (Machine.start main vm.world)).failed? = some error)
      (works : ((Machine.step vm.program vm.limits)^[count']
        (Machine.start main vm.world)).outermost? = some (main, ip)) : False := by
    obtain ⟨more, rfl⟩ := Nat.exists_eq_add_of_le' later
    have done := Machine.done_of_failed failed
    rw [Function.iterate_add_apply, done.steps more] at works
    exact Machine.not_done_of_outermost works done
  rcases Nat.lt_trichotomy count count' with before | rfl | behind
  · exact (apart before failed works').elim
  · cases works.symm.trans works'
    rfl
  · exact (apart behind failed' works).elim

end Vm

end BlockScript
