import Mathlib.Logic.Function.Iterate
import BlockScript.Proofs.Machine.Effect
import BlockScript.Proofs.Machine.StackSafety

/-!
# Relations that hold along every run

What an answer, a store, a new block and the counting of calls and operations each leave
related stays related over a step, and so over any number of steps and over a run of any budget.
Nothing is asked of the program that runs or of the world that it runs in.
-/

namespace BlockScript

/-- Each change that a step of the program is made of leaves the worlds related. -/
structure Program.Relates (program : Program) (R : World → World → Prop) : Prop where
  refl : ∀ world, R world world
  trans : ∀ {world after later}, R world after → R after later → R world later
  counts : ∀ (world : World) calls steps, R world { world with calls, steps }
  answers : ∀ {known : Value → Prop} {world after : World} {reply : Reply},
    Run.Effect program known world reply after → R world after
  stores : ∀ {known : Value → Prop} {world after : World} {op : Op},
    world.Stores program known op after → R world after
  frames : ∀ (world : World) (frame : Frame),
    R world { world with heap := (world.heap.newFrame frame).2 }
  closes : ∀ (world : World) (activation : Activation) {position : UInt32} {body : Code},
    program.code? position = some body → R world (world.addProc (activation.close position body))

section

variable {program : Program} {R : World → World → Prop} (relates : program.Relates R)

include relates

namespace Exec

variable {known : Value → Prop} {op : Op} {before activation : Activation} {world after : World}

theorem Effect.related {flow : Flow}
    (h : Effect program known op before world flow activation after) : R world after := by
  cases h with
  | moves control all => exact relates.refl _
  | stores all stored => exact relates.stores stored
  | answers all effect => exact relates.answers effect
  | closes all block code => exact relates.closes _ _ code
  | closesAndAnswers all block code effect =>
      exact relates.trans (relates.closes _ _ code) (relates.answers effect)

theorem Leaves.related (h : Leaves program op before world after) : R world after := by
  cases h with
  | same => exact relates.refl _
  | closed block code => exact relates.closes _ _ code

end Exec

namespace Machine

variable {limits : Limits} {world : World} {waiting : List Waiting}

theorem follow_related (code : Code) (ip : Nat) (flow : Flow) (activation : Activation) :
    R world (follow code ip flow activation waiting world).world := by
  cases flow with
  | ret value => exact relates.counts world _ _
  | jump offset =>
      unfold follow
      dsimp only
      split
      · exact relates.refl _
      · exact relates.counts world _ _
  | _ => exact relates.refl _

theorem advance_related (code : Code) (ip : Nat) (activation : Activation) :
    R world (advance program limits code ip activation waiting world).world := by
  have counted : R world world.count := relates.counts world _ _
  have ended (world : World) : R world world.endCall := relates.counts world _ _
  unfold advance
  split
  · exact ended world
  · rename_i op _
    dsimp only
    split
    · exact relates.trans counted (ended _)
    · have performed := @Exec.acts_perform program _ activation _ world.count.knows_any
        activation.all_any op
      split
      · rename_i flow own after run
        have performed := (performed.ok run).related relates
        exact relates.trans (relates.trans counted performed) (follow_related relates code ip flow own)
      · rename_i run
        have left := (performed.error run).related relates
        exact relates.trans (relates.trans counted left) (ended _)

theorem iterate_related (loop : BlockLoop) :
    R world (iterate program loop waiting world).world := by
  unfold iterate
  split
  · rename_i block argument rest _
    have entered := @Run.ends_enterBlock program _ world world.knows_any block [argument]
      fun _ _ => trivial
    split
    · rename_i run
      exact relates.answers (entered.ok run)
    · rename_i run
      exact entered.error run ▸ relates.refl _
  · have made := loop.all_any.made_result program world
    split
    · rename_i run
      exact relates.answers (made.ok run)
    · rename_i run
      exact made.error run ▸ relates.refl _

theorem step_related (machine : Machine) :
    R machine.world (step program limits machine).world := by
  obtain ⟨focus, waiting, world⟩ := machine
  cases focus with
  | enter position activation =>
      simp only [step, enter]
      split
      · exact relates.refl _
      · split
        · exact relates.refl _
        · exact relates.counts world _ _
  | run code ip activation => exact advance_related relates code ip activation
  | iterate loop => exact iterate_related relates loop
  | give value => rcases waiting with _ | ⟨_ | _, rest⟩ <;> exact relates.refl _
  | fail error =>
      rcases waiting with _ | ⟨_ | _, rest⟩
      · exact relates.refl _
      · exact relates.counts world _ _
      · exact relates.refl _

/-- A run leaves its world related to the one that it began in, whatever it comes to. -/
theorem run_related (fuel : Nat) (machine : Machine) :
    match run program limits fuel machine with
    | .ok _ world | .error _ world => R machine.world world := by
  fun_induction run program limits fuel machine with
  | case1 | case2 | case3 => exact relates.refl _
  | case4 fuel machine _ _ ih =>
      have first := @step_related _ _ relates limits machine
      split at ih <;> exact relates.trans first ih

theorem runMain_related (fuel : Nat) (world : World) :
    match runMain program limits fuel world with
    | .ok _ after | .error _ after => R world after := by
  have reset : R world world.resetExecution := relates.counts world _ _
  cases main : program.main? with
  | none =>
      rw [runMain_missing main]
      exact reset
  | some code =>
      rw [runMain_eq main]
      have begun : R world (start code world).world := relates.trans reset (relates.frames _ _)
      have rest := @run_related program R relates limits fuel (start code world)
      split at rest <;> exact relates.trans begun rest

end Machine

end

/-- Running the loaded program leaves the world related to the one before. -/
theorem Vm.runMain_related {vm : Vm} {R : World → World → Prop} (relates : vm.program.Relates R) (fuel : Nat) :
    R vm.world (vm.runMain fuel).2.world := by
  have h := @Machine.runMain_related vm.program R relates vm.limits fuel vm.world
  unfold Vm.runMain Vm.apply
  dsimp only
  split at h <;>
  · rename_i run
    rw [run]
    exact h

end BlockScript
