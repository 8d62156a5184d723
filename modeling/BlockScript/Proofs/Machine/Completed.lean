import BlockScript.Machine.Vm
import BlockScript.Proofs.Backend.Outcome
import BlockScript.Proofs.Machine.StackSafety

/-!
# Single operations that are run to their end

A machine that is safe only adds to the heap with each step, so what existed before a run
exists after it. An operation that is executed on its own, with all bodies that it calls,
therefore leaves its activation and the world as they must be for the next operation, also
when it fails or when the budget does not suffice.
-/

namespace BlockScript

namespace Machine

variable {program : Program} {reach : UInt32 → Nat} {limits : Limits} {world : World}

theorem follow_heap (code : Code) (ip : Nat) (flow : Flow) (activation : Activation)
    (waiting : List Waiting) (world : World) :
    (follow code ip flow activation waiting world).world.heap = world.heap := by
  cases flow with
  | jump offset =>
      unfold follow
      dsimp only
      split <;> rfl
  | _ => rfl

theorem advance_grows (linked : program.Linked reach) (closed : world.Closed program reach)
    {code : Code} {ip : Nat} {activation : Activation}
    (runs : activation.Runs program reach world.heap code)
    (height : code.HeightAt ip activation.stack.length) (waiting : List Waiting) :
    world.heap.Grows (advance program limits code ip activation waiting world).world.heap := by
  obtain ⟨op, hop, enough, -, -⟩ := Verifier.heightAt_step height
  obtain ⟨alive, position, hcode, deep⟩ := runs
  have performed := Exec.sound_perform closed.count alive enough
    ((linked.links position code hcode op (Array.mem_of_getElem? hop)).placed deep)
  simp only [advance, hop]
  cases brokenLimit limits world.count.steps activation.stack.length with
  | some error => exact .refl _
  | none =>
      cases hresult : Exec.perform program op (activation, world.count) with
      | error error state =>
          rw [hresult] at performed
          exact performed.2.1
      | ok flow state =>
          rw [hresult] at performed
          simp only [follow_heap]
          exact performed.2.1

theorem iterate_grows (closed : world.Closed program reach) {loop : BlockLoop}
    (alive : loop.Alive world.heap) (waiting : List Waiting) :
    world.heap.Grows (iterate program loop waiting world).world.heap := by
  cases hnext : loop.next? with
  | some pass =>
      obtain ⟨block, argument, rest⟩ := pass
      obtain ⟨block_alive, argument_alive, -⟩ := alive.next hnext
      have entered := Run.sound_enterBlock closed block_alive
        (List.forall_mem_singleton.mpr argument_alive)
      simp only [iterate, hnext]
      cases hresult : Run.enterBlock program block [argument] world <;>
      · rw [hresult] at entered
        exact entered.2.1
  | none =>
      have ended := Run.sound_result closed alive
      simp only [iterate, hnext]
      cases hresult : loop.result world <;>
      · rw [hresult] at ended
        exact ended.2.1

/-- A step of a safe machine only adds to the heap. -/
theorem step_grows (linked : program.Linked reach) {machine : Machine}
    (h : machine.Safe program reach) :
    machine.world.heap.Grows (step program limits machine).world.heap := by
  obtain ⟨focus, waiting, world⟩ := machine
  obtain ⟨closed, focus_safe, -⟩ := h
  cases focus with
  | enter position activation =>
      simp only [step, enter]
      split
      · exact .refl _
      · split <;> exact .refl _
  | run code ip activation => exact advance_grows linked closed focus_safe.1 focus_safe.2 waiting
  | iterate loop => exact iterate_grows closed focus_safe waiting
  | give value =>
      rcases waiting with _ | ⟨_ | _, rest⟩ <;> exact .refl _
  | fail error =>
      rcases waiting with _ | ⟨_ | _, rest⟩ <;> exact .refl _

/-- What a computation on a world leaves: a world that is closed and has only grown, and an
error of the machine itself only if the program excuses it. -/
def Leaves (program : Program) (reach : UInt32 → Nat) (world : World)
    (result : EStateM.Result (Halt RuntimeError) World Value) : Prop :=
  match result with
  | .ok value world' =>
    world'.Closed program reach ∧ world.heap.Grows world'.heap ∧ value.Alive world'.heap
  | .error halt world' =>
    world'.Closed program reach ∧ world.heap.Grows world'.heap ∧
      ∀ error, halt = .failure error → error.kind = .internal → program.Excuses reach error

theorem run_leaves (linked : program.Linked reach) {machine : Machine}
    (h : machine.Safe program reach) (fuel : Nat) :
    Leaves program reach machine.world (run program limits fuel machine) := by
  fun_induction run program limits fuel machine with
  | case1 => exact ⟨h.world, .refl _, h.focus⟩
  | case2 fuel error world =>
      refine ⟨h.world, .refl _, ?_⟩
      rintro _ ⟨⟩
      exact h.focus
  | case3 =>
      refine ⟨h.world, .refl _, ?_⟩
      rintro _ ⟨⟩
  | case4 fuel machine _ _ ih =>
      have grows : machine.world.heap.Grows (step program limits machine).world.heap :=
        step_grows linked h
      have rest := ih (step_safe linked h)
      cases hrun : run program limits fuel (step program limits machine) <;>
      · rw [hrun] at rest
        exact ⟨rest.1, grows.trans rest.2.1, rest.2.2⟩

theorem settle_leaves (linked : program.Linked reach) (closed : world.Closed program reach)
    {reply : Reply} (alive : reply.Alive program reach world) (fuel : Nat) :
    Leaves program reach world (settle program limits fuel reply world) := by
  cases reply with
  | value value => exact ⟨closed, .refl _, alive⟩
  | enter position activation =>
      have safe : Machine.Safe program reach { focus := .enter position activation, world } :=
        ⟨closed, alive, by simp⟩
      exact run_leaves linked safe fuel
  | iterate loop =>
      have safe : Machine.Safe program reach { focus := .iterate loop, world } :=
        ⟨closed, alive, by simp⟩
      exact run_leaves linked safe fuel

/-- An operation that finds its operands and what it refers to is executed without an error of
the machine itself, and whatever it comes to exists. -/
theorem ends_complete (linked : program.Linked reach) (closed : world.Closed program reach)
    {activation : Activation} (alive : activation.Alive world.heap) {op : Op}
    (enough : op.pops ≤ activation.stack.length)
    (placed : op.Placed program reach world.heap activation.frame)
    (excuses : ∀ error, ¬program.Excuses reach error)
    (finds : ∀ error, ¬op.Excuses program.constants world.heap activation.frame error)
    (fuel : Nat) :
    Ends (complete program limits fuel op) (activation, world)
      (fun _ state => state.2.Closed program reach ∧ state.1.Alive state.2.heap)
      fun halt state => state.2.Closed program reach ∧ state.1.Alive state.2.heap ∧
        ∀ error, halt = .failure error → error.kind ≠ .internal := by
  have performed := Exec.sound_perform closed alive enough placed
  unfold Ends complete
  cases hresult : Exec.perform program op (activation, world) with
  | error error state =>
      rw [hresult] at performed
      obtain ⟨closed', -, alive', excused⟩ := performed
      refine ⟨closed', alive', ?_⟩
      rintro _ ⟨⟩ kind
      exact finds error (excused kind)
  | ok flow state =>
      obtain ⟨after, world'⟩ := state
      rw [hresult] at performed
      obtain ⟨closed', -, outcome⟩ := performed
      -- The bodies that the operation calls are run, and their result is pushed.
      have leaves (reply : Reply) (reply_alive : reply.Alive program reach world') :
          Leaves program reach world' (settle program limits fuel reply world') :=
        settle_leaves linked closed' reply_alive fuel
      have pushes (value : Value) (world'' : World) (left : Leaves program reach world'
          (.ok value world'')) : world''.Closed program reach ∧
          ({ after with stack := value :: after.stack } : Activation).Alive world''.heap := by
        obtain ⟨closed'', grows, value_alive⟩ := left
        have kept := outcome.alive.mono grows
        exact ⟨closed'', List.forall_mem_cons.mpr ⟨value_alive, kept.stack⟩, kept.frame,
          kept.self, kept.block⟩
      have fails (halt : Halt RuntimeError) (world'' : World) (left : Leaves program reach world'
          (.error halt world'')) : world''.Closed program reach ∧ after.Alive world''.heap ∧
          ∀ error, halt = .failure error → error.kind ≠ .internal := by
        obtain ⟨closed'', grows, excused⟩ := left
        exact ⟨closed'', outcome.alive.mono grows,
          fun error same kind => excuses error (excused error same kind)⟩
      cases flow with
      | enter position callee =>
          have left := leaves (.enter position callee) outcome.control.2
          dsimp only
          cases hsettle : settle program limits fuel (.enter position callee) world' with
          | ok value world'' => exact pushes value world'' (hsettle ▸ left)
          | error halt world'' => exact fails halt world'' (hsettle ▸ left)
      | iterate loop =>
          have left := leaves (.iterate loop) outcome.control.2
          dsimp only
          cases hsettle : settle program limits fuel (.iterate loop) world' with
          | ok value world'' => exact pushes value world'' (hsettle ▸ left)
          | error halt world'' => exact fails halt world'' (hsettle ▸ left)
      | _ => exact ⟨closed', outcome.alive⟩

end Machine

end BlockScript
