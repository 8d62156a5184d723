import Mathlib.Logic.Function.Iterate
import BlockScript.Machine.Vm
import BlockScript.Proofs.Machine.Operation

/-!
# Machines that run linked programs

A program is linked when the verifier finds heights for every code object and every code
operand denotes one that finds the frames it needs. A machine in the middle of running it
is safe when the world is closed, every running body is as high as the verifier says,
every body that waits for a result will be, and an error of the machine itself is one that
some operation excuses. One step keeps a machine safe, so a whole run does.
-/

namespace BlockScript

/-- The verifier assigns this height to the operation at a position. -/
def Code.HeightAt (code : Code) (ip height : Nat) : Prop :=
  ∃ heights, Verifier.heights code.ops = .ok heights ∧ heights.at? ip = some height

/-- The code objects that an operation refers to exist, and are content with the frames
that they will find: one more than around the operation for a block, none for a method. -/
def Op.Links (program : Program) (reach : UInt32 → Nat) (around : Nat) : Op → Prop
  | makeClosure code => program.Has code ∧ reach code ≤ around + 1
  | send _ _ _ block => ∀ code, block = some code → program.Has code ∧ reach code ≤ around + 1
  | defineMethod _ code => program.Has code ∧ reach code = 0
  | _ => True

/-- Every code object is verified and refers to code objects that fit. -/
structure Program.Linked (program : Program) (reach : UInt32 → Nat) : Prop where
  verified : ∀ position code, program.code? position = some code →
    ∃ heights, Verifier.heights code.ops = .ok heights
  links : ∀ position code, program.code? position = some code →
    ∀ op ∈ code.ops, op.Links program reach (reach position)

/-- Some operation of the program excuses an error of the machine itself: one with a
constant of the wrong kind, or one that looks past the frames that it may rely on. -/
def Program.Excuses (program : Program) (reach : UInt32 → Nat) (error : RuntimeError) : Prop :=
  ∃ position code op, program.code? position = some code ∧ op ∈ code.ops ∧
    ((¬op.Pooled program.constants ∧
        ∃ constant, error.message = (RuntimeError.badConstant constant).message) ∨
      (reach position < op.outward ∧
        ∃ depth, error.message = (RuntimeError.noFrame depth).message))

/-- An activation that executes a code object of the program. -/
def Activation.Runs (program : Program) (reach : UInt32 → Nat) (heap : Heap) (code : Code)
    (activation : Activation) : Prop :=
  activation.Alive heap ∧ ∃ position, program.code? position = some code ∧
    heap.Deep activation.frame (reach position)

/-- What a machine is about to do is possible. -/
def Focus.Safe (program : Program) (reach : UInt32 → Nat) (heap : Heap) : Focus → Prop
  | .enter position activation => activation.Enters program reach heap position
  | .run code ip activation =>
    activation.Runs program reach heap code ∧ code.HeightAt ip activation.stack.length
  | .iterate loop => loop.Alive heap
  | .give value => value.Alive heap
  | .fail error => error.kind = .internal → program.Excuses reach error

/-- What waits for a result can go on with any. -/
def Waiting.Safe (program : Program) (reach : UInt32 → Nat) (heap : Heap) : Waiting → Prop
  | .body code ip activation =>
    activation.Runs program reach heap code ∧
      code.HeightAt (ip + 1) (activation.stack.length + 1)
  | .loop rest => rest.Alive heap

/-- A machine that cannot go wrong in its next step. -/
structure Machine.Safe (program : Program) (reach : UInt32 → Nat) (machine : Machine) :
    Prop where
  world : machine.world.Closed program reach
  focus : machine.focus.Safe program reach machine.world.heap
  waiting : ∀ waiting ∈ machine.waiting, waiting.Safe program reach machine.world.heap

variable {program : Program} {reach : UInt32 → Nat}

theorem Op.Links.placed {op : Op} {around : Nat} (h : op.Links program reach around)
    {heap : Heap} {frame : Ref .frame} (deep : heap.Deep frame around) :
    op.Placed program reach heap frame := by
  have block : ∀ code, program.Has code ∧ reach code ≤ around + 1 →
      program.Has code ∧ heap.Deep frame (reach code - 1) :=
    fun code linked => linked.imp id fun le => deep.le (Nat.sub_le_of_le_add le)
  cases op with
  | makeClosure code => exact block code h
  | send name argc receiver target => exact fun code hcode => block code (h code hcode)
  | defineMethod name code => exact h
  | _ => trivial

/-- What an operation excuses where it is executed, the program excuses. -/
theorem Op.Excuses.ofProgram {op : Op} {error : RuntimeError} {heap : Heap} {frame : Ref .frame}
    (h : op.Excuses program.constants heap frame error) {position : UInt32} {code : Code}
    (hcode : program.code? position = some code) (hop : op ∈ code.ops)
    (deep : heap.Deep frame (reach position)) : program.Excuses reach error := by
  rcases h with ⟨unpooled, constant, rfl⟩ | ⟨missing, depth, rfl⟩
  · exact ⟨position, code, op, hcode, hop, .inl ⟨unpooled, constant, rfl⟩⟩
  · refine ⟨position, code, op, hcode, hop, .inr ⟨?_, depth, rfl⟩⟩
    exact Nat.lt_of_not_le fun le => missing (deep.le le)

/-- Leaving a body changes neither the kind nor the message of an error. -/
theorem Program.Excuses.leaving {error : RuntimeError} (h : program.Excuses reach error)
    (place : String) : program.Excuses reach (error.leaving place) := h

section Mono

variable {heap later : Heap} (grows : heap.Grows later)

include grows

theorem Activation.Runs.mono {code : Code} {activation : Activation}
    (h : activation.Runs program reach heap code) : activation.Runs program reach later code := by
  obtain ⟨alive, position, hcode, deep⟩ := h
  exact ⟨alive.mono grows, position, hcode, deep.mono grows⟩

theorem Waiting.Safe.mono {waiting : Waiting} (h : waiting.Safe program reach heap) :
    waiting.Safe program reach later := by
  cases waiting with
  | body code ip activation => exact ⟨h.1.mono grows, h.2⟩
  | loop loop => exact BlockLoop.Alive.mono grows h

end Mono

namespace World.Closed

variable {world : World} (h : world.Closed program reach)

include h

theorem count : world.count.Closed program reach :=
  ⟨h.heap, h.main, h.globals, h.constants, h.procs, h.methods⟩

theorem beginCall (call : Call) : (world.beginCall call).Closed program reach :=
  ⟨h.heap, h.main, h.globals, h.constants, h.procs, h.methods⟩

theorem endCall : world.endCall.Closed program reach :=
  ⟨h.heap, h.main, h.globals, h.constants, h.procs, h.methods⟩

end World.Closed

namespace Verifier

/-- What the verifier knows about an operation that is executed: there are enough
operands, and everywhere it may lead has the height after it. -/
theorem heightAt_step {code : Code} {ip height : Nat} (h : code.HeightAt ip height) :
    ∃ op, code.ops[ip]? = some op ∧ op.pops ≤ height ∧
      (op.falls → code.HeightAt (ip + 1) (height - op.pops + op.pushes)) ∧
      ∀ offset, op.jumpOffset? = some offset → ∃ target : Nat,
        (target : Int) = ip + offset.toInt ∧
          code.HeightAt target (height - op.pops + op.pushes) := by
  obtain ⟨heights, hheights, hat⟩ := h
  obtain ⟨op, after, next, hop, hvisit, hnext⟩ := (heights_consistent hheights).step ip height hat
  obtain ⟨enough, rfl, hsuccessors⟩ := visit_ok hvisit
  refine ⟨op, hop, enough, fun falls => ?_, fun offset jump => ?_⟩
  · exact ⟨heights, hheights, hnext _ (successors_falls hsuccessors falls)⟩
  · obtain ⟨target, hmem, htarget⟩ := successors_jump hsuccessors jump
    exact ⟨target, htarget, heights, hheights, hnext target hmem⟩

end Verifier

/-- What the next pass of a repeated block call works on exists. -/
theorem BlockLoop.Alive.next {loop rest : BlockLoop} {heap : Heap} (alive : loop.Alive heap)
    {block : Ref .proc} {argument : Value} (h : loop.next? = some (block, argument, rest)) :
    block.Alive heap ∧ argument.Alive heap ∧ rest.Alive heap := by
  cases loop with
  | times block next count receiver =>
      simp only [BlockLoop.next?] at h
      split at h
      · cases h
        exact ⟨alive.1, trivial, alive⟩
      · cases h
  | each block values receiver =>
      cases values with
      | nil => cases h
      | cons value values =>
          cases h
          obtain ⟨block_alive, values_alive, receiver_alive⟩ := alive
          obtain ⟨value_alive, values_alive⟩ := List.forall_mem_cons.mp values_alive
          exact ⟨block_alive, value_alive, block_alive, values_alive, receiver_alive⟩
  | map block values results =>
      cases values with
      | nil => cases h
      | cons value values =>
          cases h
          obtain ⟨block_alive, values_alive, results_alive⟩ := alive
          obtain ⟨value_alive, values_alive⟩ := List.forall_mem_cons.mp values_alive
          exact ⟨block_alive, value_alive, block_alive, values_alive, results_alive⟩

theorem Run.sound_result {world : World} (closed : world.Closed program reach) {loop : BlockLoop}
    (alive : loop.Alive world.heap) :
    Run.Sound program reach world (fun value world' => value.Alive world'.heap)
      (loop.result world) := by
  cases loop with
  | times block next count receiver => exact Run.Sound.here closed alive.2
  | each block values receiver => exact Run.Sound.here closed alive.2.2
  | map block values results =>
      exact Run.sound_newArray closed fun value hv => alive.2.2 value (by simpa using hv)

namespace Machine

variable {limits : Limits} {world : World} {waiting : List Waiting} {machine : Machine}

section Step

variable (linked : program.Linked reach) (closed : world.Closed program reach)
  (waiting_safe : ∀ w ∈ waiting, w.Safe program reach world.heap)

theorem brokenLimit_kind {steps stackSize : Nat} {error : RuntimeError}
    (h : brokenLimit limits steps stackSize = some error) : error.kind = .limit := by
  unfold brokenLimit at h
  split at h
  · split at h
    · cases h
      rfl
    · split at h
      · cases h
        rfl
      · cases h
  · split at h
    · cases h
      rfl
    · cases h

include closed waiting_safe

/-- An error that is not one of the machine itself is always safe. -/
theorem fail_safe {error : RuntimeError}
    (h : error.kind = .internal → program.Excuses reach error) :
    Machine.Safe program reach { focus := .fail error, waiting, world } :=
  ⟨closed, h, waiting_safe⟩

include linked in
theorem enter_safe {position : UInt32} {activation : Activation}
    (enters : activation.Enters program reach world.heap position) :
    Machine.Safe program reach (enter program limits position activation waiting world) := by
  obtain ⟨code, hcode⟩ := enters.code
  obtain ⟨heights, hheights⟩ := linked.verified position code hcode
  unfold enter
  split
  · exact fail_safe closed waiting_safe (by simp [RuntimeError.callDepth])
  · rw [hcode]
    refine ⟨closed.beginCall _,
      ⟨⟨enters.alive, position, hcode, enters.deep⟩, heights, hheights, ?_⟩, waiting_safe⟩
    rw [enters.stack]
    exact (Verifier.heights_consistent hheights).start

/-- After an operation control is where the verifier expects it. -/
theorem follow_safe {code : Code} {ip : Nat} {op : Op} {before after : Activation} {flow : Flow}
    (outcome : Exec.Outcome program reach op before flow after world)
    (runs : before.Runs program reach world.heap code)
    (falls : op.falls → code.HeightAt (ip + 1) (before.stack.length - op.pops + op.pushes))
    (jumps : ∀ offset, op.jumpOffset? = some offset → ∃ target : Nat,
      (target : Int) = ip + offset.toInt ∧
        code.HeightAt target (before.stack.length - op.pops + op.pushes)) :
    Machine.Safe program reach (follow code ip flow after waiting world) := by
  obtain ⟨-, position, hcode, deep⟩ := runs
  have runs : after.Runs program reach world.heap code :=
    ⟨outcome.alive, position, hcode, outcome.frame ▸ deep⟩
  rw [← outcome.height] at falls jumps
  cases flow with
  | next => exact ⟨closed, ⟨runs, falls outcome.control⟩, waiting_safe⟩
  | jump offset =>
      obtain ⟨target, htarget, hheight⟩ := jumps offset outcome.control
      have inside : 0 ≤ (ip : Int) + offset.toInt := by omega
      simp only [follow, if_pos inside]
      refine ⟨closed, ⟨runs, ?_⟩, waiting_safe⟩
      rw [← htarget, Int.toNat_natCast]
      exact hheight
  | ret value => exact ⟨closed.endCall, outcome.control.2, waiting_safe⟩
  | enter position callee =>
      refine ⟨closed, outcome.control.2, ?_⟩
      intro w hw
      rcases List.mem_cons.mp hw with rfl | hw
      · exact ⟨runs, falls outcome.control.1⟩
      · exact waiting_safe w hw
  | iterate loop =>
      refine ⟨closed, outcome.control.2, ?_⟩
      intro w hw
      rcases List.mem_cons.mp hw with rfl | hw
      · exact ⟨runs, falls outcome.control.1⟩
      · exact waiting_safe w hw

include linked in
/-- Executing an operation of a running body. There always is one. -/
theorem advance_safe {code : Code} {ip : Nat} {activation : Activation}
    (runs : activation.Runs program reach world.heap code)
    (height : code.HeightAt ip activation.stack.length) :
    Machine.Safe program reach
      (advance program limits code ip activation waiting world) := by
  obtain ⟨op, hop, enough, falls, jumps⟩ := Verifier.heightAt_step height
  obtain ⟨alive, position, hcode, deep⟩ := id runs
  have member : op ∈ code.ops := Array.mem_of_getElem? hop
  simp only [advance, hop]
  cases hlimit : brokenLimit limits world.count.steps activation.stack.length with
  | some error =>
      refine fail_safe closed.count.endCall waiting_safe fun kind => ?_
      rw [brokenLimit_kind hlimit] at kind
      cases kind
  | none =>
      have performed := Exec.sound_perform closed.count alive enough
        ((linked.links position code hcode op member).placed deep)
      cases hresult : Exec.perform program op (activation, world.count) with
      | error error state =>
          rw [hresult] at performed
          obtain ⟨closed', grows, -, excused⟩ := performed
          refine fail_safe closed'.endCall (fun w hw => (waiting_safe w hw).mono grows) ?_
          exact fun kind => ((excused kind).ofProgram hcode member deep).leaving _
      | ok flow state =>
          rw [hresult] at performed
          obtain ⟨closed', grows, outcome⟩ := performed
          exact follow_safe closed' (fun w hw => (waiting_safe w hw).mono grows) outcome
            (runs.mono grows) falls jumps

/-- One more pass of a repeated block call, or its result. -/
theorem iterate_safe {loop : BlockLoop} (alive : loop.Alive world.heap) :
    Machine.Safe program reach (iterate program loop waiting world) := by
  cases hnext : loop.next? with
  | some pass =>
      obtain ⟨block, argument, rest⟩ := pass
      obtain ⟨block_alive, argument_alive, rest_alive⟩ := alive.next hnext
      have entered := Run.sound_enterBlock closed block_alive
        (List.forall_mem_singleton.mpr argument_alive)
      simp only [iterate, hnext]
      cases hresult : Run.enterBlock program block [argument] world with
      | error error world' =>
          rw [hresult] at entered
          exact fail_safe entered.1 (fun w hw => (waiting_safe w hw).mono entered.2.1)
            fun kind => absurd kind entered.2.2
      | ok entry world' =>
          rw [hresult] at entered
          obtain ⟨closed', grows, enters⟩ := entered
          refine ⟨closed', enters, ?_⟩
          intro w hw
          rcases List.mem_cons.mp hw with rfl | hw
          · exact @BlockLoop.Alive.mono _ _ grows rest rest_alive
          · exact (waiting_safe w hw).mono grows
  | none =>
      have ended := Run.sound_result closed alive
      simp only [iterate, hnext]
      cases hresult : loop.result world with
      | error error world' =>
          rw [hresult] at ended
          exact fail_safe ended.1 (fun w hw => (waiting_safe w hw).mono ended.2.1)
            fun kind => absurd kind ended.2.2
      | ok value world' =>
          rw [hresult] at ended
          exact ⟨ended.1, ended.2.2, fun w hw => (waiting_safe w hw).mono ended.2.1⟩

end Step

theorem accept_alive {heap : Heap} {loop : BlockLoop} (alive : loop.Alive heap) {value : Value}
    (value_alive : value.Alive heap) : (loop.accept value).Alive heap := by
  cases loop with
  | times block next count receiver => exact alive
  | each block rest receiver => exact alive
  | map block rest results =>
      exact ⟨alive.1, alive.2.1, List.forall_mem_cons.mpr ⟨value_alive, alive.2.2⟩⟩

/-- A safe machine is safe after one step. -/
theorem step_safe (linked : program.Linked reach) (h : machine.Safe program reach) :
    (step program limits machine).Safe program reach := by
  obtain ⟨focus, waiting, world⟩ := machine
  obtain ⟨closed, focus_safe, waiting_safe⟩ := h
  cases focus with
  | enter position activation => exact enter_safe linked closed waiting_safe focus_safe
  | run code ip activation =>
      exact advance_safe linked closed waiting_safe focus_safe.1 focus_safe.2
  | iterate loop => exact iterate_safe closed waiting_safe focus_safe
  | give value =>
      cases waiting with
      | nil => exact ⟨closed, focus_safe, waiting_safe⟩
      | cons first rest =>
          obtain ⟨first_safe, rest_safe⟩ := List.forall_mem_cons.mp waiting_safe
          cases first with
          | body code ip activation =>
              obtain ⟨⟨alive, placed⟩, height⟩ := first_safe
              refine ⟨closed, ⟨⟨⟨?_, alive.frame, alive.self, alive.block⟩, placed⟩, height⟩,
                rest_safe⟩
              exact List.forall_mem_cons.mpr ⟨focus_safe, alive.stack⟩
          | loop loop => exact ⟨closed, accept_alive first_safe focus_safe, rest_safe⟩
  | fail error =>
      cases waiting with
      | nil => exact ⟨closed, focus_safe, waiting_safe⟩
      | cons first rest =>
          have rest_safe := (List.forall_mem_cons.mp waiting_safe).2
          cases first with
          | body code ip activation =>
              exact ⟨closed.endCall, fun kind => (focus_safe kind).leaving _, rest_safe⟩
          | loop loop => exact ⟨closed, focus_safe, rest_safe⟩

/-- A safe machine is safe after any number of steps. -/
theorem steps_safe (linked : program.Linked reach) (h : machine.Safe program reach)
    (count : Nat) : ((step program limits)^[count] machine).Safe program reach := by
  induction count with
  | zero => exact h
  | succ count ih =>
      rw [Function.iterate_succ_apply']
      exact step_safe linked ih

end Machine

end BlockScript
