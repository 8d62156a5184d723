import BlockScript.Proofs.Machine.Invariant

/-!
# Verified programs are stack-safe

A virtual machine that has loaded a program never misses an operand, and never leaves the
code: whenever it is about to execute an operation, at any call depth, the operands are
exactly as many as the verifier found. The machine invariant is used here with the
assumption that no body needs a frame around its own, since the verifier does not look
at that.
-/

namespace BlockScript

/-- Execution cannot go on at all: an operand, the next operation or a body is missing. -/
def RuntimeError.Malformed (error : RuntimeError) : Prop :=
  error.kind = .internal ∧
    ((∃ operation, error.message = (stackUnderflow operation).message) ∨
      (∃ target unit, error.message = (jumpOutside target unit).message) ∨
      (∃ unit, error.message = (endedWithoutReturn unit).message) ∨
      ∃ position, error.message = (noCode position).message)

/-- Whatever a program excuses, it is not that execution cannot go on. -/
theorem Program.Excuses.not_malformed {program : Program} {reach : UInt32 → Nat}
    {error : RuntimeError} (h : program.Excuses reach error) : ¬error.Malformed := by
  have excused : (∃ rest, error.message = "bad constant pool index " ++ rest) ∨
      ∃ rest, error.message = "no enclosing frame at depth " ++ rest := by
    obtain ⟨-, -, -, -, -, ⟨-, constant, h⟩ | ⟨-, depth, h⟩⟩ := h
    · exact .inl ⟨_, h⟩
    · exact .inr ⟨_, h⟩
  rintro ⟨-, ⟨operation, h⟩ | ⟨target, unit, h⟩ | ⟨unit, h⟩ | ⟨position, h⟩⟩ <;>
    rcases excused with ⟨rest, he⟩ | ⟨rest, he⟩ <;>
    · rw [he] at h
      have := congrArg String.toList h
      simp [RuntimeError.stackUnderflow, RuntimeError.jumpOutside,
        RuntimeError.endedWithoutReturn, RuntimeError.noCode, RuntimeError.internal] at this

namespace Program

variable {program : Program}

theorem has_of_lt {position : UInt32} (h : position.toNat < program.code.size) :
    program.Has position :=
  ⟨_, Array.getElem?_eq_getElem h⟩

/-- The verifier accepts a program only if it accepts every code object of it. -/
theorem verify_code {code : Code} (h : program.verify = .ok ()) (member : code ∈ program.code) :
    (∃ most, code.verify = .ok most) ∧ code.verifyRefs program.code.size = .ok () := by
  have all : ∀ (size : Nat) (codes : List Code),
      (codes.forM fun code => do
        let _ ← code.verify
        code.verifyRefs size) = .ok () →
      ∀ code ∈ codes, (∃ most, code.verify = .ok most) ∧ code.verifyRefs size = .ok () := by
    intro size codes
    induction codes with
    | nil => simp
    | cons first rest ih =>
        intro h code member
        obtain ⟨_, hfirst, hrest⟩ := Verifier.bind_ok h
        obtain ⟨most, hmost, hrefs⟩ := Verifier.bind_ok hfirst
        rcases List.mem_cons.mp member with rfl | member
        · exact ⟨⟨most, hmost⟩, hrefs⟩
        · exact ih hrest code member
  exact all _ _ h code (Array.mem_toList_iff.mpr member)

end Program

theorem Code.verify_ok {code : Code} {most : Nat} (h : code.verify = .ok most) :
    ∃ heights, Verifier.heights code.ops = .ok heights ∧ heights.greatest = most := by
  unfold Code.verify at h
  split at h
  · exact ⟨_, ‹_›, Except.ok.inj h⟩
  · cases h

/-- Code operands lie inside the table that they were checked against. -/
theorem Code.verifyRefs_ok {code : Code} {size : Nat} (h : code.verifyRefs size = .ok ()) {op : Op}
    (member : op ∈ code.ops) {target : UInt32} (ref : op.codeRef? = some target) :
    target.toNat < size := by
  unfold Code.verifyRefs at h
  split at h
  · cases h
  · rename_i none
    have := List.findSome?_eq_none_iff.mp none op (Array.mem_toList_iff.mpr member)
    simpa [ref, Option.filter] using this

/-- A verified program is linked, if nothing is asked of the frames. -/
theorem Program.linked_of_verify {program : Program} (h : program.verify = .ok ()) :
    program.Linked fun _ => 0 where
  verified position code hcode := by
    obtain ⟨⟨most, hmost⟩, -⟩ := verify_code h (Array.mem_of_getElem? hcode)
    obtain ⟨heights, hheights, -⟩ := Code.verify_ok hmost
    exact ⟨heights, hheights⟩
  links position code hcode op member := by
    obtain ⟨-, refs⟩ := verify_code h (Array.mem_of_getElem? hcode)
    have has : ∀ target, op.codeRef? = some target → program.Has target :=
      fun target ref => has_of_lt (Code.verifyRefs_ok refs member ref)
    cases op with
    | makeClosure target => exact ⟨has target rfl, Nat.zero_le _⟩
    | send name argc receiver block =>
        exact fun target htarget => ⟨has target htarget, Nat.zero_le _⟩
    | defineMethod name target => exact ⟨has target rfl, rfl⟩
    | _ => trivial

theorem World.closed_new {program : Program} {reach : UInt32 → Nat} :
    World.new.Closed program reach where
  heap := Heap.closed_empty.newObject _
  main := by simp [World.main, Value.Alive, Ref.Alive, World.new, Heap.newObject, Heap.count]
  globals := by simp [World.new, Table.Alive, Table.empty]
  constants := by
    simp [World.new, Table.Alive, Table.set, Table.put, Table.empty, Value.Alive]
  procs := by simp [World.new, Heap.newObject, Heap.empty]
  methods := by simp [World.new]

namespace Machine

variable {program : Program} {reach : UInt32 → Nat} {limits : Limits}

/-- The machine as the script begins: its frame is made, and nothing waits. -/
def start (main : Code) (world : World) : Machine :=
  let world := world.resetExecution
  let (frame, heap) := world.heap.newFrame (.new main.localCount.toNat [] none)
  { focus := .enter 0 { frame, self := World.main }, world := { world with heap } }

theorem runMain_eq {main : Code} (hmain : program.main? = some main) (fuel : Nat)
    (world : World) :
    runMain program limits fuel world = run program limits fuel (start main world) := by
  have hcode : program.code? 0 = some main := hmain
  have reset : (modify World.resetExecution : Bounded Unit) world = .ok () world.resetExecution :=
    rfl
  simp only [runMain, bind, EStateM.bind, reset, Bounded.ofRun, Run.code, hcode, Run.alloc]
  rfl

/-- Without a script there is nothing to run. -/
theorem runMain_missing (missing : program.main? = none) (fuel : Nat) (world : World) :
    runMain program limits fuel world =
      .error (.failure (.noCode 0)) world.resetExecution := by
  have hcode : program.code? 0 = none := missing
  have reset : (modify World.resetExecution : Bounded Unit) world = .ok () world.resetExecution :=
    rfl
  simp only [runMain, bind, EStateM.bind, reset, Bounded.ofRun, Run.code, hcode]
  rfl

theorem start_safe {world : World} (closed : world.Closed program reach) {main : Code}
    (hmain : program.main? = some main) (flat : reach 0 = 0) :
    (start main world).Safe program reach := by
  have frame_alive : (Frame.new main.localCount.toNat [] none).Alive world.heap :=
    Frame.alive_new (by simp) (by simp)
  have grows := world.heap.grows_newFrame (.new main.localCount.toNat [] none)
  have reset : world.resetExecution.Closed program reach :=
    ⟨closed.heap, closed.main, closed.globals, closed.constants, closed.procs, closed.methods⟩
  refine ⟨reset.withHeap (closed.heap.newFrame frame_alive) grows fun _ => .inl,
    ⟨⟨main, hmain⟩, rfl, ⟨by simp, ?_, closed.main.mono grows, by simp⟩, ?_⟩, by simp [start]⟩
  · change world.heap.frames.size < (world.heap.frames.push _).size
    simp
  · rw [flat]
    exact Heap.deep_zero _ _

/-- A run of a safe machine ends with an error of the machine itself only if the program
excuses it. -/
theorem run_safe (linked : program.Linked reach) {machine : Machine}
    (h : machine.Safe program reach) {fuel : Nat} {error : RuntimeError} {world : World}
    (result : run program limits fuel machine = .error (.failure error) world)
    (kind : error.kind = .internal) : program.Excuses reach error := by
  fun_induction run program limits fuel machine with
  | case1 => cases result
  | case2 fuel error world =>
      cases result
      exact h.focus kind
  | case3 => cases result
  | case4 fuel machine _ _ ih => exact ih (step_safe linked h) result

/-- Before each operation the operands are as many as the verifier found, and they are no
more than the code object was found to need; and execution never gets stuck. -/
def StackSafe (program : Program) (machine : Machine) : Prop :=
  match machine.focus with
  | .run code ip activation => code ∈ program.code ∧ ∃ heights most,
      Verifier.heights code.ops = .ok heights ∧ code.verify = .ok most ∧
      heights.at? ip = some activation.stack.length ∧ activation.stack.length ≤ most
  | .fail error => ¬error.Malformed
  | _ => True

theorem Safe.stackSafe {machine : Machine} (h : machine.Safe program reach) :
    machine.StackSafe program := by
  obtain ⟨focus, waiting, world⟩ := machine
  cases focus with
  | run code ip activation =>
      obtain ⟨⟨-, position, hcode, -⟩, heights, hheights, hat⟩ := h.focus
      refine ⟨Array.mem_of_getElem? hcode, heights, heights.greatest, hheights, ?_, hat, ?_⟩
      · simp only [Code.verify, hheights]
      · exact Verifier.heights_le_greatest hheights hat
  | fail error => exact fun malformed => (h.focus malformed.1).not_malformed malformed
  | _ => trivial

end Machine

theorem Vm.load_ok {vm loaded : Vm} {program : Program} (h : vm.load program = .ok loaded) :
    program.verify = .ok () ∧ loaded = { vm with program } := by
  unfold Vm.load at h
  split at h
  · exact ⟨‹_›, (Except.ok.inj h).symm⟩
  · cases h

/-- A program that a fresh machine has loaded and that has a script runs from `start`, in
every state that it reaches the operands are as the verifier said, and it never fails for
want of an operand, an operation or a code object. -/
theorem Vm.loaded_stack_safe {limits : Limits} {program : Program} {vm : Vm}
    (loaded : (Vm.new limits).load program = .ok vm) (nonempty : 0 < program.code.size) :
    ∃ main, program.main? = some main ∧
      (∀ fuel, Machine.runMain vm.program vm.limits fuel vm.world =
        Machine.run vm.program vm.limits fuel (Machine.start main vm.world)) ∧
      (∀ count, ((Machine.step vm.program vm.limits)^[count]
        (Machine.start main vm.world)).StackSafe program) ∧
      ∀ fuel error, (vm.runMain fuel).1 = .error (.failure error) → ¬error.Malformed := by
  obtain ⟨verified, rfl⟩ := Vm.load_ok loaded
  have linked := Program.linked_of_verify verified
  have hmain : program.main? = some program.code[0] := Array.getElem?_eq_getElem nonempty
  have safe := @Machine.start_safe program (fun _ => 0) _ World.closed_new _ hmain rfl
  refine ⟨program.code[0], hmain, fun fuel => Machine.runMain_eq hmain fuel _,
    fun count => (Machine.steps_safe linked safe count).stackSafe, ?_⟩
  intro fuel error failed malformed
  simp only [Vm.runMain, Vm.apply, Machine.runMain_eq hmain] at failed
  split at failed
  · cases failed
  · rename_i world hresult
    cases failed
    exact (Machine.run_safe linked safe hresult malformed.1).not_malformed malformed

/-- A script that calls a block twice. -/
def Program.twice : Program where
  code := #[
    { name := "<main>", kind := .script, maxStack := 1
      ops := #[.pushFixnum 2, .send 0 0 true (some 1), .ret] },
    { name := "block", kind := .closure, arity := 1, localCount := 1, maxStack := 1
      ops := #[.getLocal 0, .ret] }]
  constants := ⟨#[.name "times"]⟩

theorem Vm.twice_stack_safe : ∃ main, Program.twice.main? = some main ∧
    ∀ count, ((Machine.step Program.twice {})^[count] (Machine.start main .new)).StackSafe
      Program.twice := by
  have loaded : (Vm.new {}).load Program.twice = .ok ⟨Program.twice, {}, .new⟩ := rfl
  obtain ⟨main, hmain, -, reached, -⟩ := loaded_stack_safe loaded (by decide)
  exact ⟨main, hmain, reached⟩

end BlockScript
