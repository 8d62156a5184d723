import BlockScript.Proofs.Backend.Lexical
import BlockScript.Proofs.Machine.Scope
import BlockScript.Proofs.Node.Plain

/-!
# Closures are lexically scoped

Wherever a block of a compiled program is called from, its activation lies inside the activation
that made the block, which executes the body that the block lies in, and so on outward to the
script or a method. The frames that operations look for locals in are the frames of just these
activations, and self and the block that a yield calls are those of the outermost.
-/

namespace BlockScript

namespace Machine

/-- The machine executes the body for the activation, or waits to go on with it. -/
def Executes (machine : Machine) (code : Code) (now : Activation) : Prop :=
  ∃ ip, machine.focus = .run code ip now ∨ .body code ip now ∈ machine.waiting

/-- What lies around an activation in a run: `around` has it, as it entered its body, and then the
executions that it lies in, so many levels out to the one at the root. -/
structure Scope (program : Program) (trace : Nat → Machine) (count : Nat) (now : Activation)
    (position root : UInt32) (depth : Nat) (around : Nat → Execution) : Prop where
  innermost : (around 0).1 = position ∧ (around 0).2.Same now
  outermost : (around depth).1 = root
  entered : ∀ level ≤ depth, Entered trace count (around level)
  created : ∀ level < depth, ∃ cell,
    Made program trace count (around (level + 1)) (around level).1 cell
  frames : ∀ level ≤ depth,
    (trace count).world.heap.ancestor? level now.frame = some (around level).2.frame
  no_more : (trace count).world.heap.ancestor? (depth + 1) now.frame = none
  self : now.self = (around depth).2.self
  block : now.block = (around depth).2.block

variable {program : Program} {trace : Nat → Machine} {count : Nat} {heap : Heap}

theorem parent_eq {cell : Ref .frame} {parent : Option (Ref .frame)} (h : heap.Parent cell parent) :
    (heap.frame cell).parent = parent := by
  obtain ⟨frame, found, rfl⟩ := h
  rw [Heap.frame, Array.getD_eq_getD_getElem?, found]
  rfl

/-- Executions that lie in each other, level by level. -/
theorem Inside.levels {lineage : UInt32 → Lineage} (nested : program.Nested lineage)
    {execution : Execution} {outer : List Execution}
    (h : Inside program trace count heap (execution :: outer)) :
    ∃ (depth : Nat) (root : UInt32) (around : Nat → Execution),
      program.Lies execution.1 depth root ∧ around 0 = execution ∧ (around depth).1 = root ∧
      (∀ level ≤ depth, Entered trace count (around level)) ∧
      (∀ level < depth, ∃ cell,
        Made program trace count (around (level + 1)) (around level).1 cell) ∧
      (∀ level ≤ depth, heap.ancestor? level execution.2.frame = some (around level).2.frame) ∧
      heap.ancestor? (depth + 1) execution.2.frame = none ∧
      execution.2.self = (around depth).2.self ∧ execution.2.block = (around depth).2.block := by
  generalize same : execution :: outer = executions at h
  induction h generalizing execution outer with
  | @root here code entered found kind outermost =>
      cases same
      refine ⟨0, here.1, fun _ => here, .root found kind, rfl, rfl, fun _ _ => entered,
        nofun, ?_, ?_, rfl, rfl⟩
      · intro level le
        cases Nat.le_zero.mp le
        rfl
      · simp only [Heap.ancestor?, parent_eq outermost]
  | @block here next _ _ entered inside made parent self block ih =>
      cases same
      obtain ⟨depth, root, around, lies, innermost, outermost, all, created, frames, no_more, self',
        block'⟩ := ih rfl
      have encloses : program.Encloses next.1 here.1 := by
        obtain ⟨i, -, ⟨code, ip, now, op, -, found, -, hop, makes⟩, -⟩ := made
        exact ⟨code, found, op, Array.mem_of_getElem? hop, makes⟩
      obtain ⟨-, body, found, kind⟩ := nested.enclosed encloses
      refine ⟨depth + 1, root, fun level => level.casesOn here around,
        .inside found kind encloses lies, rfl, outermost, ?_, ?_, ?_, ?_, self.trans self',
        block.trans block'⟩
      · intro level le
        cases level with
        | zero => exact entered
        | succ level => exact all level (Nat.le_of_succ_le_succ le)
      · intro level lt
        cases level with
        | zero => exact ⟨_, innermost ▸ made⟩
        | succ level => exact created level (Nat.lt_of_succ_lt_succ lt)
      · intro level le
        cases level with
        | zero => rfl
        | succ level =>
            simp only [Heap.ancestor?, parent_eq parent]
            exact frames level (Nat.le_of_succ_le_succ le)
      · simp only [Heap.ancestor?, parent_eq parent]
        exact no_more

/-- Every activation of a housed machine has its scope. -/
theorem Housed.scope {lineage : UInt32 → Lineage} (nested : program.Nested lineage)
    (h : Housed program trace count (trace count)) {code : Code} {now : Activation}
    (executes : (trace count).Executes code now) :
    ∃ position depth root around, program.code? position = some code ∧
      program.Lies position depth root ∧
      Scope program trace count now position root depth around := by
  have lives : Lives program trace count (trace count).world.heap code now := by
    obtain ⟨ip, focus | waits⟩ := executes
    · exact h.running code ip now focus
    · exact h.waiting code ip now waits
  obtain ⟨execution, outer, found, same, inside⟩ := lives
  obtain ⟨depth, root, around, lies, innermost, outermost, entered, created, frames, no_more, self,
    block⟩ := inside.levels nested
  refine ⟨execution.1, depth, root, around, found, lies, ⟨by rw [innermost], innermost ▸ same⟩,
    outermost, entered, created, ?_, ?_, same.self.trans self, same.block.trans block⟩
  · rw [same.frame]
    exact frames
  · rw [same.frame]
    exact no_more

end Machine

/-- In every state that a compiled program tree reaches, each activation that executes or waits
executes a body at a place of its own inside a script or method body, lies in the activations that
have made the blocks on the way, and sees their frames, and no more, in this order; its self and
block are those of the activation at the root. Only bodies that lie in a method yield. -/
theorem Vm.closures_lexically_scoped {node : Node} {owner : Nat} {session : Session Recorder Notes}
    (compiled : (node.program : Action Empty).run (Recorder.contract Notes) Empty.elim
      (Recorder.new .strict owner {}) = .ok () session)
    {program : Program} (finished : Recorder.program session = .ok program) {limits : Limits}
    {vm : Vm} (loaded : (Vm.new limits).load program = .ok vm) {main : Code}
    (script : program.main? = some main) :
    let trace count := (Machine.step vm.program vm.limits)^[count] (Machine.start main vm.world)
    (∀ count code now, (trace count).Executes code now → ∃ position depth root around,
      program.code? position = some code ∧ program.Lies position depth root ∧
        Machine.Scope program trace count now position root depth around) ∧
    (∀ outer other inner, program.Encloses outer inner → program.Encloses other inner →
      outer = other) ∧
    ∀ position depth root, program.Lies position depth root →
      (∀ depth' root', program.Lies position depth' root' → depth' = depth ∧ root' = root) ∧
      ∀ code argc, program.code? position = some code → .yield argc ∈ code.ops →
        ∃ body, program.code? root = some body ∧ body.kind = .method := by
  have straight : (node.program : Action Empty).Straight :=
    ⟨trivial, (Node.plain_action node).straight, trivial⟩
  obtain ⟨lineage, nested⟩ := Recorder.recorded_nested straight compiled finished
  obtain ⟨-, rfl⟩ := Vm.load_ok loaded
  intro trace
  have next (count : Nat) : trace (count + 1) = Machine.step program limits (trace count) :=
    Function.iterate_succ_apply' ..
  have housed := Machine.housed_steps nested next (Machine.housed_start nested script rfl)
  refine ⟨fun count code now => (housed count).scope nested,
    fun outer other inner => nested.encloses_unique, fun position depth root lies => ⟨?_, ?_⟩⟩
  · intro depth' root' lies'
    exact nested.lies_unique lies' lies
  · intro code argc found yields
    exact nested.yields_in_method found yields lies

/-- A method that calls its block in a block of its own, and a call of it. -/
def Node.yielder : Node :=
  .seq [
    .method "m" 0 0 (.callBlock (some (.fixnum 1)) "times" [] (.ofBlock []) 0 (.yield none)),
    .callBlock none "m" [] (.ofBlock []) 0 .selfRef]

/-- What is compiled for it. -/
def Program.yielder : Program where
  code := #[
    { name := "<main>", kind := .script, maxStack := 1
      ops := #[.defineMethod 1 1, .pushNil, .pop, .send 1 0 false (some 3), .ret] },
    { name := "m", kind := .method, maxStack := 1
      ops := #[.pushFixnum 1, .send 0 0 true (some 2), .ret] },
    { name := "block in m", kind := .closure, maxStack := 1, ops := #[.yield 0, .ret] },
    { name := "block in <main>", kind := .closure, maxStack := 1, ops := #[.pushSelf, .ret] }]
  constants := ⟨#[.name "times", .name "m"]⟩

/-- After ten steps the block in the method is about to yield. -/
theorem Vm.yielder_scoped :
    let main := Program.yielder.code[0]
    let trace count := (Machine.step Program.yielder {})^[count] (Machine.start main .new)
    ∃ now position depth root around body,
      (trace 10).focus = .run Program.yielder.code[2] 0 now ∧
      Program.yielder.code? position = some Program.yielder.code[2] ∧
      Machine.Scope Program.yielder trace 10 now position root depth around ∧
      Program.yielder.code? root = some body ∧ body.kind = .method := by
  intro main trace
  have outcome : Recorder.recorded? ((Node.yielder.program : Action Empty).run
      (Recorder.contract Notes) Empty.elim) (Recorder.new .strict 0 {}) = some Program.yielder := by
    decide +kernel
  obtain ⟨value, session, compiled, finished⟩ := Recorder.run_of_recorded? outcome
  have loaded : (Vm.new {}).load Program.yielder = .ok ⟨Program.yielder, {}, .new⟩ := rfl
  obtain ⟨inside, -, places⟩ := closures_lexically_scoped compiled finished loaded rfl
  have focus : (trace 10).focus = .run Program.yielder.code[2] 0
      { frame := ⟨2⟩, self := World.main, block := some ⟨0⟩ } := by decide +kernel
  obtain ⟨position, depth, root, around, found, lies, scope⟩ := inside 10 _ _ ⟨0, .inl focus⟩
  obtain ⟨body, here, kind⟩ := (places position depth root lies).2 _ 0 found (by decide +kernel)
  exact ⟨_, position, depth, root, around, body, focus, found, scope, here, kind⟩

end BlockScript
