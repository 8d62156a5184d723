import BlockScript.Proofs.Code.Lineage
import BlockScript.Proofs.Machine.Completed
import BlockScript.Proofs.Machine.Related

/-!
# Which activations lie around an activation

In a run of a nested program, the activation of a block lies inside the activation that made the
block, and that inside another, out to the activation of a script or method body. `Inside` is this
nesting, with the frames that go along with it. A machine is housed if all its activations are
nested so, if all its blocks were made by activations that are, and if all its methods are bodies
of methods. A step keeps it housed: a body is only entered as a method, with a frame of its own, or
as a block, with a frame inside that of the activation that made the block.
-/

namespace BlockScript

/-! ## Heaps only grow -/

theorem Run.Effect.grows {program : Program} {known : Value → Prop} {world after : World}
    {reply : Reply} (h : Effect program known world reply after) : world.heap.Grows after.heap := by
  cases h with
  | found | symbol | printed | loop => exact .refl _
  | string => exact world.heap.grows_newString _
  | array | printedArray => exact world.heap.grows_newArray _
  | @bignum n large => exact world.heap.grows_newBignum n
  | object => exact world.heap.grows_newObject _
  | text => exact world.heap.grows_modifyString _ _
  | elements => exact world.heap.grows_modifyArray _ _
  | method | block => exact world.heap.grows_newFrame _

/-- An answer makes no block. -/
theorem Run.Effect.procs {program : Program} {known : Value → Prop} {world after : World}
    {reply : Reply} (h : Effect program known world reply after) :
    after.heap.procs = world.heap.procs := by
  cases h <;> rfl

theorem World.Stores.grows {program : Program} {known : Value → Prop} {op : Op}
    {world after : World} (h : world.Stores program known op after) :
    world.heap.Grows after.heap := by
  cases h with
  | slot => exact world.heap.grows_setLocal _ _ _
  | ivar => exact world.heap.grows_setIvar _ _ _
  | _ => exact .refl _

/-- Whatever the program, its steps only add to the heap. -/
theorem Program.relates_grows (program : Program) :
    program.Relates fun world after => world.heap.Grows after.heap where
  refl _ := .refl _
  trans := .trans
  counts _ _ _ := .refl _
  answers := Run.Effect.grows
  stores := World.Stores.grows
  frames world frame := world.heap.grows_newFrame frame
  closes world _ _ _ _ := world.heap.grows_newProc _

/-! ## Activations and what lies around them -/

/-- The activation later on: only its operands may be others. -/
structure Activation.Same (activation now : Activation) : Prop where
  frame : now.frame = activation.frame
  self : now.self = activation.self
  block : now.block = activation.block

theorem Activation.Same.close {activation now : Activation} (h : activation.Same now)
    (position : UInt32) (body : Code) : now.close position body = activation.close position body := by
  unfold Activation.close
  rw [h.frame, h.self, h.block]

/-- The frame has this parent, or none. -/
def Heap.Parent (heap : Heap) (cell : Ref .frame) (parent : Option (Ref .frame)) : Prop :=
  ∃ frame, heap.frames[cell.index]? = some frame ∧ frame.parent = parent

/-- A body and an activation that has entered it. -/
abbrev Execution := UInt32 × Activation

namespace Machine

/-- The execution makes a block of the body at `inner`: it executes an operation that does, and
afterwards the block is in a cell that is new. -/
structure Makes (program : Program) (machine after : Machine) (execution : Execution)
    (inner : UInt32) (cell : Ref .proc) : Prop where
  operation : ∃ code ip now op, machine.focus = .run code ip now ∧
    program.code? execution.1 = some code ∧ execution.2.Same now ∧ code.ops[ip]? = some op ∧
    op.closure? = some inner
  new : machine.world.heap.proc? cell = none
  made : ∃ body, program.code? inner = some body ∧
    after.world.heap.proc? cell = some (execution.2.close inner body)

section Trace

variable (program : Program) (trace : Nat → Machine)

/-- The body was entered with the activation before long. -/
def Entered (count : Nat) (execution : Execution) : Prop :=
  ∃ i ≤ count, (trace i).focus = .enter execution.1 execution.2

/-- The execution has made the block in the cell. -/
def Made (count : Nat) (execution : Execution) (inner : UInt32) (cell : Ref .proc) : Prop :=
  ∃ i < count, (trace i).Makes program (trace (i + 1)) execution inner cell

/-- Executions each of which lies in the next, out to one of a script or method body. Each but the
last is one of a block that the next has made, with a frame inside that of the next. -/
inductive Inside (count : Nat) (heap : Heap) : List Execution → Prop where
  | root {execution : Execution} {code : Code} (entered : Entered trace count execution)
      (found : program.code? execution.1 = some code) (kind : code.kind ≠ .closure)
      (outermost : heap.Parent execution.2.frame none) : Inside count heap [execution]
  | block {execution around : Execution} {outer : List Execution} {cell : Ref .proc}
      (entered : Entered trace count execution) (inside : Inside count heap (around :: outer))
      (made : Made program trace count around execution.1 cell)
      (parent : heap.Parent execution.2.frame (some around.2.frame))
      (self : execution.2.self = around.2.self) (block : execution.2.block = around.2.block) :
      Inside count heap (execution :: around :: outer)

/-- The operations of a body are executed for an activation that lies in others. -/
def Lives (count : Nat) (heap : Heap) (code : Code) (now : Activation) : Prop :=
  ∃ execution outer, program.code? execution.1 = some code ∧ execution.2.Same now ∧
    Inside program trace count heap (execution :: outer)

/-- Blocks were made by activations that lie in others, and methods are bodies of methods. -/
structure Shelters (count : Nat) (world : World) : Prop where
  blocks : ∀ cell proc, world.heap.proc? cell = some proc → ∃ around outer body,
    Inside program trace count world.heap (around :: outer) ∧
      Made program trace count around proc.code cell ∧ proc = around.2.close proc.code body
  methods : ∀ name position arity code,
    world.methods.get? name = some (.compiled position arity) →
      program.code? position = some code → code.kind ≠ .closure

/-- All activations of the machine lie in others, and so do those that made its blocks. -/
structure Housed (count : Nat) (machine : Machine) : Prop where
  world : Shelters program trace count machine.world
  entering : ∀ position activation, machine.focus = .enter position activation →
    ∃ outer, Inside program trace count machine.world.heap ((position, activation) :: outer)
  running : ∀ code ip now, machine.focus = .run code ip now →
    Lives program trace count machine.world.heap code now
  waiting : ∀ code ip now, .body code ip now ∈ machine.waiting →
    Lives program trace count machine.world.heap code now

end Trace

variable {program : Program} {trace : Nat → Machine} {count later : Nat} {heap heap' : Heap}

/-! ## Time passes -/

theorem Entered.mono {execution : Execution} (h : Entered trace count execution)
    (le : count ≤ later) : Entered trace later execution := by
  obtain ⟨i, before, entered⟩ := h
  exact ⟨i, Nat.le_trans before le, entered⟩

theorem Made.mono {execution : Execution} {inner : UInt32} {cell : Ref .proc}
    (h : Made program trace count execution inner cell) (le : count ≤ later) :
    Made program trace later execution inner cell := by
  obtain ⟨i, before, made⟩ := h
  exact ⟨i, Nat.lt_of_lt_of_le before le, made⟩

theorem Parent.mono {cell : Ref .frame} {parent : Option (Ref .frame)}
    (h : heap.Parent cell parent) (grows : heap.Grows heap') : heap'.Parent cell parent := by
  obtain ⟨frame, found, rfl⟩ := h
  exact grows.frames cell.index frame found

theorem Inside.mono {executions : List Execution} (h : Inside program trace count heap executions)
    (le : count ≤ later) (grows : heap.Grows heap') :
    Inside program trace later heap' executions := by
  induction h with
  | root entered found kind outermost =>
      exact .root (entered.mono le) found kind (Parent.mono outermost grows)
  | block entered _ made parent self block ih =>
      exact .block (entered.mono le) ih (made.mono le) (Parent.mono parent grows) self block

theorem Lives.mono {code : Code} {now : Activation} (h : Lives program trace count heap code now)
    (le : count ≤ later) (grows : heap.Grows heap') : Lives program trace later heap' code now := by
  obtain ⟨execution, outer, found, same, inside⟩ := h
  exact ⟨execution, outer, found, same, inside.mono le grows⟩

/-- Operands come and go. -/
theorem Lives.same {code : Code} {now later : Activation}
    (h : Lives program trace count heap code now) (same : now.Same later) :
    Lives program trace count heap code later := by
  obtain ⟨execution, outer, found, before, inside⟩ := h
  exact ⟨execution, outer, found, ⟨same.frame.trans before.frame, same.self.trans before.self,
    same.block.trans before.block⟩, inside⟩

/-- A change of the world that adds no block and no method. -/
theorem Shelters.mono {world after : World} (h : Shelters program trace count world)
    (le : count ≤ later) (grows : world.heap.Grows after.heap)
    (procs : after.heap.procs = world.heap.procs) (methods : after.methods = world.methods) :
    Shelters program trace later after where
  blocks cell proc found := by
    rw [Heap.proc?, procs] at found
    obtain ⟨around, outer, body, inside, made, same⟩ := h.blocks cell proc found
    exact ⟨around, outer, body, inside.mono le grows, made.mono le, same⟩
  methods name position arity code bound := by
    rw [methods] at bound
    exact h.methods name position arity code bound

/-! ## Answers -/

theorem Shelters.answered {world after : World} {known : Value → Prop} {reply : Reply}
    (h : Shelters program trace count world) (effect : Run.Effect program known world reply after) :
    Shelters program trace count after :=
  h.mono (Nat.le_refl _) effect.grows (by cases effect <;> rfl) (by cases effect <;> rfl)

/-- A frame that was just made. -/
theorem parent_newFrame (heap : Heap) (localCount : Nat) (args : List Value)
    (parent : Option (Ref .frame)) :
    (heap.newFrame (.new localCount args parent)).2.Parent
      (heap.newFrame (.new localCount args parent)).1 parent := by
  refine ⟨.new localCount args parent, ?_, rfl⟩
  simp [Heap.newFrame]

/-- A body that an answer enters is one of a method, or of a block that was made by an activation
that lies in others. -/
theorem Shelters.enters {world after : World} {known : Value → Prop} {position : UInt32}
    {activation : Activation} (h : Shelters program trace count world)
    (effect : Run.Effect program known world (.enter position activation) after)
    (entered : Entered trace count (position, activation)) :
    ∃ outer, Inside program trace count after.heap ((position, activation) :: outer) := by
  have grows := effect.grows
  cases effect with
  | method bound code =>
      exact ⟨[], .root entered code (h.methods _ _ _ _ bound code) (parent_newFrame ..)⟩
  | block made code =>
      obtain ⟨around, outer, body, inside, makes, same⟩ := h.blocks _ _ made
      refine ⟨around :: outer, .block entered (inside.mono (Nat.le_refl _) grows) makes ?_ ?_ ?_⟩
      · rw [same]
        exact parent_newFrame ..
      · rw [same]
        rfl
      · rw [same]
        rfl

/-! ## Blocks that are made -/

theorem Shelters.addProc {world : World} {code body : Code} {now : Activation} {position : UInt32}
    (h : Shelters program trace count world) (lives : Lives program trace count world.heap code now)
    (makes : ∀ execution : Execution, program.code? execution.1 = some code →
      execution.2.Same now → Made program trace (count + 1) execution position world.nextProc) :
    Shelters program trace (count + 1) (world.addProc (now.close position body)) where
  blocks cell proc found := by
    have grows := world.heap.grows_newProc (now.close position body)
    have le := Nat.le_succ count
    have pushed : (world.heap.procs.push (now.close position body))[cell.index]? = some proc := found
    rw [Array.getElem?_push] at pushed
    split at pushed
    · rename_i last
      cases pushed
      obtain ⟨execution, outer, here, same, inside⟩ := lives
      have cell_eq : cell = world.nextProc := congrArg Ref.mk last
      refine ⟨execution, outer, body, inside.mono le grows, cell_eq ▸ makes execution here same, ?_⟩
      exact same.close position body
    · obtain ⟨around, outer, body, inside, made, same⟩ := h.blocks cell proc pushed
      exact ⟨around, outer, body, inside.mono le grows, made.mono le, same⟩
  methods := h.methods

/-- The executed operation made a block, which is still there after the step. -/
theorem made_here {machine : Machine} {code body : Code} {ip : Nat} {now : Activation} {op : Op}
    {position : UInt32} (focus : machine.focus = .run code ip now) (here : trace count = machine)
    (hop : code.ops[ip]? = some op) (block : op.closure? = some position)
    (found : program.code? position = some body)
    (procs : (trace (count + 1)).world.heap.procs =
      machine.world.heap.procs.push (now.close position body))
    (execution : Execution) (body_found : program.code? execution.1 = some code)
    (same : execution.2.Same now) :
    Made program trace (count + 1) execution position machine.world.nextProc := by
  subst here
  refine ⟨count, Nat.lt_succ_self _, ⟨code, ip, now, op, focus, body_found, same, hop, block⟩, ?_,
    body, found, ?_⟩
  · simp [Heap.proc?, World.nextProc]
  · rw [Heap.proc?, procs, ← same.close]
    simp [World.nextProc]

/-- A method is only defined as a method body. -/
theorem Shelters.stored {lineage : UInt32 → Lineage} (nested : program.Nested lineage)
    {world after : World} {known : Value → Prop} {op : Op} {code : Code} {position : UInt32}
    (h : Shelters program trace count world) (found : program.code? position = some code)
    (member : op ∈ code.ops) (stored : world.Stores program known op after) :
    Shelters program trace count after := by
  have le := Nat.le_refl count
  have grows := stored.grows
  cases stored with
  | method name defines here =>
      refine ⟨h.blocks, fun other position' arity body bound found' => ?_⟩
      rw [Table.get?_set] at bound
      split at bound
      · cases bound
        rw [nested.method_of_defines found (defines ▸ member) found']
        exact UnitKind.noConfusion
      · exact h.methods other position' arity body bound found'
  | renamed name bound =>
      refine ⟨h.blocks, fun other position' arity body bound' found' => ?_⟩
      rw [Table.get?_set] at bound'
      split at bound'
      · cases bound'
        exact h.methods _ _ _ body bound found'
      · exact h.methods other position' arity body bound' found'
  | builtin name old =>
      refine ⟨h.blocks, fun other position' arity body bound found' => ?_⟩
      rw [Table.get?_set] at bound
      split at bound
      · cases bound
      · exact h.methods other position' arity body bound found'
  | _ => exact h.mono le grows rfl rfl

/-- What an operation leaves when it was executed. -/
theorem Shelters.performed {lineage : UInt32 → Lineage} (nested : program.Nested lineage)
    {machine : Machine} {code : Code} {ip : Nat} {now activation : Activation} {op : Op}
    {known : Value → Prop} {flow : Flow} {after : World}
    (h : Shelters program trace count machine.world)
    (focus : machine.focus = .run code ip now) (here : trace count = machine)
    (lives : Lives program trace count machine.world.heap code now) (hop : code.ops[ip]? = some op)
    (effect : Exec.Effect program known op now machine.world.count flow activation after)
    (procs : (trace (count + 1)).world.heap.procs = after.heap.procs) :
    Shelters program trace (count + 1) after ∧ now.Same activation ∧
      ∀ position callee, flow = .enter position callee →
        Entered trace (count + 1) (position, callee) →
          ∃ outer, Inside program trace (count + 1) after.heap ((position, callee) :: outer) := by
  have later : Shelters program trace (count + 1) machine.world.count :=
    h.mono (Nat.le_succ count) (.refl _) rfl rfl
  have entering {reply : Reply} {world : World} {known : Value → Prop}
      (shelters : Shelters program trace (count + 1) world)
      (effect : Run.Effect program known world reply after) :
      ∀ position callee, reply.flow = .enter position callee →
        Entered trace (count + 1) (position, callee) →
          ∃ outer, Inside program trace (count + 1) after.heap ((position, callee) :: outer) := by
    intro position callee flows entered
    cases reply <;> cases flows
    exact shelters.enters effect entered
  cases effect with
  | moves control all =>
      refine ⟨later, ⟨rfl, rfl, rfl⟩, ?_⟩
      rintro position callee rfl
      exact control.elim
  | stores all stored =>
      obtain ⟨execution, outer, found, -, -⟩ := lives
      exact ⟨later.stored nested found (Array.mem_of_getElem? hop) stored, ⟨rfl, rfl, rfl⟩, nofun⟩
  | answers all effect => exact ⟨later.answered effect, ⟨rfl, rfl, rfl⟩, entering later effect⟩
  | closes all block found =>
      have makes := made_here focus here hop block found procs
      exact ⟨h.addProc lives makes |>.mono (Nat.le_refl _) (.refl _) rfl rfl, ⟨rfl, rfl, rfl⟩, nofun⟩
  | @closesAndAnswers stack position body reply after all block found effect =>
      have makes := made_here focus here hop block found (procs.trans effect.procs)
      have added : Shelters program trace (count + 1)
          (machine.world.count.addProc (now.close position body)) :=
        (h.addProc lives makes).mono (Nat.le_refl _) (.refl _) rfl rfl
      exact ⟨added.answered effect, ⟨rfl, rfl, rfl⟩, entering added effect⟩

/-! ## Steps -/

section Step

variable {lineage : UInt32 → Lineage} (nested : program.Nested lineage) {limits : Limits}
  (next : trace (count + 1) = step program limits (trace count))

/-- No body is entered or run. -/
def Idle (machine : Machine) : Prop :=
  match machine.focus with
  | .enter _ _ | .run _ _ _ => False
  | _ => True

/-- Without a body that is entered or run, the others are all that matters. -/
theorem Housed.rests {machine : Machine} (world : Shelters program trace count machine.world)
    (idle : machine.Idle)
    (waiting : ∀ code ip now, .body code ip now ∈ machine.waiting →
      Lives program trace count machine.world.heap code now) :
    Housed program trace count machine := by
  unfold Idle at idle
  refine ⟨world, fun position activation focus => ?_, fun code ip now focus => ?_, waiting⟩ <;>
  · rw [focus] at idle
    exact idle.elim

/-- Where control goes after an operation. -/
theorem housed_follow {code : Code} {ip : Nat} {flow : Flow} {activation : Activation}
    {waiting : List Waiting} {world : World} (shelters : Shelters program trace count world)
    (lives : Lives program trace count world.heap code activation)
    (entering : ∀ position callee, flow = .enter position callee →
      ∃ outer, Inside program trace count world.heap ((position, callee) :: outer))
    (rest : ∀ code ip now, .body code ip now ∈ waiting →
      Lives program trace count world.heap code now) :
    Housed program trace count (follow code ip flow activation waiting world) := by
  have ended : Shelters program trace count world.endCall :=
    shelters.mono (Nat.le_refl _) (.refl _) rfl rfl
  have inner : ∀ code' ip' now, .body code' ip' now ∈ .body code ip activation :: waiting →
      Lives program trace count world.heap code' now := by
    intro code' ip' now member
    rcases List.mem_cons.mp member with same | member
    · cases same
      exact lives
    · exact rest code' ip' now member
  cases flow with
  | next =>
      refine ⟨shelters, nofun, ?_, rest⟩
      rintro _ _ _ ⟨rfl⟩
      exact lives
  | jump offset =>
      unfold follow
      dsimp only
      split
      · refine ⟨shelters, nofun, ?_, rest⟩
        rintro _ _ _ ⟨rfl⟩
        exact lives
      · exact .rests ended trivial rest
  | ret value => exact .rests ended trivial rest
  | enter position callee =>
      refine ⟨shelters, ?_, nofun, inner⟩
      rintro _ _ ⟨rfl⟩
      exact entering position callee rfl
  | iterate loop => exact .rests shelters trivial inner

include next

include nested in
theorem housed_advance {code : Code} {ip : Nat} {now : Activation} {waiting : List Waiting}
    {world : World} (here : trace count = ⟨.run code ip now, waiting, world⟩)
    (h : Housed program trace count (trace count)) :
    Housed program trace (count + 1) (trace (count + 1)) := by
  have le := Nat.le_succ count
  rw [here] at h
  have lives := h.running code ip now rfl
  have rest {after : World} (grows : world.heap.Grows after.heap) :
      ∀ code ip now, .body code ip now ∈ waiting →
        Lives program trace (count + 1) after.heap code now :=
    fun code ip now member => (h.waiting code ip now member).mono le grows
  have ended {after : World} (shelters : Shelters program trace (count + 1) after) :
      Shelters program trace (count + 1) after.endCall :=
    shelters.mono (Nat.le_refl _) (.refl _) rfl rfl
  have kept : Shelters program trace (count + 1) world.count :=
    h.world.mono le (.refl _) rfl rfl
  have stepped : trace (count + 1) = advance program limits code ip now waiting world := by
    rw [next, here]
    rfl
  unfold advance at stepped
  split at stepped
  · rw [stepped]
    exact .rests (ended (h.world.mono le (.refl _) rfl rfl)) trivial (rest (.refl _))
  · rename_i op hop
    dsimp only at stepped
    split at stepped
    · rw [stepped]
      exact .rests (ended kept) trivial (rest (.refl _))
    · have performed := @Exec.acts_perform program _ now _ world.count.knows_any now.all_any op
      split at stepped
      · rename_i flow activation after run
        have effect := performed.ok run
        have procs : (trace (count + 1)).world.heap.procs = after.heap.procs := by
          rw [stepped, follow_heap]
        obtain ⟨shelters, same, entering⟩ :=
          h.world.performed nested rfl here lives hop effect procs
        have grows : world.heap.Grows after.heap := effect.related program.relates_grows
        have entered (position : UInt32) (callee : Activation)
            (flows : flow = .enter position callee) :
            Entered trace (count + 1) (position, callee) := by
          refine ⟨count + 1, Nat.le_refl _, ?_⟩
          rw [stepped, flows]
          rfl
        rw [stepped]
        exact housed_follow shelters ((lives.mono le grows).same same)
          (fun position callee flows => entering position callee flows (entered _ _ flows))
          (rest grows)
      · rename_i error activation after run
        have left := performed.error run
        have shelters : Shelters program trace (count + 1) after := by
          cases left with
          | same => exact kept
          | closed block found =>
              have procs : (trace (count + 1)).world.heap.procs =
                  world.heap.procs.push (now.close _ _) := congrArg (·.world.heap.procs) stepped
              exact (h.world.addProc lives (made_here rfl here hop block found procs)).mono
                (Nat.le_refl _) (.refl _) rfl rfl
        rw [stepped]
        exact .rests (ended shelters) trivial (rest (left.related program.relates_grows))

/-- One more pass of a loop enters its block, or the loop gives its result. -/
theorem housed_iterate {loop : BlockLoop} {waiting : List Waiting} {world : World}
    (here : trace count = ⟨.iterate loop, waiting, world⟩)
    (h : Housed program trace count (trace count)) :
    Housed program trace (count + 1) (trace (count + 1)) := by
  have le := Nat.le_succ count
  rw [here] at h
  have kept : Shelters program trace (count + 1) world := h.world.mono le (.refl _) rfl rfl
  have rest {after : World} (grows : world.heap.Grows after.heap) :
      ∀ code ip now, .body code ip now ∈ waiting →
        Lives program trace (count + 1) after.heap code now :=
    fun code ip now member => (h.waiting code ip now member).mono le grows
  have stepped : trace (count + 1) = iterate program loop waiting world := by
    rw [next, here]
    rfl
  unfold iterate at stepped
  split at stepped
  · rename_i block argument remaining _
    have entered := @Run.ends_enterBlock program _ world world.knows_any block [argument]
      fun _ _ => trivial
    split at stepped
    · rename_i position activation after run
      have effect := entered.ok run
      have inside := kept.enters effect ⟨count + 1, Nat.le_refl _, by rw [stepped]⟩
      rw [stepped]
      refine ⟨kept.answered effect, ?_, nofun, ?_⟩
      · rintro _ _ ⟨rfl⟩
        exact inside
      · intro code ip now member
        rcases List.mem_cons.mp member with same | member
        · cases same
        · exact rest effect.grows code ip now member
    · rename_i run
      cases entered.error run
      rw [stepped]
      exact .rests kept trivial (rest (.refl _))
  · have made := loop.all_any.made_result program world
    split at stepped
    · rename_i run
      rw [stepped]
      exact .rests (kept.answered (made.ok run)) trivial (rest (made.ok run).grows)
    · rename_i run
      cases made.error run
      rw [stepped]
      exact .rests kept trivial (rest (.refl _))

include nested in
/-- A step keeps the machine housed. -/
theorem housed_step (h : Housed program trace count (trace count)) :
    Housed program trace (count + 1) (trace (count + 1)) := by
  have le := Nat.le_succ count
  rcases here : trace count with ⟨focus, waiting, world⟩
  have stepped : trace (count + 1) = step program limits ⟨focus, waiting, world⟩ := by
    rw [next, here]
  have whole := h
  rw [here] at h
  have kept {after : World} (grows : world.heap.Grows after.heap)
      (procs : after.heap.procs = world.heap.procs) (methods : after.methods = world.methods) :
      Shelters program trace (count + 1) after := h.world.mono le grows procs methods
  have rest : ∀ code ip now, .body code ip now ∈ waiting →
      Lives program trace (count + 1) world.heap code now :=
    fun code ip now member => (h.waiting code ip now member).mono le (.refl _)
  cases focus with
  | enter position activation =>
      rw [stepped]
      simp only [step, enter]
      split
      · exact .rests (kept (.refl _) rfl rfl) trivial rest
      · split
        · exact .rests (kept (.refl _) rfl rfl) trivial rest
        · rename_i code found
          obtain ⟨outer, inside⟩ := h.entering position activation rfl
          refine ⟨kept (.refl _) rfl rfl, (by rintro _ _ ⟨⟩), ?_, rest⟩
          rintro _ _ _ ⟨rfl⟩
          exact ⟨(position, activation), outer, found, ⟨rfl, rfl, rfl⟩, inside.mono le (.refl _)⟩
  | run code ip now => exact housed_advance nested next here whole
  | iterate loop => exact housed_iterate next here whole
  | give value =>
      rw [stepped]
      cases waiting with
      | nil => exact .rests (kept (.refl _) rfl rfl) trivial rest
      | cons first others =>
          have others_live := fun code ip now member =>
            rest code ip now (List.mem_cons_of_mem first member)
          cases first with
          | loop loop => exact .rests (kept (.refl _) rfl rfl) trivial others_live
          | body code ip activation =>
              refine ⟨kept (.refl _) rfl rfl, (by rintro _ _ ⟨⟩), ?_, others_live⟩
              rintro _ _ _ ⟨rfl⟩
              exact (rest code ip activation (List.mem_cons_self ..)).same ⟨rfl, rfl, rfl⟩
  | fail error =>
      rw [stepped]
      cases waiting with
      | nil => exact .rests (kept (.refl _) rfl rfl) trivial rest
      | cons first others =>
          have others_live := fun code ip now member =>
            rest code ip now (List.mem_cons_of_mem first member)
          cases first <;> exact .rests (kept (.refl _) rfl rfl) trivial others_live

end Step

/-- Every machine of a run is housed if the first one is. -/
theorem housed_steps {lineage : UInt32 → Lineage} (nested : program.Nested lineage)
    {limits : Limits} (next : ∀ count, trace (count + 1) = step program limits (trace count))
    (first : Housed program trace 0 (trace 0)) (count : Nat) :
    Housed program trace count (trace count) := by
  induction count with
  | zero => exact first
  | succ count ih => exact housed_step nested (next count) ih

/-- The script is entered first, when there is no block and no method. -/
theorem housed_start {lineage : UInt32 → Lineage} (nested : program.Nested lineage) {main : Code}
    (script : program.main? = some main) (begins : trace 0 = start main .new) :
    Housed program trace 0 (trace 0) := by
  have found : program.code? 0 = some main := script
  rw [begins]
  refine ⟨⟨?_, ?_⟩, ?_, nofun, nofun⟩
  · intro cell proc found
    cases found
  · intro name position arity code bound
    cases bound
  · rintro _ _ ⟨rfl⟩
    refine ⟨[], .root ⟨0, Nat.le_refl _, ?_⟩ found ?_ ⟨.new main.localCount.toNat [] none, ?_, rfl⟩⟩
    · rw [begins]
      rfl
    · rw [nested.main main script]
      exact UnitKind.noConfusion
    · rfl

end Machine

end BlockScript
