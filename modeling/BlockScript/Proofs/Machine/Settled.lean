import Mathlib.Order.Lattice.Nat
import BlockScript.Proofs.Machine.Completed

/-!
# Settled code

A position of a code table is settled for a number of frames when it holds a finished code
object that needs no more of them around its own, and every position that the code object
refers to is settled for what it finds there. References lead to code that was finished
earlier, so this is an inductive property, and it only depends on what the table holds at the
positions that can be reached. When equal code objects share a position, the position is
settled for the least number of frames that any of their users offers.

A program whose positions are all settled is linked, with that least number as the reach of a
position, and a world that refers to settled positions is closed for it.
-/

namespace BlockScript

namespace Op

/-- The frames around the code that an operation refers to, if `around` frames lie around the
operation's own: a block is called inside the frame in which it is made, a method inside none. -/
def offered (around : Nat) : Op → Nat
  | defineMethod _ _ => 0
  | _ => around + 1

end Op

/-- What is finished in the first table stands in the same place in the second one. -/
def Retains (table table' : UInt32 → Option Code) : Prop :=
  ∀ position code, table position = some code → code.ops ≠ #[] → table' position = some code

/-- The code object at the position, and all that it refers to, is finished and finds the frames
that it looks for if `around` frames lie around its own. -/
inductive Settled (table : UInt32 → Option Code) : UInt32 → Nat → Prop
  | intro {position : UInt32} {around : Nat} {code : Code} (found : table position = some code)
      (recorded : code.ops ≠ #[]) (outward : ∀ op ∈ code.ops, op.outward ≤ around)
      (refers : ∀ op ∈ code.ops, ∀ target, op.codeRef? = some target →
        Settled table target (op.offered around)) : Settled table position around

/-- The operation finds the frames and the code that it refers to. -/
structure Op.Finds (table : UInt32 → Option Code) (around : Nat) (op : Op) : Prop where
  outward : op.outward ≤ around
  refers : ∀ target, op.codeRef? = some target → Settled table target (op.offered around)

variable {table table' : UInt32 → Option Code} {position : UInt32} {around most : Nat}

namespace Settled

theorem of_finds {code : Code} (found : table position = some code) (recorded : code.ops ≠ #[])
    (finds : ∀ op ∈ code.ops, op.Finds table around) : Settled table position around :=
  .intro found recorded (fun op hop => (finds op hop).outward) fun op hop => (finds op hop).refers

theorem finds (h : Settled table position around) : ∃ code, table position = some code ∧
    code.ops ≠ #[] ∧ ∀ op ∈ code.ops, op.Finds table around := by
  cases h with
  | intro found recorded outward refers =>
      exact ⟨_, found, recorded, fun op hop => ⟨outward op hop, refers op hop⟩⟩

theorem mono (retains : Retains table table') (h : Settled table position around) :
    Settled table' position around := by
  induction h with
  | intro found recorded outward _ refers =>
      exact .intro (retains _ _ found recorded) recorded outward refers

/-- What one table says of the frames, and another one of the positions that can be reached. -/
theorem merge (same : ∀ position code code', table position = some code →
      table' position = some code' → code = code')
    (h : Settled table position around) (h' : Settled table' position most) :
    Settled table' position around := by
  induction h generalizing most with
  | intro found _ outward _ refers =>
      obtain ⟨code, found', recorded, finds⟩ := h'.finds
      obtain rfl := same _ _ _ found found'
      exact .intro found' recorded outward fun op hop target names =>
        refers op hop target names ((finds op hop).refers target names)

end Settled

theorem Op.Finds.mono {op : Op} (retains : Retains table table') (h : op.Finds table around) :
    op.Finds table' around :=
  ⟨h.outward, fun target names => (h.refers target names).mono retains⟩

/-! ## Programs -/

namespace Program

variable {program : Program}

/-- The least number of frames that the position is settled for. -/
noncomputable def reach (program : Program) (position : UInt32) : Nat :=
  sInf {around | Settled program.code? position around}

/-- Every code object is settled and verified, and finds its constants. -/
structure Complete (program : Program) : Prop where
  settled : ∀ position code, program.code? position = some code →
    ∃ around, Settled program.code? position around
  verified : ∀ position code, program.code? position = some code →
    ∃ heights, Verifier.heights code.ops = .ok heights
  pooled : ∀ position code, program.code? position = some code →
    ∀ op ∈ code.ops, op.Pooled program.constants

theorem reach_le (h : Settled program.code? position around) : program.reach position ≤ around :=
  Nat.sInf_le h

theorem settled_reach (h : Settled program.code? position around) :
    Settled program.code? position (program.reach position) :=
  Nat.sInf_mem ⟨around, h⟩

end Program

theorem Settled.has {program : Program} (h : Settled program.code? position around) :
    program.Has position := by
  obtain ⟨code, found, -⟩ := h.finds
  exact ⟨code, found⟩

theorem Op.Finds.links {program : Program} {op : Op} (h : op.Finds program.code? around) :
    op.Links program program.reach around := by
  cases op with
  | makeClosure code =>
      have settled := h.refers code rfl
      exact ⟨settled.has, Program.reach_le settled⟩
  | send name argc receiver block =>
      intro code names
      have settled := h.refers code names
      exact ⟨settled.has, Program.reach_le settled⟩
  | defineMethod name code =>
      have settled := h.refers code rfl
      exact ⟨settled.has, Nat.le_zero.mp (Program.reach_le settled)⟩
  | _ => trivial

namespace Program.Complete

variable {program : Program} (complete : program.Complete)

include complete

theorem settled_of_has (has : program.Has position) :
    Settled program.code? position (program.reach position) := by
  obtain ⟨code, found⟩ := has
  obtain ⟨around, settled⟩ := complete.settled position code found
  exact settled_reach settled

theorem finds {code : Code} (found : program.code? position = some code) :
    ∀ op ∈ code.ops, op.Finds program.code? (program.reach position) := by
  obtain ⟨code', found', -, finds⟩ := (complete.settled_of_has ⟨code, found⟩).finds
  cases found.symm.trans found'
  exact finds

theorem linked : program.Linked program.reach where
  verified := complete.verified
  links _ _ found op hop := (complete.finds found op hop).links

theorem not_excuses (error : RuntimeError) : ¬program.Excuses program.reach error := by
  rintro ⟨position, code, op, found, hop, ⟨unpooled, -⟩ | ⟨past, -⟩⟩
  · exact unpooled (complete.pooled position code found op hop)
  · exact Nat.not_le_of_lt past (complete.finds found op hop).outward

end Program.Complete

/-! ## Worlds -/

/-- A world that refers to nothing that does not exist and to no code that is not settled: a
block's code for one frame more than there are around the block, a method's code for none. -/
structure World.Anchored (table : UInt32 → Option Code) (world : World) : Prop where
  heap : world.heap.Closed
  main : World.main.Alive world.heap
  globals : world.globals.Alive world.heap
  constants : world.constants.Alive world.heap
  procs : ∀ proc ∈ world.heap.procs, ∃ around, Settled table proc.code around ∧
    world.heap.Deep proc.frame (around - 1)
  methods : ∀ name position arity, world.methods.get? name = some (.compiled position arity) →
    Settled table position 0

namespace World

variable {world : World} {program : Program}

theorem Anchored.mono (retains : Retains table table') (h : world.Anchored table) :
    world.Anchored table' where
  heap := h.heap
  main := h.main
  globals := h.globals
  constants := h.constants
  procs proc hp := by
    obtain ⟨around, settled, deep⟩ := h.procs proc hp
    exact ⟨around, settled.mono retains, deep⟩
  methods name position arity found := (h.methods name position arity found).mono retains

theorem Anchored.closed (h : world.Anchored program.code?) :
    world.Closed program program.reach where
  heap := h.heap
  main := h.main
  globals := h.globals
  constants := h.constants
  procs proc hp := by
    obtain ⟨around, settled, deep⟩ := h.procs proc hp
    exact ⟨settled.has, deep.le (Nat.sub_le_sub_right (Program.reach_le settled) 1)⟩
  methods name position arity found := by
    have settled := h.methods name position arity found
    exact ⟨settled.has, Nat.le_zero.mp (Program.reach_le settled)⟩

theorem Closed.anchored (complete : program.Complete) (h : world.Closed program program.reach) :
    world.Anchored program.code? where
  heap := h.heap
  main := h.main
  globals := h.globals
  constants := h.constants
  procs proc hp := ⟨_, complete.settled_of_has (h.procs proc hp).1, (h.procs proc hp).2⟩
  methods name position arity found := by
    obtain ⟨has, flat⟩ := h.methods name position arity found
    exact flat ▸ complete.settled_of_has has

end World

/-- An operation that is executed where a complete program runs, and that finds its operands and
what it refers to, does not end in an error of the machine itself. Whatever it comes to, the
world refers to settled code only. -/
theorem Machine.ends_complete_anchored {program : Program} (whole : program.Complete)
    {world : World} (anchored : world.Anchored program.code?) {activation : Activation}
    (alive : activation.Alive world.heap) {op : Op} (enough : op.pops ≤ activation.stack.length)
    (pooled : op.Pooled program.constants) (finds : op.Finds program.code? around)
    (deep : world.heap.Deep activation.frame around) (limits : Limits) (fuel : Nat) :
    Ends (complete program limits fuel op) (activation, world)
      (fun _ state => state.2.Anchored program.code? ∧ state.1.Alive state.2.heap)
      fun halt state => state.2.Anchored program.code? ∧ state.1.Alive state.2.heap ∧
        ∀ error, halt = .failure error → error.kind ≠ .internal := by
  have finds_all (error : RuntimeError) :
      ¬op.Excuses program.constants world.heap activation.frame error := by
    rintro (⟨unpooled, -⟩ | ⟨missing, -⟩)
    · exact unpooled pooled
    · exact missing (deep.le finds.outward)
  refine (ends_complete whole.linked anchored.closed alive enough (finds.links.placed deep)
    whole.not_excuses finds_all fuel).mono ?_ ?_
  · exact fun _ _ ⟨closed, alive⟩ => ⟨closed.anchored whole, alive⟩
  · exact fun _ _ ⟨closed, alive, kind⟩ => ⟨closed.anchored whole, alive, kind⟩

end BlockScript
