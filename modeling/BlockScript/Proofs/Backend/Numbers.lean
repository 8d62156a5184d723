import BlockScript.Proofs.Backend.Bodies
import BlockScript.Proofs.Backend.Headed
import BlockScript.Proofs.Backend.Occupied
import BlockScript.Proofs.Machine.Elements
import BlockScript.Proofs.Machine.Operands

/-!
# Numbers that are passed on to code

Operations of the contract take numbers of any size, and operations of the machine and code
objects have 32 bits for each. Neither backend checks that they fit. So a local is accessed in
the slot that is left of its index modulo 2 ^ 32, a call takes as many arguments as are left of
their number, an aggregate collapses as many values, and a code object has as many arguments.
What fits in 32 bits is passed on as it is.
-/

namespace BlockScript

/-- What is left of a number in 32 bits. -/
theorem toNat_toUInt32_eq (n : Nat) : n.toUInt32.toNat = n % 2 ^ 32 := UInt32.toNat_ofNat'

/-! ## Slots of frames -/

theorem Frame.get_set (frame : Frame) (i j : Nat) (value : Value) :
    (frame.set i value).get j = if j = i then value else frame.get j := by
  obtain ⟨values, parent⟩ := frame
  simp only [set, get, Array.getD_eq_getD_getElem?]
  rw [getElem?_setSlot]
  by_cases here : j = i
  · rw [if_pos here, if_pos here, Option.getD_some]
  · rw [if_neg here, if_neg here]
    by_cases inside : j < values.size
    · rw [if_pos inside]
    · rw [if_neg inside, Array.getElem?_eq_none (Nat.le_of_not_lt inside)]
      split <;> rfl

namespace Heap

variable {heap : Heap} {cell : Ref .frame}

theorem frame_setLocal (allocated : cell.index < heap.frames.size) (slot : Nat) (value : Value) :
    (heap.setLocal cell slot value).frame cell = (heap.frame cell).set slot value := by
  have changed : (heap.frames.modify cell.index (·.set slot value))[cell.index]? =
      some (heap.frames[cell.index].set slot value) := by
    rw [Array.getElem?_modify, if_pos rfl, Array.getElem?_eq_getElem allocated, Option.map_some]
  simp only [frame, setLocal, Array.getD_eq_getD_getElem?]
  rw [changed, Array.getElem?_eq_getElem allocated, Option.getD_some, Option.getD_some]

theorem parent_setLocal (slot : Nat) (value : Value) (other : Ref .frame) :
    ((heap.setLocal cell slot value).frame other).parent = (heap.frame other).parent := by
  simp only [frame, setLocal, Array.getD_eq_getD_getElem?, Array.getElem?_modify]
  cases found : heap.frames[other.index]? with
  | none => split <;> rfl
  | some frame => split <;> rfl

/-- A frame keeps the frames around it when a local is set. -/
theorem ancestor?_setLocal (slot : Nat) (value : Value) (depth : Nat) (start : Ref .frame) :
    (heap.setLocal cell slot value).ancestor? depth start = heap.ancestor? depth start := by
  induction depth generalizing start with
  | zero => rfl
  | succ depth ih =>
      simp only [ancestor?, parent_setLocal]
      cases (heap.frame start).parent with
      | none => rfl
      | some parent => exact ih parent

end Heap

/-- The slot of the local that an operation of the machine reads or sets, and how many frames
outward it is. -/
def Op.place? : Op → Option (Nat × Nat)
  | .getLocal index | .setLocal index => some (index.toNat, 0)
  | .getOuter index depth | .setOuter index depth => some (index.toNat, depth.toNat)
  | _ => none

theorem Bench.place_localOp (index depth : Nat) (assign : Bool) :
    (localOp index depth assign).place? = some (index % 2 ^ 32, depth % 2 ^ 32) := by
  have here (zero : depth.toUInt32 = 0) : depth % 2 ^ 32 = 0 := by
    rw [← toNat_toUInt32_eq, zero]
    rfl
  unfold localOp
  cases assign <;>
  · dsimp only
    split
    · rename_i zero
      rw [here zero]
      simp only [Op.place?, toNat_toUInt32_eq]
    · simp only [Op.place?, toNat_toUInt32_eq]

namespace Machine

variable {program : Program} {limits : Limits} {fuel : Nat} {activation : Activation}
  {world : World} {frame : Ref .frame} {stack : List Value} {value : Value} {depth : Nat}

theorem outer_eq {level : UInt32}
    (around : world.heap.ancestor? level.toNat activation.frame = some frame) :
    Exec.outer level (activation, world) = .ok frame (activation, world) := by
  unfold Exec.outer
  rw [run_bind_ok run_get]
  dsimp only
  rw [around]
  rfl

/-- An operation that is done at once. -/
theorem complete_next {op : Op} {state state' : Activation × World}
    (run : Exec.perform program op state = .ok .next state') :
    complete program limits fuel op state = .ok .next state' := by
  unfold complete
  rw [run]

/-- A local that is set. -/
theorem complete_assign (around : world.heap.ancestor? (depth % 2 ^ 32) activation.frame = some frame)
    (i : Nat) : complete program limits fuel (Bench.localOp i depth true)
      ({ activation with stack := value :: stack }, world) =
      .ok .next ({ activation with stack },
        { world with heap := world.heap.setLocal frame (i % 2 ^ 32) value }) := by
  rw [← toNat_toUInt32_eq] at around
  rw [← toNat_toUInt32_eq]
  refine complete_next ?_
  unfold Bench.localOp
  dsimp only
  split
  · rename_i zero
    rw [zero] at around
    cases around
    rfl
  · have found : Exec.outer depth.toUInt32 ({ activation with stack }, world) =
        .ok frame ({ activation with stack }, world) := outer_eq around
    have popped : Exec.pop ({ activation with stack := value :: stack }, world) =
        .ok value ({ activation with stack }, world) := rfl
    exact (run_bind_ok popped).trans ((run_bind_ok found).trans rfl)

/-- A local that is read. -/
theorem complete_retrieve
    (around : world.heap.ancestor? (depth % 2 ^ 32) activation.frame = some frame) (j : Nat) :
    complete program limits fuel (Bench.localOp j depth false) (activation, world) =
      .ok .next ({ activation with
        stack := (world.heap.frame frame).get (j % 2 ^ 32) :: activation.stack }, world) := by
  rw [← toNat_toUInt32_eq] at around
  rw [← toNat_toUInt32_eq]
  refine complete_next ?_
  unfold Bench.localOp
  dsimp only
  split
  · rename_i zero
    rw [zero] at around
    cases around
    rfl
  · exact (run_bind_ok (outer_eq around)).trans rfl

/-- What is read from a slot after a local was set: the value just if the indices are the same in
32 bits, and otherwise what was there before. -/
theorem locals_wrap (around : world.heap.ancestor? (depth % 2 ^ 32) activation.frame = some frame)
    (allocated : frame.index < world.heap.frames.size) (i j : Nat) : ∃ after,
    complete program limits fuel (Bench.localOp i depth true)
      ({ activation with stack := value :: stack }, world) =
      .ok .next ({ activation with stack }, after) ∧
    complete program limits fuel (Bench.localOp j depth false) ({ activation with stack }, after) =
      .ok .next ({ activation with
        stack := (if j % 2 ^ 32 = i % 2 ^ 32 then value
          else (world.heap.frame frame).get (j % 2 ^ 32)) :: stack }, after) := by
  refine ⟨_, complete_assign around i, ?_⟩
  have around' : (world.heap.setLocal frame (i % 2 ^ 32) value).ancestor? (depth % 2 ^ 32)
      activation.frame = some frame := by
    rw [Heap.ancestor?_setLocal]
    exact around
  rw [complete_retrieve around', Heap.frame_setLocal allocated, Frame.get_set]

end Machine

/-! ## What operations become -/

/-- A code object that stands in the slot has as many arguments as are left of the number. -/
def Program.Takes (program : Program) (slot : UInt32) (arity : Nat) : Prop :=
  ∀ code, program.code? slot = some code → code.arity.toNat = arity % 2 ^ 32

theorem Program.Takes.congr {program program' : Program} {slot : UInt32} {arity : Nat}
    (h : program.Takes slot arity) (same : program'.code = program.code) :
    program'.Takes slot arity := by
  intro code found
  rw [code?, same] at found
  exact h code found

theorem Program.takes_block {σ : Type} {program program' : Program} {slot : Option UInt32}
    {block : Option (BlockBody σ)}
    (h : Option.Rel (fun given slot => program.Takes slot given.arity) block slot)
    (same : program'.code = program.code) :
    Option.Rel (fun given slot => program'.Takes slot given.arity) block slot := by
  cases h with
  | none => exact .none
  | some takes => exact .some (takes.congr same)

/-- A unit that is recorded is finished into a code object with as many arguments as are left of
the number. -/
def OpenUnit.Takes (unit : OpenUnit (Option Recording)) (arity : Nat) : Prop :=
  ∃ recording, unit.payload = some recording ∧
    ∀ code, recording.builder.finish = .ok code → code.arity.toNat = arity % 2 ^ 32

/-- The number is in the head of the code object. -/
theorem OpenUnit.takes_of_head {unit : OpenUnit (Option Recording)} {recording : Recording}
    {arity : Nat} (head : recording.builder.code.arity = arity.toUInt32)
    (same : Recording.SameHead (some recording) unit.payload) : unit.Takes arity := by
  cases payload : unit.payload with
  | none =>
      rw [payload] at same
      cases same
  | some found =>
      rw [payload] at same
      refine ⟨found, payload, fun code finished => ?_⟩
      have same : found.builder.code.head = recording.builder.code.head := Option.some.inj same
      have kept : code.head.arity = recording.builder.code.head.arity :=
        congrArg Code.arity ((Builder.head_finish finished).trans same)
      rw [← toNat_toUInt32_eq, ← head]
      exact congrArg UInt32.toNat kept

namespace Operation

variable {σ α : Type}

/-- The operation passes numbers on to code. -/
def Numbered : Operation σ α → Prop
  | primitive p => ∃ index depth assign, p.form = .access index depth assign
  | invoke _ _ _ | control (.array _ _) | closure _ _ _ | defineMethod _ _ _ _ => True
  | _ => False

/-- The operation of the machine has what is left of the numbers in 32 bits. -/
def Carries (program : Program) : Operation σ α → Op → Prop
  | primitive p, op => ∀ index depth assign, p.form = .access index depth assign →
      op.place? = some (index % 2 ^ 32, depth % 2 ^ 32) ∧ op.pops = assign.toNat
  | invoke _ shape block, op => ∃ name argc slot, op = .send name argc shape.hasReceiver slot ∧
      op.pops = shape.argc % 2 ^ 32 + shape.hasReceiver.toNat ∧
      Option.Rel (fun given slot => program.Takes slot given.arity) block slot
  | control (.array count _), op => ∃ size, op = .makeArray size ∧ op.pops = count % 2 ^ 32
  | closure _ arity _, op => ∃ slot, op = .makeClosure slot ∧ program.Takes slot arity
  | defineMethod _ arity _ _, op => ∃ name slot, op = .defineMethod name slot ∧
      program.Takes slot arity
  | _, _ => True

end Operation

/-- The operation stands last in the innermost recording. -/
def Bench.Last (op : Op) (bench : Bench) : Prop :=
  ∃ recording, bench.recording? = some recording ∧ recording.builder.code.ops.back? = some op

/-- The operation was executed last for the script, and its result has taken the place of its
operands. -/
def Interpreter.Executed {υ : Type} (fuel : Nat) (op : Op) (session : Session Interpreter υ) :
    Prop :=
  ∃ (before : Session Interpreter υ) (flow : Flow),
    Machine.complete before.bench.program before.backend.limits fuel op
      (before.backend.top, before.backend.world) =
      .ok flow (session.backend.top, session.backend.world) ∧
    Replaces op.pops op.pushes before.backend.top.stack session.backend.top.stack

/-- The operation was recorded or, by the immediate backend, executed. -/
def Backend.Does {υ : Type} : (backend : Backend) → Op → Session backend.State υ → Prop
  | recording, op, session => session.bench.Last op
  | immediate fuel, op, session => session.bench.Last op ∨ Interpreter.Executed fuel op session

variable {β υ α : Type}

/-! ## The steps of recording -/

namespace Bench

variable {bench : Bench}

/-- An operation that is appended stands last. -/
theorem ensures_emit_last (operation : String) (op : Op) : Ensures (emit operation op) bench
    fun _ bench' => bench'.Last op ∧ bench'.program = bench.program := by
  refine ensures_emit.mono ?_
  rintro _ _ ⟨slot, builder, builder', found, run, rfl⟩
  refine ⟨⟨_, recording?_setBuilder found builder', ?_⟩, rfl⟩
  obtain ⟨_, -, rfl⟩ := Builder.emit_ok run
  exact Array.back?_push

/-- The same of an operation on a constant that is looked up first. -/
theorem ensures_pooled_last (operation : String) (constant : Constant) (op : UInt32 → Op) :
    Ensures (emitPooled operation constant op) bench fun _ bench' =>
      (∃ position, bench'.Last (op position)) ∧ bench'.program.code = bench.program.code := by
  refine ensures_target.bind ?_
  rintro _ _ ⟨rfl, -⟩
  refine ensures_intern.bind fun position _ ⟨constants, _, same⟩ => ?_
  refine (ensures_emit_last operation (op position)).mono fun _ _ ⟨last, code⟩ => ⟨⟨position, last⟩, ?_⟩
  rw [code, same]

/-- What becomes of a unit that is closed by its own handle, after something that has kept its
head. -/
theorem ensures_closeUnit_takes {start bench : Bench} (fresh : start.units.Fresh)
    {kind kind' : UnitKind} {name : String} {recording : Recording} {handle : UnitHandle}
    {opened : UnitStack (Option Recording)} {arity : Nat}
    (hopen : start.units.open kind name (some recording) = .ok (handle, opened))
    (head : recording.builder.code.arity = arity.toUInt32)
    (heads : opened.Evolves Recording.SameHead bench.units) (tabled : bench.Tabled) :
    Ensures (closeUnit handle kind') bench fun slot bench' => bench'.program.Takes slot arity := by
  intro installed bench' run
  obtain ⟨unit, units, slot, builder, code, closed, payload, finished, -, installs⟩ :=
    (ends_closeUnit handle kind').ok run
  obtain ⟨-, -, same⟩ := UnitStack.units_after_close fresh hopen heads closed
  obtain ⟨recording', payload', takes⟩ := OpenUnit.takes_of_head head same
  cases payload.symm.trans payload'
  have carried : code.arity.toNat = arity % 2 ^ 32 := takes code finished
  intro found there
  cases installs with
  | shared recorded =>
      -- an equal code object stands in the slot, unless the slot was given back
      have held := (tabled.recorded _ recorded).1
      have there : (bench.program.release slot).code[installed.toNat]? = some found := there
      rw [Program.getElem?_release] at there
      split at there
      · cases held.symm.trans there
        exact carried
      · cases there
  | fills inside =>
      cases ((Program.getElem?_fill inside code _).trans (if_pos rfl)).symm.trans there
      exact carried

end Bench

namespace Work

variable {session : Session β υ} {executes : Bool} {body : Work β υ Unit}

/-- The code object of a body that is recorded. -/
theorem ensures_recordUnit_takes (lasts : Moves (Session.Lasts executes) body)
    (heads : Moves (Session.Related Bench.Heads) body) {kind : UnitKind} (inner : kind ≠ .script)
    (name : String) (arity localCount : Nat) (locals : List String)
    (proper : session.bench.Proper executes) (tabled : session.bench.Tabled) :
    Ensures (recordUnit kind name arity localCount locals body) session fun slot session' =>
      session'.bench.program.Takes slot arity := by
  refine Ensures.get ?_
  have opens : Ensures (onBench (Bench.openUnit kind name arity localCount locals) :
      Work β υ UnitHandle) session fun handle opened =>
        session.bench.Lasts executes opened.bench ∧ ∃ recording,
          session.bench.units.open kind name (some recording) = .ok (handle, opened.bench.units) ∧
          recording.builder.code.arity = arity.toUInt32 := by
    refine ensures_onBench fun handle bench run => ?_
    have moves : Moves (Bench.Lasts executes)
        (Bench.openUnit kind name arity localCount locals) :=
      Bench.moves_openUnit (absurd · inner) _ _ _ _
    have kept : session.bench.Lasts executes bench := moves.ok run
    obtain ⟨units, -, hopen, rfl⟩ := Bench.ensures_opens _ _ run
    have head := Bench.opening_head session.bench kind name arity localCount locals
    exact ⟨kept, _, hopen, congrArg Code.arity head⟩
  refine opens.bind fun handle opened ⟨kept, recording, hopen, head⟩ => ensures_cleaning ?_
  have begun : opened.bench.Proper executes := (kept proper).proper
  refine Ensures.bind (fun _ recorded run => (⟨lasts.ok run, heads.ok run⟩ :
    opened.bench.Lasts executes recorded.bench ∧ opened.bench.Heads recorded.bench))
    fun _ recorded ⟨later, same⟩ => ensures_onBench ?_
  have tabled' : recorded.bench.Tabled :=
    ((later begun).table ((kept proper).table tabled).1).1
  exact Bench.ensures_closeUnit_takes proper.fresh hopen head same tabled'

theorem ensures_recordBlock_takes (lasts : Moves (Session.Lasts executes) body)
    (heads : Moves (Session.Related Bench.Heads) body) (scope : StaticScope) (arity : Nat)
    (proper : session.bench.Proper executes) (tabled : session.bench.Tabled) :
    Ensures (recordBlock scope arity body) session fun slot session' =>
      session'.bench.program.Takes slot arity :=
  Ensures.get (ensures_recordUnit_takes lasts heads (by nofun) _ _ _ _ proper tabled)

theorem ensures_recordBlock?_takes {block : Option (BlockBody (Session β υ))}
    (lasts : ∀ given, block = some given → Moves (Session.Lasts executes) given.body)
    (heads : ∀ given, block = some given → Moves (Session.Related Bench.Heads) given.body)
    (proper : session.bench.Proper executes) (tabled : session.bench.Tabled) :
    Ensures (recordBlock? block) session fun slot session' =>
      Option.Rel (fun given slot => session'.bench.program.Takes slot given.arity) block slot := by
  cases block with
  | none => exact Ensures.pure .none
  | some given =>
      exact (ensures_recordBlock_takes (lasts given rfl) (heads given rfl) _ _ proper tabled).bind
        fun slot session' takes => Ensures.pure (.some takes)

/-- What stands last was appended last, and no code object is changed. -/
theorem ensures_emit_last (operation : String) (op : Op) :
    Ensures (onBench (Bench.emit operation op) : Work β υ Unit) session fun _ session' =>
      session'.bench.Last op ∧ session'.bench.program.code = session.bench.program.code :=
  ensures_onBench ((Bench.ensures_emit_last operation op).mono
    fun _ _ ⟨last, same⟩ => ⟨last, congrArg Program.code same⟩)

theorem ensures_intern_code (constant : Constant) :
    Ensures (onBench (Bench.intern constant) : Work β υ UInt32) session fun _ session' =>
      session'.bench.program.code = session.bench.program.code :=
  ensures_onBench (Bench.ensures_intern.mono fun _ _ ⟨_, _, same⟩ => same ▸ rfl)

/-- A call that is recorded. -/
theorem ensures_emitCall_carries {block : Option (BlockBody (Session β υ))}
    (lasts : ∀ given, block = some given → Moves (Session.Lasts executes) given.body)
    (heads : ∀ given, block = some given → Moves (Session.Related Bench.Heads) given.body)
    (name : String) (shape : Invocation) (proper : session.bench.Proper executes)
    (tabled : session.bench.Tabled) :
    Ensures (emitCall name shape block) session fun _ session' => ∃ op,
      (Operation.invoke name shape block).Carries session'.bench.program op ∧
        session'.bench.Last op := by
  refine (ensures_recordBlock?_takes lasts heads proper tabled).bind fun slot middle takes => ?_
  have sends : Ensures (Bench.emitSend callOperation name shape slot) middle.bench fun _ bench' =>
      (∃ position, bench'.Last (.send position shape.argc.toUInt32 shape.hasReceiver slot)) ∧
        bench'.program.code = middle.bench.program.code :=
    Bench.ensures_pooled_last _ _ fun position =>
      .send position shape.argc.toUInt32 shape.hasReceiver slot
  refine ensures_onBench (sends.mono fun _ _ ⟨⟨position, last⟩, same⟩ =>
    ⟨_, ⟨position, _, slot, rfl, ?_, ?_⟩, last⟩)
  · exact congrArg (· + shape.hasReceiver.toNat) (toNat_toUInt32_eq shape.argc)
  · exact Program.takes_block takes same

/-- An aggregate that is recorded. -/
theorem ensures_emitArray_carries (count : Nat) (element : Nat → Work β υ Unit) :
    Ensures (emitArray count element) session fun _ session' => ∃ op,
      (Operation.control (.array count element)).Carries session'.bench.program op ∧
        session'.bench.Last op := by
  refine ensures_nested (.last fun _ middle => ?_)
  exact (ensures_emit_last arrayOperation (.makeArray count.toUInt32)).mono
    fun _ _ ⟨last, _⟩ => ⟨_, ⟨_, rfl, toNat_toUInt32_eq count⟩, last⟩

end Work

/-- What becomes of an access to a local. -/
theorem Operation.carries_access {σ : Type} {p : Primitive} {index depth : Nat} {assign : Bool}
    (form : p.form = .access index depth assign) (program : Program) :
    (Operation.primitive p : Operation σ Unit).Carries program (Bench.localOp index depth assign) := by
  intro index' depth' assign' form'
  cases form.symm.trans form'
  exact ⟨Bench.place_localOp index depth assign, (Primitive.straight_localOp index depth assign).pops⟩

/-! ## Both backends -/

namespace Recorder

variable {session : Session Recorder υ} {operation : Operation (Session Recorder υ) α}

theorem ensures_issue_carries (numbered : operation.Numbered)
    (lasts : ∀ part, operation.Has part → Moves (Session.Lasts false) part)
    (heads : ∀ part, operation.Has part → Moves (Session.Related Bench.Heads) part)
    (proper : session.bench.Proper false) (tabled : session.bench.Tabled) :
    Ensures (operation.issue (contract υ)) session fun _ session' => ∃ op,
      operation.Carries session'.bench.program op ∧ session'.bench.Last op := by
  cases operation with
  | startScript | endScript | beginMethod | endMethod => exact numbered.elim
  | primitive p =>
      obtain ⟨index, depth, assign, form⟩ := numbered
      refine ensures_checked (Work.ensures_onBench ?_)
      unfold Bench.emitPrimitive
      rw [form]
      exact .last fun _ _ => (Bench.ensures_emit_last _ _).mono
        fun _ _ ⟨last, _⟩ => ⟨_, Operation.carries_access form _, last⟩
  | invoke name shape block =>
      exact ensures_checked (Work.ensures_emitCall_carries
        (fun given h => lasts _ ⟨given, h, rfl⟩) (fun given h => heads _ ⟨given, h, rfl⟩) name shape
        proper tabled)
  | control inner =>
      cases inner with
      | branch | logical | loop => exact numbered.elim
      | array count element => exact ensures_checked (Work.ensures_emitArray_carries count element)
  | closure scope arity body =>
      refine ensures_checked (Work.ensures_target.bind ?_)
      rintro _ _ ⟨rfl, -⟩
      refine (Work.ensures_recordBlock_takes (lasts body rfl) (heads body rfl) scope arity proper
        tabled).bind fun slot middle takes => (Work.ensures_emit_last _ _).mono ?_
      exact fun _ _ ⟨last, same⟩ => ⟨_, ⟨slot, rfl, takes.congr same⟩, last⟩
  | defineMethod name arity localCount body =>
      refine ensures_checked (Work.ensures_target.bind ?_)
      rintro _ _ ⟨rfl, -⟩
      refine (Work.ensures_recordUnit_takes (lasts body rfl) (heads body rfl) (by nofun) name arity
        localCount [] proper tabled).bind fun slot middle takes => Work.ensures_onBench ?_
      refine (Bench.ensures_pooled_last _ _ fun name => .defineMethod name slot).mono ?_
      exact fun _ _ ⟨⟨position, last⟩, same⟩ => ⟨_, ⟨position, slot, rfl, takes.congr same⟩, last⟩

end Recorder

namespace Interpreter

variable {fuel : Nat} {session : Session Interpreter υ}
  {operation : Operation (Session Interpreter υ) α}

theorem ensures_ensureOpen :
    Ensures (ensureOpen : Work Interpreter υ Unit) session fun _ session' => session' = session :=
  Ensures.get (.ite (fun _ => .get .throws) fun _ => .pure rfl)

/-- What is executed changes no code object, and its result takes the place of its operands. -/
theorem ensures_execute (op : Op) (line : Option UInt32) :
    Ensures (execute fuel op line) session fun _ session' =>
      Executed fuel op session' ∧ session'.bench.program.code = session.bench.program.code :=
  have ends : Ends (execute fuel op line) session (fun _ session' =>
      Executed fuel op session' ∧ session'.bench.program.code = session.bench.program.code)
      fun _ _ => True :=
    ends_execute (.intro (fun flow _ run => ⟨⟨session, flow, run,
      (Machine.ends_complete_operands _ _ _ _ _ _).ok run⟩, rfl⟩) fun _ _ _ => trivial)
  ends.ensures

/-- An operation is recorded or executed, and no code object is changed. -/
theorem ensures_perform_does (operation : String) (op : Op) :
    Ensures (perform fuel operation op) session fun _ session' =>
      (session'.bench.Last op ∨ Executed fuel op session') ∧
        session'.bench.program.code = session.bench.program.code := by
  refine ensures_ensureOpen.bind ?_
  rintro _ _ rfl
  refine .get (.ite (fun _ => ?_) fun _ => .get (.ite (fun _ => .stop (.get .throws)) fun _ => .get ?_))
  · exact (Work.ensures_emit_last operation op).mono fun _ _ ⟨last, same⟩ => ⟨.inl last, same⟩
  · exact (ensures_execute op _).mono fun _ _ ⟨executed, same⟩ => ⟨.inr executed, same⟩

/-- An operation is recorded with its parts, or executed after them. -/
theorem ensures_either {recorded live : Work Interpreter υ Unit}
    {post : Unit → Session Interpreter υ → Prop} (h₁ : Ensures recorded session post)
    (h₂ : Ensures live session post) :
    Ensures (do ensureOpen; if ← recording then recorded else live) session post := by
  refine ensures_ensureOpen.bind ?_
  rintro _ _ rfl
  exact .get (.ite (fun _ => h₁) fun _ => h₂)

theorem ensures_issue_carries (numbered : operation.Numbered)
    (lasts : ∀ part, operation.Has part → Moves (Session.Lasts true) part)
    (heads : ∀ part, operation.Has part → Moves (Session.Related Bench.Heads) part)
    (proper : session.bench.Proper true) (tabled : session.bench.Tabled) :
    Ensures (operation.issue (contract υ fuel)) session fun _ session' => ∃ op,
      operation.Carries session'.bench.program op ∧
        (session'.bench.Last op ∨ Executed fuel op session') := by
  cases operation with
  | startScript | endScript | beginMethod | endMethod => exact numbered.elim
  | primitive p =>
      obtain ⟨index, depth, assign, form⟩ := numbered
      have performs : Ensures (primitive fuel p) session fun _ session' => ∃ op,
          (Operation.primitive p : Operation (Session Interpreter υ) Unit).Carries
            session'.bench.program op ∧ (session'.bench.Last op ∨ Executed fuel op session') := by
        unfold primitive
        rw [form]
        exact .last fun _ _ => (ensures_perform_does _ _).mono
          fun _ _ ⟨does, _⟩ => ⟨_, Operation.carries_access form _, does⟩
      exact performs
  | invoke name shape block =>
      have bodies := fun given (h : block = some given) => lasts _ ⟨given, h, rfl⟩
      have bodies' := fun given (h : block = some given) => heads _ ⟨given, h, rfl⟩
      have call := Work.ensures_emitCall_carries bodies bodies' name shape proper tabled
      refine ensures_either (call.mono fun _ _ ⟨op, carries, last⟩ => ⟨op, carries, .inl last⟩) ?_
      refine .get (.ite (fun _ => .stop (.get .throws)) fun _ => ?_)
      refine (Work.ensures_recordBlock?_takes bodies bodies' proper tabled).bind
        fun slot middle takes => (Work.ensures_intern_code _).bind fun position pooled same => ?_
      refine (ensures_perform_does _ _).mono fun _ after ⟨does, same'⟩ =>
        ⟨_, ⟨position, _, slot, rfl, ?_, Program.takes_block takes (same'.trans same)⟩, does⟩
      exact congrArg (· + shape.hasReceiver.toNat) (toNat_toUInt32_eq shape.argc)
  | control inner =>
      cases inner with
      | branch | logical | loop => exact numbered.elim
      | array count element =>
          refine ensures_either ((Work.ensures_emitArray_carries count element).mono
            fun _ _ ⟨op, carries, last⟩ => ⟨op, carries, .inl last⟩) ?_
          exact .last fun _ middle => (ensures_perform_does _ (.makeArray count.toUInt32)).mono
            fun _ _ ⟨does, _⟩ => ⟨_, ⟨_, rfl, toNat_toUInt32_eq count⟩, does⟩
  | closure scope arity body =>
      refine ensures_ensureOpen.bind ?_
      rintro _ _ rfl
      refine (Work.ensures_recordBlock_takes (lasts body rfl) (heads body rfl) scope arity proper
        tabled).bind fun slot middle takes => (ensures_perform_does _ _).mono ?_
      exact fun _ _ ⟨does, same⟩ => ⟨_, ⟨slot, rfl, takes.congr same⟩, does⟩
  | defineMethod name arity localCount body =>
      refine ensures_ensureOpen.bind ?_
      rintro _ _ rfl
      refine (Work.ensures_recordUnit_takes (lasts body rfl) (heads body rfl) (by nofun) name arity
        localCount [] proper tabled).bind fun slot middle takes =>
          (Work.ensures_intern_code _).bind fun position pooled same => ?_
      exact (ensures_perform_does _ _).mono fun _ _ ⟨does, same'⟩ =>
        ⟨_, ⟨position, slot, rfl, takes.congr (same'.trans same)⟩, does⟩

end Interpreter

namespace Backend

variable {backend : Backend}

theorem ensures_issue_carries {manner : Manner backend.State υ}
    {operation : Operation (Session backend.State υ) α} (numbered : operation.Numbered)
    (callers : ∀ part, operation.Has part → Client (backend.contract υ) manner part)
    {session : Session backend.State υ} (proper : session.bench.Proper backend.executes)
    (tabled : session.bench.Tabled) :
    Ensures (operation.issue (backend.contract υ)) session fun _ session' => ∃ op,
      operation.Carries session'.bench.program op ∧ backend.Does op session' := by
  have lasts := fun part has => lasts_client (callers part has)
  have heads := fun part has => heads_client (callers part has)
  cases backend with
  | recording => exact Recorder.ensures_issue_carries numbered lasts heads proper tabled
  | immediate fuel => exact Interpreter.ensures_issue_carries numbered lasts heads proper tabled

/-- A method is begun with a unit of its own. -/
theorem ensures_beginMethod (name : String) (arity localCount : Nat)
    (session : Session backend.State υ) :
    Ensures ((backend.contract υ).beginMethod name arity localCount) session fun handle begun =>
      ∃ recording, session.bench.units.open .method name (some recording) =
        .ok (handle, begun.bench.units) ∧ recording.builder.code.arity = arity.toUInt32 := by
  have opens {β : Type} (session : Session β υ) :
      Ensures (Work.onBench (Bench.openUnit .method name arity localCount []) : Work β υ UnitHandle)
        session fun handle begun => ∃ recording,
          session.bench.units.open .method name (some recording) = .ok (handle, begun.bench.units) ∧
            recording.builder.code.arity = arity.toUInt32 := by
    refine Work.ensures_onBench (Bench.ensures_opens.mono ?_)
    rintro handle _ ⟨units, -, hopen, rfl⟩
    exact ⟨_, hopen, congrArg Code.arity (session.bench.opening_head .method name arity localCount [])⟩
  cases backend with
  | recording =>
      refine Recorder.ensures_checked (Work.ensures_target.bind ?_)
      rintro _ _ ⟨rfl, -⟩
      exact opens _
  | immediate fuel =>
      refine Interpreter.ensures_ensureOpen.bind ?_
      rintro _ _ rfl
      exact opens _

/-- Numbers are kept modulo 2 ^ 32, whatever a caller has done before. What an operation has
recorded or executed last when it succeeds carries what is left of its numbers, and so does the
code object of a method, as long as its unit is open. So a local that was set is found under the
indices that are the same in 32 bits, and under no others. -/
theorem numbers_wrap (backend : Backend) {config : Config}
    (limit : config.maxPoolEntries ≤ UInt32.size) (limits : Limits) (owner : Nat) (own : υ)
    {manner : Manner backend.State υ} {setup : Work backend.State υ β}
    (client : Client (backend.contract υ) manner setup) {session : Session backend.State υ}
    (reached : Reaches setup (backend.new config limits owner own) session) :
    (∀ {α : Type} (operation : Operation (Session backend.State υ) α), operation.Numbered →
      (∀ part, operation.Has part → Client (backend.contract υ) manner part) →
      ∀ value session', operation.issue (backend.contract υ) session = .ok value session' →
        ∃ op, operation.Carries session'.bench.program op ∧ backend.Does op session') ∧
    (∀ name arity localCount handle begun,
      (backend.contract υ).beginMethod name arity localCount session = .ok handle begun →
      ∀ {γ : Type} (body : Work backend.State υ γ), Client (backend.contract υ) manner body →
        ∀ later, Reaches body begun later →
          ∀ unit ∈ later.bench.units.units, unit.id = handle.id → unit.Takes arity) ∧
    ∀ (program : Program) (limits : Limits) (fuel : Nat) (activation : Activation) (world : World)
      (frame : Ref .frame) (stack : List Value) (value : Value) (i j depth : Nat),
      world.heap.ancestor? (depth % 2 ^ 32) activation.frame = some frame →
      frame.index < world.heap.frames.size → ∃ after,
        Machine.complete program limits fuel (Bench.localOp i depth true)
          ({ activation with stack := value :: stack }, world) =
          .ok .next ({ activation with stack }, after) ∧
        Machine.complete program limits fuel (Bench.localOp j depth false)
          ({ activation with stack }, after) =
          .ok .next ({ activation with
            stack := (if j % 2 ^ 32 = i % 2 ^ 32 then value
              else (world.heap.frame frame).get (j % 2 ^ 32)) :: stack }, after) := by
  have lasts : Bench.Lasts backend.executes _ session.bench := reached.moves (lasts_client client)
  rw [bench_new] at lasts
  have later := lasts (Bench.proper_new config owner _)
  have tabled := (later.table (Bench.tabled_new limit owner _)).1
  refine ⟨fun operation numbered callers => ensures_issue_carries numbered callers later.proper tabled,
    ?_, fun _ _ _ _ _ _ _ _ i j _ around allocated => Machine.locals_wrap around allocated i j⟩
  intro name arity localCount handle begun run γ body caller after ran unit member same
  obtain ⟨recording, hopen, head⟩ := ensures_beginMethod name arity localCount session _ _ run
  have heads : begun.bench.Heads after.bench := ran.moves (heads_client caller)
  exact OpenUnit.takes_of_head head
    (UnitStack.payload_of_opened later.proper.fresh hopen heads member same)

/-- A local is set under an index for which 32 bits are not enough. -/
theorem numbers_wrap_local :
    let contract := (Backend.immediate 0).contract Unit
    let setup := do contract.startScript; contract.primitive (.fixnum 5)
    ∃ session session' op,
      Reaches setup ((Backend.immediate 0).new .strict {} 0 ()) session ∧
      contract.primitive (.assignLocal 0x100000000 0) session = .ok () session' ∧
      op.place? = some (0, 0) ∧ op.pops = 1 ∧ (Backend.immediate 0).Does op session' := by
  intro contract setup
  have started : Client contract {} contract.startScript :=
    (@Client.issue _ _ _ {} _ .startScript) (fun _ _ => trivial) fun _ has => has.elim
  have pushed : Client contract {} (contract.primitive (.fixnum 5)) :=
    (@Client.issue _ _ _ {} _ (.primitive (.fixnum 5))) (fun _ _ => trivial) fun _ has => has.elim
  have client : Client contract {} setup := .bind started fun _ => pushed
  have reached : Reaches setup ((Backend.immediate 0).new .strict {} 0 ()) _ := rfl
  obtain ⟨issues, -, -⟩ := numbers_wrap (.immediate 0) (by decide) {} 0 () client reached
  obtain ⟨op, carries, does⟩ := issues (.primitive (.assignLocal 0x100000000 0)) ⟨_, _, _, rfl⟩
    (fun _ has => has.elim) () _ rfl
  obtain ⟨place, pops⟩ := carries _ _ _ rfl
  exact ⟨_, _, op, reached, rfl, place, pops, does⟩

end Backend

/-- A call with more arguments than 32 bits can count is recorded as one that takes none, though
there is no value on the stack. -/
theorem Recorder.call_operands_lost :
    let shape := Invocation.function 0x100000000
    let script : Work Recorder Unit Unit := do
      (contract Unit).startScript
      (contract Unit).invoke "m" shape none
    ∃ session, script (new .strict 0 ()) = .ok () session ∧
      session.bench.Last (.send 0 0 false none) ∧ (Op.send 0 0 false none).pops = 0 ∧
      shape.consumed = 0x100000000 :=
  ⟨_, rfl, ⟨_, rfl, rfl⟩, rfl, rfl⟩

end BlockScript
