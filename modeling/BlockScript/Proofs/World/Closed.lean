import BlockScript.Builtin.Reply
import BlockScript.Proofs.Heap.Closed

/-!
# Closed worlds

A world is closed for a program when its heap is closed, its tables hold living values
and every block and every method refers to a code object of the program, which finds as
many frames around its own as it needs.
`Run.Sound` says what a computation that answers messages may do to such a world: it
stays closed, its heap grows, and an error is never one of the machine itself.
-/

namespace BlockScript

/-- What an activation works on exists. -/
structure Activation.Alive (heap : Heap) (activation : Activation) : Prop where
  stack : ∀ value ∈ activation.stack, value.Alive heap
  frame : activation.frame.Alive heap
  self : activation.self.Alive heap
  block : ∀ cell, activation.block = some cell → cell.Alive heap

/-- What a repeated block call goes on with exists. -/
def BlockLoop.Alive (heap : Heap) : BlockLoop → Prop
  | .times block _ _ receiver => block.Alive heap ∧ receiver.Alive heap
  | .each block rest receiver =>
    block.Alive heap ∧ (∀ value ∈ rest, value.Alive heap) ∧ receiver.Alive heap
  | .map block rest results =>
    block.Alive heap ∧ (∀ value ∈ rest, value.Alive heap) ∧ ∀ value ∈ results, value.Alive heap

/-- The position denotes a code object. -/
def Program.Has (program : Program) (position : UInt32) : Prop :=
  ∃ code, program.code? position = some code

/-- A world that refers to nothing that does not exist. `reach` says of every code object
how many frames it needs around its own: a block lies inside as many but one, and a
method needs none. -/
structure World.Closed (program : Program) (reach : UInt32 → Nat) (world : World) : Prop where
  heap : world.heap.Closed
  main : World.main.Alive world.heap
  globals : world.globals.Alive world.heap
  constants : world.constants.Alive world.heap
  procs : ∀ proc ∈ world.heap.procs,
    program.Has proc.code ∧ world.heap.Deep proc.frame (reach proc.code - 1)
  methods : ∀ name position arity, world.methods.get? name = some (.compiled position arity) →
    program.Has position ∧ reach position = 0

/-- An activation that may enter the body at a position. -/
structure Activation.Enters (program : Program) (reach : UInt32 → Nat) (heap : Heap)
    (position : UInt32) (activation : Activation) : Prop where
  code : program.Has position
  stack : activation.stack = []
  alive : activation.Alive heap
  deep : heap.Deep activation.frame (reach position)

/-- A reply whose parts exist. -/
def Reply.Alive (program : Program) (reach : UInt32 → Nat) (reply : Reply) (world : World) :
    Prop :=
  match reply with
  | .value result => result.Alive world.heap
  | .enter position activation => activation.Enters program reach world.heap position
  | .iterate loop => loop.Alive world.heap

section Mono

variable {heap later : Heap} (grows : heap.Grows later)

include grows

theorem forall_alive_mono {values : List Value} (h : ∀ value ∈ values, value.Alive heap) :
    ∀ value ∈ values, value.Alive later :=
  fun value hv => (h value hv).mono grows

theorem Activation.Alive.mono {activation : Activation} (h : activation.Alive heap) :
    activation.Alive later :=
  ⟨forall_alive_mono grows h.stack, h.frame.mono grows, h.self.mono grows,
    fun cell hc => (h.block cell hc).mono grows⟩

theorem BlockLoop.Alive.mono {loop : BlockLoop} (h : loop.Alive heap) : loop.Alive later := by
  cases loop with
  | times block next count receiver => exact ⟨h.1.mono grows, h.2.mono grows⟩
  | each block rest receiver =>
      exact ⟨h.1.mono grows, forall_alive_mono grows h.2.1, h.2.2.mono grows⟩
  | map block rest results =>
      exact ⟨h.1.mono grows, forall_alive_mono grows h.2.1, forall_alive_mono grows h.2.2⟩

end Mono

theorem Activation.Alive.drop {heap : Heap} {activation : Activation}
    (h : activation.Alive heap) (count : Nat) :
    ({ activation with stack := activation.stack.drop count } : Activation).Alive heap :=
  { h with stack := fun value hv => h.stack value (List.mem_of_mem_drop hv) }

namespace World.Closed

variable {program : Program} {reach : UInt32 → Nat} {world : World}

/-- A heap that only adds such blocks may replace the heap of a closed world. -/
theorem withHeap (h : world.Closed program reach) {heap : Heap} (closed : heap.Closed)
    (grows : world.heap.Grows heap)
    (procs : ∀ proc ∈ heap.procs, proc ∈ world.heap.procs ∨
      program.Has proc.code ∧ heap.Deep proc.frame (reach proc.code - 1)) :
    World.Closed program reach { world with heap } where
  heap := closed
  main := h.main.mono grows
  globals := h.globals.mono grows
  constants := h.constants.mono grows
  procs := by
    intro proc hp
    rcases procs proc hp with hp | hp
    · exact (h.procs proc hp).imp id (Heap.Deep.mono grows)
    · exact hp
  methods := h.methods

end World.Closed

namespace Run

variable {α β : Type} {program : Program} {reach : UInt32 → Nat} {world : World}

/-- What a computation may come to from a closed world. -/
def Sound (program : Program) (reach : UInt32 → Nat) (world : World) (post : α → World → Prop) :
    EStateM.Result RuntimeError World α → Prop
  | .ok value world' =>
    world'.Closed program reach ∧ world.heap.Grows world'.heap ∧ post value world'
  | .error error world' =>
    world'.Closed program reach ∧ world.heap.Grows world'.heap ∧ error.kind ≠ .internal

/-- A computation that answers a message from a closed world. -/
abbrev Answers (program : Program) (reach : UInt32 → Nat) (world : World) :
    EStateM.Result RuntimeError World Reply → Prop :=
  Sound program reach world (Reply.Alive program reach)

namespace Sound

theorem ok {post : α → World → Prop} {value : α} {world' : World}
    (closed : world'.Closed program reach) (grows : world.heap.Grows world'.heap)
    (h : post value world') : Sound program reach world post (.ok value world') :=
  ⟨closed, grows, h⟩

/-- A result that leaves the world as it is. -/
theorem here {post : α → World → Prop} {value : α} (closed : world.Closed program reach)
    (h : post value world) : Sound program reach world post (.ok value world) :=
  ⟨closed, .refl _, h⟩

/-- An error of the program, which leaves the world as it is. -/
theorem fault {post : α → World → Prop} {error : RuntimeError} (closed : world.Closed program reach)
    (kind : error.kind ≠ .internal) : Sound program reach world post (.error error world) :=
  ⟨closed, .refl _, kind⟩

theorem mono {post post' : α → World → Prop} {result : EStateM.Result RuntimeError World α}
    (h : Sound program reach world post result) (weaker : ∀ value world', post value world' →
      world'.Closed program reach → world.heap.Grows world'.heap → post' value world') :
    Sound program reach world post' result := by
  cases result with
  | ok value world' => exact ⟨h.1, h.2.1, weaker value world' h.2.2 h.1 h.2.1⟩
  | error error world' => exact h

theorem bind {post : α → World → Prop} {post' : β → World → Prop} {action : Run α}
    {next : α → Run β} (first : Sound program reach world post (action world))
    (rest : ∀ value world', world'.Closed program reach → world.heap.Grows world'.heap →
      post value world' → Sound program reach world' post' (next value world')) :
    Sound program reach world post' ((action >>= next) world) := by
  change Sound program reach world post' (EStateM.bind action next world)
  unfold EStateM.bind
  cases hresult : action world with
  | error error world' =>
      rw [hresult] at first
      exact first
  | ok value world' =>
      rw [hresult] at first
      obtain ⟨closed, grows, hpost⟩ := first
      have second := rest value world' closed grows hpost
      change Sound program reach world post' (next value world')
      cases hsecond : next value world' with
      | ok value' world'' =>
          rw [hsecond] at second
          exact ⟨second.1, grows.trans second.2.1, second.2.2⟩
      | error error world'' =>
          rw [hsecond] at second
          exact ⟨second.1, grows.trans second.2.1, second.2.2⟩

theorem get {post : α → World → Prop} {next : World → Run α}
    (h : Sound program reach world post (next world world)) :
    Sound program reach world post ((MonadStateOf.get >>= next) world) := h

theorem ite {post : α → World → Prop} {c : Prop} [Decidable c] {yes no : Run α}
    (h₁ : c → Sound program reach world post (yes world))
    (h₂ : ¬c → Sound program reach world post (no world)) :
    Sound program reach world post ((if c then yes else no) world) := by
  by_cases h : c
  · rw [if_pos h]
    exact h₁ h
  · rw [if_neg h]
    exact h₂ h

/-- A computation whose value is passed on through a pure function. -/
theorem map {post : α → World → Prop} {post' : β → World → Prop} {action : Run α} {f : α → β}
    (first : Sound program reach world post (action world))
    (weaker : ∀ value world', post value world' → post' (f value) world') :
    Sound program reach world post' ((f <$> action) world) :=
  first.bind fun value world' closed _ h => here closed (weaker value world' h)

end Sound

variable (closed : world.Closed program reach)

include closed

theorem sound_newString (text : String) :
    Sound program reach world (fun value world' => value.Alive world'.heap)
      (newString text world) := by
  have grows := world.heap.grows_newString text
  refine Sound.ok (closed.withHeap (closed.heap.newString text) grows fun _ => .inl) grows ?_
  change world.heap.strings.size < (world.heap.strings.push text).size
  simp

theorem sound_newArray {items : Array Value} (alive : ∀ value ∈ items, value.Alive world.heap) :
    Sound program reach world (fun value world' => value.Alive world'.heap)
      (newArray items world) := by
  have grows := world.heap.grows_newArray items
  refine Sound.ok (closed.withHeap (closed.heap.newArray alive) grows fun _ => .inl) grows ?_
  change world.heap.arrays.size < (world.heap.arrays.push items).size
  simp

theorem sound_newInteger (n : Int) :
    Sound program reach world (fun value world' => value.Alive world'.heap)
      (newInteger n world) := by
  unfold newInteger
  split
  · exact Sound.here closed trivial
  · have grows := world.heap.grows_newBignum n
    exact Sound.ok (closed.withHeap (closed.heap.newBignum n) grows fun _ => .inl) grows trivial

theorem sound_newObject (className : String) :
    Sound program reach world (fun value world' => value.Alive world'.heap)
      (newObject className world) := by
  have grows := world.heap.grows_newObject className
  refine Sound.ok (closed.withHeap (closed.heap.newObject className) grows fun _ => .inl) grows ?_
  change world.heap.objects.size < (world.heap.objects.push _).size
  simp

theorem sound_intern (name : String) :
    Sound program reach world (fun value world' => value.Alive world'.heap) (intern name world) :=
  Sound.ok { closed with } (.refl _) trivial

theorem sound_write (text : String) :
    Sound program reach world (fun _ _ => True) (write text world) :=
  Sound.ok { closed with } (.refl _) trivial

theorem sound_modifyHeap {f : Heap → Heap} (heap : (f world.heap).Closed)
    (grows : world.heap.Grows (f world.heap)) (same : (f world.heap).procs = world.heap.procs) :
    Sound program reach world (fun _ _ => True) (modifyHeap f world) :=
  Sound.ok (closed.withHeap heap grows fun _ hp => .inl (same ▸ hp)) grows trivial

theorem sound_expectArgs (args : List Value) (expected : Nat) :
    Sound program reach world (fun _ world' => world' = world)
      (expectArgs args expected world) := by
  unfold expectArgs
  split
  · exact Sound.here closed rfl
  · exact Sound.fault closed (by simp [RuntimeError.wrongArity])

theorem sound_requireBlock {block : Option (Ref .proc)}
    (alive : ∀ cell, block = some cell → cell.Alive world.heap) :
    Sound program reach world (fun cell world' => world' = world ∧ cell.Alive world.heap)
      (requireBlock block world) := by
  cases block with
  | some cell => exact Sound.here closed ⟨rfl, alive cell rfl⟩
  | none => exact Sound.fault closed (by simp [RuntimeError.noBlock])

theorem sound_notConvertible {post : α → World → Prop} (expected : String) (value : Value) :
    Sound program reach world post (notConvertible expected value world) :=
  Sound.fault closed (by simp [RuntimeError.notConvertible])

theorem sound_noMethod {post : α → World → Prop} (name : String) (receiver : Value) :
    Sound program reach world post (noMethod name receiver world) :=
  Sound.fault closed (by simp [RuntimeError.noMethod])

theorem sound_setGlobal (name : String) {value : Value} (alive : value.Alive world.heap) :
    Sound program reach world (fun _ _ => True) (setGlobal name value world) :=
  Sound.ok { closed with globals := closed.globals.set name alive } (.refl _) trivial

theorem sound_setConstant (name : String) {value : Value} (alive : value.Alive world.heap) :
    Sound program reach world (fun _ _ => True) (setConstant name value world) :=
  Sound.ok { closed with constants := closed.constants.set name alive } (.refl _) trivial

/-- A method may be bound to a code object that needs no frame around its own. -/
theorem sound_setMethod (name : String) {method : Method}
    (placed : ∀ position arity, method = .compiled position arity →
      program.Has position ∧ reach position = 0) :
    Sound program reach world (fun _ _ => True) (setMethod name method world) := by
  refine Sound.ok { closed with methods := ?_ } (.refl _) trivial
  intro other position arity found
  change (world.methods.set name method).get? other = _ at found
  rw [Table.get?_set] at found
  split at found
  · exact placed position arity (Option.some.inj found)
  · exact closed.methods other position arity found

/-- A block may be made of a code object that finds the frames it needs. -/
theorem sound_newProc {proc : Proc} (alive : proc.Alive world.heap)
    (placed : program.Has proc.code ∧ world.heap.Deep proc.frame (reach proc.code - 1)) :
    Sound program reach world (fun cell world' => cell.Alive world'.heap)
      (alloc (·.newProc proc) world) := by
  have grows := world.heap.grows_newProc proc
  refine Sound.ok (closed.withHeap (closed.heap.newProc alive) grows ?_) grows ?_
  · intro other ho
    rcases Array.mem_push.mp ho with ho | rfl
    · exact .inl ho
    · exact .inr (placed.imp id (Heap.Deep.mono grows))
  · change world.heap.procs.size < (world.heap.procs.push proc).size
    simp

theorem sound_code {position : UInt32} (has : program.Has position) :
    Sound program reach world (fun _ world' => world' = world) (code program position world) := by
  obtain ⟨found, hfound⟩ := has
  unfold code
  rw [hfound]
  exact Sound.here closed rfl

omit closed in
theorem frame_newFrame (heap : Heap) (frame : Frame) :
    (heap.newFrame frame).2.frame (heap.newFrame frame).1 = frame := by
  simp [Heap.newFrame, Heap.frame]

/-- Preparing a method body makes a frame without a parent. -/
theorem sound_enterMethod {name : String} {position : UInt32} {arity : Nat}
    (method : world.methods.get? name = some (.compiled position arity)) {self : Value}
    (self_alive : self.Alive world.heap) {args : List Value}
    (args_alive : ∀ value ∈ args, value.Alive world.heap) {block : Option (Ref .proc)}
    (block_alive : ∀ cell, block = some cell → cell.Alive world.heap) :
    Answers program reach world (enterMethod program position self args block world) := by
  obtain ⟨⟨body, hbody⟩, flat⟩ := closed.methods name position arity method
  have grows := world.heap.grows_newFrame (.new body.localCount.toNat args none)
  have frame_alive : (Frame.new body.localCount.toNat args none).Alive world.heap :=
    Frame.alive_new args_alive (by simp)
  have step : enterMethod program position self args block world =
      .ok (.enter position { frame := ⟨world.heap.frames.size⟩, self, block })
        { world with heap := (world.heap.newFrame (.new body.localCount.toNat args none)).2 } := by
    simp only [enterMethod, code, hbody, alloc]
    rfl
  rw [step]
  refine Sound.ok (closed.withHeap (closed.heap.newFrame frame_alive) grows fun _ => .inl) grows
    ⟨⟨body, hbody⟩, rfl, ⟨by simp, ?_, self_alive.mono grows,
      fun cell hc => (block_alive cell hc).mono grows⟩, ?_⟩
  · change world.heap.frames.size < (world.heap.frames.push _).size
    simp
  · rw [flat]
    exact Heap.deep_zero _ _

omit closed in
theorem spread_sub {heap : Heap} (h : heap.Closed) {arity : Nat} {args : List Value}
    (alive : ∀ value ∈ args, value.Alive heap) :
    ∀ value ∈ spread heap arity args, value.Alive heap := by
  intro value hv
  unfold spread at hv
  split at hv
  · split at hv
    · exact h.array _ value (by simpa using List.mem_of_mem_take hv)
    · exact alive value (List.mem_of_mem_take hv)
  · exact alive value (List.mem_of_mem_take hv)

/-- Preparing a block makes a frame inside the one that the block closed over. -/
theorem sound_enterBlock {cell : Ref .proc} (cell_alive : cell.Alive world.heap)
    {args : List Value} (args_alive : ∀ value ∈ args, value.Alive world.heap) :
    Sound program reach world
      (fun entry world' => entry.2.Enters program reach world'.heap entry.1)
      (enterBlock program cell args world) := by
  obtain ⟨proc, hproc⟩ : ∃ proc, world.heap.proc? cell = some proc :=
    ⟨_, Array.getElem?_eq_getElem cell_alive⟩
  obtain ⟨⟨body, hbody⟩, deep⟩ := closed.procs proc (Array.mem_of_getElem? hproc)
  let frame := Frame.new body.localCount.toNat (spread world.heap proc.arity args)
    (some proc.frame)
  have proc_alive := closed.heap.proc hproc
  have grows := world.heap.grows_newFrame frame
  have frame_alive : frame.Alive world.heap := by
    refine Frame.alive_new (spread_sub closed.heap args_alive) ?_
    rintro _ ⟨⟩
    exact proc_alive.frame
  have step : enterBlock program cell args world =
      .ok (proc.code, { frame := ⟨world.heap.frames.size⟩, self := proc.self, block := proc.block })
        { world with heap := (world.heap.newFrame frame).2 } := by
    have looked : (get : Run World) world = .ok world world := rfl
    simp only [enterBlock, code, alloc, bind, EStateM.bind, looked, hproc, hbody]
    rfl
  rw [step]
  refine Sound.ok (closed.withHeap (closed.heap.newFrame frame_alive) grows fun _ => .inl) grows
    ⟨⟨body, hbody⟩, rfl, ⟨by simp, ?_, proc_alive.self.mono grows,
      fun cell hc => (proc_alive.block cell hc).mono grows⟩, ?_⟩
  · change world.heap.frames.size < (world.heap.frames.push _).size
    simp
  · have parent := congrArg Frame.parent (frame_newFrame world.heap frame)
    exact ((Heap.deep_succ parent).mpr (deep.mono grows)).le (Nat.le_add_of_sub_le (Nat.le_refl _))

end Run

end BlockScript
