import BlockScript.Machine.Execute
import BlockScript.Proofs.Builtin.Sound
import BlockScript.Proofs.Verifier.Heights

/-!
# What one operation does

An operation that finds its operands on the stack takes and leaves as many as it
declares, goes where its form says, and keeps the world closed. It fails with an error of
the machine only if one of its constants is not of the kind it needs, or if it reaches
outward past the last frame.
-/

namespace BlockScript

namespace Op

/-- Every constant that the operation refers to is of the kind that it needs. -/
def Pooled (pool : Pool) : Op → Prop
  | pushBignum constant => ∃ n, pool.get? constant = some (.bignum n)
  | pushString name | pushSymbol name | getIvar name | setIvar name | getGlobal name
  | setGlobal name | getConst name | setConst name | send name _ _ _ | defineMethod name _ =>
    ∃ text, pool.text? name = some text
  | aliasMethod new old =>
    (∃ text, pool.text? new = some text) ∧ ∃ text, pool.text? old = some text
  | _ => True

/-- How many frames outward the operation looks. -/
def outward : Op → Nat
  | getOuter _ depth | setOuter _ depth => depth.toNat
  | _ => 0

/-- The code objects that the operation refers to exist and find the frames they need:
blocks around the frame that the operation works on, and methods none. -/
def Placed (program : Program) (reach : UInt32 → Nat) (heap : Heap) (frame : Ref .frame) :
    Op → Prop
  | makeClosure code => program.Has code ∧ heap.Deep frame (reach code - 1)
  | send _ _ _ block =>
    ∀ code, block = some code → program.Has code ∧ heap.Deep frame (reach code - 1)
  | defineMethod _ code => program.Has code ∧ reach code = 0
  | _ => True

/-- The errors of the machine itself that the operation may fail with. -/
def Excuses (pool : Pool) (heap : Heap) (frame : Ref .frame) (op : Op)
    (error : RuntimeError) : Prop :=
  (¬op.Pooled pool ∧ ∃ position, error = .badConstant position) ∨
    (¬heap.Deep frame op.outward ∧ ∃ depth, error = .noFrame depth)

end Op

namespace Flow

/-- A body that has to run owes its result to the operation. -/
def owed : Flow → Nat
  | enter _ _ | iterate _ => 1
  | _ => 0

/-- Control goes where the operation may send it, and takes along what exists. -/
def Follows (program : Program) (reach : UInt32 → Nat) (heap : Heap) (op : Op) : Flow → Prop
  | next => op.falls
  | jump offset => op.jumpOffset? = some offset
  | ret value => op = .ret ∧ value.Alive heap
  | enter position callee => op.falls ∧ callee.Enters program reach heap position
  | iterate loop => op.falls ∧ loop.Alive heap

end Flow

namespace Exec

variable {α β : Type} {program : Program} {reach : UInt32 → Nat}
  {excused : RuntimeError → Prop} {activation : Activation} {world : World}

/-- What a computation may come to from an activation in a closed world. Errors of the
machine itself are only the excused ones, and what they leave of the activation exists. -/
def Sound (program : Program) (reach : UInt32 → Nat) (excused : RuntimeError → Prop)
    (world : World) (post : α → Activation → World → Prop) :
    EStateM.Result RuntimeError (Activation × World) α → Prop
  | .ok value (activation, world') =>
    world'.Closed program reach ∧ world.heap.Grows world'.heap ∧ post value activation world'
  | .error error (activation, world') =>
    world'.Closed program reach ∧ world.heap.Grows world'.heap ∧ activation.Alive world'.heap ∧
      (error.kind = .internal → excused error)

namespace Sound

variable {post : α → Activation → World → Prop} {post' : β → Activation → World → Prop}

theorem here {value : α} (closed : world.Closed program reach) (h : post value activation world) :
    Sound program reach excused world post (.ok value (activation, world)) :=
  ⟨closed, .refl _, h⟩

theorem fault {error : RuntimeError} (closed : world.Closed program reach)
    (alive : activation.Alive world.heap) (h : error.kind = .internal → excused error) :
    Sound program reach excused world post (.error error (activation, world)) :=
  ⟨closed, .refl _, alive, h⟩

theorem bind {action : Exec α} {next : α → Exec β}
    (first : Sound program reach excused world post (action (activation, world)))
    (rest : ∀ value activation' world', world'.Closed program reach →
      world.heap.Grows world'.heap → post value activation' world' →
      Sound program reach excused world' post' (next value (activation', world'))) :
    Sound program reach excused world post' ((action >>= next) (activation, world)) := by
  change Sound program reach excused world post' (EStateM.bind action next (activation, world))
  unfold EStateM.bind
  cases hresult : action (activation, world) with
  | error error state =>
      rw [hresult] at first
      exact first
  | ok value state =>
      rw [hresult] at first
      obtain ⟨closed, grows, hpost⟩ := first
      have second := rest value state.1 state.2 closed grows hpost
      change Sound program reach excused world post' (next value state)
      cases hsecond : next value state with
      | ok value' state' =>
          rw [hsecond] at second
          exact ⟨second.1, grows.trans second.2.1, second.2.2⟩
      | error error state' =>
          rw [hsecond] at second
          exact ⟨second.1, grows.trans second.2.1, second.2.2⟩

/-- The operands and the world may be read at any time. -/
theorem get {next : Activation × World → Exec α}
    (h : Sound program reach excused world post (next (activation, world) (activation, world))) :
    Sound program reach excused world post ((MonadStateOf.get >>= next) (activation, world)) := h

theorem own {next : Activation → Exec α}
    (h : Sound program reach excused world post (next activation (activation, world))) :
    Sound program reach excused world post ((Exec.activation >>= next) (activation, world)) := h

end Sound

/-- A computation on the world leaves the activation alone. -/
theorem sound_lift {action : Run α} {post : α → World → Prop}
    (alive : activation.Alive world.heap) (h : Run.Sound program reach world post (action world)) :
    Sound program reach excused world
      (fun value activation' world' => activation' = activation ∧ post value world')
      (lift action (activation, world)) := by
  cases hresult : action world with
  | ok value world' =>
      rw [hresult] at h
      simp only [lift, hresult]
      exact ⟨h.1, h.2.1, rfl, h.2.2⟩
  | error error world' =>
      rw [hresult] at h
      simp only [lift, hresult]
      exact ⟨h.1, h.2.1, alive.mono h.2.1, fun kind => absurd kind h.2.2⟩

section Operands

variable (closed : world.Closed program reach) (alive : activation.Alive world.heap)

include closed alive

theorem sound_pop (enough : 1 ≤ activation.stack.length) :
    Sound program reach excused world
      (fun value activation' world' => world' = world ∧ value.Alive world.heap ∧
        activation' = { activation with stack := activation.stack.drop 1 })
      (pop (activation, world)) := by
  obtain ⟨stack, frame, self, block⟩ := activation
  cases stack with
  | nil => simp at enough
  | cons value stack =>
      exact Sound.here closed ⟨rfl, alive.stack value (List.mem_cons_self ..), rfl⟩

theorem sound_popMany (operation : String) {count : Nat}
    (enough : count ≤ activation.stack.length) :
    Sound program reach excused world
      (fun values activation' world' => world' = world ∧
        (∀ value ∈ values, value.Alive world.heap) ∧
        activation' = { activation with stack := activation.stack.drop count })
      (popMany operation count (activation, world)) := by
  simp only [popMany, if_pos enough, List.splitAt_eq]
  refine Sound.here closed ⟨rfl, ?_, rfl⟩
  intro value hv
  exact alive.stack value (List.mem_of_mem_take (List.mem_reverse.mp hv))

/-- A block over the executing activation. -/
theorem sound_makeProc {position : UInt32}
    (placed : program.Has position ∧ world.heap.Deep activation.frame (reach position - 1)) :
    Sound program reach excused world
      (fun cell activation' world' => activation' = activation ∧ cell.Alive world'.heap)
      (makeProc program position (activation, world)) := by
  refine (sound_lift alive (Run.sound_code closed placed.1)).bind ?_
  rintro code activation world' closed' - ⟨rfl, rfl⟩
  exact sound_lift alive (Run.sound_newProc closed' ⟨alive.frame, alive.self, alive.block⟩ placed)

end Operands

theorem sound_constantText (closed : world.Closed program reach)
    (alive : activation.Alive world.heap) {pool : Pool} {position : UInt32}
    (excuse : (∀ text, pool.text? position ≠ some text) → excused (.badConstant position)) :
    Sound program reach excused world
      (fun _ activation' world' => activation' = activation ∧ world' = world)
      (constantText pool position (activation, world)) := by
  unfold constantText
  cases htext : pool.text? position with
  | some text => exact Sound.here closed ⟨rfl, rfl⟩
  | none => exact Sound.fault closed alive fun _ => excuse (by simp [htext])

theorem sound_outer (closed : world.Closed program reach)
    (alive : activation.Alive world.heap) {depth : UInt32}
    (excuse : ¬world.heap.Deep activation.frame depth.toNat → excused (.noFrame depth)) :
    Sound program reach excused world
      (fun _ activation' world' => activation' = activation ∧ world' = world)
      (outer depth (activation, world)) := by
  refine Sound.get ?_
  cases hframe : world.heap.ancestor? depth.toNat activation.frame with
  | some frame =>
      simp only [hframe]
      exact Sound.here closed ⟨rfl, rfl⟩
  | none =>
      simp only [hframe]
      exact Sound.fault closed alive fun _ => excuse (by simp [Heap.Deep, hframe])

/-- What an operation comes to when it does not fail. -/
structure Outcome (program : Program) (reach : UInt32 → Nat) (op : Op) (before : Activation)
    (flow : Flow) (activation : Activation) (world : World) : Prop where
  alive : activation.Alive world.heap
  frame : activation.frame = before.frame
  height : activation.stack.length + flow.owed = before.stack.length - op.pops + op.pushes
  control : flow.Follows program reach world.heap op

/-- The operation comes to what it declares. -/
abbrev Faithful (program : Program) (reach : UInt32 → Nat) (op : Op) (activation : Activation)
    (world : World) : Prop :=
  Sound program reach (op.Excuses program.constants world.heap activation.frame) world
    (Outcome program reach op activation) (perform program op (activation, world))

section Finish

variable {op : Op} {before : Activation}

theorem sound_pushNext (closed : world.Closed program reach)
    (alive : activation.Alive world.heap) {value : Value} (value_alive : value.Alive world.heap)
    (frame : activation.frame = before.frame)
    (height : activation.stack.length + 1 = before.stack.length - op.pops + op.pushes)
    (falls : op.falls) :
    Sound program reach excused world (Outcome program reach op before)
      (pushNext value (activation, world)) := by
  refine Sound.here closed ⟨⟨?_, alive.frame, alive.self, alive.block⟩, frame, ?_, falls⟩
  · intro other ho
    rcases List.mem_cons.mp ho with rfl | ho
    · exact value_alive
    · exact alive.stack other ho
  · simpa [Flow.owed] using height

/-- Pushing a value that is made. -/
theorem sound_pushMade {make : Run Value} (alive : activation.Alive world.heap)
    (made : Run.Sound program reach world (fun value world' => value.Alive world'.heap) (make world))
    (frame : activation.frame = before.frame)
    (height : activation.stack.length + 1 = before.stack.length - op.pops + op.pushes)
    (falls : op.falls) :
    Sound program reach excused world (Outcome program reach op before)
      ((do pushNext (← lift make) : Exec Flow) (activation, world)) := by
  refine (sound_lift alive made).bind ?_
  rintro value activation world' closed grows ⟨rfl, value_alive⟩
  exact sound_pushNext closed (alive.mono grows) value_alive frame height falls

theorem sound_next (closed : world.Closed program reach) (alive : activation.Alive world.heap)
    (frame : activation.frame = before.frame)
    (height : activation.stack.length = before.stack.length - op.pops + op.pushes)
    (falls : op.falls) :
    Sound program reach excused world (Outcome program reach op before)
      (.ok .next (activation, world)) :=
  Sound.here closed ⟨alive, frame, height, falls⟩

theorem sound_answer (closed : world.Closed program reach) (alive : activation.Alive world.heap)
    {reply : Reply} (reply_alive : reply.Alive program reach world)
    (frame : activation.frame = before.frame)
    (height : activation.stack.length + 1 = before.stack.length - op.pops + op.pushes)
    (falls : op.falls) :
    Sound program reach excused world (Outcome program reach op before)
      (answer reply (activation, world)) := by
  cases reply with
  | value value => exact sound_pushNext closed alive reply_alive frame height falls
  | enter position callee =>
      exact Sound.here closed ⟨alive, frame, height, falls, reply_alive⟩
  | iterate loop => exact Sound.here closed ⟨alive, frame, height, falls, reply_alive⟩

/-- A conditional jump takes its operand and goes on at one of two places. -/
theorem sound_jumpWhen (closed : world.Closed program reach)
    (alive : activation.Alive world.heap) (truthy : Bool) {offset : Int32}
    (enough : 1 ≤ activation.stack.length) (target : op.jumpOffset? = some offset)
    (height : activation.stack.length - 1 = activation.stack.length - op.pops + op.pushes)
    (falls : op.falls) :
    Sound program reach excused world (Outcome program reach op activation)
      (jumpWhen truthy offset (activation, world)) := by
  refine (sound_pop closed alive enough).bind ?_
  rintro value _ world' closed' - ⟨rfl, -, rfl⟩
  have height' : ({ activation with stack := activation.stack.drop 1 } : Activation).stack.length =
      activation.stack.length - op.pops + op.pushes := by simpa using height
  have alive' := alive.drop 1
  by_cases h : value.isTruthy = truthy
  · simp only [h, if_true]
    exact Sound.here closed' ⟨alive', rfl, height', target⟩
  · simp only [h, if_false]
    exact Sound.here closed' ⟨alive', rfl, height', falls⟩

end Finish

/-- Taking operands and pushing a result. -/
theorem length_drop_succ (stack : List Value) (count : Nat) :
    (stack.drop count).length + 1 = stack.length - count + 1 :=
  congrArg (· + 1) List.length_drop

theorem excuses_text {pool : Pool} {heap : Heap} {frame : Ref .frame} {op : Op} {name : UInt32}
    (needs : op.Pooled pool → ∃ text, pool.text? name = some text)
    (missing : ∀ text, pool.text? name ≠ some text) :
    op.Excuses pool heap frame (.badConstant name) := by
  refine .inl ⟨fun pooled => ?_, name, rfl⟩
  obtain ⟨text, htext⟩ := needs pooled
  exact missing text htext

section Perform

variable (closed : world.Closed program reach) (alive : activation.Alive world.heap)

include closed alive

/-- Making a value of a constant. -/
theorem sound_pushConstant {op : Op} {name : UInt32} {make : String → Run Value}
    (needs : op.Pooled program.constants → ∃ text, program.constants.text? name = some text)
    (made : ∀ text, Run.Sound program reach world (fun value world' => value.Alive world'.heap)
      (make text world))
    (pops : op.pops = 0) (pushes : op.pushes = 1) (falls : op.falls) :
    Sound program reach (op.Excuses program.constants world.heap activation.frame) world
      (Outcome program reach op activation)
      ((do
        pushNext (← lift (make (← constantText program.constants name))) : Exec Flow)
        (activation, world)) := by
  refine (sound_constantText closed alive (excuses_text needs)).bind ?_
  rintro text activation world closed' - ⟨rfl, rfl⟩
  exact sound_pushMade alive (made text) rfl (by simp [pops, pushes]) falls

/-- Storing an operand under a name of the pool. -/
theorem sound_store {op : Op} {name : UInt32} {store : String → Value → Run Unit}
    (needs : op.Pooled program.constants → ∃ text, program.constants.text? name = some text)
    (stored : ∀ text value, value.Alive world.heap →
      Run.Sound program reach world (fun _ _ => True) (store text value world))
    (enough : 1 ≤ activation.stack.length) (pops : op.pops = 1) (pushes : op.pushes = 0)
    (falls : op.falls) :
    Sound program reach (op.Excuses program.constants world.heap activation.frame) world
      (Outcome program reach op activation)
      ((do
        let text ← constantText program.constants name
        let value ← pop
        lift (store text value)
        return .next : Exec Flow) (activation, world)) := by
  refine (sound_constantText closed alive (excuses_text needs)).bind ?_
  rintro text activation world closed' - ⟨rfl, rfl⟩
  refine (sound_pop closed alive enough).bind ?_
  rintro value _ world closed' - ⟨rfl, value_alive, rfl⟩
  refine (sound_lift (alive.drop 1) (stored text value value_alive)).bind ?_
  rintro _ _ world' closed'' grows ⟨rfl, -⟩
  exact sound_next closed'' ((alive.drop 1).mono grows) rfl (by simp [pops, pushes]) falls

/-- Storing an operand in a frame. -/
theorem sound_storeLocal {op : Op} {frame : Ref .frame} {slot : Nat} {value : Value}
    (value_alive : value.Alive world.heap) {before : Activation}
    (frame_eq : activation.frame = before.frame)
    (height : activation.stack.length = before.stack.length - op.pops + op.pushes)
    (falls : op.falls) :
    Sound program reach excused world (Outcome program reach op before)
      ((do
        lift (Run.modifyHeap (·.setLocal frame slot value))
        return .next : Exec Flow) (activation, world)) := by
  refine (sound_lift alive (Run.sound_modifyHeap closed
    (closed.heap.setLocal frame slot value_alive)
    (world.heap.grows_setLocal frame slot value) rfl)).bind ?_
  rintro _ _ world' closed' grows ⟨rfl, -⟩
  exact sound_next closed' (alive.mono grows) frame_eq height falls

/-- What a call does once its operands are taken: it makes its block, over the frame it
works on, and is answered. -/
theorem sound_call {op : Op} {before : Activation} {name : String} {args : List Value}
    {receiver : Value} {block : Option UInt32} (receiver_alive : receiver.Alive world.heap)
    (args_alive : ∀ value ∈ args, value.Alive world.heap)
    (placed : ∀ code, block = some code →
      program.Has code ∧ world.heap.Deep activation.frame (reach code - 1))
    (frame : activation.frame = before.frame)
    (height : activation.stack.length + 1 = before.stack.length - op.pops + op.pushes)
    (falls : op.falls) :
    Sound program reach excused world (Outcome program reach op before)
      ((do
        let block ← block.mapM (makeProc program)
        answer (← lift (Run.dispatch program receiver name args block)) : Exec Flow)
        (activation, world)) := by
  have made : Sound program reach excused world
      (fun cell after world' => after = activation ∧ ∀ c, cell = some c → c.Alive world'.heap)
      (block.mapM (makeProc program) (activation, world)) := by
    cases block with
    | none => exact Sound.here closed ⟨rfl, by simp⟩
    | some code =>
        refine (sound_makeProc closed alive (placed code rfl)).bind ?_
        rintro cell activation world' closed' - ⟨rfl, cell_alive⟩
        refine Sound.here closed' ⟨rfl, ?_⟩
        rintro _ ⟨rfl⟩
        exact cell_alive
  refine made.bind ?_
  rintro cell activation world' closed' grows ⟨rfl, cell_alive⟩
  refine (sound_lift (alive.mono grows) (Builtin.sound_dispatch closed' (receiver_alive.mono grows)
    (forall_alive_mono grows args_alive) cell_alive name)).bind ?_
  rintro reply activation world'' closed'' grows' ⟨rfl, reply_alive⟩
  exact sound_answer closed'' (alive.mono (grows.trans grows')) reply_alive frame height falls

/-- A call takes its arguments and then the receiver. -/
theorem sound_send {name argc : UInt32} {receiver : Bool} {block : Option UInt32}
    (enough : argc.toNat + receiver.toNat ≤ activation.stack.length)
    (placed : ∀ code, block = some code →
      program.Has code ∧ world.heap.Deep activation.frame (reach code - 1)) :
    Faithful program reach (.send name argc receiver block) activation world := by
  refine (sound_constantText closed alive (excuses_text id)).bind ?_
  rintro text activation world closed - ⟨rfl, rfl⟩
  refine (sound_popMany closed alive "SEND" (by omega)).bind ?_
  rintro args _ world closed - ⟨rfl, args_alive, rfl⟩
  have rest_alive := alive.drop argc.toNat
  cases receiver with
  | true =>
      simp only [Bool.toNat_true] at enough
      refine (sound_pop closed rest_alive (by simp; omega)).bind ?_
      rintro receiver _ world closed - ⟨rfl, receiver_alive, rfl⟩
      refine sound_call closed (rest_alive.drop 1) receiver_alive args_alive placed rfl ?_ rfl
      rw [List.drop_drop]
      exact length_drop_succ _ _
  | false =>
      exact sound_call closed rest_alive alive.self args_alive placed rfl
        (length_drop_succ _ _) rfl

/-- A yield calls the block of the activation. -/
theorem sound_yield {argc : UInt32} (enough : argc.toNat ≤ activation.stack.length) :
    Faithful program reach (.yield argc) activation world := by
  refine (sound_popMany closed alive "YIELD" enough).bind ?_
  rintro args _ world closed - ⟨rfl, args_alive, rfl⟩
  have rest_alive := alive.drop argc.toNat
  have height : (activation.stack.drop argc.toNat).length + 1 =
      activation.stack.length - (Op.yield argc).pops + (Op.yield argc).pushes :=
    length_drop_succ _ _
  refine Sound.own ?_
  cases hblock : activation.block with
  | none =>
      simp only
      rw [hblock] at rest_alive
      exact Sound.fault closed rest_alive (by simp [RuntimeError.noBlock])
  | some cell =>
      simp only
      rw [hblock] at rest_alive
      refine (sound_lift rest_alive (Run.sound_enterBlock closed (alive.block cell hblock)
        args_alive)).bind ?_
      rintro ⟨position, callee⟩ _ world' closed' grows ⟨rfl, enters⟩
      exact Sound.here closed' ⟨rest_alive.mono grows, rfl, height, rfl, enters⟩

/-- The constant has to be a large integer. -/
theorem sound_pushBignum (constant : UInt32) :
    Faithful program reach (.pushBignum constant) activation world := by
  have bad : (∀ n, program.constants.get? constant ≠ some (.bignum n)) →
      (Op.pushBignum constant).Excuses program.constants world.heap activation.frame
        (.badConstant constant) :=
    fun missing => .inl ⟨fun ⟨n, hn⟩ => missing n hn, constant, rfl⟩
  unfold Faithful
  cases hconstant : program.constants.get? constant with
  | none =>
      simp only [perform, hconstant]
      exact Sound.fault closed alive fun _ => bad (by simp [hconstant])
  | some found =>
      cases found with
      | bignum n =>
          simp only [perform, hconstant]
          exact sound_pushMade alive (Run.sound_newInteger closed n) rfl rfl rfl
      | _ =>
          simp only [perform, hconstant]
          exact Sound.fault closed alive fun _ => bad (by simp [hconstant])

theorem sound_dup (enough : 1 ≤ activation.stack.length) :
    Faithful program reach .dup activation world := by
  refine Sound.own ?_
  obtain ⟨stack, frame, self, block⟩ := activation
  cases stack with
  | nil => exact absurd enough (Nat.not_succ_le_zero 0)
  | cons top stack =>
      exact sound_pushNext closed alive (alive.stack top (List.mem_cons_self ..)) rfl rfl rfl

theorem sound_setOuter (index depth : UInt32) (enough : 1 ≤ activation.stack.length) :
    Faithful program reach (.setOuter index depth) activation world := by
  refine (sound_pop closed alive enough).bind ?_
  rintro value _ world closed - ⟨rfl, value_alive, rfl⟩
  refine (sound_outer closed (alive.drop 1) fun missing => .inr ⟨missing, depth, rfl⟩).bind ?_
  rintro frame _ world closed - ⟨rfl, rfl⟩
  exact sound_storeLocal closed (alive.drop 1) value_alive rfl
    List.length_drop rfl

theorem sound_getIvar (constant : UInt32) :
    Faithful program reach (.getIvar constant) activation world := by
  refine (sound_constantText closed alive (excuses_text id)).bind ?_
  rintro name activation world closed - ⟨rfl, rfl⟩
  refine Sound.get ?_
  cases hself : activation.self with
  | object cell =>
      simp only [hself]
      exact sound_pushNext closed alive ((closed.heap.object cell).getD name) rfl rfl rfl
  | _ =>
      simp only [hself]
      exact sound_pushNext closed alive trivial rfl rfl rfl

/-- Only objects have instance variables that can be set. -/
theorem sound_setIvar (constant : UInt32) (enough : 1 ≤ activation.stack.length) :
    Faithful program reach (.setIvar constant) activation world := by
  refine (sound_constantText closed alive (excuses_text id)).bind ?_
  rintro name activation world closed - ⟨rfl, rfl⟩
  refine (sound_pop closed alive enough).bind ?_
  rintro value _ world closed - ⟨rfl, value_alive, rfl⟩
  have rest_alive := alive.drop 1
  refine Sound.own ?_
  cases hself : activation.self with
  | object cell =>
      simp only
      rw [hself] at rest_alive
      refine (sound_lift rest_alive (Run.sound_modifyHeap closed
        (closed.heap.setIvar cell name value_alive)
        (world.heap.grows_setIvar cell name value) rfl)).bind ?_
      rintro _ _ world' closed' grows ⟨rfl, -⟩
      exact sound_next closed' (rest_alive.mono grows) rfl List.length_drop rfl
  | _ =>
      simp only
      rw [hself] at rest_alive
      exact Sound.fault closed rest_alive (by simp [RuntimeError.noInstanceVariables])

theorem sound_getGlobal (constant : UInt32) :
    Faithful program reach (.getGlobal constant) activation world := by
  refine (sound_constantText closed alive (excuses_text id)).bind ?_
  rintro name activation world closed - ⟨rfl, rfl⟩
  exact Sound.get (sound_pushNext closed alive (closed.globals.getD name) rfl rfl rfl)

theorem sound_getConst (constant : UInt32) :
    Faithful program reach (.getConst constant) activation world := by
  refine (sound_constantText closed alive (excuses_text id)).bind ?_
  rintro name activation world closed - ⟨rfl, rfl⟩
  refine Sound.get ?_
  cases hfound : world.constants.get? name with
  | none =>
      simp only
      exact Sound.fault closed alive (by simp [RuntimeError.noConstant])
  | some value =>
      simp only
      exact sound_pushNext closed alive (closed.constants.get? hfound) rfl rfl rfl

theorem sound_makeArray {count : UInt32} (enough : count.toNat ≤ activation.stack.length) :
    Faithful program reach (.makeArray count) activation world := by
  refine (sound_popMany closed alive "MAKE_ARRAY" enough).bind ?_
  rintro items _ world closed - ⟨rfl, items_alive, rfl⟩
  exact sound_pushMade (alive.drop _) (Run.sound_newArray closed (by simpa using items_alive)) rfl
    (length_drop_succ _ _) rfl

/-- An array is copied, and any other value is an array of its own. -/
theorem sound_toArray (enough : 1 ≤ activation.stack.length) :
    Faithful program reach .toArray activation world := by
  refine (sound_pop closed alive enough).bind ?_
  rintro value _ world closed - ⟨rfl, value_alive, rfl⟩
  have wrap (items : Array Value) (items_alive : ∀ value ∈ items, value.Alive world.heap) :
      Sound program reach (Op.toArray.Excuses program.constants world.heap activation.frame) world
        (Outcome program reach .toArray activation)
        ((do pushNext (← lift (Run.newArray items)) : Exec Flow)
          ({ activation with stack := activation.stack.drop 1 }, world)) :=
    sound_pushMade (alive.drop 1) (Run.sound_newArray closed items_alive) rfl
      (length_drop_succ _ _) rfl
  cases value with
  | array cell => exact wrap _ (closed.heap.array cell)
  | nil => exact wrap _ (by simp)
  | _ => exact wrap _ (by simpa using value_alive)

theorem sound_makeClosure {code : UInt32}
    (placed : program.Has code ∧ world.heap.Deep activation.frame (reach code - 1)) :
    Faithful program reach (.makeClosure code) activation world := by
  refine (sound_makeProc closed alive placed).bind ?_
  rintro cell activation world' closed' grows ⟨rfl, cell_alive⟩
  exact sound_pushNext closed' (alive.mono grows) cell_alive rfl rfl rfl

theorem sound_defineMethod {constant position : UInt32}
    (placed : program.Has position ∧ reach position = 0) :
    Faithful program reach (.defineMethod constant position) activation world := by
  refine (sound_constantText closed alive (excuses_text id)).bind ?_
  rintro name activation world closed - ⟨rfl, rfl⟩
  refine (sound_lift alive (Run.sound_code closed placed.1)).bind ?_
  rintro code activation world closed - ⟨rfl, rfl⟩
  refine (sound_lift alive (Run.sound_setMethod closed name ?_)).bind ?_
  · rintro _ _ ⟨rfl, rfl⟩
    exact placed
  · rintro _ activation world' closed' grows ⟨rfl, -⟩
    exact sound_next closed' (alive.mono grows) rfl rfl rfl

theorem sound_aliasMethod (new old : UInt32) :
    Faithful program reach (.aliasMethod new old) activation world := by
  refine (sound_constantText closed alive (excuses_text And.left)).bind ?_
  rintro newName activation world closed - ⟨rfl, rfl⟩
  refine (sound_constantText closed alive (excuses_text And.right)).bind ?_
  rintro oldName activation world closed - ⟨rfl, rfl⟩
  refine (sound_lift alive (Run.sound_aliasMethod closed newName oldName)).bind ?_
  rintro _ activation world' closed' grows ⟨rfl, -⟩
  exact sound_next closed' (alive.mono grows) rfl rfl rfl

/-- An operation that finds its operands does what it declares. -/
theorem sound_perform {op : Op} (enough : op.pops ≤ activation.stack.length)
    (placed : op.Placed program reach world.heap activation.frame) :
    Sound program reach (op.Excuses program.constants world.heap activation.frame) world
      (Outcome program reach op activation) (perform program op (activation, world)) := by
  cases op with
  | pushNil | pushTrue | pushFalse | pushFixnum =>
      exact sound_pushNext closed alive trivial rfl rfl rfl
  | pushSelf => exact sound_pushNext closed alive alive.self rfl rfl rfl
  | pushBignum constant => exact sound_pushBignum closed alive constant
  | pushString constant =>
      exact sound_pushConstant closed alive id (Run.sound_newString closed) rfl rfl rfl
  | pushSymbol constant =>
      exact sound_pushConstant closed alive id (Run.sound_intern closed) rfl rfl rfl
  | pop =>
      refine (sound_pop closed alive enough).bind ?_
      rintro value _ world closed' - ⟨rfl, -, rfl⟩
      exact sound_next closed (alive.drop 1) rfl List.length_drop rfl
  | dup => exact sound_dup closed alive enough
  | getLocal index =>
      exact sound_pushNext closed alive (closed.heap.getLocal _ _) rfl rfl rfl
  | setLocal index =>
      refine (sound_pop closed alive enough).bind ?_
      rintro value _ world closed - ⟨rfl, value_alive, rfl⟩
      exact sound_storeLocal closed (alive.drop 1) value_alive rfl
        List.length_drop rfl
  | getOuter index depth =>
      refine (sound_outer closed alive fun missing => .inr ⟨missing, depth, rfl⟩).bind ?_
      rintro frame activation world closed - ⟨rfl, rfl⟩
      exact sound_pushNext closed alive (closed.heap.getLocal _ _) rfl rfl rfl
  | setOuter index depth => exact sound_setOuter closed alive index depth enough
  | getIvar constant => exact sound_getIvar closed alive constant
  | setIvar constant => exact sound_setIvar closed alive constant enough
  | getGlobal constant => exact sound_getGlobal closed alive constant
  | setGlobal constant =>
      exact sound_store closed alive id (fun text _ => Run.sound_setGlobal closed text) enough
        rfl rfl rfl
  | getConst constant => exact sound_getConst closed alive constant
  | setConst constant =>
      exact sound_store closed alive id (fun text _ => Run.sound_setConstant closed text) enough
        rfl rfl rfl
  | makeArray count => exact sound_makeArray closed alive enough
  | toArray => exact sound_toArray closed alive enough
  | send name argc receiver block => exact sound_send closed alive enough placed
  | yield argc => exact sound_yield closed alive enough
  | makeClosure code => exact sound_makeClosure closed alive placed
  | defineMethod constant position => exact sound_defineMethod closed alive placed
  | aliasMethod new old => exact sound_aliasMethod closed alive new old
  | not =>
      refine (sound_pop closed alive enough).bind ?_
      rintro value _ world closed - ⟨rfl, -, rfl⟩
      exact sound_pushNext closed (alive.drop 1) trivial rfl (length_drop_succ _ _) rfl
  | jump offset => exact Sound.here closed ⟨alive, rfl, rfl, rfl⟩
  | jumpIfFalse offset => exact sound_jumpWhen closed alive false enough rfl rfl rfl
  | jumpIfTrue offset => exact sound_jumpWhen closed alive true enough rfl rfl rfl
  | ret =>
      refine (sound_pop closed alive enough).bind ?_
      rintro value _ world closed - ⟨rfl, value_alive, rfl⟩
      exact Sound.here closed ⟨alive.drop 1, rfl, List.length_drop,
        rfl, value_alive⟩

end Perform

end Exec

end BlockScript
