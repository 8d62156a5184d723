import BlockScript.Machine.Execute
import BlockScript.Proofs.Builtin.Effect

/-!
# What executing an operation does to a world

An operation moves known values between the operands and control, stores one of them, makes a
block over its activation or has a message answered; a call with a block does the last two. The
frame, the self and the block of its activation stay as they are. An operation that fails has
changed nothing but for the block that it may have made.
-/

namespace BlockScript

/-- The code object that the operation makes a block of. -/
def Op.closure? : Op → Option UInt32
  | .makeClosure code => some code
  | .send _ _ _ block => block
  | _ => none

/-- The block that an operation makes of a body. -/
def Activation.close (activation : Activation) (position : UInt32) (body : Code) : Proc where
  code := position
  arity := body.arity.toNat
  frame := activation.frame
  self := activation.self
  block := activation.block

/-- The world with one more block. -/
def World.addProc (world : World) (proc : Proc) : World :=
  { world with heap := (world.heap.newProc proc).2 }

/-- The block that is added next. -/
def World.nextProc (world : World) : Ref .proc := ⟨world.heap.procs.size⟩

/-- Where control goes after a reply. -/
def Reply.flow : Reply → Flow
  | .value _ => .next
  | .enter code activation => .enter code activation
  | .iterate loop => .iterate loop

/-- The operands after a reply. -/
def Reply.onto (stack : List Value) : Reply → List Value
  | .value result => result :: stack
  | .enter _ _ | .iterate _ => stack

/-- Control stays in the body, or leaves it with a known value. -/
def Flow.Local (known : Value → Prop) : Flow → Prop
  | .next | .jump _ => True
  | .ret value => known value
  | .enter _ _ | .iterate _ => False

/-- What an operation may store. -/
inductive World.Stores (program : Program) (known : Value → Prop) (op : Op) (world : World) :
    World → Prop where
  | slot (frame : Ref .frame) (slot : Nat) {value : Value} (h : known value) :
      Stores program known op world { world with heap := world.heap.setLocal frame slot value }
  | ivar (cell : Ref .object) (name : String) {value : Value} (h : known value) :
      Stores program known op world { world with heap := world.heap.setIvar cell name value }
  | global (name : String) {value : Value} (h : known value) :
      Stores program known op world { world with globals := world.globals.set name value }
  | constant (name : String) {value : Value} (h : known value) :
      Stores program known op world { world with constants := world.constants.set name value }
  | method {constant position : UInt32} {body : Code} (name : String)
      (defines : op = .defineMethod constant position) (code : program.code? position = some body) :
      Stores program known op world
        { world with
          methods := world.methods.set name (.compiled position body.arity.toNat) }
  | renamed {old : String} {method : Method} (name : String)
      (bound : world.methods.get? old = some method) :
      Stores program known op world { world with methods := world.methods.set name method }
  | builtin (name old : String) :
      Stores program known op world { world with methods := world.methods.set name (.builtin old) }

namespace Exec

/-- What an operation may come to, and what it may do to the world. -/
inductive Effect (program : Program) (known : Value → Prop) (op : Op) (before : Activation)
    (world : World) : Flow → Activation → World → Prop where
  | moves {flow : Flow} {stack : List Value} (control : flow.Local known)
      (all : ∀ value ∈ stack, known value) :
      Effect program known op before world flow { before with stack } world
  | stores {stack : List Value} {after : World} (all : ∀ value ∈ stack, known value)
      (stored : world.Stores program known op after) :
      Effect program known op before world .next { before with stack } after
  | answers {stack : List Value} {reply : Reply} {after : World}
      (all : ∀ value ∈ stack, known value) (effect : Run.Effect program known world reply after) :
      Effect program known op before world reply.flow { before with stack := reply.onto stack } after
  | closes {stack : List Value} {position : UInt32} {body : Code}
      (all : ∀ value ∈ stack, known value) (block : op.closure? = some position)
      (code : program.code? position = some body) :
      Effect program known op before world .next
        { before with stack := .proc world.nextProc :: stack }
        (world.addProc (before.close position body))
  /-- The block is made first, and then the message is answered. -/
  | closesAndAnswers {stack : List Value} {position : UInt32} {body : Code} {reply : Reply}
      {after : World} (all : ∀ value ∈ stack, known value) (block : op.closure? = some position)
      (code : program.code? position = some body)
      (effect : Run.Effect program (fun value => known value ∨ value = .proc world.nextProc)
        (world.addProc (before.close position body)) reply after) :
      Effect program known op before world reply.flow { before with stack := reply.onto stack } after

/-- What an operation that fails may leave. -/
inductive Leaves (program : Program) (op : Op) (before : Activation) (world : World) :
    World → Prop where
  | same : Leaves program op before world world
  | closed {position : UInt32} {body : Code} (block : op.closure? = some position)
      (code : program.code? position = some body) :
      Leaves program op before world (world.addProc (before.close position body))

/-- The operation has one effect, or fails and leaves next to nothing. -/
abbrev Acts (program : Program) (known : Value → Prop) (op : Op) (before : Activation)
    (world : World) (action : Exec Flow) (state : Activation × World) : Prop :=
  Ends action state (fun flow after => Effect program known op before world flow after.1 after.2)
    fun _ after => Leaves program op before world after.2

/-- Nothing was changed but the operands, and they are known. -/
inductive Ready (known : Value → Prop) (before : Activation) (world : World) :
    Activation × World → Prop where
  | mk {stack : List Value} (all : ∀ value ∈ stack, known value) :
      Ready known before world ({ before with stack }, world)

variable {α : Type} {program : Program} {known : Value → Prop} {op : Op} {before : Activation}
  {world : World} {state : Activation × World}

/-- The computation takes operands at most. -/
abbrev Takes (known : Value → Prop) (before : Activation) (world : World) (action : Exec α)
    (state : Activation × World) (post : α → Prop) : Prop :=
  Ends action state (fun value after => Ready known before world after ∧ post value)
    fun _ after => after.2 = world

/-- What follows a computation that takes operands at most. -/
theorem Takes.acts {action : Exec α} {next : α → Exec Flow} {post : α → Prop}
    (h : Takes known before world action state post)
    (rest : ∀ value after, Ready known before world after → post value →
      Acts program known op before world (next value) after) :
    Acts program known op before world (action >>= next) state := by
  have kept : Ends action state (fun value after => Ready known before world after ∧ post value)
      fun _ after => Leaves program op before world after.2 := by
    refine Ends.mono h (fun _ _ => id) ?_
    rintro _ after same
    exact same ▸ .same
  exact kept.bind fun value after ready => rest value after ready.1 ready.2

section Steps

variable (ready : Ready known before world state)

include ready

theorem acts_next : Acts program known op before world (return .next) state := by
  obtain ⟨all⟩ := ready
  exact Effect.moves trivial all

theorem acts_pushNext {value : Value} (h : known value) :
    Acts program known op before world (pushNext value) state := by
  obtain ⟨all⟩ := ready
  exact Effect.moves trivial (List.forall_mem_cons.mpr ⟨h, all⟩)

theorem acts_throw (error : RuntimeError) :
    Acts program known op before world (throw error) state := by
  obtain ⟨all⟩ := ready
  exact Leaves.same

theorem takes_pop : Takes known before world pop state known := by
  obtain ⟨all⟩ := ready
  rename_i stack
  cases stack with
  | nil => exact (rfl : world = world)
  | cons value rest =>
      obtain ⟨value_known, rest_known⟩ := List.forall_mem_cons.mp all
      exact ⟨.mk rest_known, value_known⟩

theorem takes_popMany (operation : String) (count : Nat) :
    Takes known before world (popMany operation count) state
      fun values => ∀ value ∈ values, known value := by
  obtain ⟨all⟩ := ready
  rename_i stack
  unfold Takes Ends popMany
  dsimp only
  by_cases enough : count ≤ stack.length
  · simp only [if_pos enough, List.splitAt_eq]
    refine ⟨.mk fun value member => all value (List.mem_of_mem_drop member), ?_⟩
    exact fun value member => all value (List.mem_of_mem_take (List.mem_reverse.mp member))
  · rw [if_neg enough]

theorem takes_constantText (position : UInt32) :
    Takes known before world (constantText program.constants position) state fun _ => True := by
  obtain ⟨all⟩ := ready
  unfold constantText
  cases program.constants.text? position with
  | some text => exact ⟨.mk all, trivial⟩
  | none => exact (rfl : world = world)

theorem takes_outer (depth : UInt32) :
    Takes known before world (outer depth) state fun _ => True := by
  obtain ⟨all⟩ := ready
  refine .get ?_
  dsimp only
  cases world.heap.ancestor? depth.toNat before.frame with
  | some frame => exact ⟨.mk all, trivial⟩
  | none => exact (rfl : world = world)

theorem takes_code (position : UInt32) :
    Takes known before world (lift (Run.code program position)) state
      fun body => program.code? position = some body := by
  obtain ⟨all⟩ := ready
  unfold Takes Ends lift Run.code
  cases found : program.code? position with
  | some body => exact ⟨.mk all, rfl⟩
  | none => exact (rfl : world = world)

theorem takes_activation : Takes known before world activation state fun own =>
    own.self = before.self ∧ own.block = before.block ∧ ∀ value ∈ own.stack, known value := by
  obtain ⟨all⟩ := ready
  exact ⟨.mk all, rfl, rfl, all⟩

theorem takes_self (own : before.All known) :
    Takes known before world ((·.self) <$> activation) state known := by
  obtain ⟨all⟩ := ready
  exact ⟨.mk all, own.self⟩

/-- A value that one effect makes is pushed. -/
theorem acts_made {action : Run Value} (h : Run.Made program known action world) :
    Acts program known op before world (do pushNext (← lift action)) state := by
  obtain ⟨all⟩ := ready
  rename_i stack
  change Ends (EStateM.bind (lift action) pushNext) _ _ _
  unfold Ends EStateM.bind lift
  dsimp only
  cases run : action world with
  | ok value after => exact Effect.answers all (h.ok run)
  | error error after => exact h.error run ▸ Leaves.same

/-- A change that stores something. -/
theorem acts_stores {action : Run Unit} (h : Ends action world
      (fun _ after => world.Stores program known op after) fun _ after => after = world) :
    Acts program known op before world
      (do
        lift action
        return .next) state := by
  obtain ⟨all⟩ := ready
  change Ends (EStateM.bind (lift action) _) _ _ _
  unfold Ends EStateM.bind lift
  dsimp only
  cases run : action world with
  | ok _ after => exact Effect.stores all (h.ok run)
  | error error after => exact h.error run ▸ Leaves.same

/-- A reply is pushed or left to run. -/
theorem acts_answer {action : Run Reply} (h : Run.Answered program known action world) :
    Acts program known op before world (do answer (← lift action)) state := by
  obtain ⟨all⟩ := ready
  rename_i stack
  change Ends (EStateM.bind (lift action) answer) _ _ _
  unfold Ends EStateM.bind lift
  dsimp only
  cases run : action world with
  | ok reply after =>
      have effect : Effect program known op before world reply.flow
          { before with stack := reply.onto stack } after := .answers all (h.ok run)
      cases reply <;> exact effect
  | error error after => exact h.error run ▸ Leaves.same

theorem acts_jumpWhen (truthy : Bool) (offset : Int32) :
    Acts program known op before world (jumpWhen truthy offset) state := by
  refine (takes_pop ready).acts fun value after ready _ => ?_
  obtain ⟨all⟩ := ready
  exact .ite (fun _ => Effect.moves trivial all) fun _ => Effect.moves trivial all

end Steps

/-! ## Blocks and calls -/

/-- What is known of a world, and the block that is added to it, is known of the larger one. -/
theorem knows_addProc (knows : world.Knows known) (all : before.All known) (position : UInt32)
    (body : Code) :
    (world.addProc (before.close position body)).Knows
      fun value => known value ∨ value = .proc world.nextProc where
  plain value h := .inl (knows.plain value h)
  held value held := by
    apply Or.inl
    cases held with
    | element cell member => exact knows.held _ (.element cell member)
    | ivar cell member => exact knows.held _ (.ivar cell member)
    | slot cell member => exact knows.held _ (.slot cell member)
    | self cell =>
        rcases Array.mem_push.mp cell with cell | rfl
        · exact knows.held _ (.self cell)
        · exact all.self
    | block member given =>
        rcases Array.mem_push.mp member with member | rfl
        · exact knows.held _ (.block member given)
        · exact all.block _ given
    | global member => exact knows.held _ (.global member)
    | constant member => exact knows.held _ (.constant member)
    | call member given => exact knows.held _ (.call member given)

theorem acts_makeProc (ready : Ready known before world state) (position : UInt32) :
    Ends (makeProc program position) state
      (fun cell after => cell = world.nextProc ∧ ∃ body, program.code? position = some body ∧
        Ready known before (world.addProc (before.close position body)) after)
      fun _ after => Leaves program op before world after.2 := by
  obtain ⟨all⟩ := ready
  unfold Ends makeProc Run.code
  cases code : program.code? position with
  | none => exact Leaves.same
  | some body => exact ⟨rfl, body, rfl, .mk all⟩

/-- The block of a call is made, and then its message is answered. -/
theorem acts_call (knows : world.Knows known) (own : before.All known)
    (ready : Ready known before world state) {target : Value} (target_known : known target)
    {args : List Value} (args_known : ∀ value ∈ args, known value) (name : String)
    {block : Option UInt32} (closes : op.closure? = block) :
    Acts program known op before world
      (do
        let block ← block.mapM (makeProc program)
        answer (← lift (Run.dispatch program target name args block))) state := by
  cases block with
  | none =>
      exact acts_answer ready (Builtin.answered_dispatch knows target_known args_known
        (by rintro _ ⟨⟩) name)
  | some position =>
      have made : Ends ((some position).mapM (makeProc program)) state
          (fun cell after => cell = some world.nextProc ∧
            ∃ body, program.code? position = some body ∧
              Ready known before (world.addProc (before.close position body)) after)
          fun _ after => Leaves program op before world after.2 := by
        refine (acts_makeProc ready position).bind ?_
        rintro _ after ⟨rfl, rest⟩
        exact .pure ⟨rfl, rest⟩
      refine made.bind ?_
      rintro _ _ ⟨rfl, body, code, ⟨all⟩⟩
      rename_i stack
      have given : Ref.Given (fun value => known value ∨ value = .proc world.nextProc)
          (some world.nextProc) := by
        rintro _ ⟨rfl⟩
        exact .inr rfl
      have answered := @Builtin.answered_dispatch program _ _ (knows_addProc knows own position body)
        target (.inl target_known) args (fun value member => .inl (args_known value member)) _ given
        name
      change Ends (EStateM.bind (lift _) answer) _ _ _
      unfold Ends EStateM.bind lift
      dsimp only
      cases run : Run.dispatch program target name args (some world.nextProc)
          (world.addProc (before.close position body)) with
      | ok reply after =>
          have effect := Effect.closesAndAnswers all closes code (answered.ok run)
          cases reply <;> exact effect
      | error error after => exact answered.error run ▸ Leaves.closed closes code

/-! ## Operations -/

theorem acts_pushBignum (knows : world.Knows known) (own : before.All known) (constant : UInt32) :
    Acts program known (.pushBignum constant) before world
      (perform program (.pushBignum constant)) (before, world) := by
  have ready : Ready known before world (before, world) := .mk own.stack
  unfold perform
  dsimp only
  split
  · exact acts_made ready (Run.made_newInteger knows.plain _)
  · exact acts_throw ready _

theorem acts_dup (own : before.All known) :
    Acts program known .dup before world (perform program .dup) (before, world) := by
  have ready : Ready known before world (before, world) := .mk own.stack
  refine (takes_activation ready).acts fun activation _ ready same => ?_
  cases held : activation.stack with
  | nil => exact acts_throw ready _
  | cons top rest =>
      exact acts_pushNext ready (same.2.2 top (held ▸ List.mem_cons_self ..))

theorem acts_getIvar (knows : world.Knows known) (own : before.All known) (constant : UInt32) :
    Acts program known (.getIvar constant) before world
      (perform program (.getIvar constant)) (before, world) := by
  have ready : Ready known before world (before, world) := .mk own.stack
  refine (takes_constantText ready _).acts fun name _ ready _ => .get ?_
  obtain ⟨all⟩ := ready
  dsimp only
  split
  · exact acts_pushNext (.mk all) (knows.ivar _ name)
  · exact acts_pushNext (.mk all) (knows.plain _ .nil)

theorem acts_setIvar (own : before.All known) (constant : UInt32) :
    Acts program known (.setIvar constant) before world
      (perform program (.setIvar constant)) (before, world) := by
  have ready : Ready known before world (before, world) := .mk own.stack
  refine (takes_constantText ready _).acts fun name _ ready _ =>
    (takes_pop ready).acts fun value _ ready h =>
      (takes_activation ready).acts fun activation _ ready _ => ?_
  split
  · exact acts_stores ready (World.Stores.ivar _ name h)
  · exact .get (acts_throw ready _)

theorem acts_getConst (knows : world.Knows known) (own : before.All known) (constant : UInt32) :
    Acts program known (.getConst constant) before world
      (perform program (.getConst constant)) (before, world) := by
  have ready : Ready known before world (before, world) := .mk own.stack
  refine (takes_constantText ready _).acts fun name _ ready _ => .get ?_
  obtain ⟨all⟩ := ready
  dsimp only
  cases found : world.constants.get? name with
  | some value => exact acts_pushNext (.mk all) (knows.constant found)
  | none => exact acts_throw (.mk all) _

theorem acts_toArray (knows : world.Knows known) (own : before.All known) :
    Acts program known .toArray before world (perform program .toArray) (before, world) := by
  have ready : Ready known before world (before, world) := .mk own.stack
  refine (takes_pop ready).acts fun value _ ready h => ?_
  have wrapped {items : Array Value} (all : ∀ value ∈ items, known value) :
      Acts program known .toArray before world
        (do pushNext (← lift (Run.newArray items))) _ :=
    acts_made ready (Run.made_newArray all)
  cases value with
  | array cell =>
      refine .get ?_
      obtain ⟨all⟩ := ready
      exact wrapped (knows.array cell)
  | nil => exact wrapped (by simp)
  | _ => exact wrapped (by simpa using h)

/-- A call takes its arguments, then its receiver, and makes its block. -/
theorem acts_send (knows : world.Knows known) (own : before.All known) (constant argc : UInt32)
    (receiver : Bool) (block : Option UInt32) :
    Acts program known (.send constant argc receiver block) before world
      (perform program (.send constant argc receiver block)) (before, world) := by
  have ready : Ready known before world (before, world) := .mk own.stack
  refine (takes_constantText ready _).acts fun name _ ready _ =>
    (takes_popMany ready _ _).acts fun args _ ready args_known => ?_
  refine .ite (fun _ => ?_) fun _ => ?_
  · exact (takes_pop ready).acts fun target _ ready h =>
      acts_call knows own ready h args_known name rfl
  · exact (takes_self ready own).acts fun target _ ready h =>
      acts_call knows own ready h args_known name rfl

theorem acts_yield (knows : world.Knows known) (own : before.All known) (argc : UInt32) :
    Acts program known (.yield argc) before world
      (perform program (.yield argc)) (before, world) := by
  have ready : Ready known before world (before, world) := .mk own.stack
  refine (takes_popMany ready _ _).acts fun args _ ready args_known =>
    (takes_activation ready).acts fun activation _ ready same => ?_
  cases given : activation.block with
  | none => exact acts_throw ready _
  | some block =>
      have entered := @Run.ends_enterBlock program known world knows block args args_known
      obtain ⟨all⟩ := ready
      change Ends (EStateM.bind (lift _) _) _ _ _
      unfold Ends EStateM.bind lift
      dsimp only
      cases run : Run.enterBlock program block args world with
      | ok entry after => exact Effect.answers all (entered.ok run)
      | error error after => exact entered.error run ▸ Leaves.same

theorem acts_defineMethod (own : before.All known) (constant position : UInt32) :
    Acts program known (.defineMethod constant position) before world
      (perform program (.defineMethod constant position)) (before, world) := by
  have ready : Ready known before world (before, world) := .mk own.stack
  refine (takes_constantText ready _).acts fun name _ ready _ => ?_
  refine (takes_code ready position).acts fun body _ ready found => ?_
  exact acts_stores ready (World.Stores.method name rfl found)

theorem acts_aliasMethod (own : before.All known) (new old : UInt32) :
    Acts program known (.aliasMethod new old) before world
      (perform program (.aliasMethod new old)) (before, world) := by
  have ready : Ready known before world (before, world) := .mk own.stack
  refine (takes_constantText ready _).acts fun newName _ ready _ =>
    (takes_constantText ready _).acts fun oldName _ ready _ =>
      acts_stores ready (.get ?_)
  cases bound : world.methods.get? oldName with
  | some method => exact World.Stores.renamed newName bound
  | none => exact .ite (fun _ => World.Stores.builtin newName oldName) fun _ => .throws rfl

/-- Executing an operation has one of its effects. -/
theorem acts_perform (knows : world.Knows known) (own : before.All known) (op : Op) :
    Acts program known op before world (perform program op) (before, world) := by
  have ready : Ready known before world (before, world) := .mk own.stack
  cases op with
  | pushNil => exact acts_pushNext ready (knows.plain _ .nil)
  | pushTrue | pushFalse => exact acts_pushNext ready (knows.plain _ (.bool _))
  | pushFixnum => exact acts_pushNext ready (knows.plain _ (.fixnum _))
  | pushSelf => exact acts_pushNext ready own.self
  | pushBignum constant => exact acts_pushBignum knows own constant
  | pushString constant =>
      exact (takes_constantText ready _).acts fun _ _ ready _ =>
        acts_made ready (Run.made_newString _)
  | pushSymbol constant =>
      exact (takes_constantText ready _).acts fun _ _ ready _ =>
        acts_made ready (Run.made_intern _)
  | pop => exact (takes_pop ready).acts fun _ _ ready _ => acts_next ready
  | dup => exact acts_dup own
  | getLocal index => exact .get (acts_pushNext ready (knows.frame _ _))
  | setLocal index =>
      exact (takes_pop ready).acts fun _ _ ready h =>
        (takes_activation ready).acts fun _ _ ready _ =>
          acts_stores ready (World.Stores.slot _ _ h)
  | getOuter index depth =>
      refine (takes_outer ready _).acts fun frame _ ready _ => .get ?_
      obtain ⟨all⟩ := ready
      exact acts_pushNext (.mk all) (knows.frame _ _)
  | setOuter index depth =>
      exact (takes_pop ready).acts fun _ _ ready h =>
        (takes_outer ready _).acts fun _ _ ready _ => acts_stores ready (World.Stores.slot _ _ h)
  | getIvar constant => exact acts_getIvar knows own constant
  | setIvar constant => exact acts_setIvar own constant
  | getGlobal constant =>
      refine (takes_constantText ready _).acts fun name _ ready _ => .get ?_
      obtain ⟨all⟩ := ready
      exact acts_pushNext (.mk all) (knows.global name)
  | setGlobal constant =>
      exact (takes_constantText ready _).acts fun name _ ready _ =>
        (takes_pop ready).acts fun _ _ ready h => acts_stores ready (World.Stores.global name h)
  | getConst constant => exact acts_getConst knows own constant
  | setConst constant =>
      exact (takes_constantText ready _).acts fun name _ ready _ =>
        (takes_pop ready).acts fun _ _ ready h => acts_stores ready (World.Stores.constant name h)
  | makeArray count =>
      exact (takes_popMany ready _ _).acts fun items _ ready h =>
        acts_made ready (Run.made_newArray fun value member => h value (by simpa using member))
  | toArray => exact acts_toArray knows own
  | send constant argc receiver block => exact acts_send knows own constant argc receiver block
  | yield argc => exact acts_yield knows own argc
  | makeClosure code =>
      refine Ends.bind (acts_makeProc ready code) ?_
      rintro _ _ ⟨rfl, body, found, ⟨all⟩⟩
      exact Effect.closes all rfl found
  | defineMethod constant position => exact acts_defineMethod own constant position
  | aliasMethod new old => exact acts_aliasMethod own new old
  | not =>
      exact (takes_pop ready).acts fun _ _ ready _ =>
        acts_pushNext ready (knows.plain _ (.bool _))
  | jump offset => exact Effect.moves trivial own.stack
  | jumpIfFalse offset => exact acts_jumpWhen ready _ _
  | jumpIfTrue offset => exact acts_jumpWhen ready _ _
  | ret =>
      refine (takes_pop ready).acts fun value _ ready h => ?_
      obtain ⟨all⟩ := ready
      exact @Effect.moves _ _ _ _ _ (.ret value) _ h all

end Exec

/-! ## Repeated calls of a block -/

namespace BlockLoop.All

variable {known : Value → Prop} {loop : BlockLoop} (all : loop.All known)

include all

/-- What the next pass works on is known. -/
theorem next (plain : ∀ value, value.Plain → known value) {block : Ref .proc} {argument : Value}
    {rest : BlockLoop} (h : loop.next? = some (block, argument, rest)) :
    known argument ∧ rest.All known := by
  cases loop with
  | times block next count receiver =>
      simp only [BlockLoop.next?] at h
      split at h
      · cases h
        exact ⟨plain _ (.fixnum _), all⟩
      · cases h
  | each block values receiver =>
      cases values with
      | nil => cases h
      | cons value values =>
          cases h
          obtain ⟨block_known, values_known, receiver_known⟩ := all
          obtain ⟨value_known, values_known⟩ := List.forall_mem_cons.mp values_known
          exact ⟨value_known, block_known, values_known, receiver_known⟩
  | map block values results =>
      cases values with
      | nil => cases h
      | cons value values =>
          cases h
          obtain ⟨block_known, values_known, results_known⟩ := all
          obtain ⟨value_known, values_known⟩ := List.forall_mem_cons.mp values_known
          exact ⟨value_known, block_known, values_known, results_known⟩

theorem accept {value : Value} (h : known value) : (loop.accept value).All known := by
  cases loop with
  | map block rest results =>
      obtain ⟨block_known, rest_known, results_known⟩ := all
      exact ⟨block_known, rest_known, List.forall_mem_cons.mpr ⟨h, results_known⟩⟩
  | times | each => exact all

theorem made_result (program : Program) (world : World) :
    Run.Made program known loop.result world := by
  cases loop with
  | times block next count receiver => exact Run.made_found all.2
  | each block rest receiver => exact Run.made_found all.2.2
  | map block rest results =>
      exact Run.made_newArray fun value member => all.2.2 value (by simpa using member)

end BlockLoop.All

/-! ## Messages count no operations

Only the machine counts operations, one for each that it executes. Answering a message never
does: a built-in method computes on the world as it is, and where a body has to run, the reply
only says so. So the number of operations is the same after an operation was carried out as
before, whatever its result. -/

section Count

variable {program : Program} {known : Value → Prop} {world after : World}

theorem Run.Effect.steps {reply : Reply} (h : Effect program known world reply after) :
    after.steps = world.steps := by
  cases h <;> rfl

theorem World.Stores.steps {op : Op} (h : world.Stores program known op after) :
    after.steps = world.steps := by
  cases h <;> rfl

theorem Exec.Effect.steps {op : Op} {before : Activation} {flow : Flow} {activation : Activation}
    (h : Effect program known op before world flow activation after) :
    after.steps = world.steps := by
  cases h with
  | moves control all => rfl
  | stores all stored => exact stored.steps
  | answers all effect => exact effect.steps
  | closes all block code => rfl
  | closesAndAnswers all block code effect => exact effect.steps

theorem Exec.Leaves.steps {op : Op} {before : Activation}
    (h : Leaves program op before world after) : after.steps = world.steps := by
  cases h <;> rfl

/-- Nothing at all is asked of values. -/
theorem World.knows_any (world : World) : world.Knows fun _ => True := ⟨by simp, by simp⟩

theorem Activation.all_any (activation : Activation) : activation.All fun _ => True :=
  ⟨by simp, trivial, by simp [Ref.Given]⟩

theorem BlockLoop.all_any (loop : BlockLoop) : loop.All fun _ => True := by
  cases loop <;> simp [BlockLoop.All]

/-- The computation counts no operations. -/
abbrev Run.Uncounted {α : Type} (action : Run α) : Prop :=
  Moves (fun world after => after.steps = world.steps) action

/-- The computation counts no operations. -/
abbrev Exec.Uncounted {α : Type} (action : Exec α) : Prop :=
  Moves (fun state after => after.2.steps = state.2.steps) action

theorem Run.uncounted_enterBlock (cell : Ref .proc) (args : List Value) :
    Uncounted (enterBlock program cell args) := fun world =>
  (ends_enterBlock world.knows_any cell fun _ _ => trivial).mono (fun _ _ effect => effect.steps)
    fun _ _ same => congrArg World.steps same

theorem BlockLoop.uncounted_result (loop : BlockLoop) : Run.Uncounted loop.result := fun world =>
  (loop.all_any.made_result .empty world).mono (fun _ _ effect => effect.steps)
    fun _ _ same => congrArg World.steps same

/-- What an operation does is not counted; that it is executed is. -/
theorem Exec.uncounted_perform (op : Op) : Uncounted (perform program op) :=
  fun (activation, world) =>
    (acts_perform world.knows_any activation.all_any op).mono (fun _ _ effect => effect.steps)
      fun _ _ left => left.steps

end Count

end BlockScript
