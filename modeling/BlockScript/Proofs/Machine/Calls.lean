import BlockScript.Proofs.Machine.Declared

/-!
# The calls in progress

A world lists the calls in progress, and a machine knows by itself which bodies it runs: the one
in its focus and those that wait. At every moment the list is what it was before the machine began
and, after that, one call for each of these bodies. So a call that has ended has left nothing in the
list, however it ended, and the innermost call is always that of the body that is running. Only
entering a body makes the list longer, and it refuses to when the limit is reached.
-/

namespace BlockScript

/-! ## Messages and operations leave the calls as they are -/

section Unchanged

variable {program : Program} {known : Value → Prop} {op : Op} {world after : World}

theorem Run.Effect.calls {reply : Reply} (h : Effect program known world reply after) :
    after.calls = world.calls := by
  cases h <;> rfl

theorem World.Stores.calls (h : world.Stores program known op after) :
    after.calls = world.calls := by
  cases h <;> rfl

/-- An operation that succeeds also leaves its activation the block that it was given. -/
theorem Exec.Effect.calls {before activation : Activation} {flow : Flow}
    (h : Effect program known op before world flow activation after) :
    after.calls = world.calls ∧ activation.block = before.block := by
  cases h with
  | moves control all => exact ⟨rfl, rfl⟩
  | stores all stored => exact ⟨stored.calls, rfl⟩
  | answers all effect => exact ⟨effect.calls, rfl⟩
  | closes all block code => exact ⟨rfl, rfl⟩
  | closesAndAnswers all block code effect => exact ⟨effect.calls, rfl⟩

theorem Exec.Leaves.calls {before : Activation} (h : Leaves program op before world after) :
    after.calls = world.calls := by
  cases h <;> rfl

end Unchanged

/-! ## The bodies of a machine -/

/-- The call that a body is listed as. -/
def Code.call (code : Code) (activation : Activation) : Call := ⟨code.name, activation.block⟩

/-- The calls of the bodies that wait for a result, the innermost last. -/
def Waiting.calls (waiting : List Waiting) : List Call :=
  waiting.reverse.filterMap fun
    | .body code _ activation => some (code.call activation)
    | .loop _ => none

@[simp] theorem Waiting.calls_nil : calls [] = [] := rfl

@[simp] theorem Waiting.calls_body (code : Code) (ip : Nat) (activation : Activation)
    (waiting : List Waiting) :
    calls (.body code ip activation :: waiting) = calls waiting ++ [code.call activation] := by
  simp [calls]

@[simp] theorem Waiting.calls_loop (loop : BlockLoop) (waiting : List Waiting) :
    calls (.loop loop :: waiting) = calls waiting := by
  simp [calls]

/-- The call of the body that is running. -/
def Focus.call? : Focus → Option Call
  | .run code _ activation => some (code.call activation)
  | _ => none

/-- The calls of all bodies of a machine, the innermost last. -/
def Machine.calls (machine : Machine) : List Call :=
  Waiting.calls machine.waiting ++ machine.focus.call?.toList

/-- The list of calls goes on with those of the bodies, and as long as there is one, it is within
the limit. -/
structure Listed (most : Nat) (outer : List Call) (listed : Array Call) (bodies : List Call) :
    Prop where
  same : listed.toList = outer ++ bodies
  room : bodies ≠ [] → listed.size ≤ most

namespace Listed

variable {most : Nat} {outer bodies : List Call} {listed : Array Call}

/-- The innermost call ends. -/
theorem ends {call : Call} (h : Listed most outer listed (bodies ++ [call])) :
    Listed most outer listed.pop bodies where
  same := by
    rw [Array.toList_pop, h.same, ← List.append_assoc, List.dropLast_concat]
  room _ := by
    have room := h.room (by simp)
    rw [Array.size_pop]
    omega

/-- A call begins. -/
theorem begins (h : Listed most outer listed bodies) (room : ¬most ≤ listed.size) (call : Call) :
    Listed most outer (listed.push call) (bodies ++ [call]) where
  same := by
    rw [Array.toList_push, h.same, List.append_assoc]
  room _ := by
    rw [Array.size_push]
    omega

theorem size_le (h : Listed most outer listed bodies) (within : outer.length ≤ most) :
    listed.size ≤ most := by
  by_cases none : bodies = []
  · rw [← Array.length_toList, h.same, none, List.append_nil]
    exact within
  · exact h.room none

end Listed

namespace Machine

variable {program : Program} {limits : Limits} {outer : List Call} {waiting : List Waiting}
  {world : World}

/-- The calls in progress are those from before the machine and those of its bodies. -/
def Lists (limits : Limits) (outer : List Call) (machine : Machine) : Prop :=
  Listed limits.maxCallDepth outer machine.world.calls machine.calls

/-! ### What one step does to the calls -/

section Step

/-- Apart from the body that runs, the calls are those of the bodies that wait. -/
theorem lists_outside {focus : Focus} (idle : focus.call? = none)
    (h : Listed limits.maxCallDepth outer world.calls (Waiting.calls waiting)) :
    Lists limits outer ⟨focus, waiting, world⟩ := by
  unfold Lists calls
  rw [idle, Option.toList_none, List.append_nil]
  exact h

theorem Lists.outside {focus : Focus} (h : Lists limits outer ⟨focus, waiting, world⟩)
    (idle : focus.call? = none) :
    Listed limits.maxCallDepth outer world.calls (Waiting.calls waiting) := by
  unfold Lists calls at h
  rwa [idle, Option.toList_none, List.append_nil] at h

theorem lists_enter (position : UInt32) (activation : Activation)
    (h : Listed limits.maxCallDepth outer world.calls (Waiting.calls waiting)) :
    Lists limits outer (enter program limits position activation waiting world) := by
  unfold enter
  split
  · exact lists_outside rfl h
  · rename_i room
    cases program.code? position with
    | none => exact lists_outside rfl h
    | some code => exact h.begins room (code.call activation)

/-- An operation that was executed ends its body, or leaves it running or waiting. -/
theorem lists_follow (code : Code) (ip : Nat) (flow : Flow) (activation : Activation)
    (h : Listed limits.maxCallDepth outer world.calls
      (Waiting.calls waiting ++ [code.call activation])) :
    Lists limits outer (follow code ip flow activation waiting world) := by
  cases flow with
  | next => exact h
  | jump offset =>
      simp only [follow]
      split
      · exact h
      · exact lists_outside rfl h.ends
  | ret value => exact lists_outside rfl h.ends
  | enter position callee => exact lists_outside rfl (by rwa [Waiting.calls_body])
  | iterate loop => exact lists_outside rfl (by rwa [Waiting.calls_body])

theorem lists_advance (code : Code) (ip : Nat) (activation : Activation)
    (h : Listed limits.maxCallDepth outer world.calls
      (Waiting.calls waiting ++ [code.call activation])) :
    Lists limits outer (advance program limits code ip activation waiting world) := by
  unfold advance
  cases code.ops[ip]? with
  | none => exact lists_outside rfl h.ends
  | some op =>
      dsimp only
      cases brokenLimit limits world.count.steps activation.stack.length with
      | some error => exact lists_outside rfl h.ends
      | none =>
          have performed := @Exec.acts_perform program _ activation _ world.count.knows_any
            activation.all_any op
          dsimp only
          cases run : Exec.perform program op (activation, world.count) with
          | ok flow state =>
              obtain ⟨calls, block⟩ := (performed.ok run).calls
              apply lists_follow
              rw [calls, Code.call, block]
              exact h
          | error error state =>
              have calls := (performed.error run).calls
              refine lists_outside rfl ?_
              change Listed _ _ state.2.calls.pop _
              rw [calls]
              exact h.ends

theorem lists_iterate (loop : BlockLoop)
    (h : Listed limits.maxCallDepth outer world.calls (Waiting.calls waiting)) :
    Lists limits outer (iterate program loop waiting world) := by
  unfold iterate
  cases loop.next? with
  | none =>
      have made := loop.all_any.made_result program world
      dsimp only
      cases run : loop.result world with
      | ok value after => exact lists_outside rfl ((made.ok run).calls ▸ h)
      | error error after => exact lists_outside rfl (made.error run ▸ h)
  | some next =>
      obtain ⟨block, argument, rest⟩ := next
      have entered := @Run.ends_enterBlock program _ world world.knows_any block [argument]
        fun _ _ => trivial
      dsimp only
      cases run : Run.enterBlock program block [argument] world with
      | ok entry after =>
          refine lists_outside rfl ?_
          rw [Waiting.calls_loop]
          exact (entered.ok run).calls ▸ h
      | error error after => exact lists_outside rfl (entered.error run ▸ h)

theorem Lists.step {machine : Machine} (h : machine.Lists limits outer) :
    (Machine.step program limits machine).Lists limits outer := by
  obtain ⟨focus, waiting, world⟩ := machine
  cases focus with
  | enter position activation => exact lists_enter position activation (h.outside rfl)
  | run code ip activation => exact lists_advance code ip activation h
  | iterate loop => exact lists_iterate loop (h.outside rfl)
  | give value =>
      have listed := h.outside rfl
      rcases waiting with _ | ⟨⟨code, ip, activation⟩ | loop, waiting⟩
      · exact h
      · rw [Waiting.calls_body] at listed
        exact listed
      · rw [Waiting.calls_loop] at listed
        exact lists_outside rfl listed
  | fail error =>
      have listed := h.outside rfl
      rcases waiting with _ | ⟨⟨code, ip, activation⟩ | loop, waiting⟩
      · exact h
      · rw [Waiting.calls_body] at listed
        exact lists_outside rfl listed.ends
      · rw [Waiting.calls_loop] at listed
        exact lists_outside rfl listed

end Step

/-- So the list is right at every moment. -/
theorem Lists.steps {machine : Machine} (h : machine.Lists limits outer) (count : Nat) :
    ((Machine.step program limits)^[count] machine).Lists limits outer :=
  Function.Iterate.rec (Lists limits outer) h (fun _ => Lists.step) count

/-- When a run has come to its result, no call is left of it. -/
theorem Lists.ok {machine : Machine} (h : machine.Lists limits outer) {fuel : Nat} {value : Value}
    (result : run program limits fuel machine = .ok value world) :
    world.calls.toList = outer := by
  have last := run_ok result ▸ @Lists.steps program limits outer machine h fuel
  rw [(last.outside rfl).same, Waiting.calls_nil, List.append_nil]

/-- The same for an error. -/
theorem Lists.failure {machine : Machine} (h : machine.Lists limits outer) {fuel : Nat}
    {error : RuntimeError}
    (result : run program limits fuel machine = .error (.failure error) world) :
    world.calls.toList = outer := by
  have last := run_failure result ▸ @Lists.steps program limits outer machine h fuel
  rw [(last.outside rfl).same, Waiting.calls_nil, List.append_nil]

/-- The innermost call is that of the body that is running. -/
theorem Lists.innermost {code : Code} {ip : Nat} {activation : Activation}
    (h : Lists limits outer ⟨.run code ip activation, waiting, world⟩) :
    world.calls.back? = some (code.call activation) := by
  have listed : world.calls.toList = _ := h.same
  rw [← Array.getLast?_toList, listed]
  simp [calls, Focus.call?]

end Machine

/-! ## Calls beyond the limit -/

namespace RuntimeError

/-- A call was refused because of the limit on calls. The error may have left bodies since. -/
def TooDeep (error : RuntimeError) : Prop :=
  error.kind = .limit ∧ ∃ most innermost, error.message = (callDepth most innermost).message

theorem TooDeep.of_same {error error' : RuntimeError} (h : error.TooDeep)
    (kind : error'.kind = error.kind) (message : error'.message = error.message) :
    error'.TooDeep :=
  ⟨kind.trans h.1, message ▸ h.2⟩

theorem not_tooDeep_of_kind {error : RuntimeError} (h : error.kind ≠ .limit) : ¬error.TooDeep :=
  fun deep => h deep.1

/-- The message tells it from the errors of the other limits. -/
theorem not_tooDeep_of_message {error : RuntimeError}
    (h : ¬"stack level".toList <+: error.message.toList) : ¬error.TooDeep := by
  rintro ⟨-, most, innermost, message⟩
  rw [message] at h
  simp [callDepth] at h

end RuntimeError

namespace Machine

variable {program : Program} {limits : Limits} {outer : List Call} {waiting : List Waiting}
  {world : World}

/-- The limits on operations and operands have messages of their own. -/
theorem brokenLimit_not_tooDeep {steps stackSize : Nat} {error : RuntimeError}
    (broken : brokenLimit limits steps stackSize = some error) : ¬error.TooDeep := by
  apply RuntimeError.not_tooDeep_of_message
  unfold brokenLimit at broken
  repeat' split at broken
  all_goals cases broken
  all_goals simp [RuntimeError.stepLimit, RuntimeError.stackSize]

/-- A body is to be entered although there are as many calls as the limit allows, and this is
what the error says. -/
structure Refuses (limits : Limits) (error : RuntimeError) (machine : Machine) : Prop where
  enters : ∃ position activation, machine.focus = .enter position activation
  full : limits.maxCallDepth ≤ machine.world.calls.size
  kind : error.kind = .limit
  message : error.message = (RuntimeError.callDepth limits.maxCallDepth
    (machine.world.calls.back?.map (·.name))).message

/-- A step has such an error only if it refuses a call or hands the error on. -/
theorem step_tooDeep {machine : Machine} {error : RuntimeError} (deep : error.TooDeep)
    (fails : (Machine.step program limits machine).focus = .fail error) :
    machine.Refuses limits error ∨
      ∃ before, machine.focus = .fail before ∧ error.kind = before.kind ∧
        error.message = before.message := by
  cases accounts_step program limits machine error fails with
  | refused enters full => exact .inl ⟨⟨_, _, enters⟩, full, rfl, rfl⟩
  | broken exceeded => exact (brokenLimit_not_tooDeep exceeded deep).elim
  | message raised => exact (RuntimeError.not_tooDeep_of_kind raised.kind deep).elim
  | raised unlimited place => exact (RuntimeError.not_tooDeep_of_kind unlimited deep).elim
  | kept failed => exact .inr ⟨_, failed, rfl, rfl⟩
  | left failed place => exact .inr ⟨_, failed, rfl, rfl⟩

/-- So if the limit on calls has stopped a machine, it has refused a call before. -/
theorem refused_earlier {machine : Machine}
    (fresh : ∀ error, machine.focus = .fail error → ¬error.TooDeep) {count : Nat}
    {error : RuntimeError} (deep : error.TooDeep)
    (fails : ((Machine.step program limits)^[count] machine).focus = .fail error) :
    ∃ earlier < count, ((Machine.step program limits)^[earlier] machine).Refuses limits error := by
  induction count generalizing error with
  | zero => exact absurd deep (fresh error fails)
  | succ count ih =>
      rw [Function.iterate_succ_apply'] at fails
      rcases step_tooDeep deep fails with refuses | ⟨before, failed, kind, message⟩
      · exact ⟨count, Nat.lt_succ_self count, refuses⟩
      · obtain ⟨earlier, before_count, refuses⟩ :=
          ih (deep.of_same kind.symm message.symm) failed
        refine ⟨earlier, Nat.lt_succ_of_lt before_count, refuses.enters, refuses.full, ?_, ?_⟩
        · exact kind.trans refuses.kind
        · exact message.trans refuses.message

end Machine

/-! ## Requests -/

/-- What a caller may have carried out by a virtual machine. -/
inductive Vm.Request where
  | send (receiver : Value) (name : String) (args : List Value) (block : Option (Ref .proc))
  | callCode (position : UInt32) (self : Value) (args : List Value) (block : Option (Ref .proc))
  | callProc (cell : Ref .proc) (args : List Value)

/-- The focus of a machine that settles a reply. -/
def Reply.focus : Reply → Focus
  | .value result => .give result
  | .enter position activation => .enter position activation
  | .iterate loop => .iterate loop

theorem Machine.settle_eq (program : Program) (limits : Limits) (fuel : Nat) (reply : Reply) :
    settle program limits fuel reply = runFrom program limits fuel reply.focus := by
  cases reply with
  | value value =>
      funext world
      cases fuel <;> rfl
  | enter | iterate => rfl

namespace Vm.Request

variable {program : Program} {limits : Limits} {world : World}

/-- Carry out the request. -/
def carryOut (program : Program) (limits : Limits) (fuel : Nat) : Request → Bounded Value
  | send receiver name args block => Machine.send program limits fuel receiver name args block
  | callCode position self args block =>
    Machine.callCode program limits fuel position self args block
  | callProc cell args => Machine.callProc program limits fuel cell args

/-- What the request comes to before any body is run for it. -/
def reply (program : Program) : Request → Run Reply
  | send receiver name args block => Run.dispatch program receiver name args block
  | callCode position self args block => Run.enterMethod program position self args block
  | callProc cell args => do
    let (position, activation) ← Run.enterBlock program cell args
    return .enter position activation

/-- The machine that carries out the request. -/
def start (program : Program) (world : World) (request : Request) : Machine :=
  match request.reply program world with
  | .ok reply after => { focus := reply.focus, world := after }
  | .error error after => { focus := .fail error, world := after }

theorem carryOut_eq (program : Program) (limits : Limits) (fuel : Nat) (request : Request)
    (world : World) : request.carryOut program limits fuel world =
      Machine.run program limits fuel (request.start program world) := by
  have settled (action : Run Reply) :
      (do Machine.settle program limits fuel (← Bounded.ofRun action)) world =
        Machine.run program limits fuel (match action world with
          | .ok reply after => { focus := reply.focus, world := after }
          | .error error after => { focus := .fail error, world := after }) := by
    change EStateM.bind (Bounded.ofRun action) _ world = _
    unfold EStateM.bind Bounded.ofRun
    dsimp only
    cases action world with
    | ok reply after => exact congrFun (Machine.settle_eq program limits fuel reply) after
    | error error after => cases fuel <;> rfl
  cases request with
  | send | callCode => exact settled _
  | callProc cell args =>
      unfold carryOut Machine.callProc start reply
      change EStateM.bind _ _ world =
        Machine.run program limits fuel (match EStateM.bind _ _ world with
          | .ok reply after => { focus := Reply.focus reply, world := after }
          | .error error after => { focus := .fail error, world := after })
      unfold EStateM.bind Bounded.ofRun
      dsimp only
      cases Run.enterBlock program cell args world with
      | ok entry after => rfl
      | error error after => cases fuel <;> rfl

end Vm.Request

namespace Vm

variable {vm : Vm} {request : Request}

/-- Have a request carried out. -/
def carryOut (vm : Vm) (fuel : Nat) (request : Request) :
    Except (Halt RuntimeError) Value × Vm :=
  vm.apply (request.carryOut vm.program vm.limits fuel)

/-- The machine that carries out a request, after so many steps. -/
def moment (vm : Vm) (request : Request) (count : Nat) : Machine :=
  (Machine.step vm.program vm.limits)^[count] (request.start vm.program vm.world)

/-- Before any body is run for a request, the calls are what they were. -/
theorem Request.calls_reply (program : Program) (request : Request) (world : World) :
    Ends (request.reply program) world (fun _ after => after.calls = world.calls)
      fun _ after => after.calls = world.calls := by
  cases request with
  | send receiver name args block =>
      refine (Builtin.answered_dispatch world.knows_any trivial (fun _ _ => trivial)
        (by simp [Ref.Given]) name).mono (fun _ _ effect => effect.calls) ?_
      exact fun _ _ same => congrArg World.calls same
  | callCode position self args block =>
      change Ends (Run.enterMethod program position self args block) world _ _
      unfold Ends Run.enterMethod Run.code
      cases program.code? position <;> exact (rfl : world.calls = world.calls)
  | callProc cell args =>
      have entered : Ends (Run.enterBlock program cell args) world
          (fun _ after => after.calls = world.calls) fun _ after => after.calls = world.calls :=
        (Run.ends_enterBlock world.knows_any cell fun _ _ => trivial).mono
          (fun _ _ effect => effect.calls) fun _ _ same => congrArg World.calls same
      exact entered.bind fun _ _ same => Ends.pure same

/-- Nor has the limit stopped anything. -/
theorem Request.messages_reply (program : Program) (request : Request) :
    Run.Messages (request.reply program) := by
  cases request with
  | send receiver name args block => exact Run.messages_dispatch receiver name args block
  | callCode position self args block => exact Run.messages_enterMethod position self args block
  | callProc cell args => exact (Run.messages_enterBlock cell args).bind fun _ => .pure _

theorem Request.lists_start (program : Program) (limits : Limits) (request : Request)
    (world : World) : (request.start program world).Lists limits world.calls.toList := by
  have same := request.calls_reply program world
  have listed {after : World} (same : after.calls = world.calls) :
      Listed limits.maxCallDepth world.calls.toList after.calls (Waiting.calls []) :=
    ⟨by rw [same, Waiting.calls_nil, List.append_nil], fun some => absurd rfl some⟩
  unfold start
  cases run : request.reply program world with
  | ok reply after =>
      refine Machine.lists_outside ?_ (listed (same.ok run))
      cases reply <;> rfl
  | error error after => exact Machine.lists_outside rfl (listed (same.error run))

theorem lists_moment (vm : Vm) (request : Request) (count : Nat) :
    (vm.moment request count).Lists vm.limits vm.world.calls.toList :=
  (request.lists_start vm.program vm.limits vm.world).steps count

theorem Request.start_fresh (program : Program) (world : World) (request : Request)
    (error : RuntimeError) (fails : (request.start program world).focus = .fail error) :
    ¬error.TooDeep := by
  have raised := request.messages_reply program world
  unfold start at fails
  cases run : request.reply program world with
  | ok reply after =>
      rw [run] at fails
      cases reply <;> cases fails
  | error raised' after =>
      rw [run] at fails
      obtain rfl := Focus.fail.inj fails
      exact RuntimeError.not_tooDeep_of_kind (raised.error run).kind

/-- What is done by a run that comes to an end leaves no call of its own. -/
theorem apply_calls {program : Program} {limits : Limits} {outer : List Call} {machine : Machine}
    {fuel : Nat} {action : Bounded Value} (listed : machine.Lists limits outer)
    (runs : action vm.world = Machine.run program limits fuel machine)
    (ended : (vm.apply action).1 ≠ .error .outOfFuel) :
    (vm.apply action).2.world.calls.toList = outer := by
  obtain ⟨loaded, own, world⟩ := vm
  unfold apply at ended ⊢
  dsimp only at runs ended ⊢
  rw [runs] at ended ⊢
  cases result : Machine.run program limits fuel machine with
  | ok value after => exact listed.ok result
  | error halt after =>
      rw [result] at ended
      cases halt with
      | outOfFuel => exact absurd rfl ended
      | failure error => exact listed.failure result

/-- A request that has come to an end has left the calls as they were. -/
theorem carryOut_calls {fuel : Nat} (ended : (vm.carryOut fuel request).1 ≠ .error .outOfFuel) :
    (vm.carryOut fuel request).2.world.calls = vm.world.calls :=
  Array.toList_inj.mp <| apply_calls (request.lists_start vm.program vm.limits vm.world)
    (request.carryOut_eq vm.program vm.limits fuel vm.world) ended

/-- After a script that has come to an end no calls are in progress. -/
theorem runMain_calls {fuel : Nat} (ended : (vm.runMain fuel).1 ≠ .error .outOfFuel) :
    (vm.runMain fuel).2.world.calls = #[] := by
  cases found : vm.program.main? with
  | none =>
      obtain ⟨program, limits, world⟩ := vm
      unfold runMain apply
      dsimp only
      rw [Machine.runMain_missing found]
      rfl
  | some main =>
      have listed : (Machine.start main vm.world).Lists vm.limits [] :=
        Machine.lists_outside rfl ⟨rfl, fun some => absurd rfl some⟩
      exact Array.toList_inj.mp (apply_calls listed (Machine.runMain_eq found fuel vm.world) ended)

/-- A virtual machine between requests: a new one, or one that has loaded a program, run its
script or carried out a request, with a result or with an error. -/
inductive Resting (limits : Limits) : Vm → Prop where
  | new : Resting limits (Vm.new limits)
  | load {vm loaded : Vm} {program : Program} (before : Resting limits vm)
      (accepted : vm.load program = .ok loaded) : Resting limits loaded
  | runMain {vm : Vm} {fuel : Nat} (before : Resting limits vm)
      (ended : (vm.runMain fuel).1 ≠ .error .outOfFuel) : Resting limits (vm.runMain fuel).2
  | carryOut {vm : Vm} {fuel : Nat} {request : Request} (before : Resting limits vm)
      (ended : (vm.carryOut fuel request).1 ≠ .error .outOfFuel) :
      Resting limits (vm.carryOut fuel request).2

/-- It has its whole call depth before it, whatever has failed before. -/
theorem Resting.calls {limits : Limits} (resting : vm.Resting limits) : vm.world.calls = #[] := by
  induction resting with
  | new => rfl
  | load _ accepted ih =>
      obtain ⟨-, rfl⟩ := load_ok accepted
      exact ih
  | runMain _ ended _ => exact runMain_calls ended
  | carryOut _ ended ih => exact (carryOut_calls ended).trans ih

end Vm

/-- Calls always leave the list of calls as they found it. Let a virtual machine in any state carry
out a request. When it has come to an end, with a result or with an error, the calls in progress
are those from before. At every moment on the way they are those from before and one for each body
that is running or waiting, so the body that is running finds the block that it was given itself.
There are never more of them than the limit allows, and an error of that limit goes back to a
moment at which a body was to be entered while there were exactly as many. -/
theorem Vm.request_keeps_calls (vm : Vm) (request : Request) (fuel : Nat) :
    ((vm.carryOut fuel request).1 ≠ .error .outOfFuel →
      (vm.carryOut fuel request).2.world.calls = vm.world.calls) ∧
    (∀ count, (vm.moment request count).world.calls.toList =
      vm.world.calls.toList ++ (vm.moment request count).calls) ∧
    (∀ count code ip activation, (vm.moment request count).focus = .run code ip activation →
      (vm.moment request count).world.calls.back? = some ⟨code.name, activation.block⟩ ∧
      (vm.moment request count).world.blockGiven = activation.block.isSome) ∧
    (vm.world.calls.size ≤ vm.limits.maxCallDepth →
      (∀ count, (vm.moment request count).world.calls.size ≤ vm.limits.maxCallDepth) ∧
      ∀ count error, (vm.moment request count).focus = .fail error → error.TooDeep →
        ∃ earlier < count, (vm.moment request earlier).Refuses vm.limits error ∧
          (vm.moment request earlier).world.calls.size = vm.limits.maxCallDepth) := by
  have listed := vm.lists_moment request
  refine ⟨carryOut_calls, fun count => (listed count).same, ?_, fun within => ⟨?_, ?_⟩⟩
  · intro count code ip activation running
    have innermost : (vm.moment request count).world.calls.back? = some (code.call activation) := by
      have here := listed count
      generalize vm.moment request count = machine at running here
      obtain ⟨focus, waiting, world⟩ := machine
      obtain rfl : focus = .run code ip activation := running
      exact here.innermost
    refine ⟨innermost, ?_⟩
    rw [World.blockGiven, innermost]
    rfl
  · exact fun count => (listed count).size_le within
  · intro count error fails deep
    obtain ⟨earlier, before, refuses⟩ :=
      Machine.refused_earlier (request.start_fresh vm.program vm.world) deep fails
    exact ⟨earlier, before, refuses,
      Nat.le_antisymm ((listed earlier).size_le within) refuses.full⟩

end BlockScript
