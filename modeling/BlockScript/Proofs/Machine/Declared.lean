import BlockScript.Proofs.Builtin.Errors
import BlockScript.Proofs.Machine.Limited
import BlockScript.Proofs.Machine.Operands

/-!
# Declared and executed effects

The declared effect of an operation is all that the emitter, the verifier and the immediate
backend know about it. An operation that finds its declared operands does not miss one, and what
is below them neither decides nor changes anything; one that finds fewer fails. The bodies that an
operation calls have stacks of their own, so both hold of an operation that is run to its end.
-/

namespace BlockScript

/-- The activation with more values below its operands. -/
def Activation.over (activation : Activation) (below : List Value) : Activation :=
  { activation with stack := activation.stack ++ below }

namespace Exec

/-- The same outcome with more values below the operands. -/
def atop {ε α : Type} (below : List Value) :
    EStateM.Result ε (Activation × World) α → EStateM.Result ε (Activation × World) α
  | .ok value (activation, world) => .ok value (activation.over below, world)
  | .error error (activation, world) => .error error (activation.over below, world)

variable {α β : Type} {taken given taken' : Nat}

/-- A computation on operands fails when it has fewer than it takes. When it has enough, it misses
none, and the values below them make no difference. -/
structure Uses (taken : Nat) (action : Exec α) : Prop where
  few : ∀ state : Activation × World, state.1.stack.length < taken →
    ∃ error state', action state = .error error state' ∧ error.kind ≠ .limit
  supplied : ∀ state : Activation × World, taken ≤ state.1.stack.length →
    Ends action state (fun _ _ => True) fun error _ => error.OfMessage
  framed : ∀ (activation : Activation) (world : World) (below : List Value),
    taken ≤ activation.stack.length →
    action (activation.over below, world) = atop below (action (activation, world))

namespace Uses

theorem pure (value : α) : Uses 0 (Pure.pure value : Exec α) where
  few _ h := absurd h (Nat.not_lt_zero _)
  supplied _ _ := trivial
  framed _ _ _ _ := rfl

theorem throws {error : RuntimeError} (h : error.OfMessage) :
    Uses taken (throw error : Exec α) where
  few state _ := ⟨error, state, rfl, h.kind⟩
  supplied _ _ := h
  framed _ _ _ _ := rfl

/-- What comes second may take what came first has left, and needs the rest to be there before. -/
theorem bind {first : Exec α} {next : α → Exec β} (turns : Turns taken given first)
    (h₁ : Uses taken first) (h₂ : ∀ value, Uses taken' (next value)) :
    Uses (taken + (taken' - given)) (first >>= next) where
  few state short := by
    change ∃ error state', EStateM.bind first next state = _ ∧ _
    unfold EStateM.bind
    by_cases enough : taken ≤ state.1.stack.length
    · have raised := h₁.supplied state enough
      cases run : first state with
      | error error state' => exact ⟨error, state', rfl, (raised.error run).kind⟩
      | ok value state' =>
          have left := ((turns state).ok run).length
          exact (h₂ value).few state' (by omega)
    · obtain ⟨error, state', run, kind⟩ := h₁.few state (Nat.lt_of_not_le enough)
      simp only [run]
      exact ⟨error, state', rfl, kind⟩
  supplied state enough := by
    refine ((h₁.supplied state (by omega)).ensured (turns state).ensures).bind ?_
    rintro value state' ⟨-, replaced⟩
    have left := replaced.length
    exact (h₂ value).supplied state' (by omega)
  framed activation world below enough := by
    change EStateM.bind first next _ = atop below (EStateM.bind first next _)
    unfold EStateM.bind
    rw [h₁.framed activation world below (by omega)]
    cases run : first (activation, world) with
    | error error state' => rfl
    | ok value state' =>
        have left := ((turns (activation, world)).ok run).length
        exact (h₂ value).framed state'.1 state'.2 below (by dsimp only at left; omega)

/-- Before it, only the world may have changed. -/
theorem after {first : Exec α} {next : α → Exec β} (turns : Turns 0 0 first) (h₁ : Uses 0 first)
    (h₂ : ∀ value, Uses taken (next value)) : Uses taken (first >>= next) := by
  have both := bind turns h₁ h₂
  rwa [Nat.zero_add, Nat.sub_zero] at both

/-- Its operands are taken first. -/
theorem taking {first : Exec α} {next : α → Exec β} (turns : Turns taken 0 first)
    (h₁ : Uses taken first) (h₂ : ∀ value, Uses 0 (next value)) : Uses taken (first >>= next) :=
  bind turns h₁ h₂

/-- It looks at the state, though not below the operands. -/
theorem get {next : Activation × World → Exec α} (h : ∀ state, Uses taken (next state))
    (same : ∀ activation world below,
      next (Activation.over activation below, world) = next (activation, world)) :
    Uses taken (MonadStateOf.get >>= next) where
  few state := (h state).few state
  supplied state := (h state).supplied state
  framed activation world below enough := by
    change next (activation.over below, world) _ = atop below (next (activation, world) _)
    rw [same]
    exact (h (activation, world)).framed activation world below enough

/-- It looks at the executing activation, though not below the operands. -/
theorem own {next : Activation → Exec α} (h : ∀ own, Uses taken (next own))
    (same : ∀ own below, next (Activation.over own below) = next own) :
    Uses taken (activation >>= next) :=
  have looks : Uses taken ((MonadStateOf.get : Exec (Activation × World)) >>= fun state =>
      next state.1) :=
    get (fun state => h state.1) fun own _ below => same own below
  looks

theorem ite {c : Prop} [Decidable c] {yes no : Exec α} (h₁ : Uses taken yes) (h₂ : Uses taken no) :
    Uses taken (if c then yes else no) := by
  by_cases h : c
  · rwa [if_pos h]
  · rwa [if_neg h]

/-- It never fails because of a limit. -/
theorem raises {action : Exec α} (h : Uses taken action) : Raises (·.kind ≠ .limit) action := by
  intro state
  by_cases enough : taken ≤ state.1.stack.length
  · exact (h.supplied state enough).mono (fun _ _ => id) fun _ _ mild => mild.kind
  · obtain ⟨error, state', run, kind⟩ := h.few state (Nat.lt_of_not_le enough)
    unfold Ends
    rwa [run]

end Uses

theorem uses_lift {action : Run α} (h : Run.Messages action) : Uses 0 (lift action) where
  few _ short := absurd short (Nat.not_lt_zero _)
  supplied state _ := by
    obtain ⟨activation, world⟩ := state
    have raised := h world
    unfold Ends lift
    cases run : action world with
    | ok value world' => simp only [run]
    | error error world' => simpa only [run] using raised.error run
  framed activation world below _ := by
    unfold lift
    dsimp only
    cases action world <;> rfl

/-- A computation that looks at the topmost value alone. -/
theorem uses_top {action : Exec α}
    (h₁ : ∀ frame self block world, ∃ error state',
      action (⟨[], frame, self, block⟩, world) = .error error state' ∧ error.kind ≠ .limit)
    (h₂ : ∀ top frame self block world, ∃ value pushed, ∀ rest,
      action (⟨top :: rest, frame, self, block⟩, world) =
        .ok value (⟨pushed ++ rest, frame, self, block⟩, world)) : Uses 1 action where
  few := by
    rintro ⟨⟨stack, frame, self, block⟩, world⟩ short
    obtain rfl : stack = [] := List.length_eq_zero_iff.mp (Nat.lt_one_iff.mp short)
    exact h₁ frame self block world
  supplied := by
    rintro ⟨⟨stack, frame, self, block⟩, world⟩ enough
    obtain ⟨top, rest, rfl⟩ := List.exists_cons_of_length_pos enough
    obtain ⟨value, pushed, run⟩ := h₂ top frame self block world
    unfold Ends
    rw [run]
    trivial
  framed := by
    rintro ⟨stack, frame, self, block⟩ world below enough
    obtain ⟨top, rest, rfl⟩ := List.exists_cons_of_length_pos enough
    obtain ⟨value, pushed, run⟩ := h₂ top frame self block world
    simp only [atop, Activation.over, List.cons_append, List.append_assoc, run]

theorem uses_pop : Uses 1 pop :=
  uses_top (fun _ _ _ _ => ⟨_, _, rfl, nofun⟩) fun top _ _ _ _ => ⟨top, [], fun _ => rfl⟩

theorem uses_popMany (operation : String) (count : Nat) : Uses count (popMany operation count) where
  few state short := by
    unfold popMany
    dsimp only
    rw [if_neg (Nat.not_le_of_lt short)]
    exact ⟨_, _, rfl, nofun⟩
  supplied state enough := by
    unfold Ends popMany
    dsimp only
    rw [if_pos enough]
    trivial
  framed activation world below enough := by
    have longer : count ≤ (activation.over below).stack.length := by
      rw [Activation.over, List.length_append]
      omega
    unfold popMany
    dsimp only
    rw [if_pos enough, if_pos longer, List.splitAt_eq, List.splitAt_eq]
    simp only [Activation.over, atop, List.take_append_of_le_length enough,
      List.drop_append_of_le_length enough]

theorem uses_pushNext (value : Value) : Uses 0 (pushNext value) where
  few _ short := absurd short (Nat.not_lt_zero _)
  supplied _ _ := trivial
  framed _ _ _ _ := rfl

theorem uses_answer (reply : Reply) : Uses 0 (answer reply) := by
  cases reply with
  | value value => exact uses_pushNext value
  | enter code activation => exact .pure _
  | iterate loop => exact .pure _

theorem uses_constantText (pool : Pool) (position : UInt32) :
    Uses 0 (constantText pool position) := by
  unfold constantText
  cases pool.text? position with
  | some text => exact .pure text
  | none => exact .throws (.internal (by simp))

theorem uses_outer (depth : UInt32) : Uses 0 (outer depth) := by
  refine .get (fun state => ?_) fun _ _ _ => rfl
  cases found : state.2.heap.ancestor? depth.toNat state.1.frame with
  | some frame =>
      simp only [found]
      exact .pure frame
  | none =>
      simp only [found]
      exact .throws (.internal (by simp))

theorem uses_makeProc (program : Program) (position : UInt32) :
    Uses 0 (makeProc program position) :=
  .after (turns_lift _) (uses_lift (Run.messages_code position)) fun _ =>
    .own (fun _ => uses_lift (Run.messages_alloc _)) fun _ _ => rfl

theorem uses_block (program : Program) (block : Option UInt32) :
    Uses 0 (block.mapM (makeProc program)) := by
  cases block with
  | none => exact .pure none
  | some position =>
      exact .after (turns_makeProc _ _) (uses_makeProc program position) fun _ => .pure _

/-- A change of the world that ends the operation. -/
theorem uses_change {action : Run Unit} (h : Run.Messages action) :
    Uses 0 (do
      lift action
      return Flow.next) :=
  .after (turns_lift _) (uses_lift h) fun _ => .pure _

/-- A value that is made and pushed. -/
theorem uses_made {action : Run Value} (h : Run.Messages action) :
    Uses 0 (do pushNext (← lift action)) :=
  .after (turns_lift _) (uses_lift h) uses_pushNext

/-- An operation that reads a name first. -/
theorem uses_named {pool : Pool} {name : UInt32} {next : String → Exec Flow}
    (h : ∀ text, Uses taken (next text)) : Uses taken (constantText pool name >>= next) :=
  .after (turns_constantText _ _) (uses_constantText _ _) h

/-- An operation that takes one operand first. -/
theorem uses_popping {next : Value → Exec Flow} (h : ∀ value, Uses 0 (next value)) :
    Uses 1 (pop >>= next) :=
  .taking turns_pop uses_pop h

theorem uses_jumpWhen (truthy : Bool) (offset : Int32) : Uses 1 (jumpWhen truthy offset) :=
  uses_popping fun _ => .ite (.pure _) (.pure _)

/-- A message with its receiver and its arguments at hand. -/
theorem uses_call (program : Program) (name : String) (args : List Value) (target : Value)
    (block : Option UInt32) : Uses 0 (do
      let block ← block.mapM (makeProc program)
      answer (← lift (Run.dispatch program target name args block))) :=
  .after (turns_block _ _) (uses_block _ _) fun _ =>
    .after (turns_lift _) (uses_lift (Run.messages_dispatch _ _ _ _)) uses_answer

/-- Every operation takes the operands that it declares. -/
theorem uses_perform (program : Program) (op : Op) : Uses op.pops (perform program op) := by
  cases op with
  | pushNil | pushTrue | pushFalse | pushFixnum => exact uses_pushNext _
  | pushSelf => exact .own (fun _ => uses_pushNext _) fun _ _ => rfl
  | pushBignum constant =>
      simp only [perform]
      split
      · exact uses_made (Run.messages_newInteger _)
      · exact .throws (.internal (by simp))
  | pushString constant => exact uses_named fun _ => uses_made (Run.messages_newString _)
  | pushSymbol constant => exact uses_named fun _ => uses_made (Run.messages_intern _)
  | pop => exact uses_popping fun _ => .pure _
  | dup =>
      exact uses_top (fun _ _ _ _ => ⟨_, _, rfl, by rintro ⟨⟩⟩)
        fun top _ _ _ _ => ⟨.next, [top, top], fun _ => rfl⟩
  | getLocal index => exact .get (fun _ => uses_pushNext _) fun _ _ _ => rfl
  | setLocal index =>
      exact uses_popping fun _ =>
        .own (fun _ => uses_change (Raises.modifies _)) fun _ _ => rfl
  | getOuter index depth =>
      exact .after (turns_outer _) (uses_outer _) fun _ =>
        .get (fun _ => uses_pushNext _) fun _ _ _ => rfl
  | setOuter index depth =>
      exact uses_popping fun _ => .after (turns_outer _) (uses_outer _) fun _ =>
        uses_change (Raises.modifies _)
  | getIvar constant =>
      refine uses_named fun name => .get ?_ fun _ _ _ => rfl
      rintro ⟨⟨stack, frame, self, block⟩, world⟩
      cases self <;> exact uses_pushNext _
  | setIvar constant =>
      refine uses_named fun name => uses_popping fun value => .own (fun own => ?_) fun _ _ => rfl
      cases own.self with
      | object cell => exact uses_change (Raises.modifies _)
      | _ => exact .get (fun _ => .throws (.fault (by rintro ⟨⟩) (by rintro ⟨⟩))) fun _ _ _ => rfl
  | getGlobal constant =>
      exact uses_named fun _ => .get (fun _ => uses_pushNext _) fun _ _ _ => rfl
  | setGlobal constant | setConst constant =>
      exact uses_named fun _ => uses_popping fun _ => uses_change (Raises.modifies _)
  | getConst constant =>
      refine uses_named fun name => .get (fun state => ?_) fun _ _ _ => rfl
      cases state.2.constants.get? name with
      | some value => exact uses_pushNext value
      | none => exact .throws (.fault (by rintro ⟨⟩) (by rintro ⟨⟩))
  | makeArray count =>
      exact .taking (turns_popMany _ _) (uses_popMany _ _) fun _ =>
        uses_made (Run.messages_newArray _)
  | toArray =>
      refine uses_popping fun value => ?_
      cases value with
      | array cell => exact .get (fun _ => uses_made (Run.messages_newArray _)) fun _ _ _ => rfl
      | _ => exact uses_made (Run.messages_newArray _)
  | send name argc receiver block =>
      refine uses_named fun text => ?_
      cases receiver with
      | true =>
          exact .bind (turns_popMany _ _) (uses_popMany _ _) fun args =>
            uses_popping fun target => uses_call program text args target block
      | false =>
          refine .taking (turns_popMany _ _) (uses_popMany _ _) fun args => ?_
          exact .own (fun own => uses_call program text args own.self block) fun _ _ => rfl
  | yield argc =>
      refine .taking (turns_popMany _ _) (uses_popMany _ _) fun args =>
        .own (fun own => ?_) fun _ _ => rfl
      cases own.block with
      | none => exact .throws (.fault (by rintro ⟨⟩) (by rintro ⟨⟩))
      | some block =>
          exact .after (turns_lift _) (uses_lift (Run.messages_enterBlock block args)) fun _ =>
            .pure _
  | makeClosure code =>
      exact .after (turns_makeProc _ _) (uses_makeProc _ _) fun _ => uses_pushNext _
  | defineMethod constant position =>
      exact uses_named fun _ =>
        .after (turns_lift _) (uses_lift (Run.messages_code position)) fun _ =>
          uses_change (Raises.modifies _)
  | aliasMethod new old =>
      exact uses_named fun _ => uses_named fun _ => uses_change (Run.messages_aliasMethod _ _)
  | not => exact uses_popping fun _ => uses_pushNext _
  | jump offset => exact .pure _
  | jumpIfFalse offset => exact uses_jumpWhen false offset
  | jumpIfTrue offset => exact uses_jumpWhen true offset
  | ret => exact uses_popping fun _ => .pure _

end Exec

/-! ## Where errors come from -/

namespace Machine

variable {program : Program} {limits : Limits} {before : Machine}

/-- Why a machine may have failed with the error after one step. -/
inductive Fails (limits : Limits) (machine : Machine) : RuntimeError → Prop where
  /-- A body was to be entered, and there are as many calls as the limit allows. -/
  | refused {position : UInt32} {activation : Activation}
      (enters : machine.focus = .enter position activation)
      (full : limits.maxCallDepth ≤ machine.world.calls.size) :
      Fails limits machine
        (.callDepth limits.maxCallDepth (machine.world.calls.back?.map (·.name)))
  /-- An operation is not executed because of another limit. -/
  | broken {steps stackSize : Nat} {error : RuntimeError}
      (exceeded : brokenLimit limits steps stackSize = some error) : Fails limits machine error
  /-- There is no such code, or a loop cannot go on. -/
  | message {error : RuntimeError} (h : error.OfMessage) : Fails limits machine error
  /-- An operation has failed, and its body is left. -/
  | raised {error : RuntimeError} (unlimited : error.kind ≠ .limit) (place : String) :
      Fails limits machine (error.leaving place)
  /-- It had failed before. -/
  | kept {error : RuntimeError} (failed : machine.focus = .fail error) : Fails limits machine error
  /-- It had failed before, and one more body is left. -/
  | left {error : RuntimeError} (failed : machine.focus = .fail error) (place : String) :
      Fails limits machine (error.leaving place)

/-- If the later machine has failed, it is for such a reason. -/
def Accounts (limits : Limits) (before after : Machine) : Prop :=
  ∀ error, after.focus = .fail error → before.Fails limits error

theorem accounts_fail {error : RuntimeError} (h : before.Fails limits error)
    (waiting : List Waiting) (world : World) :
    Accounts limits before ⟨.fail error, waiting, world⟩ := by
  rintro _ ⟨⟩
  exact h

theorem accounts_enter (position : UInt32) (activation : Activation) (waiting : List Waiting)
    (world : World) : Accounts limits ⟨.enter position activation, waiting, world⟩
      (enter program limits position activation waiting world) := by
  unfold enter
  split
  · rename_i full
    exact accounts_fail (.refused rfl full) _ _
  · cases program.code? position with
    | none => exact accounts_fail (.message (.noCode position)) _ _
    | some code => rintro _ ⟨⟩

theorem accounts_follow (code : Code) (ip : Nat) (flow : Flow) (activation : Activation)
    (waiting : List Waiting) (world : World) :
    Accounts limits before (follow code ip flow activation waiting world) := by
  cases flow with
  | jump offset =>
      simp only [follow]
      split
      · rintro _ ⟨⟩
      · exact accounts_fail (.message (.internal (by simp))) _ _
  | next | ret | enter | iterate => rintro _ ⟨⟩

theorem accounts_advance (code : Code) (ip : Nat) (activation : Activation)
    (waiting : List Waiting) (world : World) :
    Accounts limits before (advance program limits code ip activation waiting world) := by
  unfold advance
  cases code.ops[ip]? with
  | none => exact accounts_fail (.message (.internal (by simp))) _ _
  | some op =>
      dsimp only
      cases exceeded : brokenLimit limits world.count.steps activation.stack.length with
      | some error => exact accounts_fail (.broken exceeded) _ _
      | none =>
          have raised := (Exec.uses_perform program op).raises (activation, world.count)
          dsimp only
          cases run : Exec.perform program op (activation, world.count) with
          | ok flow state => exact accounts_follow _ _ _ _ _ _
          | error error state => exact accounts_fail (.raised (raised.error run) _) _ _

theorem accounts_iterate (loop : BlockLoop) (waiting : List Waiting) (world : World) :
    Accounts limits before (iterate program loop waiting world) := by
  unfold iterate
  cases loop.next? with
  | none =>
      have raised := loop.messages_result world
      dsimp only
      cases run : loop.result world with
      | ok value world' => rintro _ ⟨⟩
      | error error world' => exact accounts_fail (.message (raised.error run)) _ _
  | some next =>
      obtain ⟨block, argument, rest⟩ := next
      have raised := @Run.messages_enterBlock program block [argument] world
      dsimp only
      cases run : Run.enterBlock program block [argument] world with
      | ok entry world' => rintro _ ⟨⟩
      | error error world' => exact accounts_fail (.message (raised.error run)) _ _

theorem accounts_step (program : Program) (limits : Limits) (machine : Machine) :
    Accounts limits machine (step program limits machine) := by
  obtain ⟨focus, waiting, world⟩ := machine
  cases focus with
  | enter position activation => exact accounts_enter _ _ _ _
  | run code ip activation => exact accounts_advance _ _ _ _ _
  | iterate loop => exact accounts_iterate _ _ _
  | give value => rcases waiting with _ | ⟨_ | _, _⟩ <;> rintro _ ⟨⟩
  | fail error =>
      rcases waiting with _ | ⟨_ | _, _⟩
      · exact accounts_fail (.kept rfl) _ _
      · exact accounts_fail (.left rfl _) _ _
      · exact accounts_fail (.kept rfl) _ _

end Machine

/-! ## Bodies that an operation calls

An error that a body raises has left that body when it reaches the operation, so it is not the
error of an operand that the operation itself misses. -/

namespace Machine

variable {program : Program} {limits : Limits}

/-- The machine does not hand outward that an operand was missing before any body was left. -/
def Supplied (machine : Machine) : Prop :=
  ∀ operation, machine.focus ≠ .fail (.stackUnderflow operation)

theorem Supplied.step {machine : Machine} (h : machine.Supplied) :
    (Machine.step program limits machine).Supplied := by
  intro operation fails
  generalize missing : RuntimeError.stackUnderflow operation = error at fails
  cases accounts_step program limits machine error fails with
  | refused => cases missing
  | broken exceeded =>
      have kind := brokenLimit_kind exceeded
      rw [← missing] at kind
      cases kind
  | message raised => exact raised.supplied operation missing.symm
  | raised _ place | left _ place =>
      exact Array.push_ne_empty (congrArg RuntimeError.callStack missing).symm
  | kept failed => exact h operation (missing ▸ failed)

/-- So what is run for an activation never misses an operand of it. -/
theorem runFor_supplied {fuel : Nat} {focus : Focus} (h : ∀ error, focus ≠ .fail error)
    (before after : Activation × World) (operation : String) :
    runFor program limits fuel focus before ≠
      .error (.failure (.stackUnderflow operation)) after := by
  have last : Supplied ((Machine.step program limits)^[fuel] ⟨focus, [], before.2⟩) :=
    Function.Iterate.rec Supplied (fun _ => h _) (fun _ => Supplied.step) fuel
  unfold runFor runFrom
  cases result : run program limits fuel { focus, world := before.2 } with
  | ok value world =>
      simp only [result]
      exact nofun
  | error halt world =>
      simp only [result]
      rintro ⟨⟩
      rw [run_failure result] at last
      exact last operation rfl

/-- Nor does it look at its operands. -/
theorem runFor_over (fuel : Nat) (focus : Focus) (activation : Activation) (world : World)
    (below : List Value) :
    runFor program limits fuel focus (activation.over below, world) =
      Exec.atop below (runFor program limits fuel focus (activation, world)) := by
  unfold runFor
  dsimp only
  cases runFrom program limits fuel focus world <;> rfl

variable {fuel : Nat} {op : Op} {activation : Activation} {world : World}

/-- An operation with too few operands fails. -/
theorem complete_few (short : activation.stack.length < op.pops) :
    ∃ error state, complete program limits fuel op (activation, world) =
      .error (.failure error) state := by
  obtain ⟨error, state, failed, -⟩ :=
    (Exec.uses_perform program op).few (activation, world) short
  rw [complete_eq, failed]
  exact ⟨error, state, rfl⟩

/-- An operation with enough operands does not miss one. -/
theorem complete_supplied (enough : op.pops ≤ activation.stack.length) (operation : String)
    (state : Activation × World) :
    complete program limits fuel op (activation, world) ≠
      .error (.failure (.stackUnderflow operation)) state := by
  have raised := (Exec.uses_perform program op).supplied (activation, world) enough
  rw [complete_eq]
  cases run : Exec.perform program op (activation, world) with
  | error error state' =>
      rintro ⟨⟩
      exact (raised.error run).supplied operation rfl
  | ok flow state' =>
      cases flow with
      | enter position callee => exact runFor_supplied (by simp) state' state operation
      | iterate loop => exact runFor_supplied (by simp) state' state operation
      | next | jump | ret => exact nofun

/-- What is below the operands neither decides nor changes anything. -/
theorem complete_over (enough : op.pops ≤ activation.stack.length) (below : List Value) :
    complete program limits fuel op (activation.over below, world) =
      Exec.atop below (complete program limits fuel op (activation, world)) := by
  rw [complete_eq, complete_eq, (Exec.uses_perform program op).framed activation world below enough]
  cases Exec.perform program op (activation, world) with
  | error error state => rfl
  | ok flow state =>
      cases flow with
      | enter position callee => exact runFor_over fuel _ state.1 state.2 below
      | iterate loop => exact runFor_over fuel _ state.1 state.2 below
      | next | jump | ret => rfl

end Machine

/-- Executing an operation has the effect that it declares, whatever the program, the activation
and the world are like, and whatever bodies it calls. With its declared operands on the stack it
does not miss one, its outcome is the one on these operands alone with the values below put back
beneath whatever it leaves, and after a success the stack has changed its height as declared. With
fewer operands it fails. -/
theorem Machine.complete_declared (program : Program) (limits : Limits) (fuel : Nat) (op : Op)
    (activation : Activation) (world : World) :
    (op.pops ≤ activation.stack.length →
      (∀ operation state, complete program limits fuel op (activation, world) ≠
        .error (.failure (.stackUnderflow operation)) state) ∧
      (∀ operands below, activation.stack = operands ++ below → operands.length = op.pops →
        complete program limits fuel op (activation, world) =
          Exec.atop below
            (complete program limits fuel op ({ activation with stack := operands }, world))) ∧
      ∀ flow after world', complete program limits fuel op (activation, world) =
          .ok flow (after, world') →
        after.stack.length = activation.stack.length - op.pops + op.pushes) ∧
    (activation.stack.length < op.pops →
      ∃ error state, complete program limits fuel op (activation, world) =
        .error (.failure error) state) := by
  refine ⟨fun enough => ⟨complete_supplied enough, ?_, ?_⟩, complete_few⟩
  · rintro operands below split taken
    have own : op.pops ≤ ({ activation with stack := operands } : Activation).stack.length :=
      Nat.le_of_eq taken.symm
    have whole : activation = ({ activation with stack := operands } : Activation).over below := by
      unfold Activation.over
      rw [← split]
    rw [← complete_over own below, ← whole]
  · intro flow after world' run
    have replaced := (ends_complete_operands program limits fuel op activation world).ok run
    rw [replaced.length, Nat.add_comm]

end BlockScript
