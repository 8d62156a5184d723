import BlockScript.Machine.Vm
import BlockScript.Proofs.Backend.Ensures
import BlockScript.Proofs.Builtin.Alike

/-!
# Operations in worlds that are alike

Alike operations do the same in worlds that are alike: they leave the same operands, and
control goes on in the same way, unless one of them makes a text that shows a block.
-/

namespace BlockScript

variable {program other : Program} {twins : UInt32 → UInt32 → Prop} {world world' : World}

/-- Control goes on in the same way, at most with a body at another position. -/
inductive Flow.Alike (twins : UInt32 → UInt32 → Prop) : Flow → Flow → Prop where
  | next : Alike twins .next .next
  | jump (offset : Int32) : Alike twins (.jump offset) (.jump offset)
  | ret (value : Value) : Alike twins (.ret value) (.ret value)
  | enter {position position' : UInt32} (activation : Activation)
      (paired : twins position position') :
      Alike twins (.enter position activation) (.enter position' activation)
  | iterate (loop : BlockLoop) : Alike twins (.iterate loop) (.iterate loop)

namespace Exec

variable {α β : Type}

/-- The same activation in worlds that are alike. -/
structure Alike (twins : UInt32 → UInt32 → Prop) (state state' : Activation × World) : Prop where
  activation : state'.1 = state.1
  world : state.2.Alike twins state'.2

/-! ## Steps of an operation -/

section Steps

variable {state state' : Activation × World} (h : Alike twins state state')

include h

theorem agrees_lift {values : α → β → Prop} {action : Run α} {action' : Run β}
    (agrees : Agrees values (World.Alike twins) action action' state.2 state'.2) :
    Agrees values (Alike twins) (lift action) (lift action') state state' := by
  obtain ⟨activation, world⟩ := state
  obtain ⟨activation', world'⟩ := state'
  obtain ⟨value, value', after, after', run, run', same, kept⟩ |
    ⟨error, error', after, after', run, run', same, kept⟩ := agrees.cases
  · dsimp only at run run'
    simp only [Agrees, lift, run, run']
    exact ⟨same, h.activation, kept⟩
  · dsimp only at run run'
    simp only [Agrees, lift, run, run']
    exact ⟨same, h.activation, kept⟩

theorem agrees_activation :
    Agrees Eq (Alike twins) activation activation state state' :=
  .get (.pure h h.activation.symm)

theorem agrees_push (value : Value) :
    Agrees Eq (Alike twins) (push value) (push value) state state' := by
  refine .modifies ⟨?_, h.world⟩
  dsimp only
  rw [h.activation]

theorem agrees_pop : Agrees Eq (Alike twins) pop pop state state' := by
  obtain ⟨⟨stack, frame, self, block⟩, world⟩ := state
  obtain ⟨activation', world'⟩ := state'
  obtain ⟨rfl, alike⟩ := h
  cases stack with
  | nil => exact ⟨.refl _, ⟨rfl, alike⟩⟩
  | cons value rest => exact ⟨rfl, ⟨rfl, alike⟩⟩

theorem agrees_popMany (operation : String) (count : Nat) :
    Agrees Eq (Alike twins) (popMany operation count) (popMany operation count) state state' := by
  obtain ⟨activation, world⟩ := state
  obtain ⟨activation', world'⟩ := state'
  obtain ⟨rfl, alike⟩ := h
  unfold Agrees popMany
  by_cases enough : count ≤ activation'.stack.length
  · simp only [if_pos enough, List.splitAt_eq]
    exact ⟨trivial, ⟨rfl, alike⟩⟩
  · simp only [if_neg enough]
    exact ⟨.refl _, ⟨rfl, alike⟩⟩

theorem agrees_outer (depth : UInt32) :
    Agrees Eq (Alike twins) (outer depth) (outer depth) state state' := by
  refine .get ?_
  obtain ⟨activation, world⟩ := state
  obtain ⟨activation', world'⟩ := state'
  obtain ⟨rfl, alike⟩ := h
  dsimp only at alike ⊢
  rw [alike.ancestor?]
  cases world.heap.ancestor? depth.toNat activation'.frame with
  | some frame => exact .pure ⟨rfl, alike⟩ rfl
  | none => exact .throws ⟨rfl, alike⟩ _

theorem agrees_next :
    Agrees (Flow.Alike twins) (Alike twins) (return .next) (return .next) state state' :=
  .pure h .next

theorem agrees_pushNext (value : Value) :
    Agrees (Flow.Alike twins) (Alike twins) (pushNext value) (pushNext value) state state' :=
  (agrees_push h value).bind fun _ _ _ _ _ kept => agrees_next kept

/-- A value that a computation on worlds makes is pushed. -/
theorem agrees_pushed {action action' : Run Value}
    (agrees : Agrees Eq (World.Alike twins) action action' state.2 state'.2) :
    Agrees (Flow.Alike twins) (Alike twins) (do pushNext (← lift action))
      (do pushNext (← lift action')) state state' :=
  (agrees_lift h agrees).bind fun value _ _ _ same kept => same ▸ agrees_pushNext kept value

/-- A change of worlds that has no value. -/
theorem agrees_changed {action action' : Run Unit}
    (agrees : Agrees Eq (World.Alike twins) action action' state.2 state'.2) :
    Agrees (Flow.Alike twins) (Alike twins) (do lift action; return .next)
      (do lift action'; return .next) state state' :=
  (agrees_lift h agrees).bind fun _ _ _ _ _ kept => agrees_next kept

theorem agrees_answer {reply reply' : Reply} (alike : reply.Alike twins reply') :
    Agrees (Flow.Alike twins) (Alike twins) (answer reply) (answer reply') state state' := by
  cases alike with
  | value value => exact agrees_pushNext h value
  | enter activation paired => exact .pure h (.enter activation paired)
  | iterate loop => exact .pure h (.iterate loop)

theorem agrees_jumpWhen (truthy : Bool) (offset : Int32) :
    Agrees (Flow.Alike twins) (Alike twins) (jumpWhen truthy offset) (jumpWhen truthy offset)
      state state' := by
  refine (agrees_pop h).bind ?_
  rintro value _ after after' rfl kept
  exact .ite (fun _ => .pure kept (.jump offset)) fun _ => agrees_next kept

variable (mirrors : program.Mirrors other twins)

include mirrors

theorem agrees_makeProc {position position' : UInt32} (paired : twins position position') :
    Agrees Eq (Alike twins) (makeProc program position) (makeProc other position') state
      state' := by
  refine (agrees_lift h (Run.agrees_code mirrors h.world paired)).bind ?_
  rintro body body' after after' alike kept
  refine (agrees_activation kept).bind ?_
  rintro activation _ after after' rfl kept
  refine agrees_lift kept (Run.agrees_newProc kept.world ⟨paired, ?_⟩)
  rw [alike.arity]

end Steps

/-- An operation on a text that both pools hold. -/
theorem agrees_named {values : α → β → Prop} {position position' : UInt32}
    (same : program.SameText other position position') {next : String → Exec α}
    {next' : String → Exec β}
    (rest : ∀ text, Agrees values (Alike twins) (next text) (next' text) state state') :
    Agrees values (Alike twins) (constantText program.constants position >>= next)
      (constantText other.constants position' >>= next') state state' := by
  obtain ⟨text, found, found'⟩ := same
  simp only [constantText, found, found']
  exact rest text

/-! ## Sending messages -/

theorem popMany_ok {operation : String} {count : Nat} {state after : Activation × World}
    {taken : List Value} (run : popMany operation count state = .ok taken after) :
    taken = (state.1.stack.take count).reverse ∧
      after = ({ state.1 with stack := state.1.stack.drop count }, state.2) := by
  obtain ⟨activation, world⟩ := state
  unfold popMany at run
  by_cases enough : count ≤ activation.stack.length
  · simp only [if_pos enough, List.splitAt_eq] at run
    cases run
    exact ⟨rfl, rfl⟩
  · simp only [if_neg enough] at run
    cases run

theorem pop_ok {state after : Activation × World} {value : Value}
    (run : pop state = .ok value after) :
    value = state.1.stack.headD .nil ∧ after.1.self = state.1.self ∧ after.2 = state.2 := by
  obtain ⟨⟨stack, frame, self, block⟩, world⟩ := state
  cases stack with
  | nil => cases run
  | cons top rest =>
      cases run
      exact ⟨rfl, rfl, rfl⟩

/-- Making a block only adds to the blocks. -/
theorem makeProc_ok {position : UInt32} {state after : Activation × World} {cell : Ref .proc}
    (run : makeProc program position state = .ok cell after) :
    ∃ procs, after.2 = { state.2 with heap := state.2.heap.withProcs procs } := by
  obtain ⟨activation, world⟩ := state
  cases found : program.code? position with
  | none =>
      simp only [makeProc, Run.code, found] at run
      cases run
  | some body =>
      simp only [makeProc, Run.code, found] at run
      cases run
      exact ⟨_, rfl⟩

theorem block_ok {block : Option UInt32} {state after : Activation × World}
    {cell : Option (Ref .proc)} (run : block.mapM (makeProc program) state = .ok cell after) :
    ∃ procs, after.2 = { state.2 with heap := state.2.heap.withProcs procs } := by
  cases block with
  | none =>
      cases run
      exact ⟨state.2.heap.procs, rfl⟩
  | some position =>
      cases made : makeProc program position state with
      | error error state' =>
          rw [Option.mapM_some, map_eq_pure_bind, run_bind_error made] at run
          cases run
      | ok cell state' =>
          rw [Option.mapM_some, map_eq_pure_bind, run_bind_ok made] at run
          cases run
          exact makeProc_ok made

section Send

variable (mirrors : program.Mirrors other twins) {state state' : Activation × World}
  (h : Alike twins state state')

include mirrors h

/-- A message is sent to a target that is known. -/
theorem agrees_sendTo {block block' : Option UInt32} (paired : Option.Rel twins block block')
    (target : Value) (name : String) (args : List Value)
    (blind : ∀ shown ∈ state.2.shows target name args, shown.proc state.2.heap = false) :
    Agrees (Flow.Alike twins) (Alike twins)
      (do
        let block ← block.mapM (makeProc program)
        answer (← lift (Run.dispatch program target name args block)))
      (do
        let block ← block'.mapM (makeProc other)
        answer (← lift (Run.dispatch other target name args block))) state state' := by
  have made : Agrees Eq (Alike twins) (block.mapM (makeProc program)) (block'.mapM (makeProc other))
      state state' := by
    cases paired with
    | none => exact .pure h rfl
    | some paired =>
        exact (agrees_makeProc h mirrors paired).bind fun _ _ _ _ same kept =>
          .pure kept (same ▸ rfl)
  refine made.bind_run ?_
  rintro cell _ after after' run rfl kept
  obtain ⟨procs, grown⟩ := block_ok run
  have blind : ∀ shown ∈ after.2.shows target name args, shown.proc after.2.heap = false := by
    rw [grown, World.shows_withProcs]
    exact fun shown member => (shown.proc_withProcs _ procs).trans (blind shown member)
  exact (agrees_lift kept (Run.replies_dispatch mirrors kept.world target name args cell blind)).bind
    fun _ _ _ _ alike kept => agrees_answer kept alike

end Send

/-! ## Operations -/

section Perform

variable (mirrors : program.Mirrors other twins) {activation : Activation}
  (h : world.Alike twins world')

include h

/-- Operations that refer to no table do the same in every program. -/
theorem agrees_bare {op : Op} (bare : op.Bare) (mirrors : program.Mirrors other twins) :
    Agrees (Flow.Alike twins) (Alike twins) (perform program op) (perform other op)
      (activation, world) (activation, world') := by
  have start : Alike twins (activation, world) (activation, world') := ⟨rfl, h⟩
  cases op with
  | pushNil | pushTrue | pushFalse | pushFixnum => exact agrees_pushNext start _
  | pushSelf =>
      refine (agrees_activation start).bind ?_
      rintro own _ after after' rfl kept
      exact agrees_pushNext kept _
  | pop => exact (agrees_pop start).bind fun _ _ _ _ _ kept => agrees_next kept
  | dup =>
      refine (agrees_activation start).bind ?_
      rintro own _ after after' rfl kept
      cases own.stack with
      | nil => exact .throws kept _
      | cons top rest => exact agrees_pushNext kept top
  | getLocal index =>
      refine .get ?_
      dsimp only
      rw [h.frame]
      exact agrees_pushNext start _
  | setLocal index =>
      refine (agrees_pop start).bind ?_
      rintro value _ after after' rfl kept
      refine (agrees_activation kept).bind ?_
      rintro own _ after after' rfl kept
      exact agrees_changed kept (Run.agrees_modifyHeap kept.world fun _ _ => rfl)
  | getOuter index depth =>
      refine (agrees_outer start depth).bind ?_
      rintro frame _ after after' rfl kept
      refine .get ?_
      rw [kept.world.frame]
      exact agrees_pushNext kept _
  | setOuter index depth =>
      refine (agrees_pop start).bind ?_
      rintro value _ after after' rfl kept
      refine (agrees_outer kept depth).bind ?_
      rintro frame _ after after' rfl kept
      exact agrees_changed kept (Run.agrees_modifyHeap kept.world fun _ _ => rfl)
  | makeArray count =>
      refine (agrees_popMany start "MAKE_ARRAY" _).bind ?_
      rintro items _ after after' rfl kept
      exact agrees_pushed kept (Run.agrees_newArray kept.world _)
  | toArray =>
      refine (agrees_pop start).bind ?_
      rintro value _ after after' rfl kept
      cases value with
      | array cell =>
          refine .get ?_
          rw [kept.world.array]
          exact agrees_pushed kept (Run.agrees_newArray kept.world _)
      | _ => exact agrees_pushed kept (Run.agrees_newArray kept.world _)
  | yield argc =>
      refine (agrees_popMany start "YIELD" _).bind ?_
      rintro args _ after after' rfl kept
      refine (agrees_activation kept).bind ?_
      rintro own _ after after' rfl kept
      cases own.block with
      | none => exact .throws kept _
      | some block =>
          refine (agrees_lift kept (Run.agrees_enterBlock mirrors kept.world block args)).bind ?_
          rintro ⟨position, callee⟩ ⟨position', _⟩ after after' ⟨paired, rfl⟩ kept
          exact .pure kept (.enter callee paired)
  | not =>
      refine (agrees_pop start).bind ?_
      rintro value _ after after' rfl kept
      exact agrees_pushNext kept _
  | jump offset => exact .pure start (.jump offset)
  | jumpIfFalse offset => exact agrees_jumpWhen start false offset
  | jumpIfTrue offset => exact agrees_jumpWhen start true offset
  | ret =>
      refine (agrees_pop start).bind ?_
      rintro value _ after after' rfl kept
      exact .pure kept (.ret value)
  | _ => exact bare.elim

include mirrors

/-- A message goes to its receiver or to self. -/
theorem agrees_send {name name' argc : UInt32} {receiver : Bool} {block block' : Option UInt32}
    (text : program.SameText other name name') (paired : Option.Rel twins block block')
    (blind : ∀ shown ∈ (Op.send name argc receiver block).shows program activation world,
      shown.proc world.heap = false) :
    Agrees (Flow.Alike twins) (Alike twins) (perform program (.send name argc receiver block))
      (perform other (.send name' argc receiver block')) (activation, world)
      (activation, world') := by
  have start : Alike twins (activation, world) (activation, world') := ⟨rfl, h⟩
  obtain ⟨text, found, found'⟩ := text
  simp only [Op.shows, found, Option.elim_some] at blind
  simp only [perform, constantText, found, found']
  refine (agrees_popMany start "SEND" _).bind_run ?_
  rintro args _ after after' run rfl kept
  obtain ⟨rfl, rfl⟩ := popMany_ok run
  cases receiver with
  | true =>
      refine (agrees_pop kept).bind_run ?_
      rintro target _ after after' run rfl kept
      obtain ⟨rfl, -, same⟩ := pop_ok run
      refine agrees_sendTo mirrors kept paired _ text _ ?_
      rw [same]
      exact blind
  | false =>
      have own : Agrees Eq (Alike twins) ((·.self) <$> Exec.activation)
          ((·.self) <$> Exec.activation) _ after' :=
        .get (.pure kept (congrArg Activation.self kept.activation.symm))
      refine own.bind_run ?_
      rintro target _ after after' run rfl kept
      cases run
      exact agrees_sendTo mirrors kept paired _ text _ blind

/-- Alike operations do the same, unless they make a text that shows a block. -/
theorem agrees_perform {op op' : Op} (alike : op.Alike program other twins op')
    (blind : ∀ shown ∈ op.shows program activation world, shown.proc world.heap = false) :
    Agrees (Flow.Alike twins) (Alike twins) (perform program op) (perform other op')
      (activation, world) (activation, world') := by
  have start : Alike twins (activation, world) (activation, world') := ⟨rfl, h⟩
  cases alike with
  | bare bare => exact agrees_bare h bare mirrors
  | pushBignum n found found' =>
      simp only [perform, found, found']
      exact agrees_pushed start (Run.agrees_newInteger h n)
  | pushString text =>
      exact agrees_named text fun text => agrees_pushed start (Run.agrees_newString h text)
  | pushSymbol text =>
      exact agrees_named text fun text => agrees_pushed start (Run.agrees_intern h text)
  | getIvar text =>
      refine agrees_named text fun name => .get ?_
      dsimp only
      rw [h.object]
      cases activation.self <;> exact agrees_pushNext start _
  | setIvar text =>
      refine agrees_named text fun name => (agrees_pop start).bind ?_
      rintro value _ after after' rfl kept
      refine (agrees_activation kept).bind ?_
      rintro own _ after after' rfl kept
      cases own.self with
      | object cell => exact agrees_changed kept (Run.agrees_modifyHeap kept.world fun _ _ => rfl)
      | _ =>
          refine .get ?_
          rw [kept.world.className]
          exact .throws kept _
  | getGlobal text =>
      refine agrees_named text fun name => .get ?_
      dsimp only
      rw [h.global]
      exact agrees_pushNext start _
  | setGlobal text =>
      refine agrees_named text fun name => (agrees_pop start).bind ?_
      rintro value _ after after' rfl kept
      exact agrees_changed kept (Run.agrees_setGlobal kept.world name value)
  | getConst text =>
      refine agrees_named text fun name => .get ?_
      dsimp only
      rw [h.constants]
      cases world.constants.get? name with
      | some value => exact agrees_pushNext start value
      | none => exact .throws start _
  | setConst text =>
      refine agrees_named text fun name => (agrees_pop start).bind ?_
      rintro value _ after after' rfl kept
      exact agrees_changed kept (Run.agrees_setConstant kept.world name value)
  | send argc receiver text => exact agrees_send mirrors h text .none blind
  | sendBlock argc receiver text paired => exact agrees_send mirrors h text (.some paired) blind
  | makeClosure paired =>
      refine (agrees_makeProc start mirrors paired).bind ?_
      rintro cell _ after after' rfl kept
      exact agrees_pushNext kept _
  | defineMethod text paired =>
      refine agrees_named text fun name => (agrees_lift start (Run.agrees_code mirrors h paired)).bind ?_
      rintro body body' after after' alike kept
      rw [alike.arity]
      exact agrees_changed kept (Run.agrees_setMethod kept.world (.compiled _ paired) name)
  | aliasMethod new old =>
      exact agrees_named new fun newName => agrees_named old fun oldName =>
        agrees_changed start (Run.agrees_aliasMethod h newName oldName)

end Perform

end Exec

end BlockScript
