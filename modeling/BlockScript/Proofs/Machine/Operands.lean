import BlockScript.Machine.Vm
import BlockScript.Proofs.Backend.Outcome
import BlockScript.Proofs.Machine.Operation

/-!
# What an operation does to the stack below its operands

Whatever the world is like, an operation that succeeds has replaced its operands by its
results, and left everything below them as it was. A body that it calls runs on a stack of its
own, so this also holds of an operation that is run to its end.
-/

namespace BlockScript

/-- The topmost values of a stack were replaced by others. -/
def Replaces (taken given : Nat) (before after : List Value) : Prop :=
  ∃ values : List Value, values.length = given ∧ after = values ++ before.drop taken

namespace Replaces

variable {taken given taken' given' : Nat} {before middle after : List Value}

theorem refl (stack : List Value) : Replaces 0 0 stack stack := ⟨[], rfl, rfl⟩

/-- What comes second takes from what came first, and then from what was there before. -/
theorem trans (h₁ : Replaces taken given before middle) (h₂ : Replaces taken' given' middle after) :
    Replaces (taken + (taken' - given)) (given' + (given - taken')) before after := by
  obtain ⟨values, rfl, rfl⟩ := h₁
  obtain ⟨values', rfl, rfl⟩ := h₂
  refine ⟨values' ++ values.drop taken', ?_, ?_⟩
  · rw [List.length_append, List.length_drop]
  · rw [List.drop_append, List.drop_drop, List.append_assoc]

theorem cast (h : Replaces taken given before after) (same : taken = taken')
    (same' : given = given') : Replaces taken' given' before after :=
  same ▸ same' ▸ h

theorem length (h : Replaces taken given before after) :
    after.length = given + (before.length - taken) := by
  obtain ⟨values, rfl, rfl⟩ := h
  rw [List.length_append, List.length_drop]

/-- What is below the operands stays there. -/
theorem frame (h : Replaces taken given before after) {whole : Nat} (enough : taken ≤ whole)
    (covered : whole ≤ before.length) : Replaces whole (whole - taken + given) before after := by
  obtain ⟨values, rfl, rfl⟩ := h
  refine ⟨values ++ (before.drop taken).take (whole - taken), ?_, ?_⟩
  · rw [List.length_append, List.length_take, List.length_drop]
    omega
  · have below : before.drop whole = (before.drop taken).drop (whole - taken) := by
      rw [List.drop_drop, Nat.add_sub_cancel' enough]
    rw [below, List.append_assoc, List.take_append_drop]

end Replaces

namespace Exec

variable {α β : Type} {taken given taken' given' : Nat}

/-- A success replaces that many operands. -/
def Turns (taken given : Nat) (action : Exec α) : Prop :=
  ∀ state, Ends action state (fun _ state' => Replaces taken given state.1.stack state'.1.stack)
    fun _ _ => True

/-- The same for an operation, which may have its result pushed later. -/
def Performs (taken given : Nat) (action : Exec Flow) : Prop :=
  ∀ state, Ends action state (fun flow state' => ∃ pushed, pushed + flow.owed = given ∧
    Replaces taken pushed state.1.stack state'.1.stack) fun _ _ => True

namespace Turns

theorem pure (value : α) : Turns 0 0 (Pure.pure value : Exec α) :=
  fun state => Ends.pure (.refl state.1.stack)

theorem throws (error : RuntimeError) : Turns taken given (throw error : Exec α) :=
  fun _ => Ends.throws trivial

theorem bind {first : Exec α} {next : α → Exec β} (h₁ : Turns taken given first)
    (h₂ : ∀ value, Turns taken' given' (next value)) :
    Turns (taken + (taken' - given)) (given' + (given - taken')) (first >>= next) :=
  fun state => (h₁ state).bind fun value state' turned =>
    (h₂ value state').weaken fun _ _ => turned.trans

theorem get {next : Activation × World → Exec α} (h : ∀ state, Turns taken given (next state)) :
    Turns taken given (MonadStateOf.get >>= next) :=
  fun state => h state state

end Turns

namespace Performs

theorem throws (error : RuntimeError) : Performs taken given (throw error) :=
  fun _ => Ends.throws trivial

theorem next : Performs 0 0 (return .next) :=
  fun state => Ends.pure ⟨0, rfl, .refl state.1.stack⟩

theorem jump (offset : Int32) : Performs 0 0 (return .jump offset) :=
  fun state => Ends.pure ⟨0, rfl, .refl state.1.stack⟩

theorem pushNext (value : Value) : Performs 0 1 (pushNext value) :=
  fun _ => Ends.changes (Ends.pure ⟨1, rfl, [value], rfl, rfl⟩)

theorem answer (reply : Reply) : Performs 0 1 (answer reply) := by
  cases reply with
  | value value => exact pushNext value
  | enter code activation => exact fun state => Ends.pure ⟨0, rfl, .refl state.1.stack⟩
  | iterate loop => exact fun state => Ends.pure ⟨0, rfl, .refl state.1.stack⟩

theorem bind {first : Exec α} {next : α → Exec Flow} (h₁ : Turns taken given first)
    (h₂ : ∀ value, Performs taken' given' (next value)) :
    Performs (taken + (taken' - given)) (given' + (given - taken')) (first >>= next) :=
  fun state => (h₁ state).bind fun value state' turned =>
    (h₂ value state').weaken fun flow _ ⟨pushed, owed, turned'⟩ =>
      ⟨pushed + (given - taken'), by omega, turned.trans turned'⟩

/-- Before it, only the world may have changed. -/
theorem after {first : Exec α} {next : α → Exec Flow} (h₁ : Turns 0 0 first)
    (h₂ : ∀ value, Performs taken given (next value)) : Performs taken given (first >>= next) := by
  have both := bind h₁ h₂
  simp only [Nat.zero_add, Nat.sub_zero, Nat.zero_sub, Nat.add_zero] at both
  exact both

/-- Its operands are taken first. -/
theorem taking {first : Exec α} {next : α → Exec Flow} (h₁ : Turns taken 0 first)
    (h₂ : ∀ value, Performs 0 given (next value)) : Performs taken given (first >>= next) := by
  have both := bind h₁ h₂
  simp only [Nat.sub_zero, Nat.add_zero] at both
  exact both

theorem get {next : Activation × World → Exec Flow}
    (h : ∀ state, Performs taken given (next state)) :
    Performs taken given (MonadStateOf.get >>= next) :=
  fun state => h state state

end Performs

theorem turns_lift (action : Run α) : Turns 0 0 (lift action) := by
  rintro ⟨activation, world⟩
  unfold Ends lift
  cases run : action world with
  | ok value world' =>
      simp only [run]
      exact .refl activation.stack
  | error error world' => simp only [run]

theorem turns_activation : Turns 0 0 activation :=
  Turns.get fun state => .pure state.1

theorem turns_pop : Turns 1 0 pop := by
  rintro ⟨⟨stack, frame, self, block⟩, world⟩
  cases stack with
  | nil => trivial
  | cons value stack => exact ⟨[], rfl, rfl⟩

theorem turns_popMany (operation : String) (count : Nat) : Turns count 0 (popMany operation count) := by
  intro state
  unfold Ends popMany
  by_cases enough : count ≤ state.1.stack.length
  · simp only [if_pos enough, List.splitAt_eq]
    exact ⟨[], rfl, rfl⟩
  · simp only [if_neg enough]

theorem turns_constantText (pool : Pool) (position : UInt32) :
    Turns 0 0 (constantText pool position) := by
  unfold constantText
  cases pool.text? position with
  | some text => exact .pure text
  | none => exact .throws _

theorem turns_outer (depth : UInt32) : Turns 0 0 (outer depth) := by
  refine Turns.get fun state => ?_
  cases found : state.2.heap.ancestor? depth.toNat state.1.frame with
  | some frame =>
      simp only [found]
      exact .pure frame
  | none =>
      simp only [found]
      exact .throws _

theorem turns_makeProc (program : Program) (position : UInt32) :
    Turns 0 0 (makeProc program position) :=
  (turns_lift _).bind fun _ => turns_activation.bind fun _ => turns_lift _

theorem turns_block (program : Program) (block : Option UInt32) :
    Turns 0 0 (block.mapM (makeProc program)) := by
  cases block with
  | none => exact .pure none
  | some position => exact (turns_makeProc program position).bind fun _ => .pure _

/-- A write to a local. -/
theorem performs_setLocal (frame : Ref .frame) (slot : Nat) (value : Value) :
    Performs 0 0 (do
      lift (Run.modifyHeap (·.setLocal frame slot value))
      return .next) :=
  .after (turns_lift _) fun _ => .next

/-- An operation that reads a name and pushes something. -/
theorem performs_named {pool : Pool} {name : UInt32} {next : String → Exec Flow}
    (h : ∀ text, Performs taken given (next text)) :
    Performs taken given (constantText pool name >>= next) :=
  .after (turns_constantText _ _) h

theorem performs_jumpWhen (truthy : Bool) (offset : Int32) : Performs 1 0 (jumpWhen truthy offset) :=
  .taking turns_pop fun value => by
    by_cases jumps : value.isTruthy = truthy
    · rw [if_pos jumps]
      exact .jump offset
    · rw [if_neg jumps]
      exact .next

/-- An operation that succeeds has replaced its operands, whatever the world is like. -/
theorem performs_perform (program : Program) (op : Op) :
    Performs op.pops op.pushes (perform program op) := by
  cases op with
  | pushNil | pushTrue | pushFalse | pushFixnum => exact .pushNext _
  | pushSelf => exact .after turns_activation fun _ => .pushNext _
  | pushBignum constant =>
      simp only [perform]
      split
      · exact .after (turns_lift _) fun _ => .pushNext _
      · exact .throws _
  | pushString constant | pushSymbol constant =>
      exact performs_named fun _ => .after (turns_lift _) fun _ => .pushNext _
  | pop => exact .taking turns_pop fun _ => .next
  | dup =>
      intro state
      refine Ends.get ?_
      obtain ⟨⟨stack, frame, self, block⟩, world⟩ := state
      cases stack with
      | nil => exact Ends.throws trivial
      | cons top rest => exact Ends.changes (Ends.pure ⟨2, rfl, [top, top], rfl, rfl⟩)
  | getLocal index => exact .get fun _ => .pushNext _
  | setLocal index =>
      exact .taking turns_pop fun _ => .after turns_activation fun _ => performs_setLocal _ _ _
  | getOuter index depth => exact .after (turns_outer _) fun _ => .get fun _ => .pushNext _
  | setOuter index depth =>
      exact .taking turns_pop fun _ => .after (turns_outer _) fun _ => performs_setLocal _ _ _
  | getIvar constant =>
      refine performs_named fun _ => .get ?_
      rintro ⟨⟨stack, frame, self, block⟩, world⟩
      cases self <;> exact .pushNext _
  | setIvar constant =>
      refine performs_named fun _ => .taking turns_pop fun _ => .after turns_activation fun self => ?_
      cases self.self with
      | object cell => exact .after (turns_lift _) fun _ => .next
      | _ => exact .get fun _ => .throws _
  | getGlobal constant => exact performs_named fun _ => .get fun _ => .pushNext _
  | setGlobal constant | setConst constant =>
      exact performs_named fun _ => .taking turns_pop fun _ => .after (turns_lift _) fun _ => .next
  | getConst constant =>
      refine performs_named fun name => .get fun state => ?_
      cases state.2.constants.get? name with
      | some value => exact .pushNext value
      | none => exact .throws _
  | makeArray count =>
      exact .taking (turns_popMany _ _) fun _ => .after (turns_lift _) fun _ => .pushNext _
  | toArray =>
      refine .taking turns_pop fun value => ?_
      cases value with
      | array cell => exact .get fun _ => .after (turns_lift _) fun _ => .pushNext _
      | _ => exact .after (turns_lift _) fun _ => .pushNext _
  | send name argc receiver block =>
      refine performs_named fun text => ?_
      have called (args : List Value) (target : Value) : Performs 0 1 (do
          let block ← block.mapM (makeProc program)
          Exec.answer (← lift (Run.dispatch program target text args block))) :=
        .after (turns_block _ _) fun _ => .after (turns_lift _) fun _ => .answer _
      cases receiver with
      | true => exact .bind (turns_popMany _ _) fun args => .taking turns_pop (called args)
      | false =>
          exact .taking (turns_popMany _ _) fun args =>
            .after (turns_activation.bind fun own => .pure own.self) (called args)
  | yield argc =>
      refine .taking (turns_popMany _ _) fun args => .after turns_activation fun own => ?_
      cases own.block with
      | none => exact .throws _
      | some block =>
          refine .after (turns_lift _) fun entered state => ?_
          exact Ends.pure ⟨0, rfl, .refl state.1.stack⟩
  | makeClosure code => exact .after (turns_makeProc _ _) fun _ => .pushNext _
  | defineMethod constant position =>
      exact performs_named fun _ => .after (turns_lift _) fun _ => .after (turns_lift _) fun _ => .next
  | aliasMethod new old =>
      exact performs_named fun _ => performs_named fun _ => .after (turns_lift _) fun _ => .next
  | not => exact .taking turns_pop fun _ => .pushNext _
  | jump offset => exact .jump offset
  | jumpIfFalse offset => exact performs_jumpWhen false offset
  | jumpIfTrue offset => exact performs_jumpWhen true offset
  | ret => exact .taking turns_pop fun _ state => Ends.pure ⟨0, rfl, .refl state.1.stack⟩

end Exec

/-- An operation that is run to its end has put its result in the place of its operands. -/
theorem Machine.ends_complete_operands (program : Program) (limits : Limits) (fuel : Nat) (op : Op)
    (activation : Activation) (world : World) :
    Ends (complete program limits fuel op) (activation, world)
      (fun _ state => Replaces op.pops op.pushes activation.stack state.1.stack)
      fun _ _ => True := by
  have performed := Exec.performs_perform program op (activation, world)
  unfold Ends complete
  cases run : Exec.perform program op (activation, world) with
  | error error state => trivial
  | ok flow state =>
      obtain ⟨after, world'⟩ := state
      obtain ⟨pushed, owed, replaced⟩ := performed.ok run
      have pushes (pending : pushed + 1 = op.pushes) (value : Value) :
          Replaces op.pops op.pushes activation.stack (value :: after.stack) := by
        have result : Replaces 0 1 after.stack (value :: after.stack) := ⟨[value], rfl, rfl⟩
        exact (replaced.trans result).cast (by omega) (by omega)
      cases flow with
      | enter position callee =>
          cases settled : settle program limits fuel (.enter position callee) world' with
          | error halt world'' => simp only [settled]
          | ok value world'' =>
              simp only [settled]
              exact pushes owed value
      | iterate loop =>
          cases settled : settle program limits fuel (.iterate loop) world' with
          | error halt world'' => simp only [settled]
          | ok value world'' =>
              simp only [settled]
              exact pushes owed value
      | _ => exact replaced.cast rfl owed

end BlockScript
