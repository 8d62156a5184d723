import BlockScript.Proofs.Builder.Flow
import BlockScript.Proofs.Contract.Layout
import BlockScript.Proofs.Machine.Lockstep

/-!
# Passing through a piece of code

A machine that runs the outermost body passes from one position of its code to another. It goes
past a single operation together with the same operation that is executed on its own in a world
that is alike, and it follows the jumps of an operation with nested code.
-/

namespace BlockScript

/-! ## Pieces of code -/

/-- The operations stand at a position of the code. -/
def Code.Holds (code : Code) (ip : Nat) (ops : List Op) : Prop := ops <+: code.ops.toList.drop ip

namespace Code.Holds

variable {code : Code} {ip : Nat} {op : Op} {ops ops' : List Op}

theorem left (h : code.Holds ip (ops ++ ops')) : code.Holds ip ops :=
  (List.prefix_append ops ops').trans h

theorem right (h : code.Holds ip (ops ++ ops')) : code.Holds (ip + ops.length) ops' := by
  obtain ⟨rest, whole⟩ := h
  refine ⟨rest, ?_⟩
  rw [← List.drop_drop, ← whole, List.append_assoc, List.drop_left]

theorem head (h : code.Holds ip (op :: ops)) : code.ops[ip]? = some op := by
  obtain ⟨rest, whole⟩ := h
  have first : (code.ops.toList.drop ip)[0]? = some op := by rw [← whole]; rfl
  simpa using first

theorem tail (h : code.Holds ip (op :: ops)) : code.Holds (ip + 1) ops :=
  right (show code.Holds ip ([op] ++ ops) from h)

theorem le_size (h : code.Holds ip (op :: ops)) : ip + (ops.length + 1) ≤ code.ops.size := by
  have length := List.IsPrefix.length_le h
  rw [List.length_cons, List.length_drop] at length
  rw [← Array.length_toList]
  omega

end Code.Holds

/-! ## Operations that control goes past -/

/-- Control stays in the body, at most to come back with a result. -/
def Flow.Lands : Flow → Prop
  | .jump _ | .ret _ => False
  | _ => True

namespace Exec

theorem ensures_pushNext (value : Value) (state : Activation × World) :
    Ensures (pushNext value) state fun flow _ => flow.Lands :=
  .last fun _ _ => .pure trivial

theorem ensures_answer (reply : Reply) (state : Activation × World) :
    Ensures (answer reply) state fun flow _ => flow.Lands := by
  cases reply with
  | value value => exact ensures_pushNext value state
  | enter | iterate => exact .pure trivial

/-- Only a jump or a return goes elsewhere. -/
theorem ensures_lands (program : Program) {op : Op} (falls : op.falls = true)
    (straight : op.jumpOffset? = none) (state : Activation × World) :
    Ensures (perform program op) state fun flow _ => flow.Lands := by
  cases op with
  | pushNil | pushTrue | pushFalse | pushFixnum => exact ensures_pushNext _ _
  | pushBignum constant =>
      simp only [perform]
      split
      · exact .last fun _ => ensures_pushNext _
      · exact .throws
  | dup =>
      refine .get ?_
      split
      · exact ensures_pushNext _ _
      · exact .throws
  | getIvar =>
      refine .last fun _ state => .get ?_
      obtain ⟨⟨stack, frame, self, block⟩, world⟩ := state
      cases self <;> exact ensures_pushNext _ _
  | setIvar =>
      refine .last fun _ _ => .last fun _ _ => .last fun _ _ => ?_
      split
      · exact .last fun _ _ => .pure trivial
      · exact .get .throws
  | getConst =>
      refine .last fun _ _ => .get ?_
      split
      · exact ensures_pushNext _ _
      · exact .throws
  | toArray =>
      refine .last fun value _ => ?_
      split
      · exact .get (.last fun _ => ensures_pushNext _)
      all_goals exact .last fun _ => ensures_pushNext _
  | send name argc receiver block =>
      refine .last fun _ _ => .last fun _ _ => ?_
      cases receiver <;>
      exact .last fun _ _ => .last fun _ _ => .last fun reply => ensures_answer reply
  | yield =>
      refine .last fun _ _ => .last fun _ _ => ?_
      split
      · exact .throws
      · exact .last fun _ _ => .pure trivial
  | pushSelf | pushString | pushSymbol | makeClosure | getOuter | not | pop | setLocal | setOuter
  | setGlobal | setConst | defineMethod | aliasMethod | makeArray | getLocal | getGlobal =>
      repeat refine .last fun _ _ => ?_
      exact .pure trivial
  | jump | ret => cases falls
  | jumpIfFalse | jumpIfTrue => cases straight

end Exec

/-- The first run may have executed more operations. -/
theorem World.Alike.counted {twins : UInt32 → UInt32 → Prop} {world world' : World}
    (h : world.Alike twins world') : world.count.Alike twins world' :=
  h.relabel { world.labels with steps := world.steps + 1 } world'.labels
    { h.labels with steps := Nat.le_succ_of_le h.labels.steps }

namespace Machine

variable {program other : Program} {twins : UInt32 → UInt32 → Prop} {limits : Limits} {code : Code}
  {ip : Nat} {top : Activation} {world world' : World}

/-! ## Machines that are done -/

section Done

variable {machine : Machine} {count count' : Nat}

theorem Done.later (done : ((Machine.step program limits)^[count] machine).Done)
    (later : count ≤ count') : (Machine.step program limits)^[count'] machine =
      (Machine.step program limits)^[count] machine := by
  obtain ⟨more, rfl⟩ := Nat.exists_eq_add_of_le' later
  rw [Function.iterate_add_apply, done.steps]

/-- A machine comes to one end at most. -/
theorem Done.unique (done : ((Machine.step program limits)^[count] machine).Done)
    (done' : ((Machine.step program limits)^[count'] machine).Done) :
    (Machine.step program limits)^[count] machine =
      (Machine.step program limits)^[count'] machine := by
  rw [← done.later (Nat.le_max_left count count'), ← done'.later (Nat.le_max_right count count')]

/-- A budget of as many steps as the machine takes suffices. -/
theorem Done.run (done : ((Machine.step program limits)^[count] machine).Done)
    (enough : count ≤ count') : Machine.run program limits count' machine =
      Machine.run program limits 0 ((Machine.step program limits)^[count] machine) := by
  obtain ⟨more, rfl⟩ := Nat.exists_eq_add_of_le' enough
  rw [run_steps, run_done done]

end Done

/-! ## Single steps -/

/-- Within the limits an operation does what it does. -/
theorem step_perform {op : Op} (here : code.ops[ip]? = some op)
    (within : ¬(step program limits ⟨.run code ip top, [], world⟩).Limited) :
    step program limits ⟨.run code ip top, [], world⟩ =
      match Exec.perform program op (top, world.count) with
      | .ok flow (top, world) => follow code ip flow top [] world
      | .error error (_, world) => ⟨.fail (error.leaving (code.place ip)), [], world.endCall⟩ := by
  change advance program limits code ip top [] world = _
  change ¬(advance program limits code ip top [] world).Limited at within
  simp only [advance, here] at within ⊢
  cases limit : brokenLimit limits world.count.steps top.stack.length with
  | some error =>
      rw [limit] at within
      exact absurd ⟨error, rfl, brokenLimit_kind limit⟩ within
  | none => rfl

/-- A quiet machine does the operation that it is about to do. -/
theorem Quiet.step_perform {op : Op} (quiet : Quiet program limits ⟨.run code ip top, [], world⟩)
    (here : code.ops[ip]? = some op) : step program limits ⟨.run code ip top, [], world⟩ =
      match Exec.perform program op (top, world.count) with
      | .ok flow (top, world) => follow code ip flow top [] world
      | .error error (_, world) => ⟨.fail (error.leaving (code.place ip)), [], world.endCall⟩ :=
  Machine.step_perform here (quiet 1).2

theorem Quiet.step_pop {value : Value} {rest : List Value}
    (quiet : Quiet program limits ⟨.run code ip top, [], world⟩) (here : code.ops[ip]? = some .pop)
    (stack : top.stack = value :: rest) : step program limits ⟨.run code ip top, [], world⟩ =
      ⟨.run code (ip + 1) { top with stack := rest }, [], world.count⟩ := by
  rw [quiet.step_perform here]
  obtain ⟨_, frame, self, block⟩ := top
  obtain rfl : _ = value :: rest := stack
  rfl

theorem Quiet.step_dup {value : Value} {rest : List Value}
    (quiet : Quiet program limits ⟨.run code ip top, [], world⟩) (here : code.ops[ip]? = some .dup)
    (stack : top.stack = value :: rest) : step program limits ⟨.run code ip top, [], world⟩ =
      ⟨.run code (ip + 1) { top with stack := value :: value :: rest }, [], world.count⟩ := by
  rw [quiet.step_perform here]
  obtain ⟨_, frame, self, block⟩ := top
  obtain rfl : _ = value :: rest := stack
  rfl

/-- The outermost body returns the value on top. -/
theorem Quiet.step_ret {value : Value} {rest : List Value}
    (quiet : Quiet program limits ⟨.run code ip top, [], world⟩) (here : code.ops[ip]? = some .ret)
    (stack : top.stack = value :: rest) : step program limits ⟨.run code ip top, [], world⟩ =
      ⟨.give value, [], world.count.endCall⟩ := by
  rw [quiet.step_perform here]
  obtain ⟨_, frame, self, block⟩ := top
  obtain rfl : _ = value :: rest := stack
  rfl

/-- A jump from one position to another one of code that is short enough goes there. -/
theorem follow_offset {source target : Nat} (low : source < 2 ^ 31) (high : target < 2 ^ 31)
    (base : Nat) (waiting : List Waiting) :
    follow code (base + source) (.jump (Builder.offset source target)) top waiting world =
      ⟨.run code (base + target) top, waiting, world⟩ := by
  have offset : (Builder.offset source target).toInt = (target : Int) - source := by
    rw [Builder.offset, Int32.toInt_ofInt_of_le (by omega) (by omega)]
  have there : ((base + source : Nat) : Int) + ((target : Int) - source) = (base + target : Nat) := by
    omega
  simp only [follow, offset, there]
  rw [if_pos (Int.natCast_nonneg _), Int.toNat_natCast]

section Jumps

variable {base source target : Nat} {kind : JumpKind}
  (low : source < 2 ^ 31) (high : target < 2 ^ 31)

include low high

theorem Quiet.step_always
    (quiet : Quiet program limits ⟨.run code (base + source) top, [], world⟩)
    (here : code.ops[base + source]? = some (Control.jump .always source target)) :
    step program limits ⟨.run code (base + source) top, [], world⟩ =
      ⟨.run code (base + target) top, [], world.count⟩ := by
  rw [quiet.step_perform here]
  exact follow_offset low high base []

/-- A conditional jump takes the value that it tests. -/
theorem Quiet.step_conditional {value : Value} {rest : List Value}
    (quiet : Quiet program limits ⟨.run code (base + source) top, [], world⟩)
    (here : code.ops[base + source]? = some (Control.jump kind source target))
    (conditional : kind ≠ .always) (stack : top.stack = value :: rest) :
    step program limits ⟨.run code (base + source) top, [], world⟩ =
      ⟨.run code (if value.isTruthy = decide (kind = .ifTrue) then base + target
        else base + source + 1) { top with stack := rest }, [], world.count⟩ := by
  rw [quiet.step_perform here]
  obtain ⟨_, frame, self, block⟩ := top
  obtain rfl : _ = value :: rest := stack
  have performed : Exec.perform program (Control.jump kind source target)
      (⟨value :: rest, frame, self, block⟩, world.count) =
      .ok (if value.isTruthy = decide (kind = .ifTrue) then .jump (Builder.offset source target)
        else .next) (⟨rest, frame, self, block⟩, world.count) := by
    cases kind with
    | always => exact absurd rfl conditional
    | ifFalse | ifTrue =>
        change (if value.isTruthy = _ then _ else _ : Exec Flow) _ = _
        cases value.isTruthy <;> rfl
  rw [performed]
  dsimp only
  split
  · exact follow_offset low high base []
  · rfl

end Jumps

/-! ## Operations that are executed on their own -/

/-- What an operation on its own comes to, the machine comes to as well. -/
def Passes (program : Program) (limits : Limits) (twins : UInt32 → UInt32 → Prop) (fuel : Nat)
    (code : Code) (ip : Nat) (machine : Machine) :
    EStateM.Result (Halt RuntimeError) (Activation × World) Flow → Prop
  | .ok _ (top, world') => ∃ count world,
      (step program limits)^[count + 1] machine = ⟨.run code (ip + 1) top, [], world⟩ ∧
        world.Alike twins world'
  | .error (.failure error') (_, world') => ∃ count error world,
      (step program limits)^[count] machine = ⟨.fail error, [], world⟩ ∧
        error.Same error' ∧ world.output = world'.output
  | .error .outOfFuel _ => ¬((step program limits)^[fuel] machine).Done

section Passes

variable (mirrors : program.Mirrors other twins) {machine : Machine}
  (quiet : machine.Quiet program limits)

include mirrors quiet

/-- A body that the operation calls runs in both machines, and its result is pushed. -/
theorem passes_settle {focus focus' : Focus} (same : focus.Alike program other twins focus')
    (h : world.Alike twins world')
    (called : step program limits machine = ⟨focus, [.body code ip top], world⟩) (fuel : Nat) :
    Passes program limits twins fuel code ip machine
      (match runFrom other limits fuel focus' world' with
      | .ok value world => .ok Flow.next ({ top with stack := value :: top.stack }, world)
      | .error halt world => .error halt (top, world)) := by
  have alike : Machine.Alike program other twins [.body code ip top]
      (step program limits machine) ⟨focus', [], world'⟩ := by
    rw [called]
    exact ⟨same, ⟨[], rfl, .nil⟩, h⟩
  have follows := alike.follows mirrors (quiet.after 1) fuel
  unfold runFrom
  cases run : Machine.run other limits fuel ⟨focus', [], world'⟩ with
  | ok value after =>
      rw [run] at follows
      obtain ⟨count, world, reached, alike⟩ := follows
      refine ⟨count + 1, world, ?_, alike⟩
      rw [Function.iterate_succ_apply', Function.iterate_succ_apply, reached]
      rfl
  | error halt after =>
      rw [run] at follows
      cases halt with
      | failure error' =>
          obtain ⟨count, error, world, reached, same, alike⟩ := follows
          refine ⟨count + 2, error.leaving (code.place ip), world.endCall, ?_, same, ?_⟩
          · rw [Function.iterate_succ_apply', Function.iterate_succ_apply, reached]
            rfl
          · exact alike.output.symm
      | outOfFuel =>
          refine not_done_of_steps (show ¬((step program limits)^[fuel + 1] machine).Done from ?_)
          rw [Function.iterate_succ_apply]
          exact follows

end Passes

/-- The operation that a quiet machine is about to do, executed on its own in a world that is
alike. -/
theorem Quiet.passes_complete (mirrors : program.Mirrors other twins)
    (quiet : Quiet program limits ⟨.run code ip top, [], world⟩) (h : world.Alike twins world')
    {op op' : Op} (here : code.ops[ip]? = some op) (alike : op.Alike program other twins op')
    (falls : op'.falls = true) (straight : op'.jumpOffset? = none) (fuel : Nat) :
    Passes program limits twins fuel code ip ⟨.run code ip top, [], world⟩
      (complete other limits fuel op' (top, world')) := by
  have blind : ∀ shown ∈ op.shows program top world.count, shown.proc world.count.heap = false := by
    intro shown member
    refine Bool.eq_false_iff.mpr fun shows => (quiet 0).1 ?_
    exact ⟨code, ip, top, op, rfl, here, shown, op.shows_count .. ▸ member, shows⟩
  have stepped := quiet.step_perform here
  unfold complete
  obtain ⟨flow, flow', ⟨after, world₁⟩, ⟨after', world₁'⟩, run, run', same, rfl, kept⟩ |
    ⟨error, error', ⟨after, world₁⟩, ⟨after', world₁'⟩, run, run', same, -, kept⟩ :=
      (Exec.agrees_perform mirrors h.counted alike blind).cases
  · rw [run] at stepped
    have lands := Exec.ensures_lands other falls straight _ _ _ run'
    dsimp only at run' kept stepped
    simp only [run']
    cases same with
    | next => exact ⟨0, world₁, stepped, kept⟩
    | jump | ret => exact lands.elim
    | enter callee paired => exact passes_settle mirrors quiet (.enter callee paired) kept stepped fuel
    | iterate loop => exact passes_settle mirrors quiet (.iterate loop) kept stepped fuel
  · rw [run] at stepped
    simp only [run']
    exact ⟨1, _, _, stepped, same, kept.output.symm⟩

end Machine

end BlockScript
