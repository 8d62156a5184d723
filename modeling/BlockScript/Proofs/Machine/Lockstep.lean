import BlockScript.Proofs.Machine.Alike
import BlockScript.Proofs.Machine.Runs

/-!
# Machines in lockstep

A machine that runs one of two programs that mirror each other keeps step with a machine that
runs the other one, as long as no text shows a block and no limit is reached. The first
machine may have more waiting below what the second one started with, so that a body that an
operation of the script calls can be compared with the same body called on its own.
-/

namespace BlockScript

variable {program other : Program} {twins : UInt32 → UInt32 → Prop} {limits : Limits}

/-- The machines are about to do the same. -/
inductive Focus.Alike (program other : Program) (twins : UInt32 → UInt32 → Prop) :
    Focus → Focus → Prop where
  | enter {position position' : UInt32} (activation : Activation)
      (paired : twins position position') :
      Alike program other twins (.enter position activation) (.enter position' activation)
  | run {code code' : Code} (ip : Nat) (activation : Activation)
      (alike : code.Alike program other twins code') :
      Alike program other twins (.run code ip activation) (.run code' ip activation)
  | iterate (loop : BlockLoop) : Alike program other twins (.iterate loop) (.iterate loop)
  | give (value : Value) : Alike program other twins (.give value) (.give value)
  | fail {error error' : RuntimeError} (same : error.Same error') :
      Alike program other twins (.fail error) (.fail error')

/-- The same waits for a result. -/
inductive Waiting.Alike (program other : Program) (twins : UInt32 → UInt32 → Prop) :
    Waiting → Waiting → Prop where
  | body {code code' : Code} (ip : Nat) (activation : Activation)
      (alike : code.Alike program other twins code') :
      Alike program other twins (.body code ip activation) (.body code' ip activation)
  | loop (loop : BlockLoop) : Alike program other twins (.loop loop) (.loop loop)

namespace Machine

/-- The machine has reached a limit. -/
def Limited (machine : Machine) : Prop :=
  ∃ error, machine.focus = .fail error ∧ error.kind = .limit

/-- However long the machine runs, no text shows a block and no limit is reached. -/
def Quiet (program : Program) (limits : Limits) (machine : Machine) : Prop :=
  ∀ count, ¬((step program limits)^[count] machine).ShowsProc program ∧
    ¬((step program limits)^[count] machine).Limited

/-- The first machine is in the same state as the second one, but for what waits outside. -/
structure Alike (program other : Program) (twins : UInt32 → UInt32 → Prop) (outer : List Waiting)
    (machine machine' : Machine) : Prop where
  focus : machine.focus.Alike program other twins machine'.focus
  waiting : ∃ inner, machine.waiting = inner ++ outer ∧
    List.Forall₂ (Waiting.Alike program other twins) inner machine'.waiting
  world : machine.world.Alike twins machine'.world

/-! ## Limits -/

/-- Fewer operations break no limit that more operations do not break. -/
theorem brokenLimit_none {steps steps' size : Nat} (fewer : steps' ≤ steps)
    (within : brokenLimit limits steps size = none) : brokenLimit limits steps' size = none := by
  unfold brokenLimit at within ⊢
  generalize limits.maxSteps = maxSteps at within ⊢
  cases maxSteps with
  | none => exact within
  | some most =>
      by_cases exceeded : most < steps
      · simp [exceeded] at within
      · have exceeded' : ¬most < steps' := by omega
        simpa [exceeded, exceeded'] using within

/-! ## One step -/

section Step

variable {outer : List Waiting}

theorem Alike.not_done {machine machine' : Machine} (h : machine.Alike program other twins outer machine')
    (running : ¬machine'.Done) : ¬machine.Done := by
  rintro ⟨none, last⟩
  obtain ⟨inner, waiting, alike⟩ := h.waiting
  obtain ⟨rfl, -⟩ := List.append_eq_nil_iff.mp (waiting.symm.trans none)
  refine running ⟨(List.forall₂_nil_left_iff.mp alike), ?_⟩
  have focus := h.focus
  rcases last with ⟨value, give⟩ | ⟨error, fail⟩
  · rw [give] at focus
    generalize machine'.focus = focus' at focus ⊢
    cases focus with
    | give => exact .inl ⟨value, rfl⟩
  · rw [fail] at focus
    generalize machine'.focus = focus' at focus ⊢
    cases focus with
    | fail => exact .inr ⟨_, rfl⟩

variable (mirrors : program.Mirrors other twins) {inner inner' : List Waiting}
  (waits : List.Forall₂ (Waiting.Alike program other twins) inner inner') {world world' : World}
  (h : world.Alike twins world')

include waits h

/-- A body that was entered by one machine is entered by the other one. -/
theorem alike_enter (mirrors : program.Mirrors other twins) {position position' : UInt32}
    (paired : twins position position') (activation : Activation)
    (within : ¬(enter program limits position activation (inner ++ outer) world).Limited) :
    (enter program limits position activation (inner ++ outer) world).Alike program other twins
      outer (enter other limits position' activation inner' world') := by
  obtain ⟨body, body', found, found', alike⟩ := mirrors position position' paired
  have shallow : ¬limits.maxCallDepth ≤ world.calls.size := by
    intro deep
    rw [enter, if_pos deep] at within
    exact within ⟨_, rfl, rfl⟩
  have shallow' : ¬limits.maxCallDepth ≤ world'.calls.size :=
    fun deep => shallow (Nat.le_trans deep h.calls_size)
  simp only [enter, if_neg shallow, if_neg shallow', found, found']
  rw [alike.name]
  exact ⟨.run 0 activation alike, ⟨inner, rfl, waits⟩, h.beginCall _⟩

/-- What follows an operation. -/
theorem alike_follow {code code' : Code} (alike : code.Alike program other twins code') (ip : Nat)
    {flow flow' : Flow} (same : flow.Alike twins flow') (activation : Activation) :
    (follow code ip flow activation (inner ++ outer) world).Alike program other twins outer
      (follow code' ip flow' activation inner' world') := by
  cases same with
  | next => exact ⟨.run _ _ alike, ⟨inner, rfl, waits⟩, h⟩
  | jump offset =>
      simp only [follow]
      split
      · exact ⟨.run _ _ alike, ⟨inner, rfl, waits⟩, h⟩
      · rw [alike.name]
        exact ⟨.fail (.refl _), ⟨inner, rfl, waits⟩, h.endCall⟩
  | ret value => exact ⟨.give value, ⟨inner, rfl, waits⟩, h.endCall⟩
  | enter callee paired =>
      exact ⟨.enter callee paired, ⟨_ :: inner, rfl, .cons (.body ip activation alike) waits⟩, h⟩
  | iterate loop =>
      exact ⟨.iterate loop, ⟨_ :: inner, rfl, .cons (.body ip activation alike) waits⟩, h⟩

/-- An operation is executed by both machines. -/
theorem alike_advance (mirrors : program.Mirrors other twins) {code code' : Code}
    (alike : code.Alike program other twins code') (ip : Nat) (activation : Activation)
    (blind : ¬ShowsProc program ⟨.run code ip activation, inner ++ outer, world⟩)
    (within : ¬(advance program limits code ip activation (inner ++ outer) world).Limited) :
    (advance program limits code ip activation (inner ++ outer) world).Alike program other twins
      outer (advance other limits code' ip activation inner' world') := by
  cases found : code.ops[ip]? with
  | none =>
      have found' : code'.ops[ip]? = none := by
        rw [Array.getElem?_eq_none_iff] at found ⊢
        exact alike.size ▸ found
      simp only [advance, found, found']
      rw [alike.name]
      exact ⟨.fail (.refl _), ⟨inner, rfl, waits⟩, h.endCall⟩
  | some op =>
      obtain ⟨op', found', same⟩ := alike.op found
      have shows : ∀ shown ∈ op.shows program activation world.count,
          shown.proc world.count.heap = false := by
        intro shown member
        refine Bool.eq_false_iff.mpr fun shows => ?_
        exact blind ⟨code, ip, activation, op, rfl, found, shown, op.shows_count .. ▸ member, shows⟩
      simp only [advance, found, found'] at within ⊢
      cases limit : brokenLimit limits world.count.steps activation.stack.length with
      | some error =>
          rw [limit] at within
          exact absurd ⟨error, rfl, brokenLimit_kind limit⟩ within
      | none =>
          rw [brokenLimit_none h.count.steps limit]
          obtain ⟨flow, flow', after, after', run, run', same, kept⟩ |
            ⟨error, error', after, after', run, run', same, kept⟩ :=
              (Exec.agrees_perform mirrors h.count same shows).cases
          · obtain ⟨own, world⟩ := after
            obtain ⟨own', world'⟩ := after'
            obtain ⟨rfl, kept⟩ := kept
            simp only [run, run']
            exact alike_follow waits kept alike ip same _
          · simp only [run, run']
            exact ⟨.fail same, ⟨inner, rfl, waits⟩, kept.world.endCall⟩

/-- A block is called once more, or its repeated call is over. -/
theorem alike_iterate (mirrors : program.Mirrors other twins) (loop : BlockLoop) :
    (iterate program loop (inner ++ outer) world).Alike program other twins outer
      (iterate other loop inner' world') := by
  cases next : loop.next? with
  | some pass =>
      obtain ⟨block, argument, rest⟩ := pass
      simp only [iterate, next]
      obtain ⟨⟨position, activation⟩, ⟨position', _⟩, after, after', run, run', ⟨paired, rfl⟩, kept⟩ |
        ⟨error, error', after, after', run, run', same, kept⟩ :=
          (Run.agrees_enterBlock mirrors h block [argument]).cases
      · simp only [run, run']
        exact ⟨.enter activation paired, ⟨_ :: inner, rfl, .cons (.loop rest) waits⟩, kept⟩
      · simp only [run, run']
        exact ⟨.fail same, ⟨inner, rfl, waits⟩, kept⟩
  | none =>
      have result : Agrees Eq (World.Alike twins) loop.result loop.result world world' := by
        cases loop with
        | map block rest results => exact Run.agrees_newArray h _
        | _ => exact .pure h rfl
      simp only [iterate, next]
      obtain ⟨value, _, after, after', run, run', rfl, kept⟩ |
        ⟨error, error', after, after', run, run', same, kept⟩ := result.cases
      · simp only [run, run']
        exact ⟨.give value, ⟨inner, rfl, waits⟩, kept⟩
      · simp only [run, run']
        exact ⟨.fail same, ⟨inner, rfl, waits⟩, kept⟩

end Step

/-- The machines take a step together. -/
theorem Alike.step (mirrors : program.Mirrors other twins) {outer : List Waiting}
    {machine machine' : Machine} (h : machine.Alike program other twins outer machine')
    (running : ¬machine'.Done) (blind : ¬machine.ShowsProc program)
    (within : ¬(step program limits machine).Limited) :
    (step program limits machine).Alike program other twins outer (step other limits machine') := by
  obtain ⟨focus, waiting, world⟩ := machine
  obtain ⟨focus', inner', world'⟩ := machine'
  obtain ⟨focus, ⟨inner, rfl, waits⟩, alike⟩ := h
  dsimp only at focus waits alike
  cases focus with
  | enter activation paired => exact alike_enter waits alike mirrors paired activation within
  | run ip activation same => exact alike_advance waits alike mirrors same ip activation blind within
  | iterate loop => exact alike_iterate waits alike mirrors loop
  | give value =>
      cases waits with
      | nil => exact absurd ⟨rfl, .inl ⟨value, rfl⟩⟩ running
      | cons first rest =>
          cases first with
          | body ip activation same => exact ⟨.run _ _ same, ⟨_, rfl, rest⟩, alike⟩
          | loop loop => exact ⟨.iterate _, ⟨_, rfl, rest⟩, alike⟩
  | fail same =>
      cases waits with
      | nil => exact absurd ⟨rfl, .inr ⟨_, rfl⟩⟩ running
      | cons first rest =>
          cases first with
          | body ip activation _ => exact ⟨.fail (same.leaving _ _), ⟨_, rfl, rest⟩, alike.endCall⟩
          | loop loop => exact ⟨.fail same, ⟨_, rfl, rest⟩, alike⟩

/-! ## Runs -/

theorem Quiet.after {machine : Machine} (quiet : machine.Quiet program limits) (count : Nat) :
    ((step program limits)^[count] machine).Quiet program limits := by
  intro more
  rw [← Function.iterate_add_apply]
  exact quiet (more + count)

/-- The machine comes to what a run came to, with something waiting for it. -/
def Follows (program : Program) (limits : Limits) (twins : UInt32 → UInt32 → Prop) (fuel : Nat)
    (outer : List Waiting) (machine : Machine) :
    EStateM.Result (Halt RuntimeError) World Value → Prop
  | .ok value world' => ∃ count world,
      (step program limits)^[count] machine = ⟨.give value, outer, world⟩ ∧
        world.Alike twins world'
  | .error (.failure error') world' => ∃ count error world,
      (step program limits)^[count] machine = ⟨.fail error, outer, world⟩ ∧
        error.Same error' ∧ world.Alike twins world'
  | .error .outOfFuel _ => ¬((step program limits)^[fuel] machine).Done

/-- A quiet machine follows a run of the other program. -/
theorem Alike.follows (mirrors : program.Mirrors other twins) {outer : List Waiting}
    {machine machine' : Machine} (h : machine.Alike program other twins outer machine')
    (quiet : machine.Quiet program limits) (fuel : Nat) :
    Follows program limits twins fuel outer machine (Machine.run other limits fuel machine') := by
  fun_induction run other limits fuel machine' generalizing machine with
  | case1 fuel value world' =>
      obtain ⟨focus, waiting, world⟩ := machine
      obtain ⟨focus, ⟨inner, rfl, waits⟩, alike⟩ := h
      cases focus with
      | give =>
          cases waits with
          | nil => exact ⟨0, world, rfl, alike⟩
  | case2 fuel error' world' =>
      obtain ⟨focus, waiting, world⟩ := machine
      obtain ⟨focus, ⟨inner, rfl, waits⟩, alike⟩ := h
      cases focus with
      | fail same =>
          cases waits with
          | nil => exact ⟨0, _, world, rfl, same, alike⟩
  | case3 focus waiting world' give fail =>
      refine h.not_done ?_
      rintro ⟨rfl, ⟨value, rfl⟩ | ⟨error, rfl⟩⟩
      · exact give value rfl rfl
      · exact fail error rfl rfl
  | case4 fuel machine' give fail ih =>
      have running : ¬machine'.Done := by
        obtain ⟨focus, waiting, world'⟩ := machine'
        rintro ⟨rfl, ⟨value, rfl⟩ | ⟨error, rfl⟩⟩
        · exact give value world' rfl
        · exact fail error world' rfl
      have stepped := h.step mirrors running (quiet 0).1 (quiet 1).2
      have later := ih stepped (quiet.after 1)
      generalize Machine.run other limits fuel (Machine.step other limits machine') = result
        at later ⊢
      cases result with
      | ok value world' =>
          obtain ⟨count, world, reached, alike⟩ := later
          exact ⟨count + 1, world, reached, alike⟩
      | error halt world' =>
          cases halt with
          | failure error' =>
              obtain ⟨count, error, world, reached, same, alike⟩ := later
              exact ⟨count + 1, error, world, reached, same, alike⟩
          | outOfFuel => exact later

/-! ## Quiet machines

Whether a machine is quiet can be computed if it comes to an end. -/

instance (program : Program) (machine : Machine) : Decidable (machine.ShowsProc program) :=
  match machine with
  | { focus := .run code ip activation, waiting, world } =>
    match found : code.ops[ip]? with
    | some op =>
      decidable_of_iff (∃ shown ∈ op.shows program activation world, shown.proc world.heap = true)
        ⟨fun shows => ⟨code, ip, activation, op, rfl, found, shows⟩, by
          rintro ⟨_, _, _, op', same, found', shows⟩
          cases same
          obtain rfl := Option.some.inj (found.symm.trans found')
          exact shows⟩
    | none => isFalse (by
        rintro ⟨_, _, _, op, same, found', -⟩
        cases same
        cases found.symm.trans found')
  | { focus := .enter _ _, .. } | { focus := .iterate _, .. } | { focus := .give _, .. }
  | { focus := .fail _, .. } => isFalse (by rintro ⟨_, _, _, _, ⟨⟩, -⟩)

instance (machine : Machine) : Decidable machine.Limited :=
  match machine with
  | { focus := .fail error, .. } => decidable_of_iff (error.kind = .limit)
      ⟨fun limit => ⟨error, rfl, limit⟩, by rintro ⟨_, ⟨⟩, limit⟩; exact limit⟩
  | { focus := .enter _ _, .. } | { focus := .iterate _, .. } | { focus := .give _, .. }
  | { focus := .run _ _ _, .. } => isFalse (by rintro ⟨_, ⟨⟩, -⟩)

instance (machine : Machine) : Decidable machine.Done :=
  match machine with
  | { focus := .give value, waiting := [], .. } => isTrue ⟨rfl, .inl ⟨value, rfl⟩⟩
  | { focus := .fail error, waiting := [], .. } => isTrue ⟨rfl, .inr ⟨error, rfl⟩⟩
  | { waiting := _ :: _, .. } => isFalse (by rintro ⟨⟨⟩, -⟩)
  | { focus := .enter _ _, .. } | { focus := .iterate _, .. } | { focus := .run _ _ _, .. } =>
    isFalse (by rintro ⟨-, ⟨_, ⟨⟩⟩ | ⟨_, ⟨⟩⟩⟩)

/-- The machine comes to an end within so many steps, and is quiet until then. -/
def Calm (program : Program) (limits : Limits) : Nat → Machine → Prop
  | 0, machine => machine.Done ∧ ¬machine.Limited
  | steps + 1, machine => ¬machine.ShowsProc program ∧ ¬machine.Limited ∧
      Calm program limits steps (step program limits machine)

instance (program : Program) (limits : Limits) :
    (steps : Nat) → (machine : Machine) → Decidable (Calm program limits steps machine)
  | 0, _ => inferInstanceAs (Decidable (_ ∧ _))
  | steps + 1, machine =>
    have := instDecidableCalm program limits steps (step program limits machine)
    inferInstanceAs (Decidable (_ ∧ _ ∧ _))

theorem Done.not_showsProc {machine : Machine} (done : machine.Done) : ¬machine.ShowsProc program := by
  rintro ⟨_, _, _, _, focus, -⟩
  obtain ⟨-, ⟨_, ends⟩ | ⟨_, ends⟩⟩ := done <;> cases focus.symm.trans ends

theorem Calm.quiet {steps : Nat} {machine : Machine} (calm : Calm program limits steps machine) :
    machine.Quiet program limits := by
  induction steps generalizing machine with
  | zero =>
      intro count
      rw [calm.1.steps]
      exact ⟨calm.1.not_showsProc, calm.2⟩
  | succ steps ih =>
      obtain ⟨blind, within, calm⟩ := calm
      rintro (_ | count)
      · exact ⟨blind, within⟩
      · rw [Function.iterate_succ_apply]
        exact ih calm count

end Machine

end BlockScript
