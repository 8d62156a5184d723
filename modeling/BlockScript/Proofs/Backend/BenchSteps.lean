import BlockScript.Proofs.Backend.Ensures
import BlockScript.Proofs.Verifier.Heights
import BlockScript.Proofs.Unit.Evolves
import Mathlib.Algebra.GroupWithZero.Nat

/-!
# What the operations of a bench do when they succeed

One lemma for each operation of a bench: what must have been there before, and what the
bench is afterwards. Recording only ever changes the builder of the innermost unit, so most
of them end in `setBuilder`.
-/

namespace BlockScript

namespace Builder

variable {builder builder' : Builder}

/-- Appending an operation takes its operands and puts its results. -/
theorem emit_ok {operation : String} {op : Op} (h : builder.emit operation op = .ok builder') :
    ∃ stack, builder.stack.consume operation op.pops builder.line = .ok stack ∧
      builder' = { builder with
        code := { builder.code with ops := builder.code.ops.push op }
        stack := stack.produce op.pushes } := by
  obtain ⟨code, stack, line⟩ := builder
  unfold emit at h
  cases hconsume : stack.consume operation op.pops line with
  | error error => simp [hconsume, bind, Except.bind] at h
  | ok stack' =>
      simp only [hconsume, bind, Except.bind, Pure.pure, Except.pure, Except.ok.injEq] at h
      exact ⟨stack', rfl, h.symm⟩

theorem emit_eq {operation : String} {op : Op} {stack : DepthTracker}
    (h : builder.stack.consume operation op.pops builder.line = .ok stack) :
    builder.emit operation op = .ok { builder with
      code := { builder.code with ops := builder.code.ops.push op }
      stack := stack.produce op.pushes } := by
  obtain ⟨code, tracker, line⟩ := builder
  rw [emit, h]
  rfl

theorem emitJump_ok {operation : String} {kind : JumpKind} {patch : JumpPatch}
    (h : builder.emitJump operation kind = .ok (patch, builder')) :
    patch = ⟨builder.label, kind⟩ ∧ builder.emit operation (kind.op 0) = .ok builder' := by
  unfold emitJump at h
  cases hemit : builder.emit operation (kind.op 0) with
  | error error => simp [hemit, bind, Except.bind] at h
  | ok appended =>
      simp only [hemit, bind, Except.bind, Pure.pure, Except.pure, Except.ok.injEq,
        Prod.mk.injEq] at h
      exact ⟨h.1.symm, by rw [h.2]⟩

/-- A unit is closed by dropping what is too much, pushing nil if there is no value, and
returning. -/
theorem finish_ok {code : Code} (h : builder.finish = .ok code) :
    ∃ surplus popped valued closed,
      builder.stack.surplus builder.describe builder.line = .ok surplus ∧
      emitTimes "end of unit" .pop surplus builder = .ok popped ∧
      (popped.depth = 0 ∧ popped.emit "end of unit" .pushNil = .ok valued ∨
        popped.depth ≠ 0 ∧ valued = popped) ∧
      valued.emit "end of unit" .ret = .ok closed ∧
      code = { closed.code with maxStack := closed.stack.maxDepth.toUInt32 } := by
  obtain ⟨surplus, hsurplus, h⟩ := Verifier.bind_ok h
  obtain ⟨popped, hpopped, h⟩ := Verifier.bind_ok h
  by_cases empty : popped.depth = 0
  · simp only [if_pos empty] at h
    obtain ⟨valued, hvalued, h⟩ := Verifier.bind_ok h
    obtain ⟨closed, hclosed, h⟩ := Verifier.bind_ok h
    exact ⟨surplus, popped, valued, closed, hsurplus, hpopped, .inl ⟨empty, hvalued⟩, hclosed,
      (Except.ok.inj h).symm⟩
  · simp only [if_neg empty] at h
    obtain ⟨valued, hvalued, h⟩ := Verifier.bind_ok h
    obtain ⟨closed, hclosed, h⟩ := Verifier.bind_ok h
    exact ⟨surplus, popped, valued, closed, hsurplus, hpopped,
      .inr ⟨empty, (Except.ok.inj hvalued).symm⟩, hclosed, (Except.ok.inj h).symm⟩

end Builder

namespace Program

/-- The program with a code object in a slot that was claimed. -/
def fill (program : Program) (slot : UInt32) (code : Code) : Program :=
  { program with code := program.code.setIfInBounds slot.toNat code }

theorem size_reserve (program : Program) :
    program.reserve.2.code.size = program.code.size + 1 := Array.size_push ..

theorem size_fill (program : Program) (slot : UInt32) (code : Code) :
    (program.fill slot code).code.size = program.code.size := Array.size_setIfInBounds ..

/-- A slot that is filled holds the code object, and the others hold what they held. -/
theorem getElem?_fill {program : Program} {slot : UInt32} (inside : slot.toNat < program.code.size)
    (code : Code) (position : Nat) : (program.fill slot code).code[position]? =
      if slot.toNat = position then some code else program.code[position]? := by
  show (program.code.setIfInBounds slot.toNat code)[position]? = _
  rw [Array.getElem?_setIfInBounds, if_pos inside]

theorem fill_cases {program : Program} {slot : UInt32} {code found : Code} {position : Nat}
    (h : (program.fill slot code).code[position]? = some found) :
    slot.toNat = position ∧ code = found ∨
      slot.toNat ≠ position ∧ program.code[position]? = some found := by
  by_cases inside : slot.toNat < program.code.size
  · rw [getElem?_fill inside] at h
    split at h
    · rename_i here
      exact .inl ⟨here, Option.some.inj h⟩
    · rename_i elsewhere
      exact .inr ⟨elsewhere, h⟩
  · have same : program.fill slot code = program := by
      rw [fill, Array.setIfInBounds_eq_of_size_le (Nat.le_of_not_lt inside)]
    rw [same] at h
    have lt := (Array.getElem?_eq_some_iff.mp h).1
    exact .inr ⟨by omega, h⟩

theorem size_release (program : Program) (slot : UInt32) :
    (program.release slot).code.size = min slot.toNat program.code.size := by
  show (program.code.extract 0 slot.toNat).size = _
  rw [Array.size_extract, Nat.sub_zero]

/-- What was in the table before a slot was claimed is still there when it is given back. -/
theorem getElem?_release (program : Program) (slot : UInt32) (position : Nat) :
    (program.release slot).code[position]? =
      if position < slot.toNat then program.code[position]? else none := by
  show (program.code.extract 0 slot.toNat)[position]? = _
  rw [Array.getElem?_extract]
  split
  · rename_i lt
    rw [if_pos (by omega), Nat.zero_add]
  · rename_i ge
    split
    · rw [Array.getElem?_eq_none (by omega)]
    · rfl

theorem toNat_toUInt32 {n : Nat} (h : n < UInt32.size) : n.toUInt32.toNat = n := by
  rw [Nat.toUInt32_eq, UInt32.toNat_ofNat_of_lt' h]

/-- A list that is not too long has a length that fits an operand. -/
theorem toNat_toUInt32_short {n : Nat} (h : n < 2 ^ 31) : n.toUInt32.toNat = n :=
  toNat_toUInt32 (Nat.lt_of_lt_of_le h (Nat.pow_le_pow_right Nat.two_pos (Nat.le_succ 31)))

end Program

namespace Bench

variable {bench : Bench} {recording : Recording}

/-- The bench with another builder in its innermost recording. -/
def setBuilder (bench : Bench) (builder : Builder) : Bench :=
  { bench with units := bench.units.mapTop (·.map fun ⟨slot, _⟩ => ⟨slot, builder⟩) }

/-- Nothing but what is recorded changes. -/
theorem setBuilder_rest (bench : Bench) (builder : Builder) :
    (bench.setBuilder builder).units.nextId = bench.units.nextId ∧
      (bench.setBuilder builder).units.owner = bench.units.owner ∧
      (bench.setBuilder builder).units.nesting = bench.units.nesting ∧
      (bench.setBuilder builder).units.maxNesting = bench.units.maxNesting :=
  bench.units.mapTop_rest _

theorem recording?_eq_some : bench.recording? = some recording ↔
    ∃ unit outer, bench.units.units = unit :: outer ∧ unit.payload = some recording := by
  unfold recording? UnitStack.top?
  cases bench.units.units with
  | nil => simp
  | cons unit outer => simp

theorem setBuilder_units {unit : OpenUnit (Option Recording)}
    {outer : List (OpenUnit (Option Recording))} (h : bench.units.units = unit :: outer)
    (payload : unit.payload = some recording) (builder : Builder) :
    (bench.setBuilder builder).units.units =
      { unit with payload := some ⟨recording.slot, builder⟩ } :: outer := by
  unfold setBuilder
  rw [UnitStack.mapTop_units h, payload]
  rfl

/-- What is put into the innermost recording is found there. -/
theorem recording?_setBuilder (h : bench.recording? = some recording) (builder : Builder) :
    (bench.setBuilder builder).recording? = some ⟨recording.slot, builder⟩ := by
  obtain ⟨unit, outer, hunits, hpayload⟩ := recording?_eq_some.mp h
  exact recording?_eq_some.mpr ⟨_, _, setBuilder_units hunits hpayload builder, rfl⟩

theorem ensures_target : Ensures target bench fun builder bench' =>
    bench' = bench ∧ ∃ slot, bench.recording? = some ⟨slot, builder⟩ := by
  refine Ensures.get ?_
  cases hunits : bench.units.units with
  | nil =>
      simp only [UnitStack.top?, hunits, List.head?_nil]
      exact Ensures.throws
  | cons unit outer =>
      simp only [UnitStack.top?, hunits, List.head?_cons]
      cases hpayload : unit.payload with
      | none =>
          simp only
          exact Ensures.throws
      | some recording =>
          simp only
          exact Ensures.pure
            ⟨rfl, recording.slot, recording?_eq_some.mpr ⟨unit, outer, hunits, hpayload⟩⟩

theorem target_eq (h : bench.recording? = some recording) :
    target bench = .ok recording.builder bench := by
  obtain ⟨unit, outer, hunits, payload⟩ := recording?_eq_some.mp h
  have top : bench.units.top? = some unit := by
    rw [UnitStack.top?, hunits]
    rfl
  unfold target
  rw [run_bind_ok run_get, top]
  dsimp only
  rw [payload]
  rfl

theorem modifyBuilder_eq (h : bench.recording? = some recording) (f : Builder → Builder) :
    modifyBuilder f bench = .ok () (bench.setBuilder (f recording.builder)) := by
  obtain ⟨unit, outer, hunits, hpayload⟩ := recording?_eq_some.mp h
  obtain ⟨config, ⟨owner, nextId, units, nesting, maxNesting⟩, program, line, sharing, recorded⟩ :=
    bench
  obtain ⟨id, kind, name, payload⟩ := unit
  cases hunits
  cases hpayload
  rfl

/-- What the builder of the innermost recording can do is done. -/
theorem build_eq {α : Type} (h : bench.recording? = some recording)
    {action : Builder → Except CompileError (α × Builder)} {value : α} {builder : Builder}
    (run : action recording.builder = .ok (value, builder)) :
    build action bench = .ok value (bench.setBuilder builder) := by
  change (target >>= _) bench = _
  rw [run_bind_ok (target_eq h)]
  simp only [run]
  rw [run_bind_ok (modifyBuilder_eq h _)]
  rfl

theorem ensures_modifyBuilder (h : bench.recording? = some recording) (f : Builder → Builder) :
    Ensures (modifyBuilder f) bench fun _ bench' =>
      bench' = bench.setBuilder (f recording.builder) := by
  intro value bench' run
  rw [modifyBuilder_eq h] at run
  cases run
  rfl

theorem ensures_build {α : Type} {action : Builder → Except CompileError (α × Builder)} :
    Ensures (build action) bench fun value bench' => ∃ slot builder builder',
      bench.recording? = some ⟨slot, builder⟩ ∧ action builder = .ok (value, builder') ∧
      bench' = bench.setBuilder builder' := by
  refine ensures_target.bind ?_
  rintro builder _ ⟨rfl, slot, hrecording⟩
  cases haction : action builder with
  | error error =>
      simp only
      exact Ensures.throws
  | ok result =>
      obtain ⟨value, builder'⟩ := result
      simp only
      refine (ensures_modifyBuilder hrecording fun _ => builder').bind ?_
      rintro _ _ rfl
      exact Ensures.pure ⟨slot, builder, builder', hrecording, haction, rfl⟩

theorem ensures_emit {operation : String} {op : Op} :
    Ensures (emit operation op) bench fun _ bench' => ∃ slot builder builder',
      bench.recording? = some ⟨slot, builder⟩ ∧ builder.emit operation op = .ok builder' ∧
      bench' = bench.setBuilder builder' := by
  refine ensures_build.mono ?_
  rintro _ bench' ⟨slot, builder, builder', hrecording, haction, rfl⟩
  cases hemit : builder.emit operation op with
  | error error => simp [hemit, bind, Except.bind] at haction
  | ok appended =>
      simp only [hemit, bind, Except.bind, Pure.pure, Except.pure, Except.ok.injEq,
        Prod.mk.injEq, true_and] at haction
      exact ⟨slot, builder, appended, hrecording, hemit, by rw [haction]⟩

theorem ensures_intern {constant : Constant} : Ensures (intern constant) bench
    fun position bench' => ∃ constants,
      bench.program.constants.intern constant bench.config.maxPoolEntries =
        .ok (position, constants) ∧
      bench' = { bench with program := { bench.program with constants } } := by
  intro position bench' run
  unfold intern at run
  split at run
  · cases run
    exact ⟨_, ‹_›, rfl⟩
  · cases run

theorem ensures_checkScopeDepth {depth : Nat} : Ensures (checkScopeDepth depth) bench
    fun _ bench' => bench' = bench ∧ depth ≤ bench.units.reachableDepth := by
  refine Ensures.get (Ensures.ite (fun _ => Ensures.throws) fun h => ?_)
  exact Ensures.pure ⟨rfl, Nat.le_of_not_lt h⟩

/-- The builder that a unit begins with. It takes the current line over. -/
def opening (bench : Bench) (kind : UnitKind) (name : String) (arity localCount : Nat)
    (locals : List String) : Builder :=
  let builder := Builder.new name kind arity localCount locals bench.config.checkStack
  match bench.currentLine with
  | some line => builder.setLine line
  | none => builder

theorem opening_empty (bench : Bench) (kind : UnitKind) (name : String) (arity localCount : Nat)
    (locals : List String) :
    (bench.opening kind name arity localCount locals).code.ops = #[] ∧
      (bench.opening kind name arity localCount locals).stack = .new bench.config.checkStack := by
  unfold opening
  dsimp only
  split <;> exact ⟨rfl, rfl⟩

/-- A slot is claimed first, and given back if no unit can be opened in it. -/
theorem openUnit_eq (room : bench.program.code.size < bench.config.maxPoolEntries)
    {kind : UnitKind} {name : String} {arity localCount : Nat} {locals : List String} :
    openUnit kind name arity localCount locals bench =
      match bench.units.open kind name (some ⟨bench.program.code.size.toUInt32,
        bench.opening kind name arity localCount locals⟩) with
      | .ok (handle, units) => .ok handle { bench with units, program := bench.program.reserve.2 }
      | .error error => .error error (release { bench with program := bench.program.reserve.2 }
          bench.program.code.size.toUInt32) := by
  have granted : reserve bench = .ok bench.program.code.size.toUInt32
      { bench with program := bench.program.reserve.2 } := if_neg (Nat.not_le_of_lt room)
  have line : currentLine { bench with program := bench.program.reserve.2 } =
      bench.currentLine := rfl
  unfold openUnit opening
  rw [run_bind_ok granted, run_bind_ok run_get]
  dsimp only
  rw [line]
  cases bench.units.open kind name _ <;> rfl

theorem ensures_opens {kind : UnitKind} {name : String} {arity localCount : Nat}
    {locals : List String} : Ensures (openUnit kind name arity localCount locals) bench
    fun handle bench' => ∃ units, bench.program.code.size < bench.config.maxPoolEntries ∧
      bench.units.open kind name (some ⟨bench.program.code.size.toUInt32,
        bench.opening kind name arity localCount locals⟩) = .ok (handle, units) ∧
      bench' = { bench with units, program := bench.program.reserve.2 } := by
  intro handle bench' run
  by_cases room : bench.program.code.size < bench.config.maxPoolEntries
  · rw [openUnit_eq room] at run
    cases hopen : bench.units.open kind name (some ⟨bench.program.code.size.toUInt32,
        bench.opening kind name arity localCount locals⟩) with
    | error error =>
        simp only [hopen] at run
        cases run
    | ok result =>
        simp only [hopen] at run
        cases run
        exact ⟨result.2, room, rfl, rfl⟩
  · have refused : reserve bench = .error (.exhausted .codeObjects bench.config.maxPoolEntries)
        bench := if_pos (Nat.le_of_not_lt room)
    simp only [openUnit, bind, EStateM.bind, refused] at run
    cases run

/-- A unit opens with an empty builder, in a slot of its own. -/
theorem ensures_openUnit {kind : UnitKind} {name : String} {arity localCount : Nat}
    {locals : List String} : Ensures (openUnit kind name arity localCount locals) bench
    fun handle bench' => ∃ builder units,
      bench.program.code.size < bench.config.maxPoolEntries ∧
      builder.code.ops = #[] ∧ builder.stack = .new bench.config.checkStack ∧
      bench.units.open kind name (some ⟨bench.program.code.size.toUInt32, builder⟩) =
        .ok (handle, units) ∧
      bench' = { bench with units, program := bench.program.reserve.2 } := by
  refine ensures_opens.mono ?_
  rintro handle _ ⟨units, room, hopen, rfl⟩
  obtain ⟨ops, stack⟩ := bench.opening_empty kind name arity localCount locals
  exact ⟨_, units, room, ops, stack, hopen, rfl⟩

theorem ensures_install {slot : UInt32} {code : Code} (sharing : bench.sharing = false) :
    Ensures (install slot code) bench fun installed bench' =>
      slot.toNat < bench.program.code.size ∧ installed = slot ∧
      bench' = { bench with program := bench.program.fill slot code } := by
  intro installed bench' run
  obtain ⟨config, units, program, line, _, recorded⟩ := bench
  subst sharing
  simp only [install, Program.install?] at run
  by_cases inside : slot.toNat < program.code.size
  · simp only [if_pos inside] at run
    cases run
    exact ⟨inside, rfl, rfl⟩
  · simp only [if_neg inside] at run
    cases run

/-- A finished code object is verified if the configuration says so. -/
theorem ensures_installUnit {slot : UInt32} {builder : Builder} (sharing : bench.sharing = false) :
    Ensures (installUnit slot builder) bench fun installed bench' => ∃ code,
      builder.finish = .ok code ∧
      (bench.config.verifyUnits = true → ∃ most, code.verify = .ok most) ∧
      slot.toNat < bench.program.code.size ∧ installed = slot ∧
      bench' = { bench with program := bench.program.fill slot code } := by
  unfold installUnit
  cases hfinish : builder.finish with
  | error error =>
      simp only
      exact Ensures.throws
  | ok code =>
      simp only
      refine Ensures.get (Ensures.ite (fun hverify => ?_) fun hverify => ?_)
      · cases hcode : code.verify with
        | error error =>
            simp only
            exact Ensures.stop Ensures.throws
        | ok most =>
            simp only
            exact (ensures_install sharing).mono fun installed bench' ⟨inside, heq, hbench⟩ =>
              ⟨code, rfl, fun _ => ⟨most, hcode⟩, inside, heq, hbench⟩
      · exact (ensures_install sharing).mono fun installed bench' ⟨inside, heq, hbench⟩ =>
          ⟨code, rfl, fun h => absurd h hverify, inside, heq, hbench⟩

/-- A unit that closes is finished and fills its slot, on a bench that does not share. -/
theorem ensures_closeUnit {handle : UnitHandle} {kind : UnitKind}
    (sharing : bench.sharing = false) :
    Ensures (closeUnit handle kind) bench fun installed bench' => ∃ unit units slot builder code,
      bench.units.close handle kind bench.currentLine = .ok (unit, units) ∧
      unit.payload = some ⟨slot, builder⟩ ∧ builder.finish = .ok code ∧
      (bench.config.verifyUnits = true → ∃ most, code.verify = .ok most) ∧
      slot.toNat < bench.program.code.size ∧ installed = slot ∧
      bench' = { bench with units, program := bench.program.fill slot code } := by
  intro installed bench' run
  simp only [closeUnit] at run
  split at run
  · cases run
  · rename_i unit units hclose
    split at run
    · cases run
    · rename_i slot builder hpayload
      split at run
      · rename_i found bench'' hinstall
        cases run
        obtain ⟨code, hfinish, hverify, hinside, rfl, rfl⟩ :=
          @ensures_installUnit { bench with units } slot builder sharing _ _ hinstall
        exact ⟨unit, units, _, builder, code, hclose, hpayload, hfinish, hverify, hinside,
          rfl, rfl⟩
      · cases run

end Bench

theorem Work.ensures_target {β υ : Type} {session : Session β υ} :
    Ensures (Work.onBench Bench.target) session fun builder session' =>
      session' = session ∧ ∃ slot, session.bench.recording? = some ⟨slot, builder⟩ := by
  refine Work.ensures_onBench (Bench.ensures_target.mono ?_)
  rintro builder _ ⟨rfl, found⟩
  exact ⟨rfl, found⟩

end BlockScript
