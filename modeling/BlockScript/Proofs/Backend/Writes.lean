import BlockScript.Proofs.Backend.Page

/-!
# What operations record

Each operation records its own operations around those of its parts, and closes the units that
it opens. So whatever is put together from operations that find their operands takes and leaves
a number of values that can be read off it, and no check fails on the way.
-/

namespace BlockScript

/-! ## Units of their own -/

namespace Builder

/-- A unit that has its value needs only the operation that returns it. -/
theorem finish_one {builder : Builder} (one : builder.depth = 1) :
    ∃ code, builder.finish = .ok code ∧ code.ops.size = builder.label + 1 := by
  obtain ⟨closed, run, -, label⟩ := emit_enough "end of unit"
    (show Op.ret.pops ≤ builder.depth from Nat.le_of_eq one.symm)
  refine ⟨{ closed.code with maxStack := closed.stack.maxDepth.toUInt32 }, ?_, label⟩
  have surplus : builder.stack.surplus builder.describe builder.line = .ok 0 :=
    if_pos (Nat.le_of_eq one)
  have valued : builder.depth ≠ 0 := by omega
  simp only [finish, surplus, bind, Except.bind, emitTimes, valued, if_false, pure, Except.pure, run]

end Builder

namespace Bench

variable {bench : Bench}

theorem openUnit_error {kind : UnitKind} {name : String} {arity localCount : Nat}
    {locals : List String} {error : CompileError} {bench' : Bench}
    (run : openUnit kind name arity localCount locals bench = .error error bench') :
    ∃ resource limit, error = .exhausted resource limit := by
  by_cases room : bench.program.code.size < bench.config.maxPoolEntries
  · rw [openUnit_eq room, UnitStack.open_eq] at run
    split at run
    · cases run
    · rename_i full
      split at full
      · cases full
      · cases full
        cases run
        exact ⟨_, _, rfl⟩
  · have refused : reserve bench = .error (.exhausted .codeObjects bench.config.maxPoolEntries)
        bench := if_pos (Nat.le_of_not_lt room)
    rw [openUnit, run_bind_error refused] at run
    cases run
    exact ⟨_, _, rfl⟩

/-- A new unit has nothing recorded yet. -/
theorem ends_openUnit_fresh (kind : UnitKind) (name : String) (arity localCount : Nat)
    (locals : List String) :
    Ends (openUnit kind name arity localCount locals) bench
      (fun handle bench' => handle.owner = bench.units.owner ∧ bench.Beside bench' ∧
        ∃ slot builder, slot.toNat < bench'.program.code.size ∧ builder.code.ops = #[] ∧
          builder.stack = .new bench.config.checkStack ∧ bench'.units.units =
            { id := handle.id, kind, name, payload := some ⟨slot, builder⟩ } :: bench.units.units)
      fun error _ => ∃ resource limit, error = .exhausted resource limit := by
  refine Ends.intro (fun handle bench' run => ?_) fun error bench' run => openUnit_error run
  obtain ⟨builder, units, -, ops, stack, hopen, rfl⟩ := ensures_openUnit handle bench' run
  obtain ⟨rfl, rfl⟩ := UnitStack.open_ok hopen
  have size : bench.program.reserve.2.code.size = bench.program.code.size + 1 :=
    Program.size_reserve _
  refine ⟨rfl, ⟨rfl, rfl, rfl, rfl, fun _ => ?_⟩, _, builder, ?_, ops, stack, rfl⟩
  · change _ ≤ bench.program.reserve.2.code.size
    omega
  · change bench.program.code.size.toUInt32.toNat < bench.program.reserve.2.code.size
    rw [Nat.toUInt32_eq, UInt32.toNat_ofNat', size]
    exact Nat.lt_succ_of_le (Nat.mod_le _ _)

/-- A slot that is in the table is filled. A bench that shares code objects may have given it
back in the meantime. -/
theorem ends_install_beside {slot : UInt32} {code : Code}
    (inside : bench.sharing = false → slot.toNat < bench.program.code.size) :
    Ends (install slot code) bench
      (fun _ bench' => bench'.units = bench.units ∧ bench.Beside bench')
      fun error _ => bench.sharing = true ∧ ∃ line, error = .runtime (.noSlot slot) line := by
  unfold Ends install
  cases sharing : bench.sharing with
  | false =>
      simp only [Bool.false_eq_true, if_false, Program.install?, if_pos (inside sharing)]
      exact ⟨trivial, rfl, sharing.symm, rfl, rfl, fun _ =>
        Nat.le_of_eq (Program.size_fill _ _ _).symm⟩
  | true =>
      simp only [if_true]
      cases bench.recorded.find? (·.1 = code) with
      | some entry =>
          exact ⟨rfl, rfl, rfl, rfl, rfl, fun own => by cases sharing.symm.trans own⟩
      | none =>
          cases bench.program.install? slot code with
          | some program =>
              exact ⟨rfl, rfl, sharing.symm, rfl, rfl, fun own => by cases sharing.symm.trans own⟩
          | none => exact ⟨trivial, _, rfl⟩

/-- A unit that has found its operands and has one value is closed. -/
theorem ends_closeUnit_sound {unit : OpenUnit (Option Recording)}
    {outer : List (OpenUnit (Option Recording))} {slot : UInt32} {builder : Builder}
    (hunits : bench.units.units = unit :: outer) (payload : unit.payload = some ⟨slot, builder⟩)
    {handle : UnitHandle} (owner : bench.units.owner = handle.owner) (id : unit.id = handle.id)
    (sound : builder.Sound) (one : builder.depth = 1) (short : builder.label + 1 < 2 ^ 31)
    (inside : bench.sharing = false → slot.toNat < bench.program.code.size) :
    Ends (closeUnit handle unit.kind) bench
      (fun _ bench' => bench'.units.units = outer ∧ bench.Beside bench')
      fun error _ => bench.sharing = true ∧ ∃ line, error = .runtime (.noSlot slot) line := by
  obtain ⟨code, finished, size⟩ := Builder.finish_one one
  have verified : code.verify = .ok code.maxStack.toNat := sound.finish finished (by omega)
  have installs := @ends_install_beside { bench with units := { bench.units with units := outer } }
    slot code inside
  have installed : Ends (installUnit slot builder) { bench with
        units := { bench.units with units := outer } }
      (fun _ bench' => bench'.units.units = outer ∧ bench.Beside bench')
      fun error _ => bench.sharing = true ∧ ∃ line, error = .runtime (.noSlot slot) line := by
    have installs : Ends (install slot code) _ (fun _ bench' => bench'.units.units = outer ∧
        bench.Beside bench') _ := installs.weaken fun _ bench' ⟨same, beside⟩ =>
      ⟨by rw [same], beside.config, beside.sharing, beside.owner, beside.nesting, beside.table⟩
    simp only [installUnit, finished, verified]
    refine Ends.get (Ends.ite (fun _ => installs) fun _ => installs)
  unfold Ends closeUnit
  simp only [UnitStack.close_eq hunits owner id, payload]
  cases run : installUnit slot builder { bench with units := { bench.units with units := outer } } with
  | ok value bench' => exact installed.ok run
  | error error bench' => exact installed.error run

end Bench

/-- A unit is recorded and closed, whatever it is opened in. -/
theorem Backend.ends_recordUnit {υ : Type} {backend : Backend} {body : Work backend.State υ Unit}
    {count : Nat} (h : backend.Writes 0 1 count body) (short : count + 1 < 2 ^ 31)
    {session : Session backend.State υ} (prepared : backend.Prepared session) (kind : UnitKind)
    (name : String) (arity localCount : Nat) (locals : List String) :
    Ends (Work.recordUnit kind name arity localCount locals body) session
      (fun _ session' => session.Intact session') fun halt _ => halt.Permitted backend.executes := by
  have opens : Ends (Work.onBench (Bench.openUnit kind name arity localCount locals)) session
      (fun handle session' => handle.owner = session.bench.units.owner ∧
        session.bench.Beside session'.bench ∧ session'.backend = session.backend ∧
        session'.client = session.client ∧ ∃ slot builder,
          slot.toNat < session'.bench.program.code.size ∧ builder.code.ops = #[] ∧
          builder.stack = .new true ∧ session'.bench.units.units =
            { id := handle.id, kind, name, payload := some ⟨slot, builder⟩ } ::
              session.bench.units.units)
      fun halt _ => halt.Permitted backend.executes := by
    refine Work.ends_onBench ((Bench.ends_openUnit_fresh kind name arity localCount locals).mono
      ?_ ?_)
    · rintro handle bench' ⟨owner, beside, slot, builder, inside, ops, stack, hunits⟩
      rw [prepared.checks] at stack
      exact ⟨owner, beside, rfl, rfl, slot, builder, inside, ops, stack, hunits⟩
    · rintro _ _ ⟨resource, limit, rfl⟩
      trivial
  refine Ends.get (opens.bind ?_)
  rintro handle session₁ ⟨owner, beside, backend₁, client₁, slot, builder, inside, ops, stack, hunits⟩
  have empty : builder.depth = 0 := by
    rw [Builder.depth, stack]
    rfl
  have label : builder.label = 0 := by
    rw [Builder.label, ops]
    rfl
  refine Work.ends_cleaning ((h.ends (prepared.beside beside backend₁) hunits rfl (Nat.zero_le _)
    (by omega)).bind ?_)
  rintro _ session₂ ⟨builder', wrote, page⟩
  have depth := wrote.depth
  have length := wrote.label
  have sound : builder'.Sound := (Builder.sound_new ops stack).grows wrote.grows
  have closes := Bench.ends_closeUnit_sound page.units rfl
    (page.beside.owner.trans (beside.owner.trans owner.symm)) rfl sound (by omega) (by omega)
    fun own => Nat.lt_of_lt_of_le inside (page.beside.table (page.beside.sharing.symm.trans own))
  refine Work.ends_onBench (closes.mono ?_ ?_)
  · rintro installed bench' ⟨same, beside'⟩
    exact ⟨same, trans_of Bench.Beside beside (trans_of Bench.Beside page.beside beside'),
      page.backend.trans backend₁, page.client.trans client₁⟩
  · rintro _ _ ⟨sharing, line, rfl⟩
    exact prepared.sharing.symm.trans
      (beside.sharing.symm.trans (page.beside.sharing.symm.trans sharing))

namespace Backend

variable {υ : Type} {backend : Backend} {taken given count taken' given' count' : Nat}

namespace Writes

theorem cast {action : Work backend.State υ Unit} (h : backend.Writes taken given count action)
    (same : given = given') (same' : count = count') : backend.Writes taken given' count' action :=
  same ▸ same' ▸ h

/-- What is below the operands stays there. -/
theorem frame {action : Work backend.State υ Unit} (h : backend.Writes taken given count action)
    {whole : Nat} (enough : taken ≤ whole) :
    backend.Writes whole (whole - taken + given) count action where
  counts := by
    have := h.counts
    omega
  ends {session unit outer slot builder} prepared hunits payload covered room := by
    refine (h.ends prepared hunits payload (Nat.le_trans enough covered) room).weaken ?_
    rintro _ session' ⟨builder', wrote, page⟩
    have depth := wrote.depth
    exact ⟨builder', ⟨by omega, wrote.label, wrote.grows⟩, page⟩

theorem pure : backend.Writes 0 0 0 (Pure.pure () : Work backend.State υ Unit) where
  counts := Nat.le_refl _
  ends _ hunits payload _ _ := Ends.pure ⟨_, .refl _, .begin hunits payload⟩

/-- One after the other, where the second one takes nothing that the first one has not left. -/
theorem seq {first next : Work backend.State υ Unit} (h₁ : backend.Writes taken given count first)
    (h₂ : backend.Writes taken' given' count' next) (owned : taken' ≤ given) :
    backend.Writes taken (given - taken' + given') (count + count') (do first; next) where
  counts := by
    have := h₁.counts
    have := h₂.counts
    omega
  ends prepared hunits payload enough room := by
    refine (h₁.ends prepared hunits payload enough (by omega)).bind ?_
    rintro _ session' ⟨builder', wrote, page⟩
    have counts := h₁.counts
    have depth := wrote.depth
    refine (page.ends_part prepared h₂ (by omega) (by omega)).weaken ?_
    rintro _ session'' ⟨builder'', wrote', page'⟩
    exact ⟨builder'', wrote.trans wrote' owned, page'⟩

/-- A region one level deeper. -/
theorem nested {region : Work backend.State υ Unit} (h : backend.Writes taken given count region) :
    backend.Writes taken given count (Work.nested region) where
  counts := h.counts
  ends {session unit outer slot builder} prepared hunits payload enough room := by
    have entered : backend.Prepared { session with bench := session.bench.enterRegion } :=
      ⟨prepared.unpoisoned, prepared.checks, prepared.sharing⟩
    refine Work.ends_nested trivial ((h.ends entered hunits payload enough room).weaken ?_)
    rintro _ session' ⟨builder', wrote, page⟩
    have level : session'.bench.units.nesting - 1 = session.bench.units.nesting := by
      rw [page.beside.nesting]
      rfl
    exact ⟨builder', wrote, page.units, ⟨page.beside.config, page.beside.sharing,
      page.beside.owner, level, page.beside.table⟩, page.backend, page.client⟩

/-- An operation that control goes past. -/
theorem emit {operation : String} {op : Op} (falls : op.falls = true)
    (straight : op.jumpOffset? = none) :
    backend.Writes op.pops op.pushes 1 (Work.onBench (Bench.emit operation op) :
      Work backend.State υ Unit) where
  counts := op.pushes_le
  ends _ hunits payload enough _ := by
    refine ((Page.begin hunits payload).ends_emit enough).weaken ?_
    rintro _ session' ⟨builder', run, depth, label, page⟩
    exact ⟨builder', ⟨depth, label, .emit run falls straight⟩, page⟩

/-! ## Control flow -/

theorem emitBranch {onTrue onFalse : Work backend.State υ Unit}
    (h₁ : backend.Writes 0 1 count onTrue) (h₂ : backend.Writes 0 1 count' onFalse) :
    backend.Writes 1 1 (count + count' + 2) (Work.emitBranch onTrue onFalse) := by
  refine nested ⟨by omega, fun {session unit outer slot builder} prepared hunits payload enough room => ?_⟩
  have page := Page.begin hunits payload
  refine Ends.get ?_
  rw [page.size]
  refine (page.ends_emitJump (show (JumpKind.ifFalse.op 0).pops ≤ _ from enough)).bind ?_
  rintro toElse session₁ ⟨taken, test, depth₁, label₁, page₁⟩
  refine page₁.ends_depth.bind ?_
  rintro _ _ ⟨rfl, rfl⟩
  have depth₁ : taken.depth = builder.depth - 1 := depth₁
  refine (page₁.ends_part prepared h₁ (Nat.zero_le _) (by omega)).bind ?_
  rintro _ session₂ ⟨trueEnd, wrote₂, page₂⟩
  have depth₂ := wrote₂.depth
  refine (page₂.ends_ensureSameUnit _).bind ?_
  rintro _ _ rfl
  refine page₂.ends_depth.bind ?_
  rintro _ _ ⟨rfl, rfl⟩
  refine (page₂.ends_emitJump (show (JumpKind.always.op 0).pops ≤ _ from Nat.zero_le _)).bind ?_
  rintro toEnd session₃ ⟨away, leave, depth₃, label₃, page₃⟩
  have label₂ := wrote₂.label
  refine (page₃.ends_patchHere (Builder.emitJump_inside test (by omega))).bind ?_
  intro _ session₄ page₄
  refine (page₄.ends_modifyBuilder (·.resetTo taken.depth)).bind fun _ session₅ page₅ => ?_
  have depth₅ : ((away.patchHere toElse).resetTo taken.depth).depth = taken.depth := rfl
  have label₅ : ((away.patchHere toElse).resetTo taken.depth).label = away.label :=
    Builder.label_patchHere toElse
  refine (page₅.ends_part prepared h₂ (Nat.zero_le _) (by omega)).bind ?_
  rintro _ session₆ ⟨falseEnd, wrote₆, page₆⟩
  have depth₆ := wrote₆.depth
  refine (page₆.ends_ensureSameUnit _).bind ?_
  rintro _ _ rfl
  refine page₆.ends_target.bind ?_
  rintro _ _ ⟨rfl, rfl⟩
  have level : trueEnd.depth = falseEnd.depth := by omega
  refine Ends.ite (fun unequal => absurd level unequal.1) fun _ => ?_
  have label₆ := wrote₆.label
  refine (page₆.ends_patchHere (Builder.emitJump_inside leave (by omega))).weaken ?_
  refine fun _ session₇ page₇ => ⟨_, ⟨?_, ?_, ?_⟩, page₇⟩
  · rw [Builder.depth_patchHere]
    omega
  · rw [Builder.label_patchHere]
    omega
  · exact .branch test wrote₂.grows leave wrote₆.grows fun _ => level

theorem emitLogical (connective : Connective) {right : Work backend.State υ Unit}
    (h : backend.Writes 0 1 count right) :
    backend.Writes 1 1 (count + 3) (Work.emitLogical connective right) := by
  refine nested ⟨by omega, fun {session unit outer slot builder} prepared hunits payload enough room => ?_⟩
  have page := Page.begin hunits payload
  refine (page.ends_emit (show Op.dup.pops ≤ _ from enough)).bind ?_
  rintro _ session₁ ⟨doubled, double, depth₁, label₁, page₁⟩
  have depth₁ : doubled.depth = builder.depth - 1 + 2 := depth₁
  have conditional : ((Work.skipWhen connective).op 0).falls = true := by cases connective <;> rfl
  have pops : ((Work.skipWhen connective).op 0).pops = 1 := by cases connective <;> rfl
  refine (page₁.ends_emitJump
    (show ((Work.skipWhen connective).op 0).pops ≤ doubled.depth by omega)).bind ?_
  rintro toEnd session₂ ⟨tested, test, depth₂, label₂, page₂⟩
  rw [JumpKind.after_conditional _ _ conditional] at depth₂
  have one : 1 ≤ tested.depth := by omega
  refine (page₂.ends_emit (show Op.pop.pops ≤ tested.depth from one)).bind ?_
  rintro _ session₃ ⟨dropped, drop, depth₃, label₃, page₃⟩
  have depth₃ : dropped.depth = tested.depth - 1 := depth₃
  refine (page₃.ends_runRegion prepared h (by omega) _ (by decide)).bind ?_
  rintro _ session₄ ⟨rfl, done, wrote₄, page₄⟩
  have depth₄ := wrote₄.depth
  have label₄ := wrote₄.label
  refine (page₄.ends_patchHere (Builder.emitJump_inside test (by omega))).weaken ?_
  refine fun _ session₅ page₅ => ⟨_, ⟨?_, ?_, ?_⟩, page₅⟩
  · rw [Builder.depth_patchHere]
    omega
  · rw [Builder.label_patchHere]
    omega
  · exact .logical double test conditional drop wrote₄.grows fun _ _ _ => depth₄

/-- A region whose value stays. -/
theorem keeping {part : Work backend.State υ Unit} (h : backend.Writes 0 1 count part)
    (construct : String) : backend.Writes 0 1 count (do
      let _ ← Work.runRegion construct .one part) where
  counts := h.counts
  ends prepared hunits payload _ room := by
    refine ((Page.begin hunits payload).ends_runRegion prepared h room _ (by decide)).bind ?_
    rintro _ session' ⟨rfl, wrote⟩
    exact Ends.pure wrote

/-- The condition of a loop leaves the value that is tested. -/
theorem emitCondition {condition : Work backend.State υ Unit}
    (h : backend.Writes 0 1 count condition) :
    backend.Writes 0 1 count (Work.emitCondition condition) :=
  keeping h _

/-- The value that the body of a loop leaves is dropped. -/
theorem emitLoopBody {body : Work backend.State υ Unit} (h : backend.Writes 0 1 count body) :
    backend.Writes 0 0 (count + 1) (Work.emitLoopBody body) where
  counts := by omega
  ends prepared hunits payload _ room := by
    refine ((Page.begin hunits payload).ends_runRegion prepared h (by omega) _ (by decide)).bind ?_
    rintro _ session₁ ⟨rfl, builder₁, wrote₁, page₁⟩
    have depth₁ := wrote₁.depth
    have one : 1 ≤ builder₁.depth := by omega
    refine (page₁.ends_emit (show Op.pop.pops ≤ _ from one)).bind ?_
    rintro _ session₂ ⟨builder₂, run, depth₂, label₂, page₂⟩
    have popped : builder₁.Wrote 1 0 1 builder₂ := ⟨depth₂, label₂, .emit run rfl rfl⟩
    exact Ends.pure ⟨builder₂, wrote₁.trans popped (Nat.le_refl _), page₂⟩

/-- The operations of a loop besides those of its parts. -/
def loopCount : (checkFirst : Bool) → Nat
  | true => 3
  | false => 2

theorem emitLoop {condition body : Work backend.State υ Unit}
    (h₁ : backend.Writes 0 1 count condition) (h₂ : backend.Writes 0 1 count' body)
    (checkFirst : Bool) : backend.Writes 0 0 (count + count' + loopCount checkFirst)
      (Work.emitLoop condition body checkFirst) := by
  refine nested ⟨by omega, fun {session unit outer slot builder} prepared hunits payload enough room => ?_⟩
  have page := Page.begin hunits payload
  refine page.ends_target.bind ?_
  rintro _ _ ⟨rfl, rfl⟩
  cases checkFirst with
  | true =>
      rw [show loopCount true = 3 from rfl] at room ⊢
      refine (page.ends_part prepared (emitCondition h₁) (Nat.zero_le _) (by omega)).bind ?_
      rintro _ session₁ ⟨tested, wrote₁, page₁⟩
      have depth₁ := wrote₁.depth
      have label₁ := wrote₁.label
      have one : 1 ≤ tested.depth := by omega
      refine (page₁.ends_emitJump (show (JumpKind.ifFalse.op 0).pops ≤ _ from one)).bind ?_
      rintro toEnd session₂ ⟨entered, test, depth₂, label₂, page₂⟩
      have depth₂ : entered.depth = tested.depth - 1 := depth₂
      refine (page₂.ends_part prepared (emitLoopBody h₂) (Nat.zero_le _) (by omega)).bind ?_
      rintro _ session₃ ⟨repeated, wrote₃, page₃⟩
      have depth₃ := wrote₃.depth
      have label₃ := wrote₃.label
      refine (page₃.ends_emitJumpBack
        (show (JumpKind.always.op 0).pops ≤ _ from Nat.zero_le _)).bind ?_
      rintro _ session₄ ⟨back, jump, depth₄, label₄, page₄⟩
      have depth₄ : back.depth = repeated.depth := depth₄
      refine (page₄.ends_patchHere (Builder.emitJump_inside test (by omega))).weaken ?_
      refine fun _ session₅ page₅ => ⟨_, ⟨?_, ?_, ?_⟩, page₅⟩
      · rw [Builder.depth_patchHere]
        omega
      · rw [Builder.label_patchHere]
        omega
      · exact .loopFirst wrote₁.grows (fun _ _ _ => depth₁) test wrote₃.grows
          (fun _ _ _ => depth₃) jump
  | false =>
      rw [show loopCount false = 2 from rfl] at room ⊢
      refine (page.ends_part prepared (emitLoopBody h₂) (Nat.zero_le _) (by omega)).bind ?_
      rintro _ session₁ ⟨repeated, wrote₁, page₁⟩
      have depth₁ := wrote₁.depth
      have label₁ := wrote₁.label
      refine (page₁.ends_part prepared (emitCondition h₁) (Nat.zero_le _) (by omega)).bind ?_
      rintro _ session₂ ⟨tested, wrote₂, page₂⟩
      have depth₂ := wrote₂.depth
      have label₂ := wrote₂.label
      have one : 1 ≤ tested.depth := by omega
      refine (page₂.ends_emitJumpBack (show (JumpKind.ifTrue.op 0).pops ≤ _ from one)).weaken ?_
      rintro _ session₃ ⟨back, jump, depth₃, label₃, page₃⟩
      have depth₃ : back.depth = tested.depth - 1 := depth₃
      refine ⟨back, ⟨by omega, by omega, ?_⟩, page₃⟩
      exact .loopLast wrote₁.grows (fun _ _ _ => depth₁) wrote₂.grows (fun _ _ _ => depth₂) jump

/-- The elements of an aggregate leave one value each. -/
theorem elements {element : Nat → Work backend.State υ Unit} {counts : Nat → Nat}
    (construct : String) (first total : Nat)
    (h : ∀ index, first ≤ index → index < first + total →
      backend.Writes 0 1 (counts index) (element index)) :
    backend.Writes 0 total ((List.range' first total).map counts).sum
      (Work.forEachIndex (fun index => do
        let _ ← Work.runRegion construct .one (element index)) first total) := by
  induction total generalizing first with
  | zero => exact .pure
  | succ total ih =>
      have one := keeping (h first (Nat.le_refl _) (by omega)) construct
      have rest := ih (first + 1) fun index low high => h index (by omega) (by omega)
      refine (seq one rest (Nat.zero_le _)).cast (by omega) ?_
      rw [List.range'_succ, List.map_cons, List.sum_cons]

theorem emitArray {element : Nat → Work backend.State υ Unit} {counts : Nat → Nat} {total : Nat}
    (h : ∀ index < total, backend.Writes 0 1 (counts index) (element index))
    (short : total < 2 ^ 31) :
    backend.Writes 0 1 (((List.range total).map counts).sum + 1) (Work.emitArray total element) := by
  have collapse : backend.Writes total.toUInt32.toNat 1 1 (Work.onBench
      (Bench.emit Work.arrayOperation (.makeArray total.toUInt32)) : Work backend.State υ Unit) :=
    @emit υ backend Work.arrayOperation (.makeArray total.toUInt32) rfl rfl
  rw [Program.toNat_toUInt32_short short] at collapse
  have parts := elements (Work.arrayOperation ++ " element") 0 total fun index _ inside =>
    h index (by omega)
  rw [← List.range_eq_range'] at parts
  exact nested ((seq parts collapse (Nat.le_refl _)).cast (by omega) rfl)

end Writes

end Backend

end BlockScript
