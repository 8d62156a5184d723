import BlockScript.Proofs.Backend.Exact

/-!
# Which operations are refused

Each way of putting code together is refused exactly where its declared effect leads nowhere,
provided that this is so for its parts. The proofs follow the order in which an operation makes
its checks; every check that fails rules out the one depth that the effect could have led to.
-/

namespace BlockScript

variable {υ α γ : Type}

/-! ## Units of their own -/

namespace Bench

variable {bench : Bench}

/-- A new unit has the next slot, and nothing recorded yet. -/
theorem ends_openUnit_next (pool : bench.config.maxPoolEntries ≤ UInt32.size) (kind : UnitKind)
    (name : String) (arity localCount : Nat) (locals : List String) :
    Ends (openUnit kind name arity localCount locals) bench
      (fun handle bench' => handle.owner = bench.units.owner ∧ bench.Beside bench' ∧
        bench'.program.code.size = bench.program.code.size + 1 ∧
        ∃ slot builder, slot.toNat = bench.program.code.size ∧ builder.code.ops = #[] ∧
          builder.stack = .new bench.config.checkStack ∧ bench'.units.units =
            { id := handle.id, kind, name, payload := some ⟨slot, builder⟩ } :: bench.units.units)
      fun error _ => ∃ resource limit, error = .exhausted resource limit := by
  refine Ends.intro (fun handle bench' run => ?_) fun error bench' run => openUnit_error run
  obtain ⟨builder, units, room, ops, stack, hopen, rfl⟩ := ensures_openUnit handle bench' run
  obtain ⟨rfl, rfl⟩ := UnitStack.open_ok hopen
  have size : bench.program.reserve.2.code.size = bench.program.code.size + 1 :=
    Program.size_reserve _
  refine ⟨rfl, ⟨rfl, rfl, rfl, rfl, fun _ => ?_⟩, size, _, builder, ?_, ops, stack, rfl⟩
  · change _ ≤ bench.program.reserve.2.code.size
    omega
  · exact Program.toNat_toUInt32 (Nat.lt_of_lt_of_le room pool)

/-- A code object is installed in a slot that is there. No slot before it is given back. -/
theorem ends_install_next {slot : UInt32} {code : Code}
    (inside : slot.toNat < bench.program.code.size) {failed : CompileError → Bench → Prop} :
    Ends (install slot code) bench
      (fun _ bench' => bench'.units = bench.units ∧ bench.Beside bench' ∧
        slot.toNat ≤ bench'.program.code.size) failed := by
  unfold Ends install
  dsimp only
  cases shared : (if bench.sharing then bench.recorded.find? (·.1 = code) else none) with
  | some entry =>
      have sharing : bench.sharing = true := by
        by_contra unshared
        rw [if_neg unshared] at shared
        cases shared
      have size := Program.size_release bench.program slot
      refine ⟨rfl, ⟨rfl, rfl, rfl, rfl, fun unshared => ?_⟩, ?_⟩
      · cases sharing.symm.trans unshared
      · change slot.toNat ≤ (bench.program.release slot).code.size
        omega
  | none =>
      have size := Program.size_fill bench.program slot code
      simp only [Program.install?, if_pos inside]
      refine ⟨trivial, ⟨rfl, rfl, rfl, rfl, fun _ => Nat.le_of_eq size.symm⟩, ?_⟩
      change slot.toNat ≤ (bench.program.fill slot code).code.size
      omega

/-- A unit is closed if it has at most one value, and refused otherwise. -/
theorem ends_closeUnit_decides {unit : OpenUnit (Option Recording)}
    {outer : List (OpenUnit (Option Recording))} {slot : UInt32} {builder : Builder}
    (hunits : bench.units.units = unit :: outer) (payload : unit.payload = some ⟨slot, builder⟩)
    {handle : UnitHandle} (owner : bench.units.owner = handle.owner) (id : unit.id = handle.id)
    (sound : builder.Sound) (tidy : builder.Tidy)
    (short : bench.config.verifyUnits = true → builder.label + 2 < 2 ^ 31)
    (inside : slot.toNat < bench.program.code.size) :
    Ends (closeUnit handle unit.kind) bench
      (fun _ bench' => builder.depth ≤ 1 ∧ bench'.units.units = outer ∧ bench.Beside bench' ∧
        slot.toNat ≤ bench'.program.code.size)
      fun _ _ => ¬builder.depth ≤ 1 := by
  let closed : Bench := { bench with units := { bench.units with units := outer } }
  have installs : Ends (installUnit slot builder) closed
      (fun _ bench' => builder.depth ≤ 1 ∧ bench'.units.units = outer ∧ bench.Beside bench' ∧
        slot.toNat ≤ bench'.program.code.size)
      fun _ _ => ¬builder.depth ≤ 1 := by
    unfold installUnit
    rcases builder.finish_decides tidy with ⟨code, finished, low, size⟩ | ⟨error, refused, high⟩
    · have fills : Ends (install slot code) closed (fun _ bench' => builder.depth ≤ 1 ∧
          bench'.units.units = outer ∧ bench.Beside bench' ∧ slot.toNat ≤ bench'.program.code.size)
          fun _ _ => ¬builder.depth ≤ 1 :=
        (@ends_install_next closed slot code inside _).weaken fun _ _ ⟨same, beside, table⟩ =>
          ⟨low, by rw [same], ⟨beside.config, beside.sharing, beside.owner, beside.nesting,
            beside.table⟩, table⟩
      simp only [finished]
      refine Ends.get (Ends.ite (fun verifies => ?_) fun _ => fills)
      have verified : code.verify = .ok code.maxStack.toNat :=
        sound.finish finished (Nat.lt_of_le_of_lt size (short verifies))
      simp only [verified]
      exact fills
    · simp only [refused]
      exact Ends.throws high
  unfold Ends closeUnit
  simp only [UnitStack.close_eq hunits owner id, payload]
  cases run : installUnit slot builder closed with
  | ok value bench' => exact installs.ok run
  | error error bench' => exact installs.error run

end Bench

/-- Values are taken, and others are left. -/
def Trades (taken given depth after : Nat) : Prop := taken ≤ depth ∧ after = depth - taken + given

theorem trades_nothing {given depth after : Nat} :
    Trades 0 given depth after ↔ after = depth + given :=
  ⟨fun trades => trades.2, fun same => ⟨Nat.zero_le _, same⟩⟩

/-- The effect leads from an empty stack to one that a unit may return with. -/
def Fitting (effect : Nat → Nat → Prop) : Prop := ∃ result, effect 0 result ∧ result ≤ 1

namespace Backend

variable {backend : Backend} {span around size : Nat} {effect : Nat → Nat → Prop}

/-- The closures that are around the body of a unit. -/
def within (around : Nat) : UnitKind → Nat
  | .closure => around + 1
  | _ => 0

/-- The computation closes the unit, and fails only if that fails. -/
def Closes (backend : Backend) (handle : UnitHandle) (kind : UnitKind)
    (close : Work backend.State υ α) : Prop :=
  ∀ {session : Session backend.State υ} {done : Session backend.State υ → Prop}
    {failed : Halt CompileError → Prop}, backend.Unpoisoned session.backend →
    Ends (Work.onBench (Bench.closeUnit handle kind)) session (fun _ => done) (fun halt _ => failed halt) →
    Ends close session (fun _ => done) fun halt _ => failed halt

/-- A new unit is given its body and closed. -/
theorem ends_fillUnit {body : Work backend.State υ Unit} {session : Session backend.State υ}
    {handle : UnitHandle} {kind : UnitKind} {name : String}
    {outer : List (OpenUnit (Option Recording))} {slot : UInt32} {builder : Builder}
    (decides : backend.Decides span (within around kind) size effect body) (short : size + 2 < span)
    (sheltered : backend.Shelters span (within around kind) session)
    (hunits : session.bench.units.units =
      { id := handle.id, kind, name, payload := some ⟨slot, builder⟩ } :: outer)
    (owner : session.bench.units.owner = handle.owner) (ops : builder.code.ops = #[])
    (stack : builder.stack = .new true) (inside : slot.toNat < session.bench.program.code.size)
    {close : Work backend.State υ α} (closes : backend.Closes handle kind close) :
    Ends (do body; close) session
      (fun _ session' => Fitting effect ∧ session'.bench.units.units = outer ∧
        session.bench.Beside session'.bench ∧ slot.toNat ≤ session'.bench.program.code.size ∧
        session'.backend = session.backend ∧ session'.client = session.client)
      fun halt _ => halt.Limit ∨ ¬Fitting effect := by
  have empty : builder.depth = 0 := by
    rw [Builder.depth, stack]
    rfl
  have label : builder.label = 0 := by
    rw [Builder.label, ops]
    rfl
  have tidy : builder.Tidy := ⟨by rw [stack]; rfl, by omega⟩
  refine ((decides.ends sheltered hunits rfl tidy (by omega)).mono (fun _ _ => id) ?_).bind ?_
  · refine fun halt _ => .imp_right ?_
    rintro nowhere ⟨result, leads, -⟩
    exact nowhere result (empty ▸ leads)
  · rintro _ session' ⟨builder', leads, adds, sheet⟩
    rw [empty] at leads
    have most := adds.most
    have wider : session.bench.program.code.size ≤ session'.bench.program.code.size := sheet.wider
    have sound : builder'.Sound := (Builder.sound_new ops stack).grows adds.grows
    have unpoisoned : backend.Unpoisoned session'.backend :=
      sheet.page.backend ▸ sheltered.checking.prepared.unpoisoned
    refine closes unpoisoned (Work.ends_onBench ?_)
    refine (Bench.ends_closeUnit_decides sheet.page.units rfl (sheet.page.beside.owner.trans owner) rfl
      sound adds.tidy (fun verifies => ?_) (by omega)).mono ?_ ?_
    · have jumps := sheltered.checking.jumps (sheet.page.beside.config ▸ verifies)
      omega
    · rintro installed bench' ⟨low, same, beside, table⟩
      exact ⟨⟨_, leads, low⟩, same, trans_of Bench.Beside sheet.page.beside beside, table,
        sheet.page.backend, sheet.page.client⟩
    · rintro _ _ high
      refine .inr ?_
      rintro ⟨result, leads', low⟩
      exact high (decides.unique leads leads' ▸ low)

/-- A unit is opened in the next slot, and its body is sheltered. -/
theorem Checking.ends_openUnit {kind : UnitKind} {session : Session backend.State υ}
    (checking : backend.Checking span session) (inner : kind ≠ .script)
    (nested : kind = .closure → backend.Shelters span around session) (name : String)
    (arity localCount : Nat) (locals : List String) :
    Ends (Work.onBench (Bench.openUnit kind name arity localCount locals)) session
      (fun handle session' => ∃ slot builder, slot.toNat = session.bench.program.code.size ∧
        slot.toNat < session'.bench.program.code.size ∧ session'.bench.units.owner = handle.owner ∧
        session.bench.Beside session'.bench ∧ session'.backend = session.backend ∧
        session'.client = session.client ∧ builder.code.ops = #[] ∧ builder.stack = .new true ∧
        session'.bench.units.units = { id := handle.id, kind, name, payload := some ⟨slot, builder⟩ } ::
          session.bench.units.units ∧ backend.Shelters span (within around kind) session')
      fun halt _ => halt.Limit := by
  refine Work.ends_onBench ((Bench.ends_openUnit_next checking.pool kind name arity localCount
    locals).mono ?_ ?_)
  · rintro handle bench' ⟨owner, beside, size, slot, builder, next, ops, stack, hunits⟩
    rw [checking.prepared.checks] at stack
    refine ⟨slot, builder, next, by change _ < bench'.program.code.size; omega,
      beside.owner.trans owner.symm, beside, rfl, rfl, ops, stack, hunits, ?_⟩
    refine ⟨checking.beside beside rfl, ?_, ?_⟩
    · change bench'.units.insideMethod = true
      rw [UnitStack.insideMethod, hunits]
      cases kind with
      | script => exact absurd rfl inner
      | method => simp
      | closure => simpa [UnitStack.insideMethod] using (nested rfl).method
    · change within around kind ≤ bench'.units.reachableDepth
      cases kind with
      | closure =>
          have reach := (nested rfl).reach
          rw [UnitStack.reachableDepth] at reach ⊢
          rw [hunits]
          simpa [within] using reach
      | _ => exact Nat.zero_le _
  · rintro _ _ ⟨resource, limit, rfl⟩
    exact ⟨resource, limit, rfl⟩

/-- A unit is recorded if its body leaves one value or none. -/
theorem ends_recordUnit_decides {body : Work backend.State υ Unit} {kind : UnitKind}
    (decides : backend.Decides span (within around kind) size effect body) (short : size + 2 < span)
    {session : Session backend.State υ} (checking : backend.Checking span session) (inner : kind ≠ .script)
    (nested : kind = .closure → backend.Shelters span around session) (name : String)
    (arity localCount : Nat) (locals : List String) :
    Ends (Work.recordUnit kind name arity localCount locals body) session
      (fun _ session' => Fitting effect ∧ session.Unharmed session')
      fun halt _ => halt.Limit ∨ ¬Fitting effect := by
  refine Ends.get (((checking.ends_openUnit inner nested name arity localCount locals).mono (fun _ _ => id)
    fun _ _ => .inl).bind ?_)
  rintro handle session₁ ⟨slot, builder, next, inside, owner, beside, backend₁, client₁, ops, stack,
    hunits, sheltered⟩
  refine Work.ends_cleaning ((ends_fillUnit decides short sheltered hunits owner ops stack inside
    fun _ h => h).weaken ?_)
  rintro _ session₂ ⟨fitting, units, beside', table, backend₂, client₂⟩
  refine ⟨fitting, ⟨units, trans_of Bench.Beside beside beside', backend₂.trans backend₁,
    client₂.trans client₁⟩, ?_⟩
  change session.bench.program.code.size ≤ session₂.bench.program.code.size
  omega

/-! ## Sequences and regions -/

namespace Decides

variable {size' : Nat} {effect' : Nat → Nat → Prop}

/-- The same effect, said in another way. -/
theorem cast {action : Work backend.State υ Unit} (h : backend.Decides span around size effect action)
    (same : ∀ depth after, effect' depth after ↔ effect depth after) :
    backend.Decides span around size effect' action := by
  obtain rfl : effect' = effect := funext fun depth => funext fun after => propext (same depth after)
  exact h

theorem resize {action : Work backend.State υ Unit} (h : backend.Decides span around size effect action)
    (le : size ≤ size') : backend.Decides span around size' effect action where
  unique := h.unique
  ends sheltered hunits payload tidy short :=
    (h.ends sheltered hunits payload tidy (by omega)).weaken fun _ _ ⟨builder', leads, adds, sheet⟩ =>
      ⟨builder', leads, ⟨adds.tidy, Nat.le_trans adds.most (by omega), adds.grows⟩, sheet⟩

theorem pure : backend.Decides span around 0 (fun depth after => after = depth)
    (Pure.pure () : Work backend.State υ Unit) where
  unique first second := first.trans second.symm
  ends _ hunits payload tidy _ := Ends.pure ⟨_, rfl, .refl tidy, .begin hunits payload⟩

theorem seq {first next : Work backend.State υ Unit}
    (h₁ : backend.Decides span around size effect first)
    (h₂ : backend.Decides span around size' effect' next) :
    backend.Decides span around (size + size')
      (fun depth after => ∃ between, effect depth between ∧ effect' between after)
      (do first; next) where
  unique := by
    rintro depth after after' ⟨between, leads, leads'⟩ ⟨between', leads₁, leads₁'⟩
    cases h₁.unique leads leads₁
    exact h₂.unique leads' leads₁'
  ends sheltered hunits payload tidy short := by
    refine ((h₁.ends sheltered hunits payload tidy (by omega)).mono (fun _ _ => id) ?_).bind ?_
    · refine fun halt _ => .imp_right ?_
      rintro nowhere after ⟨between, leads, -⟩
      exact nowhere between leads
    · rintro _ session' ⟨builder', leads, adds, sheet⟩
      have most := adds.most
      refine (sheet.ends_part sheltered hunits h₂ adds.tidy (by omega)).mono ?_ ?_
      · rintro _ session'' ⟨builder'', leads', adds', sheet'⟩
        exact ⟨builder'', ⟨_, leads, leads'⟩, adds.trans adds', sheet'⟩
      · refine fun halt _ => .imp_right ?_
        rintro nowhere after ⟨between, leads₁, leads'⟩
        exact nowhere after (h₁.unique leads leads₁ ▸ leads')

/-- A region one level deeper. -/
theorem nested {region : Work backend.State υ Unit} (h : backend.Decides span around size effect region) :
    backend.Decides span around size effect (Work.nested region) where
  unique := h.unique
  ends {session unit outer slot builder} sheltered hunits payload tidy short := by
    have entered : backend.Shelters span around { session with bench := session.bench.enterRegion } := by
      obtain ⟨⟨⟨unpoisoned, checks, sharing⟩, yields, pool, depths, jumps⟩, method, reach⟩ := sheltered
      exact ⟨⟨⟨unpoisoned, checks, sharing⟩, yields, pool, depths, jumps⟩, method, reach⟩
    refine Work.ends_nested (.inl ⟨_, _, rfl⟩) ((h.ends entered hunits payload tidy short).weaken ?_)
    rintro _ session' ⟨builder', leads, adds, page, wider⟩
    have level : session'.bench.units.nesting - 1 = session.bench.units.nesting := by
      rw [page.beside.nesting]
      rfl
    exact ⟨builder', leads, adds, ⟨page.units, ⟨page.beside.config, page.beside.sharing,
      page.beside.owner, level, page.beside.table⟩, page.backend, page.client⟩, wider⟩

/-- An operation that takes values and leaves others. -/
theorem emitStraight {operation : String} {op : Op} {taken given : Nat} (h : op.Straight taken given) :
    backend.Decides span around 1 (Trades taken given)
      (Work.onBench (Bench.emit operation op) : Work backend.State υ Unit) where
  unique first second := first.2.trans second.2.symm
  ends {session unit outer slot builder} sheltered hunits payload tidy short := by
    have refused (few : ¬op.pops ≤ builder.depth) (error : CompileError) :
        (Halt.failure error).Limit ∨
          ∀ after, ¬Trades taken given builder.depth after :=
      .inr fun _ leads => few (h.pops ▸ leads.1)
    refine ((Sheet.begin hunits payload).ends_emit op tidy refused).weaken ?_
    rintro _ session' ⟨enough, builder', run, tidy', depth, label, sheet⟩
    refine ⟨builder', ⟨h.pops ▸ enough, ?_⟩, ⟨tidy', Nat.le_of_eq label, .emit run h.falls h.straight⟩,
      sheet⟩
    rw [depth, Op.after, h.pops, h.pushes]

/-! ## Control flow -/

/-- Both arms start without the condition and end equally deep. -/
theorem emitBranch {onTrue onFalse : Work backend.State υ Unit}
    (h₁ : backend.Decides span around size effect onTrue)
    (h₂ : backend.Decides span around size' effect' onFalse) :
    backend.Decides span around (size + size' + 2)
      (fun depth after => ∃ taken, depth = taken + 1 ∧ effect taken after ∧ effect' taken after)
      (Work.emitBranch onTrue onFalse) := by
  refine nested ⟨?_, fun {session unit outer slot builder} sheltered hunits payload tidy short => ?_⟩
  · rintro depth after after' ⟨taken, heq, leads, -⟩ ⟨taken', heq', leads', -⟩
    obtain rfl : taken = taken' := by omega
    exact h₁.unique leads leads'
  have sheet := Sheet.begin hunits payload
  have nowhere {halt : Halt CompileError} (never : ∀ taken after, builder.depth = taken + 1 →
      effect taken after → effect' taken after → False) : halt.Limit ∨ ∀ after,
        ¬∃ taken, builder.depth = taken + 1 ∧ effect taken after ∧ effect' taken after :=
    .inr fun after ⟨taken, heq, leads, leads'⟩ => never taken after heq leads leads'
  refine Ends.get ?_
  rw [sheet.page.size]
  refine (sheet.ends_emitJump .ifFalse tidy fun few _ => nowhere fun taken _ heq _ _ =>
    few (show 1 ≤ builder.depth by omega)).bind ?_
  rintro toElse session₁ ⟨enough, taken, test, tidy₁, depth₁, label₁, sheet₁⟩
  have enough : 1 ≤ builder.depth := enough
  have depth₁ : taken.depth = builder.depth - 1 := depth₁
  have start {left : Nat} (heq : builder.depth = left + 1) : left = taken.depth := by omega
  refine sheet₁.page.ends_depth.bind ?_
  rintro _ _ ⟨rfl, rfl⟩
  refine ((sheet₁.ends_part sheltered hunits h₁ tidy₁ (by omega)).mono (fun _ _ => id) ?_).bind ?_
  · rintro halt _ (limit | never)
    · exact .inl limit
    · exact nowhere fun left after heq leads _ => never after (start heq ▸ leads)
  rintro _ session₂ ⟨trueEnd, leads₂, adds₂, sheet₂⟩
  have most₂ := adds₂.most
  refine (sheet₂.page.ends_ensureSameUnit _).bind ?_
  rintro _ _ rfl
  refine sheet₂.page.ends_depth.bind ?_
  rintro _ _ ⟨rfl, rfl⟩
  refine (sheet₂.ends_emitJump .always adds₂.tidy
    fun few => absurd (Nat.zero_le _) few).bind ?_
  rintro toEnd session₃ ⟨-, away, leave, tidy₃, depth₃, label₃, sheet₃⟩
  have longer := adds₂.grows.label
  refine (sheet₃.ends_patchHere (Builder.emitJump_inside test (by omega))).bind ?_
  intro _ session₄ sheet₄
  refine (sheet₄.ends_modifyBuilder (·.resetTo taken.depth)).bind fun _ session₅ sheet₅ => ?_
  have label₅ : ((away.patchHere toElse).resetTo taken.depth).label = away.label :=
    Builder.label_patchHere toElse
  have tidy₅ : ((away.patchHere toElse).resetTo taken.depth).Tidy := by
    refine ⟨(tidy₃.patchHere toElse).strict, ?_⟩
    have := tidy₁.shallow
    rw [label₅]
    change taken.depth ≤ away.label
    omega
  refine ((sheet₅.ends_part sheltered hunits h₂ tidy₅ (by omega)).mono (fun _ _ => id) ?_).bind ?_
  · rintro halt _ (limit | never)
    · exact .inl limit
    · exact nowhere fun left after heq _ leads' => never after (start heq ▸ leads')
  rintro _ session₆ ⟨falseEnd, leads₆, adds₆, sheet₆⟩
  have most₆ := adds₆.most
  refine (sheet₆.page.ends_ensureSameUnit _).bind ?_
  rintro _ _ rfl
  refine sheet₆.page.ends_target.bind ?_
  rintro _ _ ⟨rfl, rfl⟩
  refine Ends.ite (fun unequal => ?_) fun balanced => ?_
  · -- the arms have effects, but not the same one
    refine (Work.ends_violate (nowhere fun left after heq leads leads' => unequal.1 ?_)).halts
    rw [h₁.unique leads₂ (start heq ▸ leads), h₂.unique leads₆ (start heq ▸ leads')]
  · have level : trueEnd.depth = falseEnd.depth := by
      by_contra different
      exact balanced ⟨different, adds₆.tidy.strict⟩
    have longer₆ := adds₆.grows.label
    refine (sheet₆.ends_patchHere (Builder.emitJump_inside leave (by omega))).weaken ?_
    refine fun _ session₇ sheet₇ => ⟨falseEnd.patchHere toEnd, ⟨taken.depth, ?_, ?_, ?_⟩,
      ⟨adds₆.tidy.patchHere toEnd, ?_, ?_⟩, sheet₇⟩
    · omega
    · rw [Builder.depth_patchHere]
      exact level ▸ leads₂
    · rw [Builder.depth_patchHere]
      exact leads₆
    · rw [Builder.label_patchHere]
      omega
    · exact .branch test adds₂.grows leave adds₆.grows fun _ => level

/-- The right-hand side of an operator replaces the left value. -/
theorem emitLogical (connective : Connective) {right : Work backend.State υ Unit}
    (h : backend.Decides span around size effect right) :
    backend.Decides span around (size + 3)
      (fun depth after => ∃ taken, depth = taken + 1 ∧ effect taken (taken + 1) ∧ after = depth)
      (Work.emitLogical connective right) := by
  refine nested ⟨?_, fun {session unit outer slot builder} sheltered hunits payload tidy short => ?_⟩
  · rintro depth after after' ⟨-, -, -, rfl⟩ ⟨-, -, -, rfl⟩
    rfl
  have sheet := Sheet.begin hunits payload
  have nowhere {halt : Halt CompileError} (never : ∀ taken, builder.depth = taken + 1 →
      ¬effect taken (taken + 1)) : halt.Limit ∨ ∀ after, ¬∃ taken, builder.depth = taken + 1 ∧
        effect taken (taken + 1) ∧ after = builder.depth :=
    .inr fun after ⟨taken, heq, leads, _⟩ => never taken heq leads
  refine (sheet.ends_emit .dup tidy fun few _ => nowhere fun taken heq _ =>
    few (show 1 ≤ builder.depth by omega)).bind ?_
  rintro _ session₁ ⟨enough, doubled, double, tidy₁, depth₁, label₁, sheet₁⟩
  have enough : 1 ≤ builder.depth := enough
  have depth₁ : doubled.depth = builder.depth - 1 + 2 := depth₁
  have conditional : ((Work.skipWhen connective).op 0).falls = true := by cases connective <;> rfl
  have pops : ((Work.skipWhen connective).op 0).pops = 1 := by cases connective <;> rfl
  refine (sheet₁.ends_emitJump (Work.skipWhen connective) tidy₁ fun few =>
    absurd (by omega) few).bind ?_
  rintro toEnd session₂ ⟨-, tested, test, tidy₂, depth₂, label₂, sheet₂⟩
  rw [JumpKind.after_conditional _ _ conditional] at depth₂
  have one : 1 ≤ tested.depth := by omega
  refine (sheet₂.ends_emit .pop tidy₂ fun few => absurd one few).bind ?_
  rintro _ session₃ ⟨-, dropped, drop, tidy₃, depth₃, label₃, sheet₃⟩
  have depth₃ : dropped.depth = tested.depth - 1 := depth₃
  have start {left : Nat} (heq : builder.depth = left + 1) : left = dropped.depth := by omega
  refine ((sheet₃.ends_runRegion sheltered hunits h tidy₃ (by omega) _ .one).mono
    (fun _ _ => id) ?_).bind ?_
  · rintro halt _ (limit | never)
    · exact .inl limit
    · refine nowhere fun left heq leads => ?_
      obtain rfl := start heq
      exact Bool.noConfusion ((never _ leads).symm.trans (DepthTracker.Allowance.one_admits.mpr rfl))
  rintro _ session₄ ⟨admits, done, leads₄, rfl, adds₄, sheet₄⟩
  have most₄ := adds₄.most
  have one := DepthTracker.Allowance.one_admits.mp admits
  have longer := adds₄.grows.label
  refine (sheet₄.ends_patchHere (Builder.emitJump_inside test (by omega))).weaken ?_
  refine fun _ session₅ sheet₅ => ⟨done.patchHere toEnd, ⟨dropped.depth, ?_, ?_, ?_⟩,
    ⟨adds₄.tidy.patchHere toEnd, ?_, ?_⟩, sheet₅⟩
  · omega
  · exact one ▸ leads₄
  · rw [Builder.depth_patchHere]
    omega
  · rw [Builder.label_patchHere]
    omega
  · exact .logical double test conditional drop adds₄.grows fun _ _ _ => one

/-- A region that must leave one value. -/
theorem keeping {part : Work backend.State υ Unit}
    (h : backend.Decides span around size effect part) (construct : String) :
    backend.Decides span around size (fun depth after => effect depth (depth + 1) ∧ after = depth + 1)
      (do let _ ← Work.runRegion construct .one part) where
  unique first second := first.2.trans second.2.symm
  ends sheltered hunits payload tidy short := by
    refine (((Sheet.begin hunits payload).ends_runRegion sheltered hunits h tidy short _ .one).mono
      (fun _ _ => id) ?_).bind ?_
    · refine fun halt _ => .imp_right fun never after leads => ?_
      exact Bool.noConfusion
        ((never _ leads.1).symm.trans (DepthTracker.Allowance.one_admits.mpr rfl))
    · rintro _ session' ⟨admits, builder', leads, rfl, adds, sheet⟩
      have one := DepthTracker.Allowance.one_admits.mp admits
      exact Ends.pure ⟨builder', ⟨one ▸ leads, one⟩, adds, sheet⟩

/-- The value that the body of a loop may leave is dropped. -/
theorem emitLoopBody {body : Work backend.State υ Unit}
    (h : backend.Decides span around size effect body) :
    backend.Decides span around (size + 1)
      (fun depth after => (∃ left, effect depth left ∧ (left = depth ∨ left = depth + 1)) ∧
        after = depth) (Work.emitLoopBody body) where
  unique first second := first.2.trans second.2.symm
  ends {session unit outer slot builder} sheltered hunits payload tidy short := by
    refine (((Sheet.begin hunits payload).ends_runRegion sheltered hunits h tidy (by omega) _
      .atMostOne).mono (fun _ _ => id) ?_).bind ?_
    · refine fun halt _ => .imp_right fun never after leads => ?_
      obtain ⟨⟨left, leads, few⟩, -⟩ := leads
      exact Bool.noConfusion
        ((never _ leads).symm.trans (DepthTracker.Allowance.atMostOne_admits.mpr few))
    · rintro _ session₁ ⟨admits, builder₁, leads, rfl, adds₁, sheet₁⟩
      have most₁ := adds₁.most
      rcases DepthTracker.Allowance.atMostOne_admits.mp admits with level | one
      · rw [show ((builder₁.depth : Int) - builder.depth).toNat = 0 by omega]
        exact Ends.pure ⟨builder₁, ⟨⟨_, leads, .inl level⟩, level⟩,
          ⟨adds₁.tidy, by omega, adds₁.grows⟩, sheet₁⟩
      · rw [show ((builder₁.depth : Int) - builder.depth).toNat = 1 by omega]
        have enough : 1 ≤ builder₁.depth := by omega
        refine (sheet₁.ends_emit .pop adds₁.tidy fun few => absurd enough few).bind ?_
        rintro _ session₂ ⟨-, builder₂, run, tidy₂, depth₂, label₂, sheet₂⟩
        have depth₂ : builder₂.depth = builder₁.depth - 1 := depth₂
        exact Ends.pure ⟨builder₂, ⟨⟨_, leads, .inr one⟩, by omega⟩,
          ⟨tidy₂, by omega, adds₁.grows.trans (.emit run rfl rfl)⟩, sheet₂⟩

theorem emitLoop {condition body : Work backend.State υ Unit}
    (h₁ : backend.Decides span around size effect condition)
    (h₂ : backend.Decides span around size' effect' body) (checkFirst : Bool) :
    backend.Decides span around (size + size' + 3)
      (fun depth after => effect depth (depth + 1) ∧
        (∃ left, effect' depth left ∧ (left = depth ∨ left = depth + 1)) ∧ after = depth)
      (Work.emitLoop condition body checkFirst) := by
  have tested : backend.Decides span around size _ (Work.emitCondition condition) := h₁.keeping _
  have repeated := emitLoopBody h₂
  refine nested ⟨?_, fun {session unit outer slot builder} sheltered hunits payload tidy short => ?_⟩
  · exact fun first second => first.2.2.trans second.2.2.symm
  have sheet := Sheet.begin hunits payload
  have nowhere {halt : Halt CompileError} (never : effect builder.depth (builder.depth + 1) →
      (∃ left, effect' builder.depth left ∧ (left = builder.depth ∨ left = builder.depth + 1)) →
        False) : halt.Limit ∨ ∀ after, ¬(effect builder.depth (builder.depth + 1) ∧
        (∃ left, effect' builder.depth left ∧ (left = builder.depth ∨ left = builder.depth + 1)) ∧
        after = builder.depth) :=
    .inr fun _ leads => never leads.1 leads.2.1
  refine sheet.page.ends_target.bind ?_
  rintro _ _ ⟨rfl, rfl⟩
  cases checkFirst with
  | true =>
      refine ((sheet.ends_part sheltered hunits tested tidy (by omega)).mono (fun _ _ => id) ?_).bind ?_
      · rintro halt _ (limit | never)
        · exact .inl limit
        · exact nowhere fun leads _ => never _ ⟨leads, rfl⟩
      rintro _ session₁ ⟨builder₁, ⟨leads₁, depth₁⟩, adds₁, sheet₁⟩
      have most₁ := adds₁.most
      have one : 1 ≤ builder₁.depth := by omega
      refine (sheet₁.ends_emitJump .ifFalse adds₁.tidy fun few => absurd one few).bind ?_
      rintro toEnd session₂ ⟨-, entered, test, tidy₂, depth₂, label₂, sheet₂⟩
      have depth₂ : entered.depth = builder₁.depth - 1 := depth₂
      have level : entered.depth = builder.depth := by omega
      refine ((sheet₂.ends_part sheltered hunits repeated tidy₂ (by omega)).mono
        (fun _ _ => id) ?_).bind ?_
      · rintro halt _ (limit | never)
        · exact .inl limit
        · exact nowhere fun _ leads => never _ ⟨level ▸ leads, rfl⟩
      rintro _ session₃ ⟨builder₃, ⟨leads₃, depth₃⟩, adds₃, sheet₃⟩
      have most₃ := adds₃.most
      refine (sheet₃.ends_emitJumpBack .always adds₃.tidy (Nat.zero_le _)).bind ?_
      rintro _ session₄ ⟨back, jump, tidy₄, depth₄, label₄, sheet₄⟩
      have depth₄ : back.depth = builder₃.depth := depth₄
      have longer := adds₃.grows.label
      refine (sheet₄.ends_patchHere (Builder.emitJump_inside test (by omega))).weaken ?_
      refine fun _ session₅ sheet₅ => ⟨back.patchHere toEnd, ⟨leads₁, level ▸ leads₃, ?_⟩,
        ⟨tidy₄.patchHere toEnd, ?_, ?_⟩, sheet₅⟩
      · rw [Builder.depth_patchHere]
        omega
      · rw [Builder.label_patchHere]
        omega
      · exact .loopFirst adds₁.grows (fun _ _ _ => depth₁) test adds₃.grows (fun _ _ _ => depth₃) jump
  | false =>
      refine ((sheet.ends_part sheltered hunits repeated tidy (by omega)).mono
        (fun _ _ => id) ?_).bind ?_
      · rintro halt _ (limit | never)
        · exact .inl limit
        · exact nowhere fun _ leads => never _ ⟨leads, rfl⟩
      rintro _ session₁ ⟨builder₁, ⟨leads₁, depth₁⟩, adds₁, sheet₁⟩
      have most₁ := adds₁.most
      refine ((sheet₁.ends_part sheltered hunits tested adds₁.tidy (by omega)).mono
        (fun _ _ => id) ?_).bind ?_
      · rintro halt _ (limit | never)
        · exact .inl limit
        · exact nowhere fun leads _ => never _ ⟨depth₁.symm ▸ leads, rfl⟩
      rintro _ session₂ ⟨builder₂, ⟨leads₂, depth₂⟩, adds₂, sheet₂⟩
      have most₂ := adds₂.most
      have one : 1 ≤ builder₂.depth := by omega
      refine (sheet₂.ends_emitJumpBack .ifTrue adds₂.tidy one).weaken ?_
      rintro _ session₃ ⟨back, jump, tidy₃, depth₃, label₃, sheet₃⟩
      have depth₃ : back.depth = builder₂.depth - 1 := depth₃
      refine ⟨back, ⟨depth₁ ▸ leads₂, leads₁, by omega⟩, ⟨tidy₃, by omega, ?_⟩, sheet₃⟩
      exact .loopLast adds₁.grows (fun _ _ _ => depth₁) adds₂.grows (fun _ _ _ => depth₂) jump

/-- The elements of an aggregate leave one value each. -/
theorem elements {element : Nat → Work backend.State υ Unit} {sizes : Nat → Nat}
    {effects : Nat → Nat → Nat → Prop} (construct : String) (first total : Nat)
    (h : ∀ index, first ≤ index → index < first + total →
      backend.Decides span around (sizes index) (effects index) (element index)) :
    backend.Decides span around ((List.range' first total).map sizes).sum
      (fun depth after => (∀ index < total,
        effects (first + index) (depth + index) (depth + index + 1)) ∧ after = depth + total)
      (Work.forEachIndex (fun index => do
        let _ ← Work.runRegion construct .one (element index)) first total) := by
  induction total generalizing first with
  | zero => exact pure.cast fun depth after => by simp
  | succ total ih =>
      have one := (h first (Nat.le_refl _) (by omega)).keeping construct
      have rest := ih (first + 1) fun index low high => h index (by omega) (by omega)
      rw [List.range'_succ, List.map_cons, List.sum_cons]
      refine (seq one rest).cast fun depth after => ⟨?_, ?_⟩
      · rintro ⟨all, rfl⟩
        refine ⟨depth + 1, ⟨all 0 (Nat.succ_pos _), rfl⟩, fun index inside => ?_, by omega⟩
        have leads := all (index + 1) (by omega)
        rwa [show first + (index + 1) = first + 1 + index by omega,
          show depth + (index + 1) = depth + 1 + index by omega] at leads
      · rintro ⟨_, ⟨leads, rfl⟩, all, rfl⟩
        refine ⟨fun index inside => ?_, by omega⟩
        cases index with
        | zero => exact leads
        | succ index =>
            have leads := all index (by omega)
            rwa [show first + 1 + index = first + (index + 1) by omega,
              show depth + 1 + index = depth + (index + 1) by omega] at leads

theorem emitArray {element : Nat → Work backend.State υ Unit} {sizes : Nat → Nat}
    {effects : Nat → Nat → Nat → Prop} {total : Nat}
    (h : ∀ index < total, backend.Decides span around (sizes index) (effects index) (element index))
    (few : total < 2 ^ 32) :
    backend.Decides span around (((List.range total).map sizes).sum + 1)
      (fun depth after => (∀ index < total, effects index (depth + index) (depth + index + 1)) ∧
        after = depth + 1) (Work.emitArray total element) := by
  have straight : (Op.makeArray total.toUInt32).Straight total 1 :=
    ⟨Program.toNat_toUInt32 few, rfl, rfl, rfl⟩
  have collapse : backend.Decides span around 1 (Trades total 1) (Work.onBench
      (Bench.emit Work.arrayOperation (.makeArray total.toUInt32)) : Work backend.State υ Unit) :=
    emitStraight straight
  have parts := elements (Work.arrayOperation ++ " element") 0 total fun index _ inside =>
    h index (by omega)
  rw [← List.range_eq_range'] at parts
  refine (nested (seq parts collapse)).cast fun depth after => ?_
  simp only [Nat.zero_add]
  constructor
  · rintro ⟨all, rfl⟩
    exact ⟨_, ⟨all, rfl⟩, Nat.le_add_left .., by omega⟩
  · rintro ⟨_, ⟨all, rfl⟩, -, rfl⟩
    exact ⟨all, by omega⟩

end Decides

end Backend

end BlockScript
