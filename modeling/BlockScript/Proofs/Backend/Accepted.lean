import BlockScript.Proofs.Backend.Decided

/-!
# Bodies that are accepted

Both backends record a method body, apart from the order in which constants join the pool and
checks are made, and both refuse it exactly if it is unbalanced. The order can decide which
error is reported, but not whether there is one: `Backend.Demands` is about the steps that
record nothing, and they may come in any order.
-/

namespace BlockScript

variable {υ α : Type}

/-! ## Steps that record nothing -/

theorem Invocation.straight_send_of_lt {shape : Invocation} (few : shape.argc < 2 ^ 32)
    (name : UInt32) (block : Option UInt32) :
    (Op.send name shape.argc.toUInt32 shape.hasReceiver block).Straight shape.consumed 1 := by
  refine ⟨?_, rfl, rfl, rfl⟩
  change shape.argc.toUInt32.toNat + shape.hasReceiver.toNat = shape.consumed
  rw [Program.toNat_toUInt32 few]
  rfl

theorem Primitive.reaches_form (p : Primitive) {around index depth : Nat} {assign : Bool}
    (near : p.Reaches around) (form : p.form = .access index depth assign) : depth ≤ around := by
  cases p <;> cases form <;> exact near

/-- In strict mode a yield inside a method takes its argument in any case. -/
theorem Bench.emitYield_strict {bench : Bench} {recording : Recording}
    (found : bench.recording? = some recording) (inside : bench.units.insideMethod = true)
    (strict : bench.config.yieldMode = .strict) (operation : String) (hasArgs : Bool) :
    emitYield operation hasArgs bench =
      emit operation (.yield (if hasArgs then 1 else 0)) bench := by
  change (if !bench.units.insideMethod then throw (bench.violation .yieldWithoutBlock) >>= _
    else target >>= fun builder => _ : BenchM Unit) bench = _
  simp only [inside, Bool.not_true, Bool.false_eq_true, if_false]
  rw [run_bind_ok (target_eq found)]
  simp [strict]

namespace Backend

variable {backend : Backend} {span around size : Nat} {effect : Nat → Nat → Prop} {condition : Prop}

namespace Demands

theorem intern (constant : Constant) :
    backend.Demands span around True (Work.onBench (Bench.intern constant) :
      Work backend.State υ UInt32) := by
  refine ⟨fun {session recording} _ _ => Work.ends_onBench (Ends.intro ?_ ?_)⟩
  · intro position bench' run
    obtain ⟨constants, -, rfl⟩ := Bench.ensures_intern position bench' run
    exact ⟨trivial, ⟨rfl, ⟨rfl, rfl, rfl, rfl, fun _ => Nat.le_refl _⟩, rfl, rfl⟩, Nat.le_refl _⟩
  · intro error bench' run
    obtain ⟨limit, rfl⟩ := Bench.intern_error run
    exact .inl ⟨_, limit, rfl⟩

theorem target : backend.Demands span around True (Work.onBench Bench.target :
    Work backend.State υ Builder) := by
  refine ⟨fun {session recording} _ found => Work.ends_onBench ?_⟩
  unfold Ends
  rw [Bench.target_eq found]
  exact ⟨trivial, .refl session⟩

/-- A local that is within reach is not refused. -/
theorem checkScopeDepth {depth : Nat} (near : depth ≤ around) :
    backend.Demands span around True (Work.onBench (Bench.checkScopeDepth depth) :
      Work backend.State υ Unit) := by
  refine ⟨fun {session recording} sheltered _ => Work.ends_onBench (Ends.get (Ends.ite ?_ ?_))⟩
  · exact fun far => absurd (Nat.le_trans near sheltered.reach) (Nat.not_le_of_lt far)
  · exact fun _ => Ends.pure ⟨trivial, .refl session⟩

theorem ensureOpen {fuel : Nat} : (immediate fuel).Demands span around True
    (Interpreter.ensureOpen : Work Interpreter υ Unit) := by
  refine ⟨fun {session recording} _ found => ?_⟩
  obtain ⟨unit, outer, hunits, -⟩ := Bench.recording?_eq_some.mp found
  unfold Ends
  rw [Interpreter.ensureOpen_eq hunits]
  exact ⟨trivial, .refl session⟩

/-- A unit of its own is recorded if its body leaves one value or none. -/
theorem recordUnit {body : Work backend.State υ Unit} {kind : UnitKind}
    (decides : backend.Decides span (within around kind) size effect body) (short : size + 2 < span)
    (inner : kind ≠ .script) (name : String) (arity localCount : Nat) (locals : List String) :
    backend.Demands span around (Fitting effect)
      (Work.recordUnit kind name arity localCount locals body) :=
  ⟨fun sheltered _ => ends_recordUnit_decides decides short sheltered.checking inner
    (fun _ => sheltered) name arity localCount locals⟩

theorem recordMethod {body : Work backend.State υ Unit}
    (decides : backend.Decides span 0 size effect body) (short : size + 2 < span) (name : String)
    (arity localCount : Nat) : backend.Demands span around (Fitting effect)
      (Work.recordUnit .method name arity localCount [] body) :=
  @recordUnit _ _ _ _ _ _ _ .method decides short nofun name arity localCount []

section Blocks

variable {body : Work backend.State υ Unit}
  (decides : backend.Decides span (around + 1) size effect body) (short : size + 2 < span)
  (scope : StaticScope) (arity : Nat)

include decides short

theorem recordBlock :
    backend.Demands span around (Fitting effect) (Work.recordBlock scope arity body) :=
  ⟨fun sheltered found =>
    Ends.get ((@recordUnit _ _ _ _ _ _ _ .closure decides short nofun _ _ _ _).ends sheltered found)⟩

theorem recordBlock?_some : backend.Demands span around (Fitting effect)
    (Work.recordBlock? (some { scope, arity, body })) :=
  ⟨fun sheltered found => ((recordBlock decides short scope arity).ends sheltered found).bind
    fun _ _ admitted => Ends.pure admitted⟩

end Blocks

theorem recordBlock?_none :
    backend.Demands span around True (Work.recordBlock? none : Work backend.State υ _) :=
  ⟨fun {session _} _ _ => Ends.pure ⟨trivial, .refl session⟩⟩

end Demands

namespace Decides

/-- What comes before changes nothing, but may be refused. -/
theorem after [Nonempty α] {first : Work backend.State υ α} {next : α → Work backend.State υ Unit}
    (h₁ : backend.Demands span around condition first)
    (h₂ : ∀ value, backend.Decides span around size effect (next value)) :
    backend.Decides span around size (fun depth after => condition ∧ effect depth after)
      (first >>= next) where
  unique leads leads' :=
    ‹Nonempty α›.elim fun value => (h₂ value).unique leads.2 leads'.2
  ends sheltered hunits payload tidy short := by
    have found := Bench.recording?_eq_some.mpr ⟨_, _, hunits, payload⟩
    refine ((h₁.ends sheltered found).mono (fun _ _ => id) ?_).bind ?_
    · exact fun halt _ => .imp_right fun unmet after leads => unmet leads.1
    · rintro value session' ⟨met, unharmed⟩
      have sheet := unharmed.sheet hunits payload
      refine (sheet.ends_part sheltered hunits (h₂ value) tidy short).mono ?_ ?_
      · rintro _ session'' ⟨builder', leads, adds, sheet'⟩
        exact ⟨builder', ⟨met, leads⟩, adds, sheet'⟩
      · exact fun halt _ => .imp_right fun nowhere after leads => nowhere after leads.2

/-- What comes before is not refused either. -/
theorem past [Nonempty α] {first : Work backend.State υ α} {next : α → Work backend.State υ Unit}
    (h₁ : backend.Demands span around True first)
    (h₂ : ∀ value, backend.Decides span around size effect (next value)) :
    backend.Decides span around size effect (first >>= next) :=
  (after h₁ h₂).cast fun _ _ => by rw [true_and]

/-- What else the computation does while nothing is recorded does not matter. -/
theorem congr {action action' : Work backend.State υ Unit}
    (h : backend.Decides span around size effect action')
    (same : ∀ {session : Session backend.State υ} {recording : Recording},
      backend.Shelters span around session → session.bench.recording? = some recording →
      action session = action' session) :
    backend.Decides span around size effect action where
  unique := h.unique
  ends sheltered hunits payload tidy short := by
    unfold Ends
    rw [same sheltered (Bench.recording?_eq_some.mpr ⟨_, _, hunits, payload⟩)]
    exact h.ends sheltered hunits payload tidy short

/-! ## Operations as they are recorded -/

section Emitted

variable {operation : String} {taken given : Nat}

instance : Nonempty Builder := ⟨.new "" .script 0 0 [] true⟩

theorem emitPooled {constant : Constant} {make : UInt32 → Op}
    (h : ∀ position, (make position).Straight taken given) :
    backend.Decides span around 1 (Trades taken given)
      (Work.onBench (Bench.emitPooled operation constant make) : Work backend.State υ Unit) := by
  rw [Bench.emitPooled, Work.onBench_bind]
  refine past .target fun _ => ?_
  rw [Work.onBench_bind]
  exact past (.intern constant) fun position => emitStraight (h position)

theorem emitAlias (newName oldName : String) :
    backend.Decides span around 1 (Trades 0 0)
      (Work.onBench (Bench.emitAlias operation newName oldName) : Work backend.State υ Unit) := by
  rw [Bench.emitAlias, Work.onBench_bind]
  refine past .target fun _ => ?_
  rw [Work.onBench_bind]
  refine past (.intern _) fun new => ?_
  rw [Work.onBench_bind]
  exact past (.intern _) fun old => emitStraight ⟨rfl, rfl, rfl, rfl⟩

theorem emitLocal {index depth : Nat} {assign : Bool} (near : depth ≤ around)
    (h : (Bench.localOp index depth assign).Straight taken given) :
    backend.Decides span around 1 (Trades taken given)
      (Work.onBench (Bench.emitLocal operation index depth assign) : Work backend.State υ Unit) := by
  rw [Bench.emitLocal, Work.onBench_bind]
  exact past (.checkScopeDepth near) fun _ => emitStraight h

theorem emitYield (hasArgs : Bool) :
    backend.Decides span around 1 (Trades hasArgs.toNat 1)
      (Work.onBench (Bench.emitYield operation hasArgs) : Work backend.State υ Unit) := by
  have straight : (Op.yield (if hasArgs then 1 else 0)).Straight hasArgs.toNat 1 := by
    cases hasArgs <;> exact ⟨rfl, rfl, rfl, rfl⟩
  refine congr (@emitStraight _ _ _ _ operation _ _ _ straight) fun sheltered found => ?_
  exact Work.onBench_congr
    (Bench.emitYield_strict found sheltered.method sheltered.checking.yields operation hasArgs)

/-- A line changes no depth. -/
theorem setLine (line : UInt32) :
    backend.Decides span around 0 (Trades 0 0)
      (Work.onBench (do
        Bench.setLine line
        modify fun bench => { bench with line := some line }) : Work backend.State υ Unit) where
  unique leads leads' := leads.2.trans leads'.2.symm
  ends {session unit outer slot builder} sheltered hunits payload tidy short := by
    have sheet := Sheet.begin hunits payload
    rw [Bench.setLine, Work.onBench_bind, Work.onBench_bind]
    have sets : Ends (do let _ ← Work.onBench Bench.target
                         Work.onBench (Bench.modifyBuilder (·.setLine line))) session
        (fun _ session' => Sheet session unit outer slot (builder.setLine line) session')
        fun halt _ => halt.Limit ∨ ∀ after, ¬Trades 0 0 builder.depth after := by
      refine sheet.page.ends_target.bind ?_
      rintro _ _ ⟨rfl, rfl⟩
      exact sheet.ends_modifyBuilder _
    refine sets.bind fun _ session₁ sheet₁ => Work.ends_onBench (Ends.modifies ?_)
    refine ⟨builder.setLine line, ⟨Nat.zero_le _, rfl⟩, ⟨⟨tidy.strict, tidy.shallow⟩, Nat.le_refl _,
      .congr rfl rfl⟩, ?_, sheet₁.wider⟩
    exact sheet₁.page.added rfl ⟨rfl, rfl, rfl, rfl, fun _ => Nat.le_refl _⟩

/-- A call takes its arguments, and its receiver if it has one, after its block is recorded. -/
theorem emitCall {shape : Invocation} (few : shape.argc < 2 ^ 32) (name : String)
    {block : Option (BlockBody (Session backend.State υ))}
    (demands : backend.Demands span around condition (Work.recordBlock? block)) :
    backend.Decides span around 1
      (fun depth after => condition ∧ Trades shape.consumed 1 depth after)
      (Work.emitCall name shape block) := by
  refine after demands fun slot => ?_
  rw [Bench.emitSend, Work.onBench_bind]
  refine past .target fun _ => ?_
  rw [Work.onBench_bind]
  exact past (.intern _) fun position => emitStraight (shape.straight_send_of_lt few position slot)

end Emitted

theorem emitPrimitive {p : Primitive} (near : p.Reaches around) :
    backend.Decides span around p.count (Trades p.taken p.given)
      (Work.onBench (Bench.emitPrimitive p) : Work backend.State υ Unit) := by
  have acts := p.acts_form
  unfold Bench.emitPrimitive
  cases form : p.form with
  | op single =>
      obtain ⟨count, straight⟩ : _ ∧ _ := form ▸ acts
      exact (emitStraight straight).resize (Nat.le_of_eq count.symm)
  | pooled constant make =>
      obtain ⟨count, straight⟩ : _ ∧ _ := form ▸ acts
      exact (emitPooled straight).resize (Nat.le_of_eq count.symm)
  | access index depth assign =>
      obtain ⟨count, straight⟩ : _ ∧ _ := form ▸ acts
      exact (emitLocal (p.reaches_form near form) straight).resize (Nat.le_of_eq count.symm)
  | aliasMethod newName oldName =>
      obtain ⟨count, taken, given⟩ : _ ∧ _ ∧ _ := form ▸ acts
      rw [count, taken, given]
      exact emitAlias newName oldName
  | yield hasArgs =>
      obtain ⟨count, taken, given⟩ : _ ∧ _ ∧ _ := form ▸ acts
      rw [count, taken, given]
      exact emitYield hasArgs
  | line line =>
      obtain ⟨count, taken, given⟩ : _ ∧ _ ∧ _ := form ▸ acts
      rw [count, taken, given]
      exact setLine line

end Decides

end Backend

/-! ## Operations as they are offered -/

section Offered

variable {span around size fuel : Nat} {effect : Nat → Nat → Prop}

/-- Nothing has failed, so the operation is not refused. -/
theorem Recorder.decides_checked {operation : Work Recorder υ Unit}
    (h : Backend.recording.Decides span around size effect operation) :
    Backend.recording.Decides span around size effect (checked operation) where
  unique := h.unique
  ends sheltered hunits payload tidy short := by
    refine ends_checked (fun error poisoned => ?_) fun _ =>
      (h.ends sheltered hunits payload tidy short).mono (fun _ _ => id) ?_
    · cases poisoned.symm.trans sheltered.checking.prepared.unpoisoned
    · rintro (error | _) session' refused <;> exact refused

namespace Interpreter

theorem decides_congr {action action' : Work Interpreter υ Unit}
    (h : (Backend.immediate fuel).Decides span around size effect action')
    (same : ∀ {session : Session Interpreter υ} {unit : OpenUnit (Option Recording)}
      {outer : List (OpenUnit (Option Recording))} {recording : Recording},
      session.bench.units.units = unit :: outer → session.bench.recording? = some recording →
      action session = action' session) :
    (Backend.immediate fuel).Decides span around size effect action := by
  refine h.congr fun {session recording} _ found => ?_
  obtain ⟨unit, outer, hunits, -⟩ := Bench.recording?_eq_some.mp found
  exact same hunits found

theorem decides_either {recorded live : Work Interpreter υ Unit}
    (h : (Backend.immediate fuel).Decides span around size effect recorded) :
    (Backend.immediate fuel).Decides span around size effect
      (do ensureOpen; if ← recording then recorded else live) :=
  decides_congr h fun _ found => either_of_recording found recorded live

theorem decides_perform {operation : String} {op : Op} {taken given : Nat}
    (h : op.Straight taken given) :
    (Backend.immediate fuel).Decides span around 1 (Trades taken given)
      (perform fuel operation op : Work Interpreter υ Unit) :=
  decides_either (.emitStraight h)

theorem decides_primitive {p : Primitive} (near : p.Reaches around) :
    (Backend.immediate fuel).Decides span around p.count (Trades p.taken p.given)
      (primitive fuel p : Work Interpreter υ Unit) := by
  have acts := p.acts_form
  unfold primitive
  cases form : p.form with
  | op single =>
      obtain ⟨count, straight⟩ : _ ∧ _ := form ▸ acts
      exact (decides_perform straight).resize (Nat.le_of_eq count.symm)
  | pooled constant make =>
      obtain ⟨count, straight⟩ : _ ∧ _ := form ▸ acts
      have pooled : (Backend.immediate fuel).Decides span around 1 (Trades p.taken p.given) (do
          perform fuel p.operation (make (← Work.onBench (Bench.intern constant))) :
            Work Interpreter υ Unit) :=
        .past (.intern constant) fun position => decides_perform (straight position)
      rw [count]
      dsimp only
      split
      · -- a constant is looked up only where the script is executed
        refine decides_congr pooled fun {session _ _ _} hunits found => ?_
        rw [run_bind_ok (ensureOpen_eq hunits), run_bind_ok (recording_eq session), found]
        rfl
      · exact pooled
  | access index depth assign =>
      obtain ⟨count, straight⟩ : _ ∧ _ := form ▸ acts
      rw [count]
      exact .past (.checkScopeDepth (p.reaches_form near form)) fun _ => decides_perform straight
  | aliasMethod newName oldName =>
      obtain ⟨count, taken, given⟩ : _ ∧ _ ∧ _ := form ▸ acts
      rw [count, taken, given]
      exact .past (.intern _) fun new => .past (.intern _) fun old => decides_perform ⟨rfl, rfl, rfl, rfl⟩
  | yield hasArgs =>
      obtain ⟨count, taken, given⟩ : _ ∧ _ ∧ _ := form ▸ acts
      rw [count, taken, given]
      exact .past .ensureOpen fun _ => .emitYield hasArgs
  | line line =>
      obtain ⟨count, taken, given⟩ : _ ∧ _ ∧ _ := form ▸ acts
      rw [count, taken, given]
      dsimp only
      refine decides_congr (.setLine line) fun {session _ _ _} hunits found => ?_
      rw [run_bind_ok (ensureOpen_eq hunits), run_bind_ok (recording_eq session), found,
        Work.onBench_bind]
      rfl

end Interpreter

end Offered

end BlockScript
