import BlockScript.Proofs.Backend.Draft
import BlockScript.Proofs.Backend.Sketch

/-!
# Every operation lets the innermost recording grow

Each operation of the bytecode backend is orderly when its nested code keeps the units that
were open. For the operations with nested code in the same unit this is where the lemmas on
builders are used, one for each shape of control flow; for those that record a unit of their
own, that the new unit is closed with the same units around it.
-/

namespace BlockScript.Recorder

variable {υ α β : Type}

/-! ## Nothing can be recorded without an open unit -/

section Empty

variable {bench : Bench} (empty : bench.units.units = [])

include empty

theorem not_found (recording : Recording) : bench.recording? ≠ some recording := by
  intro found
  obtain ⟨unit, outer, hunits, -⟩ := Bench.recording?_eq_some.mp found
  rw [empty] at hunits
  cases hunits

theorem ensures_build_empty {action : Builder → Except CompileError (α × Builder)}
    {post : α → Bench → Prop} : Ensures (Bench.build action) bench post :=
  Bench.ensures_build.mono fun _ _ ⟨_, _, _, found, _⟩ => absurd found (not_found empty _)

theorem ensures_emit_empty {operation : String} {op : Op} {post : Unit → Bench → Prop} :
    Ensures (Bench.emit operation op) bench post := ensures_build_empty empty

theorem ensures_target_empty {post : Builder → Bench → Prop} : Ensures Bench.target bench post :=
  Bench.ensures_target.mono fun _ _ ⟨_, _, found⟩ => absurd found (not_found empty _)

/-- What begins by looking for a recording fails. -/
theorem ensures_after_target {rest : Builder → BenchM α} {post : α → Bench → Prop} :
    Ensures (Bench.target >>= rest) bench post :=
  (ensures_target_empty empty).stop

theorem ensures_primitive_empty (p : Primitive) {post : Unit → Bench → Prop} :
    Ensures (Bench.emitPrimitive p) bench post := by
  cases p with
  | consume | retrieveSelf | fixnum | toArray | loadFalse | loadTrue | loadNil | negate =>
      exact ensures_emit_empty empty
  | line line =>
      have entered : Ensures (Bench.setLine line) bench fun _ _ => False :=
        ensures_after_target empty
      exact entered.stop
  | yield hasArgs =>
      refine Ensures.get (Ensures.ite (fun _ => ?_) fun _ => ensures_after_target empty)
      exact Ensures.stop Ensures.throws
  | assignLocal | retrieveLocal =>
      refine Bench.ensures_checkScopeDepth.bind ?_
      rintro _ _ ⟨rfl, -⟩
      exact ensures_emit_empty empty
  | aliasMethod | bignum | string | symbol | retrieveConstant | assignConstant | retrieveIvar
  | assignIvar | assignGlobal | retrieveGlobal =>
      exact ensures_after_target empty

end Empty

theorem ensures_nested_empty {region : Work Recorder υ α}
    (h : ∀ session, session.bench.units.units = [] → Ensures region session fun _ _ => False)
    {session : Session Recorder υ} (empty : session.bench.units.units = []) :
    Ensures (Work.nested region) session fun _ _ => False :=
  Work.ensures_nested (h _ empty)

/-- An operation that needs an open unit, and then works on the innermost recording. -/
theorem onward_of_draft {action : Work Recorder υ α} {session : Session Recorder υ}
    {held : List Nat} (regular : session.bench.Regular held)
    (empty : session.bench.units.units = [] → Ensures action session fun _ _ => False)
    (grows : ∀ {unit : OpenUnit (Option Recording)} {outer : List (OpenUnit (Option Recording))}
      {slot : UInt32} {builder : Builder}, Draft held session unit outer slot builder session →
      Ensures action session fun _ session' => ∃ builder', builder.Grows builder' ∧
        Draft held session unit outer slot builder' session') :
    Ensures action session fun _ session' => Onward held session session' := by
  cases hunits : session.bench.units.units with
  | nil => exact (empty hunits).mono fun _ _ (h : False) => h.elim
  | cons unit outer =>
      obtain ⟨slot, builder, payload, -⟩ := regular.opened unit (hunits ▸ List.mem_cons_self ..)
      refine (grows (.begin regular hunits payload)).mono ?_
      rintro _ session' ⟨builder', larger, draft⟩
      exact draft.done regular hunits payload larger

namespace Orderly

theorem pure (value : α) : Orderly (Pure.pure value : Work Recorder υ α) :=
  fun _ _ h => Ensures.pure (.refl h)

theorem bind {first : Work Recorder υ α} {next : α → Work Recorder υ β} (h₁ : Orderly first)
    (h₂ : ∀ value, Orderly (next value)) : Orderly (first >>= next) := by
  intro session held h
  refine (h₁ session held h).bind ?_
  intro value session' onward
  exact (h₂ value session' held onward.regular).mono fun _ _ => onward.trans

theorem fails (error : CompileError) : Orderly (Work.fail error : Work Recorder υ α) :=
  fun _ _ _ => Ensures.throws

theorem checked {operation : Work Recorder υ α} (h : Orderly operation) :
    Orderly (Recorder.checked operation) :=
  fun session held regular => ensures_checked (h session held regular)

end Orderly

namespace Draft

variable {held : List Nat} {start session : Session Recorder υ}
  {unit : OpenUnit (Option Recording)} {outer : List (OpenUnit (Option Recording))}
  {slot : UInt32} {builder builder' : Builder}
  (draft : Draft held start unit outer slot builder session)

include draft

/-- The region counter is no part of a draft. -/
theorem nesting (nesting : Nat) : Draft held start unit outer slot builder { session with
    bench := { session.bench with units := { session.bench.units with nesting } } } := by
  exact ⟨draft.units, draft.nextId, draft.owner, draft.size, draft.regular.rest nesting _ _,
    draft.script⟩

/-- A region one level deeper. -/
theorem ensures_nested {region : Work Recorder υ α} {post : α → Builder → Prop}
    (h : ∀ {session}, Draft held start unit outer slot builder session →
      Ensures region session fun value session' => ∃ builder', post value builder' ∧
        Draft held start unit outer slot builder' session') :
    Ensures (Work.nested region) session fun value session' => ∃ builder', post value builder' ∧
      Draft held start unit outer slot builder' session' := by
  refine Work.ensures_nested ((h (draft.nesting _)).mono ?_)
  rintro value session' ⟨builder', holds, draft'⟩
  exact ⟨builder', holds, draft'.nesting _⟩

/-- Dropping values one by one. -/
theorem ensures_emitTimes_pop (operation : String) (count : Nat) :
    Ensures (Work.emitTimes operation .pop count) session fun _ session' => ∃ builder',
      builder.Drops builder' count ∧ Draft held start unit outer slot builder' session' := by
  induction count generalizing builder session with
  | zero => exact Ensures.pure ⟨builder, .none _, draft⟩
  | succ count ih =>
      refine (draft.ensures_emit fun _ ref => by cases ref).bind ?_
      rintro _ session' ⟨popped, run, draft'⟩
      refine (ih draft').mono ?_
      rintro _ session'' ⟨builder', drops, draft''⟩
      exact ⟨builder', .pop run drops, draft''⟩

/-- The arms of a branch. -/
theorem ensures_branch {onTrue onFalse : Work Recorder υ Unit} (h₁ : Keeps onTrue)
    (h₂ : Keeps onFalse) : Ensures (Work.emitBranch onTrue onFalse) session fun _ session' =>
      ∃ builder', builder.Grows builder' ∧
        Draft held start unit outer slot builder' session' := by
  refine draft.ensures_nested fun {session} draft => Ensures.get ?_
  refine (draft.ensures_emitJump _ .ifFalse).bind ?_
  rintro toElse session₁ ⟨taken, test, draft₁⟩
  refine draft₁.ensures_depth.bind ?_
  rintro _ _ ⟨rfl, rfl⟩
  refine (draft₁.nestedCode h₁).bind fun _ session₂ left => ?_
  refine (ensures_ensureSameUnit _ _).bind ?_
  rintro _ _ ⟨rfl, same⟩
  obtain ⟨trueEnd, grows₁, draft₂⟩ := left (by rw [same, draft.unit_size, draft₁.unit_size])
  refine draft₂.ensures_depth.bind ?_
  rintro _ _ ⟨rfl, rfl⟩
  refine (draft₂.ensures_emitJump _ .always).bind ?_
  rintro toEnd session₃ ⟨away, leave, draft₃⟩
  refine (draft₃.ensures_patchHere toElse).bind fun _ session₄ draft₄ => ?_
  refine (draft₄.ensures_modifyBuilder (·.resetTo taken.depth) draft₄.inside).bind ?_
  intro _ session₅ draft₅
  refine (draft₅.nestedCode h₂).bind fun _ session₆ left => ?_
  refine (ensures_ensureSameUnit _ _).bind ?_
  rintro _ _ ⟨rfl, same⟩
  obtain ⟨falseEnd, grows₂, draft₆⟩ := left (by rw [same, draft.unit_size, draft₅.unit_size])
  refine draft₆.ensures_target.bind ?_
  rintro _ _ ⟨rfl, rfl⟩
  refine Ensures.ite (fun _ => ?_) fun balanced => ?_
  · exact Ensures.get Ensures.throws
  · refine (draft₆.ensures_patchHere toEnd).mono fun _ session₇ draft₇ => ⟨_, ?_, draft₇⟩
    refine .branch test grows₁ leave grows₂ fun strict => ?_
    by_contra different
    exact balanced ⟨different, strict⟩

/-- The right-hand side of an operator. -/
theorem ensures_logical (connective : Connective) {right : Work Recorder υ Unit}
    (h : Keeps right) : Ensures (Work.emitLogical connective right) session fun _ session' =>
      ∃ builder', builder.Grows builder' ∧
        Draft held start unit outer slot builder' session' := by
  refine draft.ensures_nested fun {session} draft => ?_
  refine (draft.ensures_emit fun _ ref => by cases ref).bind ?_
  rintro _ session₁ ⟨doubled, double, draft₁⟩
  refine (draft₁.ensures_emitJump _ _).bind ?_
  rintro toEnd session₂ ⟨tested, test, draft₂⟩
  refine (draft₂.ensures_emit fun _ ref => by cases ref).bind ?_
  rintro _ session₃ ⟨dropped, drop, draft₃⟩
  refine (draft₃.ensures_runRegion h _ (by decide)).bind ?_
  rintro produced session₄ ⟨finished, grows, leaves, draft₄⟩
  refine (draft₄.ensures_patchHere toEnd).mono fun _ session₅ draft₅ => ⟨_, ?_, draft₅⟩
  exact .logical double test (by cases connective <;> rfl) drop grows leaves.leaves_one

/-- The condition of a loop leaves the value that is tested. -/
theorem ensures_condition {condition : Work Recorder υ Unit} (h : Keeps condition) :
    Ensures (Work.emitCondition condition) session fun _ session' => ∃ builder',
      (builder.Grows builder' ∧ builder.Leaves builder' 1) ∧
        Draft held start unit outer slot builder' session' := by
  refine (draft.ensures_runRegion h _ (by decide)).bind ?_
  rintro produced session' ⟨builder', grows, leaves, draft'⟩
  exact Ensures.pure ⟨builder', ⟨grows, leaves.leaves_one⟩, draft'⟩

/-- Whatever the body of a loop leaves is dropped. -/
theorem ensures_loopBody {body : Work Recorder υ Unit} (h : Keeps body) :
    Ensures (Work.emitLoopBody body) session fun _ session' => ∃ builder',
      (builder.Grows builder' ∧ builder.Leaves builder' 0) ∧
        Draft held start unit outer slot builder' session' := by
  refine (draft.ensures_runRegion h _ (by decide)).bind ?_
  rintro produced session₁ ⟨repeated, grows, leaves, draft₁⟩
  refine (draft₁.ensures_emitTimes_pop _ _).mono ?_
  rintro _ session₂ ⟨builder', drops, draft₂⟩
  exact ⟨builder', ⟨grows.trans drops.grows, leaves.leaves_none drops⟩, draft₂⟩

/-- The parts of a loop. -/
theorem ensures_loop {condition body : Work Recorder υ Unit} (h₁ : Keeps condition)
    (h₂ : Keeps body) (checkFirst : Bool) :
    Ensures (Work.emitLoop condition body checkFirst) session fun _ session' => ∃ builder',
      builder.Grows builder' ∧ Draft held start unit outer slot builder' session' := by
  refine draft.ensures_nested fun {session} draft => ?_
  refine draft.ensures_target.bind ?_
  rintro _ _ ⟨rfl, rfl⟩
  refine Ensures.ite (fun _ => ?_) fun _ => ?_
  · refine (draft.ensures_condition h₁).bind ?_
    rintro _ session₁ ⟨tested, ⟨grows₁, leaves₁⟩, draft₁⟩
    refine (draft₁.ensures_emitJump _ _).bind ?_
    rintro toEnd session₂ ⟨entered, test, draft₂⟩
    refine (draft₂.ensures_loopBody h₂).bind ?_
    rintro _ session₃ ⟨repeated, ⟨grows₃, leaves₃⟩, draft₃⟩
    refine (draft₃.ensures_emitJumpBack _ _ _).bind ?_
    rintro _ session₄ ⟨back, jump, draft₄⟩
    refine (draft₄.ensures_patchHere toEnd).mono fun _ session₅ draft₅ => ⟨_, ?_, draft₅⟩
    exact .loopFirst grows₁ leaves₁ test grows₃ leaves₃ jump
  · refine (draft.ensures_loopBody h₂).bind ?_
    rintro _ session₁ ⟨repeated, ⟨grows₁, leaves₁⟩, draft₁⟩
    refine (draft₁.ensures_condition h₁).bind ?_
    rintro _ session₂ ⟨tested, ⟨grows₂, leaves₂⟩, draft₂⟩
    refine (draft₂.ensures_emitJumpBack _ _ _).mono ?_
    rintro _ session₃ ⟨back, jump, draft₃⟩
    exact ⟨back, .loopLast grows₁ leaves₁ grows₂ leaves₂ jump, draft₃⟩

/-- The elements of an aggregate. -/
theorem ensures_elements {element : Nat → Work Recorder υ Unit} (h : ∀ index, Keeps (element index))
    (first count : Nat) :
    Ensures (Work.forEachIndex (fun index => do
      let _ ← Work.runRegion (Work.arrayOperation ++ " element") .one (element index)) first count)
      session fun _ session' => ∃ builder', builder.Grows builder' ∧
        Draft held start unit outer slot builder' session' := by
  induction count generalizing first builder session with
  | zero => exact Ensures.pure ⟨builder, .refl _, draft⟩
  | succ count ih =>
      have produced : Ensures (do
          let _ ← Work.runRegion (Work.arrayOperation ++ " element") .one (element first) :
          Work Recorder υ Unit) session fun _ session' => ∃ builder', builder.Grows builder' ∧
            Draft held start unit outer slot builder' session' := by
        refine (draft.ensures_runRegion (h first) _ (by decide)).bind ?_
        rintro _ session₁ ⟨builder₁, grows₁, -, draft₁⟩
        exact Ensures.pure ⟨builder₁, grows₁, draft₁⟩
      refine produced.bind ?_
      rintro _ session₁ ⟨builder₁, grows₁, draft₁⟩
      refine (ih draft₁ (first + 1)).mono ?_
      rintro _ session₂ ⟨builder₂, grows₂, draft₂⟩
      exact ⟨builder₂, grows₁.trans grows₂, draft₂⟩

theorem ensures_array (count : Nat) {element : Nat → Work Recorder υ Unit}
    (h : ∀ index, Keeps (element index)) :
    Ensures (Work.emitArray count element) session fun _ session' => ∃ builder',
      builder.Grows builder' ∧ Draft held start unit outer slot builder' session' := by
  refine draft.ensures_nested fun {session} draft => ?_
  refine (draft.ensures_elements h 0 count).bind ?_
  rintro _ session₁ ⟨builder₁, grows₁, draft₁⟩
  refine (draft₁.ensures_emit fun _ ref => by cases ref).mono ?_
  rintro _ session₂ ⟨builder₂, run, draft₂⟩
  exact ⟨builder₂, grows₁.trans (.emit run rfl rfl), draft₂⟩

/-- An operation that control goes past and that refers to a slot of the table, if any. -/
theorem bench_grows {operation : String} {op : Op} (falls : op.falls = true)
    (straight : op.jumpOffset? = none)
    (inside : ∀ target, op.codeRef? = some target →
      target.toNat < session.bench.program.code.size) :
    Ensures (Bench.emit operation op) session.bench fun _ bench' => ∃ builder',
      builder.Grows builder' ∧
        Draft held start unit outer slot builder' { session with bench := bench' } := by
  refine (draft.bench_emit inside).mono ?_
  rintro _ bench' ⟨builder', run, draft'⟩
  exact ⟨builder', .emit run falls straight, draft'⟩

theorem bench_emitPooled {operation : String} {constant : Constant} {op : UInt32 → Op}
    (falls : ∀ position, (op position).falls = true)
    (straight : ∀ position, (op position).jumpOffset? = none)
    (inside : ∀ position target, (op position).codeRef? = some target →
      target.toNat < session.bench.program.code.size) :
    Ensures (Bench.emitPooled operation constant op) session.bench fun _ bench' => ∃ builder',
      builder.Grows builder' ∧
        Draft held start unit outer slot builder' { session with bench := bench' } := by
  refine Bench.ensures_target.bind ?_
  rintro _ _ ⟨rfl, -⟩
  refine Bench.ensures_intern.bind ?_
  rintro position _ ⟨constants, -, rfl⟩
  exact (draft.rest constants _).bench_grows (falls position) (straight position) (inside position)

theorem bench_emitLocal {operation : String} {index depth : Nat} {assign : Bool} :
    Ensures (Bench.emitLocal operation index depth assign) session.bench fun _ bench' =>
      ∃ builder', builder.Grows builder' ∧
        Draft held start unit outer slot builder' { session with bench := bench' } := by
  refine Bench.ensures_checkScopeDepth.bind ?_
  rintro _ _ ⟨rfl, -⟩
  obtain ⟨falls, straight, none⟩ : (Bench.localOp index depth assign).falls = true ∧
      (Bench.localOp index depth assign).jumpOffset? = none ∧
      (Bench.localOp index depth assign).codeRef? = none := by
    cases assign <;> simp only [Bench.localOp] <;> split <;> exact ⟨rfl, rfl, rfl⟩
  exact draft.bench_grows falls straight fun _ ref => by rw [none] at ref; cases ref

/-- Every operation without nested code. -/
theorem bench_emitPrimitive (p : Primitive) :
    Ensures (Bench.emitPrimitive p) session.bench fun _ bench' => ∃ builder',
      builder.Grows builder' ∧
        Draft held start unit outer slot builder' { session with bench := bench' } := by
  cases p with
  | consume | retrieveSelf | fixnum | toArray | loadFalse | loadTrue | loadNil | negate =>
      exact draft.bench_grows rfl rfl fun _ ref => by cases ref
  | line line =>
      have entered : Ensures (Bench.setLine line) session.bench fun _ bench' =>
          Draft held start unit outer slot (builder.setLine line)
            { session with bench := bench' } := by
        refine Bench.ensures_target.bind ?_
        rintro _ _ ⟨rfl, -⟩
        refine (Bench.ensures_modifyBuilder draft.found _).mono ?_
        rintro _ _ rfl
        exact draft.setBuilder draft.inside
      refine entered.bind fun _ bench' draft' => Ensures.modifies ?_
      exact ⟨builder.setLine line, .congr rfl rfl, draft'.rest bench'.program.constants (some line)⟩
  | yield hasArgs =>
      refine Ensures.get (Ensures.ite (fun _ => ?_) fun _ => ?_)
      · exact Ensures.stop Ensures.throws
      · refine Bench.ensures_target.bind ?_
        rintro _ _ ⟨rfl, -⟩
        exact draft.bench_grows rfl rfl fun _ ref => by cases ref
  | assignLocal | retrieveLocal => exact draft.bench_emitLocal
  | aliasMethod newName oldName =>
      refine Bench.ensures_target.bind ?_
      rintro _ _ ⟨rfl, -⟩
      refine Bench.ensures_intern.bind ?_
      rintro new _ ⟨constants, -, rfl⟩
      refine Bench.ensures_intern.bind ?_
      rintro old _ ⟨constants', -, rfl⟩
      exact ((draft.rest constants _).rest constants' _).bench_grows rfl rfl
        fun _ ref => by cases ref
  | bignum | string | symbol | retrieveConstant | assignConstant | retrieveIvar | assignIvar
  | assignGlobal | retrieveGlobal =>
      exact draft.bench_emitPooled (fun _ => rfl) (fun _ => rfl) fun _ _ ref => by cases ref

end Draft

/-! ## Units of their own -/

/-- A unit whose body is nested code is closed with the same units around it. -/
theorem onward_recordUnit {kind : UnitKind} {name : String} {arity localCount : Nat}
    {locals : List String} {body : Work Recorder υ Unit} (hbody : Orderly body)
    {session : Session Recorder υ} {held : List Nat} (regular : session.bench.Regular held) :
    Ensures (Work.recordUnit kind name arity localCount locals body) session fun slot session' =>
      Onward held session session' ∧
        session'.bench.units.units = session.bench.units.units ∧
        slot.toNat < session'.bench.program.code.size := by
  refine Ensures.get (Ensures.bind (Work.ensures_runs regular.openUnit) ?_)
  rintro handle _ ⟨opened, ⟨grown₁, regular₁, slot, builder, hopen, -⟩, rfl⟩
  refine Work.ensures_cleaning (Ensures.bind (hbody _ held regular₁) ?_)
  rintro _ recorded onward
  refine Work.ensures_onBench (onward.regular.closeUnit.mono ?_)
  rintro slot' bench' ⟨grown₂, regular₂, inside, unit, line, hclose⟩
  obtain ⟨units, -, -⟩ :=
    UnitStack.units_after_close regular.fresh hopen onward.grown.units hclose
  refine ⟨⟨(grown₁.trans onward.grown).trans grown₂, regular₂, fun closed ended => ?_⟩, units,
    inside⟩
  by_cases before : session.backend.script = .ended
  · rw [← closed before]
    exact units
  · -- a script that ends in the body leaves nothing open
    have empty := onward.closed (fun ended => absurd ended before) ended
    obtain ⟨-, -, -, hunits, -⟩ := UnitStack.close_ok hclose
    rw [empty] at hunits
    cases hunits

theorem onward_recordBlock {scope : StaticScope} {arity : Nat} {body : Work Recorder υ Unit}
    (hbody : Orderly body) {session : Session Recorder υ} {held : List Nat}
    (regular : session.bench.Regular held) :
    Ensures (Work.recordBlock scope arity body) session fun slot session' =>
      Onward held session session' ∧
        session'.bench.units.units = session.bench.units.units ∧
        slot.toNat < session'.bench.program.code.size :=
  Ensures.get (onward_recordUnit hbody regular)

/-- Appending a call. The block, if there is one, was recorded before. -/
theorem onward_emitSend {operation name : String} {shape : Invocation} {block : Option UInt32}
    {session : Session Recorder υ} {held : List Nat} (regular : session.bench.Regular held)
    (inside : ∀ slot, block = some slot → slot.toNat < session.bench.program.code.size) :
    Ensures (Work.onBench (Bench.emitSend operation name shape block)) session
      fun _ session' => Onward held session session' := by
  refine onward_of_draft regular (fun empty => ?_) fun draft => Work.ensures_onBench ?_
  · exact Work.ensures_onBench (ensures_after_target empty)
  · refine Bench.ensures_target.bind ?_
    rintro _ _ ⟨rfl, -⟩
    refine Bench.ensures_intern.bind ?_
    rintro position _ ⟨constants, -, rfl⟩
    exact (draft.rest constants _).bench_grows rfl rfl inside

namespace Orderly

theorem primitive (p : Primitive) :
    Orderly (Work.onBench (Bench.emitPrimitive p) : Work Recorder υ Unit) := by
  intro session held regular
  refine onward_of_draft regular (fun empty => ?_) fun draft => ?_
  · exact Work.ensures_onBench (ensures_primitive_empty empty p)
  · exact Work.ensures_onBench (draft.bench_emitPrimitive p)

theorem emitBranch {onTrue onFalse : Work Recorder υ Unit} (h₁ : Keeps onTrue)
    (h₂ : Keeps onFalse) : Orderly (Work.emitBranch onTrue onFalse) := by
  intro session held regular
  refine onward_of_draft regular (ensures_nested_empty fun session empty => Ensures.get ?_)
    fun draft => draft.ensures_branch h₁ h₂
  exact Ensures.stop (Work.ensures_onBench (ensures_build_empty empty))

theorem emitLogical (connective : Connective) {right : Work Recorder υ Unit} (h : Keeps right) :
    Orderly (Work.emitLogical connective right) := by
  intro session held regular
  refine onward_of_draft regular (ensures_nested_empty fun session empty => ?_)
    fun draft => draft.ensures_logical connective h
  exact Ensures.stop (Work.ensures_onBench (ensures_emit_empty empty))

theorem emitLoop {condition body : Work Recorder υ Unit} (h₁ : Keeps condition) (h₂ : Keeps body)
    (checkFirst : Bool) : Orderly (Work.emitLoop condition body checkFirst) := by
  intro session held regular
  refine onward_of_draft regular (ensures_nested_empty fun session empty => ?_)
    fun draft => draft.ensures_loop h₁ h₂ checkFirst
  exact Ensures.stop (Work.ensures_onBench (ensures_target_empty empty))

theorem emitArray (count : Nat) {element : Nat → Work Recorder υ Unit}
    (h : ∀ index, Keeps (element index)) : Orderly (Work.emitArray count element) := by
  intro session held regular
  refine onward_of_draft regular (ensures_nested_empty fun session empty => ?_)
    fun draft => draft.ensures_array count h
  have elements : Ensures (Work.forEachIndex (fun index => do
      let _ ← Work.runRegion (Work.arrayOperation ++ " element") .one (element index)) 0 count)
      session fun _ session' => session'.bench.units.units = [] := by
    cases count with
    | zero => exact Ensures.pure empty
    | succ count =>
        have produced : Ensures (Work.runRegion (Work.arrayOperation ++ " element") .one
            (element 0)) session fun _ _ => False :=
          Ensures.get (Ensures.stop (Work.ensures_onBench (ensures_target_empty empty)))
        exact Ensures.stop produced.stop
  refine elements.bind fun _ session' empty' => ?_
  exact Work.ensures_onBench (ensures_emit_empty empty')

theorem emitCall {name : String} {shape : Invocation}
    {block : Option (BlockBody (Session Recorder υ))} (h : ∀ b ∈ block, Orderly b.body) :
    Orderly (Work.emitCall name shape block) := by
  intro session held regular
  cases block with
  | none => exact onward_emitSend regular fun _ none => by cases none
  | some b =>
      refine Ensures.bind (Ensures.map (onward_recordBlock (h b rfl) regular) some) ?_
      rintro _ recorded ⟨slot, rfl, onward, -, inside⟩
      refine (onward_emitSend onward.regular fun _ heq => ?_).mono fun _ _ => onward.trans
      cases heq
      exact inside

/-- What an operation does that needs a recording to begin with. -/
theorem afterTarget {rest : Work Recorder υ α} (h : Orderly rest) :
    Orderly (Work.onBench Bench.target >>= fun _ => rest) := by
  intro session held regular
  refine Ensures.bind Work.ensures_target ?_
  rintro builder _ ⟨rfl, -⟩
  exact h _ held regular

theorem closure (scope : StaticScope) (arity : Nat) {body : Work Recorder υ Unit}
    (h : Orderly body) : Orderly (Recorder.closure scope arity body) := by
  refine checked (afterTarget fun session held regular => ?_)
  refine (onward_recordBlock h regular).bind ?_
  rintro slot recorded ⟨onward, -, inside⟩
  refine Ensures.mono ?_ fun _ _ => onward.trans
  refine onward_of_draft onward.regular (fun empty => ?_) fun draft => ?_
  · exact Work.ensures_onBench (ensures_emit_empty empty)
  · refine Work.ensures_onBench (draft.bench_grows rfl rfl fun _ ref => ?_)
    cases ref
    exact inside

theorem defineMethod (name : String) (arity localCount : Nat) {body : Work Recorder υ Unit}
    (h : Orderly body) : Orderly (Recorder.defineMethod name arity localCount body) := by
  refine checked (afterTarget fun session held regular => ?_)
  refine (onward_recordUnit h regular).bind ?_
  rintro slot recorded ⟨onward, -, inside⟩
  refine Ensures.mono ?_ fun _ _ => onward.trans
  refine onward_of_draft onward.regular (fun empty => ?_) fun draft => ?_
  · exact Work.ensures_onBench (ensures_after_target empty)
  · refine Work.ensures_onBench (draft.bench_emitPooled (fun _ => rfl) (fun _ => rfl) ?_)
    rintro _ _ ⟨⟩
    exact inside

theorem beginMethod (name : String) (arity localCount : Nat) :
    Orderly (Recorder.beginMethod name arity localCount : Work Recorder υ UnitHandle) := by
  refine checked fun session held regular => Ensures.bind Work.ensures_target ?_
  rintro builder session ⟨rfl, slot, found⟩
  refine (Work.ensures_runs regular.openUnit).mono ?_
  rintro handle _ ⟨bench', ⟨grown, regular', -⟩, rfl⟩
  exact ⟨grown, regular', fun closed ended => absurd found (not_found (closed ended) _)⟩

theorem closeUnit (handle : UnitHandle) (kind : UnitKind) :
    Orderly (Work.onBench (Bench.closeUnit handle kind) : Work Recorder υ UInt32) := by
  intro session held regular
  refine (Work.ensures_runs regular.closeUnit).mono ?_
  rintro slot _ ⟨bench', ⟨grown, regular', -, unit, line, hclose⟩, rfl⟩
  refine ⟨grown, regular', fun closed ended => ?_⟩
  obtain ⟨-, -, -, hunits, -⟩ := UnitStack.close_ok hclose
  rw [closed ended] at hunits
  cases hunits

theorem endMethod (handle : UnitHandle) :
    Orderly (Recorder.endMethod handle : Work Recorder υ Unit) :=
  checked (bind (closeUnit handle .method) fun _ => pure ())

/-- The script opens only if it has not ended. -/
theorem startScript : Orderly (Recorder.startScript : Work Recorder υ Unit) := by
  have opens : Orderly (do
      setScript (.opened (← Work.onBench (Bench.openUnit .script mainName 0 0 []))) :
      Work Recorder υ Unit) := by
    intro session held regular
    refine (Work.ensures_runs regular.openUnit).bind ?_
    rintro handle _ ⟨bench', ⟨grown, regular', -⟩, rfl⟩
    exact Ensures.modifies ⟨grown, regular', fun _ ended => by cases ended⟩
  refine checked fun session held regular => Ensures.get (Ensures.get ?_)
  exact Ensures.ite (fun _ => Ensures.stop Ensures.throws) fun _ => opens session held regular

/-- The script is the last unit that closes. -/
theorem endScript : Orderly (Recorder.endScript : Work Recorder υ Unit) := by
  refine checked fun session held regular =>
    Ensures.get (Ensures.ite (fun _ => ?_) fun single => ?_)
  · exact Ensures.stop (Ensures.get Ensures.throws)
  refine Ensures.get ?_
  cases hscript : session.backend.script with
  | notStarted | ended => exact Ensures.throws
  | opened handle =>
      simp only
      refine (Ensures.modifies rfl).bind fun _ ended (heq : ended = _) => ?_
      have regular' : ended.bench.Regular held := heq ▸ regular
      refine (Work.ensures_runs regular'.closeUnit).bind ?_
      rintro slot _ ⟨bench', ⟨grown, regular'', -, unit, line, hclose⟩, rfl⟩
      subst heq
      refine Ensures.pure ⟨grown, regular'', fun _ _ => ?_⟩
      obtain ⟨-, -, -, hunits, -⟩ := UnitStack.close_ok hclose
      have one : session.bench.units.units.length ≤ 1 := Nat.le_of_not_lt single
      rw [hunits] at one
      simpa using one

end Orderly

end BlockScript.Recorder
