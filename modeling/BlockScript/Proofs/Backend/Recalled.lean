import BlockScript.Proofs.Backend.Twice
import BlockScript.Proofs.Contract.Body

/-!
# Bodies that are recorded twice

An operation that refers to a body appends the same code again as long as the code object of the
body is still there: the unit of the body is finished as it was at first, it is recognised, and the
operation refers to the slot of the first one. By induction on the body this holds at any depth of
nested code.
-/

namespace BlockScript

variable {υ α : Type}

/-! ## References -/

namespace Bench

variable {bench bench' middle later : Bench} {slot : UInt32}

/-- The innermost recording has come to refer to the slot, while what is shared is as before. -/
structure Cites (slot : UInt32) (bench bench' : Bench) : Prop where
  recorded : bench'.recorded = bench.recorded
  refers : ∃ recording ∈ bench'.recording?, ∃ op ∈ recording.builder.code.ops, slot ∈ op.codeRef?

theorem Cites.after (h : Cites slot middle bench') (same : middle.recorded = bench.recorded) :
    Cites slot bench bench' :=
  ⟨h.recorded.trans same, h.refers⟩

theorem Survives.of_recorded (h : bench'.Survives later slot)
    (same : bench'.recorded = bench.recorded) : bench.Survives later slot := by
  obtain ⟨code, here, there⟩ := survives_iff.mp h
  refine survives_iff.mpr ⟨code, ?_, there⟩
  unfold shared? at here ⊢
  rwa [← same]

theorem ensures_emit_cites {operation : String} {op : Op} (refers : slot ∈ op.codeRef?) :
    Ensures (emit operation op) bench fun _ bench' => Cites slot bench bench' := by
  refine ensures_emit.mono ?_
  rintro _ _ ⟨own, builder, builder', found, emitted, rfl⟩
  obtain ⟨stack, -, rfl⟩ := Builder.emit_ok emitted
  exact ⟨rfl, _, recording?_setBuilder found _, op, Array.mem_push_self, refers⟩

theorem ensures_intern_cites {constant : Constant} {next : UInt32 → BenchM Unit}
    (h : ∀ position middle,
      Ensures (next position) middle fun _ bench' => Cites slot middle bench') :
    Ensures (intern constant >>= next) bench fun _ bench' => Cites slot bench bench' := by
  refine ensures_intern.bind ?_
  rintro position _ ⟨constants, -, rfl⟩
  exact (h position _).mono fun _ _ cites => cites.after rfl

theorem ensures_emitSend_cites {operation name : String} {shape : Invocation} :
    Ensures (emitSend operation name shape (some slot)) bench fun _ bench' =>
      Cites slot bench bench' := by
  refine ensures_target.bind ?_
  rintro _ _ ⟨rfl, -⟩
  exact ensures_intern_cites fun position middle => ensures_emit_cites rfl

end Bench

/-- Only what happens after the first note matters. -/
theorem Work.journaled_congr {β : Type} {operation other : Work β (Journal β υ) α}
    {session : Session β (Journal β υ)} (name : String)
    (same : ∀ event, operation (session.note event) = other (session.note event)) :
    journaled name operation session = journaled name other session := by
  unfold journaled
  dsimp only
  rw [same]

namespace Interpreter

namespace Rerun

variable {rerun : Rerun}

/-- Wherever both computations succeed in sessions in which the same was recorded, they leave the
open units alone, and both result in the slot of the first one if that survives. -/
structure Recalls (rerun : Rerun) (record : Work Interpreter (Journal Interpreter υ) UInt32) :
    Prop where
  leads : Moves Leads record
  recalls : ∀ {sheet sheet' : Sheet} {builder : Builder} {session again after after' : Watched υ}
    {slot slot' : UInt32}, rerun.Level sheet sheet' builder session again →
    record session = .ok slot after → record again = .ok slot' after' → rerun.Kept after →
    rerun.Copies sheet sheet' builder after.bench after'.bench ∧
      (after.bench.Survives rerun.start slot → slot' = slot)

section Record

variable {body : Work Interpreter (Journal Interpreter υ) Unit}

theorem Recalls.recordUnit (h : rerun.Replays body body) {kind : UnitKind} (inner : kind ≠ .script)
    (name : String) (arity localCount : Nat) (locals : List String) :
    rerun.Recalls (Work.recordUnit kind name arity localCount locals body) where
  leads := leads_enclosing.recordUnit inner name arity localCount locals h.leads
  recalls level run run' kept := by
    obtain ⟨beside, units, units', same⟩ := level.ready.records inner h run run' kept
    exact ⟨level.copies.follow beside units units', fun survives => (same survives).1⟩

/-- A block is named after the unit that it is made in. -/
theorem Recalls.recordBlock (h : rerun.Replays body body) (scope : StaticScope) (arity : Nat) :
    rerun.Recalls (Work.recordBlock scope arity body) where
  leads := leads_enclosing.recordBlock scope arity h.leads
  recalls {_ _ _ session again _ _ _ _} level run run' kept := by
    have named : again.bench.blockName = session.bench.blockName := by
      rw [level.copies.second.blockName, level.copies.first.blockName, level.copies.name]
    change Work.recordUnit .closure again.bench.blockName _ _ _ _ _ = _ at run'
    rw [named] at run'
    exact (recordUnit h (by nofun) _ _ _ _).recalls level run run' kept

end Record

namespace Replays

/-- A body is recorded, and then an operation is appended that refers to it. -/
theorem refers {record : Work Interpreter (Journal Interpreter υ) UInt32}
    {next : UInt32 → Work Interpreter (Journal Interpreter υ) Unit} (h : rerun.Recalls record)
    (h' : ∀ slot, rerun.Replays (next slot) (next slot))
    (cites : ∀ slot (session : Watched υ) (recording : Recording),
      session.bench.recording? = some recording →
      Ensures (next slot) session fun _ after => Bench.Cites slot session.bench after.bench)
    (name : String) : rerun.Replays (Work.journaled name (record >>= next))
      (Work.journaled name (record >>= next)) where
  leads := leads_journaled (h.leads.bind fun slot => (h' slot).leads) name
  leads' := leads_journaled (h.leads.bind fun slot => (h' slot).leads) name
  replays {_ _ _ session again _ _ _ _} level run run' kept := by
    obtain ⟨ended, ran, rfl⟩ := Work.run_of_journaled run
    obtain ⟨ended', ran', rfl⟩ := Work.run_of_journaled run'
    obtain ⟨slot, recorded, records, rest⟩ := run_of_bind ran
    obtain ⟨slot', recorded', records', rest'⟩ := run_of_bind ran'
    have noted := level.note (session.event name session.client.events.length .issued)
      (again.event name again.client.events.length .issued)
    have before := kept.earlier (leads_note ended ..)
    obtain ⟨copies, same⟩ :=
      h.recalls noted records records' (before.earlier ((h' slot).leads.ok rest))
    obtain ⟨shared, recording, found, op, member, refers⟩ :=
      cites slot _ _ copies.first.found _ _ rest
    -- The note that is taken at the end vouches for the slot.
    have survives := kept.survives _ (List.mem_cons_self ..) level.since recording found op member
      slot refers
    obtain rfl := same (survives.of_recorded shared)
    obtain ⟨done, builder, copies⟩ := (h' slot').replays
      (noted.onward (h.leads.ok records) (h.leads.ok records') copies) rest rest' before
    exact ⟨done, builder, copies⟩

/-! ## Operations -/

section Operations

variable (fuel : Nat)

/-- While a unit is recorded, an operation does the same as another computation. -/
theorem issue (operation : Operation (Watched υ) Unit)
    {emitted : Work Interpreter (Journal Interpreter υ) Unit}
    (parts : ∀ part, operation.Has part → Moves Leads part)
    (same : ∀ (session : Watched υ) (recording : Recording),
      session.bench.recording? = some recording →
      operation.issue (contract _ fuel) session = emitted session)
    (h : rerun.Replays (Work.journaled operation.name emitted)
      (Work.journaled operation.name emitted)) :
    rerun.Replays (operation.issue (contract _ fuel).journaled)
      (operation.issue (contract _ fuel).journaled) := by
  rw [Operation.issue_journaled]
  refine congr (leads_journaled (leads_issue fuel operation parts) _)
    (fun session recording found => ?_) h
  exact Work.journaled_congr _ fun event => same _ recording found

theorem issue_primitive (p : Primitive) :
    rerun.Replays ((contract (Journal Interpreter υ) fuel).journaled.primitive p)
      ((contract _ fuel).journaled.primitive p) :=
  issue fuel (.primitive p) nofun
    (fun _ _ found => primitive_of_recording found fuel p) (journaled (emitPrimitive p) _)

theorem issue_control (inner : Control (Watched υ))
    (parts : ∀ part, inner.Has part → rerun.Replays part part) :
    rerun.Replays (inner.issue (contract _ fuel).journaled)
      (inner.issue (contract _ fuel).journaled) := by
  refine issue fuel (.control inner) (fun part has => (parts part has).leads) ?_
    (journaled (Replays.control inner parts) _)
  intro session recording found
  cases inner <;> exact either_of_recording found _ _

theorem perform (operation : String) (op : Op) :
    rerun.Replays (perform fuel operation op : Work Interpreter (Journal Interpreter υ) Unit)
      (perform fuel operation op) :=
  congr (moves_perform (leads_onBench (Bench.reaches_emit _ _)) fuel)
    (fun _ _ found => perform_of_recording found fuel operation op) (emit operation op)

theorem ensures_perform_cites {operation : String} {op : Op} {slot : UInt32}
    (refers : slot ∈ op.codeRef?) {session : Watched υ} {recording : Recording}
    (found : session.bench.recording? = some recording) :
    Ensures (Interpreter.perform fuel operation op) session fun _ after =>
      Bench.Cites slot session.bench after.bench := by
  intro value after run
  rw [perform_of_recording found] at run
  exact Bench.ensures_emit_cites refers _ _ (Work.run_of_onBench run)

variable {body : Work Interpreter (Journal Interpreter υ) Unit}

theorem issue_closure (h : rerun.Replays body body) (scope : StaticScope) (arity : Nat) :
    rerun.Replays ((contract _ fuel).journaled.closure scope arity body)
      ((contract _ fuel).journaled.closure scope arity body) := by
  refine issue fuel (.closure scope arity body) (by rintro _ rfl; exact h.leads) ?_
    (refers (.recordBlock h scope arity)
      (fun slot => perform fuel Work.closureOperation (.makeClosure slot)) ?_ _)
  · intro session recording found
    obtain ⟨unit, outer, units, -⟩ := Bench.recording?_eq_some.mp found
    exact run_bind_ok (ensureOpen_eq units)
  · exact fun slot session recording found => ensures_perform_cites fuel rfl found

theorem issue_defineMethod (h : rerun.Replays body body) (name : String) (arity localCount : Nat) :
    rerun.Replays ((contract _ fuel).journaled.defineMethod name arity localCount body)
      ((contract _ fuel).journaled.defineMethod name arity localCount body) := by
  refine issue fuel (.defineMethod name arity localCount body)
    (by rintro _ rfl; exact h.leads) ?_ (refers
      (.recordUnit h (show UnitKind.method ≠ .script by nofun) name arity localCount [])
      (fun slot => (intern (.name name)).bind fun position =>
        perform fuel Work.defineOperation (.defineMethod position slot)) ?_ _)
  · intro session recording found
    obtain ⟨unit, outer, units, -⟩ := Bench.recording?_eq_some.mp found
    exact run_bind_ok (ensureOpen_eq units)
  · intro slot session recording found value after run
    obtain ⟨position, middle, interned, run⟩ := run_of_bind run
    obtain ⟨constants, -, same⟩ := Bench.ensures_intern _ _ (Work.run_of_onBench interned)
    have still : middle.bench.recording? = some recording := by
      rw [same]
      exact found
    refine (ensures_perform_cites fuel rfl still _ _ run).after ?_
    rw [same]

theorem issue_invoke (name : String) (shape : Invocation) :
    rerun.Replays ((contract (Journal Interpreter υ) fuel).journaled.invoke name shape none)
      ((contract _ fuel).journaled.invoke name shape none) :=
  issue fuel (.invoke name shape none) (by rintro _ ⟨_, none, -⟩; cases none)
    (fun _ _ found => either_of_recording found _ _) (journaled (emitSend _ name shape none) _)

theorem issue_invokeBlock (h : rerun.Replays body body) (name : String) (shape : Invocation)
    (scope : StaticScope) (arity : Nat) :
    rerun.Replays ((contract _ fuel).journaled.invoke name shape (some { scope, arity, body }))
      ((contract _ fuel).journaled.invoke name shape (some { scope, arity, body })) := by
  refine issue fuel (.invoke name shape (some { scope, arity, body }))
    (by rintro _ ⟨_, given, rfl⟩; cases given; exact h.leads) ?_
    (refers (.recordBlock h scope arity)
      (fun slot => emitSend Work.callOperation name shape (some slot)) ?_ _)
  · intro session recording found
    refine (either_of_recording found _ _).trans ?_
    simp only [Work.emitCall, Work.recordBlock?, Option.mapM_some, map_eq_pure_bind, bind_assoc,
      pure_bind]
  · exact fun slot session recording found value after run =>
      Bench.ensures_emitSend_cites _ _ (Work.run_of_onBench run)

/-- A method is begun while a unit is recorded. -/
theorem run_of_beginMethod {session after : Watched υ} {unit : OpenUnit (Option Recording)}
    {outer : List (OpenUnit (Option Recording))} (units : session.bench.units.units = unit :: outer)
    {name : String} {arity localCount : Nat} {handle : UnitHandle}
    (run : (contract _ fuel).journaled.beginMethod name arity localCount session =
      .ok handle after) :
    ∃ issued opened replied, Work.onBench (Bench.openUnit .method name arity localCount [])
      (session.note issued) = .ok handle opened ∧ after = opened.note replied := by
  obtain ⟨opened, opens, rfl⟩ := Work.run_of_journaled run
  obtain ⟨_, _, checked, opens⟩ := run_of_bind opens
  have still (event : Event Interpreter) :
      ensureOpen (session.note event) = .ok () (session.note event) := ensureOpen_eq units
  cases (still _).symm.trans checked
  exact ⟨_, opened, _, opens, rfl⟩

theorem run_of_endMethod {session after : Watched υ} {handle : UnitHandle}
    (run : (contract _ fuel).journaled.endMethod handle session = .ok () after) :
    ∃ issued slot closed replied, Work.onBench (Bench.closeUnit handle .method)
      (session.note issued) = .ok slot closed ∧ after = closed.note replied := by
  obtain ⟨closed, closes, rfl⟩ := Work.run_of_journaled run
  obtain ⟨slot, closed, closes, same⟩ := run_of_bind closes
  cases same
  exact ⟨_, slot, closed, _, closes, rfl⟩

/-- A method is begun and ended. Nothing refers to its code object. -/
theorem run_unit {inner : Body} (h : rerun.Replays (υ := υ) (inner.run (contract _ fuel).journaled)
      (inner.run (contract _ fuel).journaled)) (name : String) (arity localCount : Nat) :
    rerun.Replays (υ := υ) ((Body.unit name arity localCount inner).run (contract _ fuel).journaled)
      ((Body.unit name arity localCount inner).run (contract _ fuel).journaled) := by
  have begins : Moves Leads
      ((contract (Journal Interpreter υ) fuel).journaled.beginMethod name arity localCount) :=
    leads_journaled (leads_issue fuel (.beginMethod name arity localCount) fun _ => False.elim)
      "begin_method"
  have ends (handle : UnitHandle) :
      Moves Leads ((contract (Journal Interpreter υ) fuel).journaled.endMethod handle) :=
    leads_journaled (leads_issue fuel (.endMethod handle) fun _ => False.elim)
      "end_method"
  have leads := begins.bind fun handle => h.leads.bind fun _ => ends handle
  refine ⟨leads, leads, fun level run run' kept => ?_⟩
  obtain ⟨handle, begun, begin, run⟩ := run_of_bind run
  obtain ⟨handle', begun', begin', run'⟩ := run_of_bind run'
  obtain ⟨_, recorded, records, finish⟩ := run_of_bind run
  obtain ⟨_, recorded', records', finish'⟩ := run_of_bind run'
  obtain ⟨issued, opened, replied, opens, rfl⟩ := run_of_beginMethod fuel level.copies.first begin
  obtain ⟨issued', opened', replied', opens', rfl⟩ :=
    run_of_beginMethod fuel level.copies.second begin'
  obtain ⟨sheet, sheet', builder, within, outer, outer', slot⟩ :=
    (level.ready.note issued issued').opens (by nofun) opens opens'
  obtain ⟨-, builder, copies⟩ := h.replays (within.note replied replied') records records'
    (kept.earlier ((ends handle).ok finish))
  have within :=
    (within.note replied replied').onward (h.leads.ok records) (h.leads.ok records') copies
  obtain ⟨_, _, closed, _, closes, rfl⟩ := run_of_endMethod fuel finish
  obtain ⟨_, _, closed', _, closes', rfl⟩ := run_of_endMethod fuel finish'
  have closes := Work.run_of_onBench closes
  have closes' := Work.run_of_onBench closes'
  have late : rerun.start.program.code.size ≤ sheet'.slot.toNat := by
    rw [slot]
    exact level.copies.size
  obtain ⟨beside, units, units', -⟩ := copies.closes within.order.tabled within.order'.tabled
    late closes closes'
  exact ⟨rfl, _, level.copies.follow beside (units.trans outer) (units'.trans outer')⟩

/-! ## Bodies -/

/-- Every body replays, at any depth of nested code. -/
theorem run (body : Body) : rerun.Replays (υ := υ) (body.run (contract _ fuel).journaled)
    (body.run (contract _ fuel).journaled) := by
  induction body with
  | skip => exact pure ()
  | seq first next first_ih next_ih => exact first_ih.bind fun _ => next_ih
  | primitive p => exact issue_primitive fuel p
  | call name shape => exact issue_invoke fuel name shape
  | callBlock name shape scope arity body ih =>
      exact issue_invokeBlock fuel ih name shape scope arity
  | array count element ih =>
      exact issue_control fuel (.array count _) (by rintro _ ⟨index, rfl⟩; exact ih index)
  | branch onTrue onFalse true_ih false_ih =>
      exact issue_control fuel (.branch _ _) (by rintro _ (rfl | rfl); exacts [true_ih, false_ih])
  | logical connective right ih =>
      exact issue_control fuel (.logical connective _) (by rintro _ rfl; exact ih)
  | loop condition body checkFirst condition_ih body_ih =>
      exact issue_control fuel (.loop _ _ checkFirst)
        (by rintro _ (rfl | rfl); exacts [condition_ih, body_ih])
  | closure scope arity body ih => exact issue_closure fuel ih scope arity
  | define name arity localCount body ih => exact issue_defineMethod fuel ih name arity localCount
  | unit name arity localCount body ih => exact run_unit fuel ih name arity localCount

end Operations

end Replays

end Rerun

end Interpreter

end BlockScript
