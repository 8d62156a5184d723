import BlockScript.Proofs.Backend.Writes
import BlockScript.Proofs.Contract.Straight

/-!
# Operations of the contract in a unit that is recorded

While a unit is recorded, both backends record every operation, apart from the order in which
constants join the pool and checks are made. So what an operation takes and leaves is the same
on both of them.
-/

namespace BlockScript

/-! ## Steps that record nothing -/

theorem Bench.intern_error {bench bench' : Bench} {constant : Constant} {error : CompileError}
    (run : intern constant bench = .error error bench') :
    ∃ limit, error = .exhausted .constantPool limit := by
  unfold intern Pool.intern at run
  cases found : bench.program.constants.find? constant with
  | some position =>
      simp only [found] at run
      cases run
  | none =>
      simp only [found] at run
      by_cases room : bench.program.constants.size < bench.config.maxPoolEntries
      · simp only [if_pos room] at run
        cases run
      · simp only [if_neg room] at run
        cases run
        exact ⟨_, rfl⟩

/-- A yield that finds its argument is refused only where there is no method around it. -/
theorem Bench.emitYield_eq {bench : Bench} {recording : Recording}
    (found : bench.recording? = some recording) {hasArgs : Bool}
    (enough : hasArgs.toNat ≤ recording.builder.depth) (operation : String) :
    emitYield operation hasArgs bench =
      if bench.units.insideMethod then emit operation (.yield (if hasArgs then 1 else 0)) bench
      else .error (bench.violation .yieldWithoutBlock) bench := by
  change (if !bench.units.insideMethod then throw (bench.violation .yieldWithoutBlock) >>= _
    else target >>= fun builder => _ : BenchM Unit) bench = _
  cases inside : bench.units.insideMethod with
  | false => rfl
  | true =>
      simp only [Bool.not_true, Bool.false_eq_true, if_false, if_true]
      rw [run_bind_ok (target_eq found)]
      cases hasArgs with
      | false => rfl
      | true =>
          have positive : (recording.builder.depth == 0) = false :=
            beq_false_of_ne (Nat.ne_of_gt enough)
          simp only [positive, Bool.and_false, Bool.false_and]
          rfl

section Steps

variable {β υ α γ : Type}

theorem Work.onBench_congr {action action' : BenchM α} {session : Session β υ}
    (same : action session.bench = action' session.bench) :
    (onBench action : Work β υ α) session = onBench action' session := by
  obtain ⟨bench, backend, client⟩ := session
  simp only [onBench, same]

theorem Work.onBench_bind (first : BenchM α) (next : α → BenchM γ) :
    (onBench (first >>= next) : Work β υ γ) = onBench first >>= fun value => onBench (next value) := by
  funext session
  obtain ⟨bench, backend, client⟩ := session
  cases run : first bench with
  | error error bench' =>
      have failed : (onBench first : Work β υ α) ⟨bench, backend, client⟩ =
          .error (.failure error) ⟨bench', backend, client⟩ := by simp only [onBench, run]
      rw [run_bind_error failed]
      simp only [onBench, run_bind_error run]
  | ok value bench' =>
      have done : (onBench first : Work β υ α) ⟨bench, backend, client⟩ =
          .ok value ⟨bench', backend, client⟩ := by simp only [onBench, run]
      rw [run_bind_ok done]
      simp only [onBench, run_bind_ok run]

instance : IsPreorder (Session β υ) Session.Intact where
  refl _ := ⟨rfl, refl_of Bench.Beside _, rfl, rfl⟩
  trans _ _ _ h₁ h₂ := ⟨h₂.units.trans h₁.units, trans_of Bench.Beside h₁.beside h₂.beside,
    h₂.backend.trans h₁.backend, h₂.client.trans h₁.client⟩

/-- A constant joins the pool if there is room. -/
theorem Work.ends_intern (constant : Constant) (session : Session β υ) (executes : Bool) :
    Ends (onBench (Bench.intern constant)) session (fun _ session' => session.Intact session')
      fun halt _ => halt.Permitted executes := by
  refine ends_onBench (Ends.intro (fun position bench' run => ?_) fun error bench' run => ?_)
  · obtain ⟨constants, -, rfl⟩ := Bench.ensures_intern position bench' run
    exact ⟨rfl, ⟨rfl, rfl, rfl, rfl, fun _ => Nat.le_refl _⟩, rfl, rfl⟩
  · obtain ⟨limit, rfl⟩ := Bench.intern_error run
    trivial

/-- A local is within reach, or too far. -/
theorem Work.ends_checkScopeDepth (depth : Nat) (session : Session β υ) (executes : Bool) :
    Ends (onBench (Bench.checkScopeDepth depth)) session
      (fun _ session' => session.Intact session') fun halt _ => halt.Permitted executes := by
  refine ends_onBench (Ends.get (Ends.ite (fun _ => Ends.throws trivial) fun _ => ?_))
  exact Ends.pure (refl_of Session.Intact session)

end Steps

namespace Backend

variable {υ α : Type} {backend : Backend} {taken given count : Nat}

/-- A body that leaves one value, and is short enough for the jumps in it. -/
def Fits (backend : Backend) (body : Work backend.State υ Unit) : Prop :=
  ∃ count, count + 1 < 2 ^ 31 ∧ backend.Writes 0 1 count body

/-- Wherever a unit is recorded, the step changes nothing. -/
structure Spares (backend : Backend) (action : Work backend.State υ α) : Prop where
  ends {session : Session backend.State υ} {recording : Recording} : backend.Prepared session →
    session.bench.recording? = some recording →
    Ends action session (fun _ session' => session.Intact session')
      fun halt _ => halt.Permitted backend.executes

namespace Spares

theorem intern (constant : Constant) :
    backend.Spares (Work.onBench (Bench.intern constant) : Work backend.State υ UInt32) :=
  ⟨fun _ _ => Work.ends_intern constant _ _⟩

theorem checkScopeDepth (depth : Nat) :
    backend.Spares (Work.onBench (Bench.checkScopeDepth depth) : Work backend.State υ Unit) :=
  ⟨fun _ _ => Work.ends_checkScopeDepth depth _ _⟩

theorem target : backend.Spares (Work.onBench Bench.target : Work backend.State υ Builder) := by
  refine ⟨fun {session recording} _ found => Work.ends_onBench ?_⟩
  unfold Ends
  rw [Bench.target_eq found]
  exact refl_of Session.Intact session

theorem recordUnit {body : Work backend.State υ Unit} (fits : backend.Fits body) (kind : UnitKind)
    (name : String) (arity localCount : Nat) (locals : List String) :
    backend.Spares (Work.recordUnit kind name arity localCount locals body) := by
  obtain ⟨count, short, writes⟩ := fits
  exact ⟨fun prepared _ => ends_recordUnit writes short prepared kind name arity localCount locals⟩

theorem recordBlock {body : Work backend.State υ Unit} (fits : backend.Fits body)
    (scope : StaticScope) (arity : Nat) : backend.Spares (Work.recordBlock scope arity body) :=
  ⟨fun prepared found => Ends.get ((recordUnit fits _ _ _ _ _).ends prepared found)⟩

theorem recordBlock? {block : Option (BlockBody (Session backend.State υ))}
    (fits : ∀ given, block = some given → backend.Fits given.body) :
    backend.Spares (Work.recordBlock? block) := by
  cases block with
  | none => exact ⟨fun {session _} _ _ => Ends.pure (refl_of Session.Intact session)⟩
  | some given =>
      exact ⟨fun prepared found => ((recordBlock (fits given rfl) _ _).ends prepared found).bind
        fun _ _ intact => Ends.pure intact⟩

end Spares

namespace Writes

/-- What comes before changes nothing. -/
theorem after {first : Work backend.State υ α} {next : α → Work backend.State υ Unit}
    (h₁ : backend.Spares first) (counts : given ≤ taken + count)
    (h₂ : ∀ value, backend.Writes taken given count (next value)) :
    backend.Writes taken given count (first >>= next) where
  counts := counts
  ends prepared hunits payload enough room := by
    refine (h₁.ends prepared (Bench.recording?_eq_some.mpr ⟨_, _, hunits, payload⟩)).bind ?_
    intro value session' intact
    exact (intact.page hunits payload).ends_part prepared (h₂ value) enough room

/-- What else the computation does while nothing is recorded does not matter. -/
theorem congr {action action' : Work backend.State υ Unit}
    (h : backend.Writes taken given count action')
    (same : ∀ {session : Session backend.State υ} {recording : Recording},
      session.bench.recording? = some recording → action session = action' session) :
    backend.Writes taken given count action where
  counts := h.counts
  ends prepared hunits payload enough room := by
    unfold Ends
    rw [same (Bench.recording?_eq_some.mpr ⟨_, _, hunits, payload⟩)]
    exact h.ends prepared hunits payload enough room

/-! ## Operations as they are recorded -/

section Emitted

variable {operation : String}

theorem emitStraight {op : Op} (h : op.Straight taken given) :
    backend.Writes taken given 1 (Work.onBench (Bench.emit operation op) :
      Work backend.State υ Unit) := by
  rw [← h.pops, ← h.pushes]
  exact emit h.falls h.straight

theorem emitPooled {constant : Constant} {make : UInt32 → Op}
    (h : ∀ position, (make position).Straight taken given) :
    backend.Writes taken given 1 (Work.onBench (Bench.emitPooled operation constant make) :
      Work backend.State υ Unit) := by
  have counts := (h 0).counts
  rw [Bench.emitPooled, Work.onBench_bind]
  refine after .target counts fun _ => ?_
  rw [Work.onBench_bind]
  exact after (.intern constant) counts fun position => emitStraight (h position)

theorem emitAlias (newName oldName : String) :
    backend.Writes 0 0 1 (Work.onBench (Bench.emitAlias operation newName oldName) :
      Work backend.State υ Unit) := by
  rw [Bench.emitAlias, Work.onBench_bind]
  refine after .target (Nat.zero_le _) fun _ => ?_
  rw [Work.onBench_bind]
  refine after (.intern _) (Nat.zero_le _) fun new => ?_
  rw [Work.onBench_bind]
  exact after (.intern _) (Nat.zero_le _) fun old =>
    @emit υ backend operation (.aliasMethod new old) rfl rfl

theorem emitLocal (index depth : Nat) (assign : Bool)
    (h : (Bench.localOp index depth assign).Straight taken given) :
    backend.Writes taken given 1 (Work.onBench (Bench.emitLocal operation index depth assign) :
      Work backend.State υ Unit) := by
  rw [Bench.emitLocal, Work.onBench_bind]
  exact after (.checkScopeDepth depth) h.counts fun _ => emitStraight h

/-- A yield without a method around it is an error of whoever wrote the program. -/
theorem emitYield (hasArgs : Bool) :
    backend.Writes hasArgs.toNat 1 1 (Work.onBench (Bench.emitYield operation hasArgs) :
      Work backend.State υ Unit) where
  counts := by omega
  ends {session unit outer slot builder} prepared hunits payload enough room := by
    have straight : (Op.yield (if hasArgs then 1 else 0)).Straight hasArgs.toNat 1 := by
      cases hasArgs <;> exact ⟨rfl, rfl, rfl, rfl⟩
    have emitted := @emitStraight υ backend _ _ operation _ straight
    have found : session.bench.recording? = some ⟨slot, builder⟩ :=
      Bench.recording?_eq_some.mpr ⟨unit, outer, hunits, payload⟩
    have same := Bench.emitYield_eq found enough operation
    cases inside : session.bench.units.insideMethod with
    | false =>
        rw [inside, if_neg Bool.false_ne_true] at same
        refine Work.ends_onBench ?_
        unfold Ends
        rw [same]
        trivial
    | true =>
        rw [inside, if_pos rfl] at same
        unfold Ends
        rw [Work.onBench_congr same]
        exact emitted.ends prepared hunits payload enough room

theorem setLine (line : UInt32) : backend.Writes 0 0 0 (Work.onBench (do
    Bench.setLine line
    modify fun bench => { bench with line := some line }) : Work backend.State υ Unit) where
  counts := Nat.le_refl _
  ends {session unit outer slot builder} prepared hunits payload _ _ := by
    have page := Page.begin hunits payload
    rw [Bench.setLine, Work.onBench_bind, Work.onBench_bind]
    have sets : Ends (do let _ ← Work.onBench Bench.target
                         Work.onBench (Bench.modifyBuilder (·.setLine line))) session
        (fun _ session' => Page session unit outer slot (builder.setLine line) session')
        fun halt _ => halt.Permitted backend.executes := by
      refine page.ends_target.bind ?_
      rintro _ _ ⟨rfl, rfl⟩
      exact page.ends_modifyBuilder _
    refine sets.bind fun _ session₁ page₁ => Work.ends_onBench (Ends.modifies ?_)
    exact ⟨builder.setLine line, ⟨rfl, rfl, .congr rfl rfl⟩,
      page₁.added rfl ⟨rfl, rfl, rfl, rfl, fun _ => Nat.le_refl _⟩⟩

end Emitted

theorem emitPrimitive (p : Primitive) :
    backend.Writes p.taken p.given p.count (Work.onBench (Bench.emitPrimitive p) :
      Work backend.State υ Unit) := by
  have acts := p.acts_form
  unfold Bench.emitPrimitive
  cases form : p.form with
  | op single =>
      obtain ⟨count, straight⟩ : _ ∧ _ := form ▸ acts
      exact (emitStraight straight).cast rfl count.symm
  | pooled constant make =>
      obtain ⟨count, straight⟩ : _ ∧ _ := form ▸ acts
      exact (emitPooled straight).cast rfl count.symm
  | access index depth assign =>
      obtain ⟨count, straight⟩ : _ ∧ _ := form ▸ acts
      exact (emitLocal index depth assign straight).cast rfl count.symm
  | aliasMethod newName oldName =>
      obtain ⟨count, taken, given⟩ : _ ∧ _ ∧ _ := form ▸ acts
      rw [count, taken, given]
      exact emitAlias newName oldName
  | yield hasArgs =>
      obtain ⟨count, taken, given⟩ : _ ∧ _ ∧ _ := form ▸ acts
      rw [count, taken, given]
      exact emitYield hasArgs
  | line line =>
      obtain ⟨count, taken, given⟩ : _ ∧ _ ∧ _ := form ▸ acts
      rw [count, taken, given]
      exact setLine line

/-- A call takes its arguments, and its receiver if it has one. -/
theorem emitSend {shape : Invocation} (few : shape.argc < 2 ^ 31) (operation name : String)
    (block : Option UInt32) : backend.Writes shape.consumed 1 1
      (Work.onBench (Bench.emitSend operation name shape block) : Work backend.State υ Unit) := by
  have counts : 1 ≤ shape.consumed + 1 := Nat.le_add_left 1 _
  rw [Bench.emitSend, Work.onBench_bind]
  refine after .target counts fun _ => ?_
  rw [Work.onBench_bind]
  exact after (.intern _) counts fun position => emitStraight (shape.straight_send few position block)

/-- The block of a call is recorded before it. -/
theorem emitCall {shape : Invocation} (few : shape.argc < 2 ^ 31) (name : String)
    {block : Option (BlockBody (Session backend.State υ))}
    (fits : ∀ given, block = some given → backend.Fits given.body) :
    backend.Writes shape.consumed 1 1 (Work.emitCall name shape block) :=
  after (.recordBlock? fits) (Nat.le_add_left 1 _) fun slot => emitSend few _ name slot

end Writes

end Backend

/-! ## Operations as they are offered -/

section Offered

variable {υ : Type} {taken given count fuel : Nat}

/-- Nothing has failed, so the operation is not refused. -/
theorem Recorder.writes_checked {operation : Work Recorder υ Unit}
    (h : Backend.recording.Writes taken given count operation) :
    Backend.recording.Writes taken given count (checked operation) where
  counts := h.counts
  ends prepared hunits payload enough room := by
    refine ends_checked (fun error poisoned => ?_) fun _ =>
      (h.ends prepared hunits payload enough room).mono (fun _ _ => id) ?_
    · cases poisoned.symm.trans prepared.unpoisoned
    · rintro (error | _) session' permitted <;> exact permitted

namespace Interpreter

theorem spares_ensureOpen :
    (Backend.immediate fuel).Spares (ensureOpen : Work Interpreter υ Unit) := by
  refine ⟨fun {session recording} _ found => ?_⟩
  obtain ⟨unit, outer, hunits, -⟩ := Bench.recording?_eq_some.mp found
  unfold Ends
  rw [ensureOpen_eq hunits]
  exact refl_of Session.Intact session

theorem writes_congr {action action' : Work Interpreter υ Unit}
    (h : (Backend.immediate fuel).Writes taken given count action')
    (same : ∀ {session : Session Interpreter υ} {unit : OpenUnit (Option Recording)}
      {outer : List (OpenUnit (Option Recording))} {recording : Recording},
      session.bench.units.units = unit :: outer → session.bench.recording? = some recording →
      action session = action' session) :
    (Backend.immediate fuel).Writes taken given count action := by
  refine h.congr fun {session recording} found => ?_
  obtain ⟨unit, outer, hunits, -⟩ := Bench.recording?_eq_some.mp found
  exact same hunits found

theorem writes_either {recorded live : Work Interpreter υ Unit}
    (h : (Backend.immediate fuel).Writes taken given count recorded) :
    (Backend.immediate fuel).Writes taken given count
      (do ensureOpen; if ← recording then recorded else live) :=
  writes_congr h fun _ found => either_of_recording found recorded live

theorem writes_perform {operation : String} {op : Op} (h : op.Straight taken given) :
    (Backend.immediate fuel).Writes taken given 1
      (perform fuel operation op : Work Interpreter υ Unit) :=
  writes_either (.emitStraight h)

theorem writes_primitive (p : Primitive) :
    (Backend.immediate fuel).Writes p.taken p.given p.count
      (primitive fuel p : Work Interpreter υ Unit) := by
  have acts := p.acts_form
  unfold primitive
  cases form : p.form with
  | op single =>
      obtain ⟨count, straight⟩ : _ ∧ _ := form ▸ acts
      exact (writes_perform straight).cast rfl count.symm
  | pooled constant make =>
      obtain ⟨count, straight⟩ : _ ∧ _ := form ▸ acts
      have pooled : (Backend.immediate fuel).Writes p.taken p.given 1 (do
          perform fuel p.operation (make (← Work.onBench (Bench.intern constant))) :
            Work Interpreter υ Unit) :=
        .after (.intern constant) (straight 0).counts
          fun position => writes_perform (straight position)
      rw [count]
      dsimp only
      split
      · refine writes_congr pooled fun {session _ _ _} hunits found => ?_
        rw [run_bind_ok (ensureOpen_eq hunits), run_bind_ok (recording_eq session), found]
        rfl
      · exact pooled
  | access index depth assign =>
      obtain ⟨count, straight⟩ : _ ∧ _ := form ▸ acts
      rw [count]
      exact .after (.checkScopeDepth depth) straight.counts fun _ => writes_perform straight
  | aliasMethod newName oldName =>
      obtain ⟨count, taken, given⟩ : _ ∧ _ ∧ _ := form ▸ acts
      rw [count, taken, given]
      exact .after (.intern _) (Nat.zero_le _) fun new => .after (.intern _) (Nat.zero_le _)
        fun old => writes_perform ⟨rfl, rfl, rfl, rfl⟩
  | yield hasArgs =>
      obtain ⟨count, taken, given⟩ : _ ∧ _ ∧ _ := form ▸ acts
      rw [count, taken, given]
      exact .after spares_ensureOpen (Nat.le_add_left 1 _) fun _ => .emitYield hasArgs
  | line line =>
      obtain ⟨count, taken, given⟩ : _ ∧ _ ∧ _ := form ▸ acts
      rw [count, taken, given]
      dsimp only
      refine writes_congr (.setLine line) fun {session _ _ _} hunits found => ?_
      rw [run_bind_ok (ensureOpen_eq hunits), run_bind_ok (recording_eq session), found,
        Work.onBench_bind]
      rfl

end Interpreter

end Offered

end BlockScript
