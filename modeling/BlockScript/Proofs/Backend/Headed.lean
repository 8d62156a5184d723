import BlockScript.Proofs.Backend.Balanced
import BlockScript.Proofs.Contract.Layout

/-!
# An open unit keeps its head

The head of a code object, with the number of its arguments, is written when its unit is opened.
What is recorded afterwards goes behind it, whatever a caller does and whether it succeeds or
fails. So a unit that is closed by its own handle is finished into a code object with the head
that it was opened with.
-/

namespace BlockScript

variable {υ α : Type}

/-- The recordings are of code objects with the same head. -/
def Recording.SameHead (before after : Option Recording) : Prop :=
  after.map (·.builder.code.head) = before.map (·.builder.code.head)

theorem Recording.SameHead.refl (recording : Option Recording) :
    Recording.SameHead recording recording := rfl

theorem Recording.SameHead.trans (a b c : Option Recording) (h₁ : Recording.SameHead a b)
    (h₂ : Recording.SameHead b c) : Recording.SameHead a c :=
  Eq.trans h₂ h₁

/-- Where a unit is still open, its payload has come from the one that it was opened with. -/
theorem UnitStack.payload_of_opened {related : α → α → Prop} {stack opened later : UnitStack α}
    (fresh : stack.Fresh) {kind : UnitKind} {name : String} {payload : α} {handle : UnitHandle}
    (hopen : stack.open kind name payload = .ok (handle, opened))
    (evolves : Evolves related opened later) {unit : OpenUnit α} (member : unit ∈ later.units)
    (same : unit.id = handle.id) : related payload unit.payload := by
  obtain ⟨rfl, rfl⟩ := open_ok hopen
  obtain ⟨inner, outer, units⟩ := List.append_of_mem member
  obtain ⟨unit', suffix, id, -, -, kept⟩ := evolves.kept unit outer ⟨inner, units.symm⟩ (by simp [same])
  rcases List.mem_cons.mp (suffix.subset (List.mem_cons_self ..)) with rfl | older
  · exact kept
  · have old := fresh unit' older
    rw [id, same] at old
    exact absurd old (Nat.lt_irrefl _)

/-- What is finished has the head that was recorded. -/
theorem Builder.head_finish {builder : Builder} {code : Code} (run : builder.finish = .ok code) :
    code.head = builder.code.head := by
  obtain ⟨surplus, popped, valued, closed, -, hpopped, hvalued, hclosed, rfl⟩ := finish_ok run
  have pops {count : Nat} {before after : Builder}
      (run : emitTimes "end of unit" .pop count before = .ok after) :
      after.code.head = before.code.head := by
    induction count generalizing before with
    | zero =>
        cases run
        rfl
    | succ count ih =>
        obtain ⟨once, first, rest⟩ := Verifier.bind_ok run
        exact (ih rest).trans (Appends.emit first).head
  have second : valued.code.head = popped.code.head := by
    rcases hvalued with ⟨-, pushed⟩ | ⟨-, rfl⟩
    · exact (Appends.emit pushed).head
    · rfl
  exact (Appends.emit hclosed).head.trans (second.trans (pops hpopped))

namespace Bench

/-- Units that are still open have kept the heads of their code objects. -/
def Heads (bench bench' : Bench) : Prop := bench.units.Evolves Recording.SameHead bench'.units

variable {bench : Bench}

instance : IsPreorder Bench Heads where
  refl _ := .refl Recording.SameHead.refl _
  trans _ _ _ := UnitStack.Evolves.trans Recording.SameHead.trans

/-- Units are closed or discarded, or none at all. -/
theorem heads_fewer {bench' : Bench} (fewer : bench.units.Fewer bench'.units) :
    bench.Heads bench' :=
  fewer.evolves Recording.SameHead.refl

theorem heads_build {action : Builder → Except CompileError (α × Builder)}
    (checked : ∀ builder, Checked (action builder))
    (same : ∀ builder value builder', action builder = .ok (value, builder') →
      builder'.code.head = builder.code.head) : Moves Heads (build action) := by
  refine fun bench => (ends_build checked).mono ?_ fun _ _ => Appending.unmoved
  rintro value _ ⟨slot, builder, builder', found, run, rfl⟩
  obtain ⟨unit, outer, hunits, payload⟩ := recording?_eq_some.mp found
  refine UnitStack.evolves_mapTop Recording.SameHead.refl hunits ?_
  rw [payload]
  exact congrArg some (same builder value builder' run)

theorem heads_emit (operation : String) (op : Op) : Moves Heads (emit operation op) := by
  refine heads_build (fun builder => .bind (builder.checked_emit _ _) fun _ => .ok _) ?_
  intro builder _ builder' run
  obtain ⟨_, emitted, same⟩ := Verifier.bind_ok run
  cases same
  exact (Builder.Appends.emit emitted).head

theorem heads_appending : Appending (fun {α} (action : BenchM α) => Moves Heads action) :=
  .of_moves (fun _ _ => heads_fewer ⟨List.suffix_rfl, rfl, rfl⟩) fun operation op _ _ =>
    heads_emit operation op

theorem heads_modifyBuilder {f : Builder → Builder}
    (same : ∀ builder, (f builder).code.head = builder.code.head) : Moves Heads (modifyBuilder f) := by
  intro bench
  cases found : bench.recording? with
  | some recording =>
      refine (ends_modifyBuilder found f).weaken ?_
      rintro _ _ rfl
      obtain ⟨unit, outer, hunits, payload⟩ := recording?_eq_some.mp found
      refine UnitStack.evolves_mapTop Recording.SameHead.refl hunits ?_
      rw [payload]
      exact congrArg some (same recording.builder)
  | none =>
      unfold Ends
      rw [modifyBuilder_of_none found]
      exact refl_of Heads bench

theorem heads_setLine (line : UInt32) : Moves Heads (setLine line) :=
  Appending.moves_target.bind fun _ => heads_modifyBuilder fun _ => rfl

theorem heads_openUnit (kind : UnitKind) (name : String) (arity localCount : Nat)
    (locals : List String) : Moves Heads (openUnit kind name arity localCount locals) := by
  refine fun bench => ends_openUnit.mono ?_ ?_
  · rintro handle _ ⟨builder, units, -, -, hopen, rfl⟩
    exact UnitStack.evolves_open Recording.SameHead.refl hopen
  · rintro error _ ⟨-, rfl | ⟨-, rfl⟩⟩
    · exact refl_of Heads _
    · exact heads_fewer ⟨List.suffix_rfl, rfl, rfl⟩

theorem heads_closeUnit (handle : UnitHandle) (kind : UnitKind) :
    Moves Heads (closeUnit handle kind) := by
  refine fun bench => (ends_closeUnit handle kind).mono ?_ ?_
  · rintro installed bench' ⟨unit, units, slot, builder, code, closed, -, -, -, installs⟩
    cases installs with
    | shared recorded => exact heads_fewer (.of_close closed)
    | fills inside => exact heads_fewer (.of_close closed)
  · intro error bench' failed
    cases failed with
    | refused static => exact refl_of Heads bench
    | executed static closed payload => exact heads_fewer (.of_close closed)
    | discarded generated static closed payload => exact heads_fewer (.of_close closed)

theorem heads_abandon (bench : Bench) (count : Nat) : bench.Heads (bench.abandon count) := by
  have drops : bench.units.Fewer (bench.units.truncate count).2 := ⟨List.drop_suffix .., rfl, rfl⟩
  unfold abandon
  dsimp only
  split <;> exact heads_fewer drops

theorem heads_emitPrimitive (p : Primitive) : Moves Heads (emitPrimitive p) :=
  heads_appending.emitPrimitive p fun line marked => marked ▸
    (heads_setLine line).bind fun _ => .modifies fun _ => heads_fewer ⟨List.suffix_rfl, rfl, rfl⟩

end Bench

/-! ## Operations -/

namespace Work

variable {β : Type}

theorem heads_nested {region : Work β υ α} (h : Moves (Session.Related Bench.Heads) region) :
    Moves (Session.Related Bench.Heads) (nested region) := by
  intro session
  have entered : session.bench.Heads session.bench.enterRegion :=
    Bench.heads_fewer ⟨List.suffix_rfl, rfl, rfl⟩
  have left (bench : Bench) : bench.Heads bench.exitRegion :=
    Bench.heads_fewer ⟨List.suffix_rfl, rfl, rfl⟩
  refine ends_nested (refl_of (Session.Related Bench.Heads) session)
    ((h { session with bench := session.bench.enterRegion }).mono ?_ ?_)
  · exact fun _ session' reached => trans_of Bench.Heads entered (trans_of Bench.Heads reached (left _))
  · exact fun _ session' reached => trans_of Bench.Heads entered
      (trans_of Bench.Heads reached (trans_of Bench.Heads (left _) (Bench.heads_abandon _ _)))

theorem heads_compositional : Compositional (β := β) (υ := υ)
    (fun {α} (action : Work β υ α) => Moves (Session.Related Bench.Heads) action) where
  toSequenced := Moves.sequenced
  target := moves_onBench Bench.Appending.moves_target
  emit _ _ _ _ := moves_onBench (Bench.heads_emit _ _)
  emitJump _ _ := moves_onBench <| Bench.heads_build (fun builder => builder.checked_emitJump _ _)
    fun _ _ _ run => (Builder.Appends.emit (Builder.emitJump_ok run).2).head
  emitJumpBack _ _ _ := moves_onBench <| Bench.heads_build
    (fun builder => .bind (builder.checked_emit _ _) fun _ => .ok _) fun _ _ _ run => by
      obtain ⟨_, emitted, same⟩ := Verifier.bind_ok run
      cases same
      exact (Builder.Appends.emit emitted).head
  patchHere patch := Moves.sequenced.patchHere (moves_onBench Bench.Appending.moves_target)
    (moves_onBench (Bench.heads_modifyBuilder fun builder => builder.patchHere_eq patch ▸ rfl))
  resetTo _ := moves_onBench (Bench.heads_modifyBuilder fun _ => rfl)
  nested := heads_nested

theorem heads_enclosing : Enclosing (β := β) (υ := υ)
    (fun {α} (action : Work β υ α) => Moves (Session.Related Bench.Heads) action) where
  toSequenced := Moves.sequenced
  openUnit _ _ _ _ _ := moves_onBench (Bench.heads_openUnit _ _ _ _ _)
  closeUnit _ _ := moves_onBench (Bench.heads_closeUnit _ _)
  discards _ h := fun session => ends_cleaning ((h session).mono (fun _ _ => id)
    fun _ _ reached => trans_of Bench.Heads reached (Bench.heads_abandon _ _))
  emitSend _ _ _ _ := moves_onBench (Bench.heads_appending.emitSend _ _ _ _)

end Work

theorem Recorder.heads_contract (nests : Work Recorder υ Unit → Prop) :
    (contract υ).Keeps nests (Session.Related Bench.Heads) := by
  have steps : Deferred (υ := υ)
      (fun {α} (action : Work Recorder υ α) => Moves (Session.Related Bench.Heads) action) :=
    { toEnclosing := Work.heads_enclosing
      look := fun session => refl_of (Session.Related Bench.Heads) session
      target := Work.moves_onBench Bench.Appending.moves_target
      primitive := fun p _ => Work.moves_onBench (Bench.heads_emitPrimitive p)
      makeClosure := fun _ => Work.moves_onBench (Bench.heads_emit _ _)
      makeMethod := fun _ _ => Work.moves_onBench
        (Bench.heads_appending.emitPooled _ _ (fun _ => rfl) fun _ => rfl)
      checked := moves_checked
      startScript := moves_startScript (Work.moves_onBench (Bench.heads_openUnit _ _ _ _ _))
      setEnded := moves_setScript _ }
  exact fun {_} operation parts => steps.issue (fun part has => (parts part has).2)
    (fun inner controls => Work.heads_compositional.control inner fun part has =>
      (parts part (operation.has_of_controls controls has)).2)
    fun line _ => Work.moves_onBench (Bench.heads_emitPrimitive (.line line))

theorem Interpreter.heads_contract (nests : Work Interpreter υ Unit → Prop) (fuel : Nat) :
    (contract υ fuel).Keeps nests (Session.Related Bench.Heads) := by
  have steps : Immediate (υ := υ) fuel
      (fun {α} (action : Work Interpreter υ α) => Moves (Session.Related Bench.Heads) action) :=
    { toEnclosing := Work.heads_enclosing
      look := fun _ => fun session => refl_of (Session.Related Bench.Heads) session
      pop := moves_pop
      collapse := fun _ _ => moves_perform (Work.moves_onBench (Bench.heads_emit _ _)) fuel
      perform := fun _ _ _ _ => moves_perform (Work.moves_onBench (Bench.heads_emit _ _)) fuel
      intern := fun constant => Work.moves_onBench (Bench.heads_appending.intern constant)
      checkScopeDepth := fun depth =>
        Work.moves_onBench (Bench.heads_appending.checkScopeDepth depth)
      emitYield := fun _ _ => Work.moves_onBench (Bench.heads_appending.emitYield _ _)
      nested := Work.heads_nested
      startScript := moves_startScript (UnitStack.evolves_open Recording.SameHead.refl)
      endScript := moves_endScript fun closed => Bench.heads_fewer (.of_close closed) }
  exact fun {_} operation parts => steps.issue (fun part has => (parts part has).2)
    (fun inner controls => Work.heads_compositional.control inner fun part has =>
      (parts part (operation.has_of_controls controls has)).2)
    fun line _ => steps.mark (fun line => Work.moves_onBench (Bench.heads_setLine line))
      (fun _ => .modifies fun _ => Bench.heads_fewer ⟨List.suffix_rfl, rfl, rfl⟩) line

namespace Backend

/-- Whatever a caller does, units that are still open have kept the heads of their code
objects. -/
theorem heads_client {backend : Backend} {manner : Manner backend.State υ}
    {action : Work backend.State υ α} (client : Client (backend.contract υ) manner action) :
    Moves (Session.Related Bench.Heads) action := by
  have operations : (backend.contract υ).Keeps manner.nests (Session.Related Bench.Heads) := by
    cases backend with
    | recording => exact Recorder.heads_contract manner.nests
    | immediate fuel => exact Interpreter.heads_contract manner.nests fuel
  exact client.moves operations fun _ _ session => refl_of Bench.Heads session.bench

end Backend

end BlockScript
