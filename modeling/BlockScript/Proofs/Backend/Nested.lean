import BlockScript.Backend.Recorder
import BlockScript.Proofs.Backend.Composed
import BlockScript.Proofs.Backend.Scripted
import BlockScript.Proofs.Contract.Client

/-!
# Every operation lasts

Whatever its nested code does, and whether it succeeds or fails, an operation of either
backend leaves a bench that lasts: this is `Session.Lasts executes` for each operation, given
that the nested code is no different. It follows for every caller.
-/

/-! ## How the bytecode backend is put together

The bytecode backend records every operation, and after the first failure it refuses them all.
So a property that the steps of recording have, that is kept when computations are put together
and that does not mind the refusals is one of every operation, provided that the operations with
nested code in the same unit have it.
-/

namespace BlockScript.Recorder

variable {υ α : Type}

/-- A property that every step of the backend has, apart from those by which control flow is
recorded and from setting a line. -/
structure Deferred (P : ∀ {α : Type}, Work Recorder υ α → Prop) : Prop extends
    Enclosing (β := Recorder) (υ := υ) P where
  look : P (get : Work Recorder υ (Session Recorder υ))
  target : P (Work.onBench Bench.target : Work Recorder υ Builder)
  primitive : ∀ p : Primitive, (∀ line, p ≠ .line line) →
    P (Work.onBench (Bench.emitPrimitive p) : Work Recorder υ Unit)
  makeClosure : ∀ slot : UInt32, P (Work.onBench
    (Bench.emit Work.closureOperation (.makeClosure slot)) : Work Recorder υ Unit)
  makeMethod : ∀ (name : String) (slot : UInt32), P (Work.onBench
    (Bench.emitNamed Work.defineOperation name fun name => .defineMethod name slot) :
      Work Recorder υ Unit)
  checked : ∀ {α : Type} {operation : Work Recorder υ α}, P operation → P (checked operation)
  startScript : P (startScript : Work Recorder υ Unit)
  setEnded : P (setScript .ended : Work Recorder υ Unit)

namespace Deferred

variable {P : ∀ {α : Type}, Work Recorder υ α → Prop} (steps : Deferred (υ := υ) P)

include steps

theorem endScript : P (endScript : Work Recorder υ Unit) := by
  refine steps.checked (steps.bind steps.bench fun bench => ?_)
  have closes : P (closeScript bench : Work Recorder υ Unit) := by
    refine steps.bind steps.look fun session => ?_
    split
    · exact steps.bind steps.setEnded fun _ =>
        steps.bind (steps.closeUnit _ _) fun _ => steps.pure _
    · exact steps.fail trivial
  exact Sequenced.ite (steps.bind (steps.violate _) fun _ => closes) closes

/-- An operation has the property if its nested code has, and what is recorded of it. -/
theorem issue {operation : Operation (Session Recorder υ) α}
    (parts : ∀ part, operation.Has part → P part)
    (emits : ∀ inner, operation.Controls inner → P inner.emit)
    (marks : ∀ line, operation.Marks line →
      P (Work.onBench (Bench.emitPrimitive (.line line)) : Work Recorder υ Unit)) :
    P (operation.issue (contract υ)) := by
  have targeted {γ : Type} {next : Work Recorder υ γ} (h : P next) :
      P (Recorder.checked do let _ ← Work.onBench Bench.target; next) :=
    steps.checked (steps.bind steps.target fun _ => h)
  cases operation with
  | startScript => exact steps.startScript
  | endScript => exact steps.endScript
  | beginMethod name arity localCount => exact targeted (steps.openUnit (by nofun) _ _ _ _)
  | endMethod handle =>
      exact steps.checked (steps.bind (steps.closeUnit _ _) fun _ => steps.pure _)
  | primitive p =>
      by_cases marked : ∃ line, p = .line line
      · obtain ⟨line, rfl⟩ := marked
        exact steps.checked (marks line rfl)
      · exact steps.checked (steps.primitive p (not_exists.mp marked))
  | invoke name shape block =>
      exact steps.checked (steps.emitCall _ _ fun given h => parts _ ⟨given, h, rfl⟩)
  | control inner =>
      have emitted := emits inner rfl
      cases inner <;> exact steps.checked emitted
  | closure scope arity body =>
      exact targeted (steps.bind (steps.recordBlock scope arity (parts _ rfl)) fun _ =>
        steps.makeClosure _)
  | defineMethod name arity localCount body =>
      exact targeted (steps.bind (steps.recordUnit (by nofun) name arity localCount []
        (parts _ rfl)) fun _ => steps.makeMethod _ _)

end Deferred

section Relations

variable {S : Session Recorder υ → Session Recorder υ → Prop} [IsPreorder (Session Recorder υ) S]
  [Session.IgnoresBackend S]

theorem moves_checked {operation : Work Recorder υ α} (h : Moves S operation) :
    Moves S (checked operation) := by
  refine fun session => ends_checked (fun _ _ => refl_of S session)
    fun _ => (h session).mono (fun _ _ => id) fun halt session' reached => ?_
  cases halt with
  | failure error =>
      exact trans_of S reached (Session.IgnoresBackend.backend session' _)
  | outOfFuel => exact reached

omit [IsPreorder (Session Recorder υ) S] in
theorem moves_setScript (script : ScriptState) :
    Moves S (setScript script : Work Recorder υ Unit) :=
  .modifies fun session => Session.IgnoresBackend.backend session _

theorem moves_startScript (opens : Moves S
    (Work.onBench (Bench.openUnit .script mainName 0 0 []) : Work Recorder υ UnitHandle)) :
    Moves S (startScript : Work Recorder υ Unit) := by
  have opened : Moves S (do
      setScript (.opened (← Work.onBench (Bench.openUnit .script mainName 0 0 []))) :
        Work Recorder υ Unit) := opens.bind fun _ => moves_setScript _
  exact moves_checked (Work.moves_bench.bind fun _ => .get fun _ =>
    .ite (fun _ => (Work.moves_fail _).bind fun _ => opened) fun _ => opened)

end Relations

end BlockScript.Recorder

namespace BlockScript

variable {executes : Bool} {β υ α : Type}

/-- The same units are open. -/
abbrev Session.Still : Session β υ → Session β υ → Prop := Session.Related Bench.Still

namespace Work

/-! ## Emission -/

theorem still_emitJump (operation : String) (kind : JumpKind) :
    Moves Session.Still (emitJump operation kind : Work β υ JumpPatch) :=
  moves_onBench (Bench.still.build fun builder => builder.checked_emitJump _ _)

theorem still_emitJumpBack (operation : String) (kind : JumpKind) (label : Nat) :
    Moves Session.Still (emitJumpBack operation kind label : Work β υ Unit) :=
  moves_onBench (Bench.still.build fun builder => .bind (builder.checked_emit _ _) fun _ => .ok _)

theorem still_patchHere (jump : JumpPatch) :
    Moves Session.Still (patchHere jump : Work β υ Unit) :=
  Moves.sequenced.patchHere (moves_onBench Bench.Appending.moves_target)
    (moves_onBench (Bench.still.modifyBuilder _))

theorem still_depth : Moves Session.Still (depth : Work β υ Nat) :=
  (moves_onBench Bench.Appending.moves_target).bind fun _ => .pure _

theorem ends_target_refused {session : Session β υ} (idle : session.bench.recording? = none) :
    Ends (onBench Bench.target) session (fun _ _ => False) fun _ session' => session' = session :=
  ends_onBench (Bench.ends_target.mono (fun _ _ ⟨_, _, found⟩ => nomatch idle.symm.trans found)
    fun _ _ ⟨_, same⟩ => same ▸ rfl)

/-- Without a recording nothing can be appended. -/
theorem ends_build_refused {session : Session β υ} (idle : session.bench.recording? = none)
    (action : Builder → Except CompileError (α × Builder)) :
    Ends (onBench (Bench.build action)) session (fun _ _ => False)
      fun _ session' => session' = session := by
  have refused : Ends Bench.target session.bench (fun _ _ => False) session.bench.Unmoved :=
    Bench.ends_target.weaken fun _ _ ⟨_, _, found⟩ => nomatch idle.symm.trans found
  have refused : Ends (Bench.build action) session.bench (fun _ _ => False) session.bench.Unmoved :=
    refused.halts
  exact ends_onBench (refused.mono (fun _ _ => id) fun _ _ ⟨_, same⟩ => same ▸ rfl)

/-- A region that cannot begin leaves everything as it was. -/
theorem lasts_nested_refused {region : Work β υ α} {session : Session β υ}
    (refused : ∀ entered : Session β υ, entered.bench.recording? = session.bench.recording? →
      Ends region entered (fun _ _ => False) fun _ session' => session' = entered) :
    Ends (nested region) session (fun _ _ => False) fun _ => session.Lasts executes := by
  refine ends_nested (refl_of (Session.Lasts executes) session)
    ((refused { session with bench := session.bench.enterRegion } rfl).mono (fun _ _ => id) ?_)
  rintro _ _ rfl
  exact trans_of (Bench.Lasts executes) (Bench.Lasts.exitRegion (refl_of (Bench.Lasts executes) _))
    (Bench.lasts_abandon _ _)

end Work

/-- Without a recording an operation cannot begin. -/
theorem Control.lasts_emit_refused {control : Control (Session β υ)} {session : Session β υ}
    (idle : session.bench.recording? = none) :
    Ends control.emit session (fun _ _ => False) fun _ => session.Lasts executes := by
  cases control with
  | branch onTrue onFalse =>
      refine Work.lasts_nested_refused fun entered same => Ends.get ?_
      exact (Work.ends_build_refused (same.trans idle) _).halts
  | logical connective right =>
      refine Work.lasts_nested_refused fun entered same => ?_
      exact (Work.ends_build_refused (same.trans idle) _).halts
  | loop condition body checkFirst =>
      refine Work.lasts_nested_refused fun entered same => ?_
      exact (Work.ends_target_refused (same.trans idle)).halts
  | array count element =>
      refine Work.lasts_nested_refused fun entered same => ?_
      cases count with
      | zero =>
          have nothing : Ends (pure () : Work β υ Unit) entered
              (fun _ session' => session' = entered) fun _ session' => session' = entered := rfl
          refine nothing.bind ?_
          rintro _ _ rfl
          exact Work.ends_build_refused (same.trans idle) _
      | succ count =>
          have first : Ends (Work.runRegion (Work.arrayOperation ++ " element") .one (element 0))
              entered (fun _ _ => False) fun _ session' => session' = entered :=
            Ends.get (Work.ends_target_refused (same.trans idle)).halts
          exact first.halts.halts.halts

theorem Control.lasts_emit {control : Control (Session β υ)}
    (parts : ∀ part, control.Has part → Moves (Session.Lasts executes) part) :
    Moves (Session.Lasts executes) control.emit := by
  intro session
  cases found : session.bench.recording? with
  | none => exact (lasts_emit_refused found).weaken fun _ _ => False.elim
  | some recording =>
      obtain ⟨unit, outer, hunits, payload⟩ := Bench.recording?_eq_some.mp found
      by_cases proper : session.bench.Proper executes
      · have nests (part : Work β υ Unit) (has : control.Has part) :
            part.Nests executes fun _ _ => True := ⟨parts part has, fun _ _ _ => trivial⟩
        refine (ends_emit proper hunits payload nests).mono ?_ fun _ _ breaks _ => breaks.later
        exact fun _ _ ⟨_, _, sketch⟩ _ => sketch.later
      · exact Ends.intro (fun _ _ _ h => absurd h proper) fun _ _ _ h => absurd h proper

namespace Work

/-! ## Units of their own -/

theorem lasts_cleaning {action : Work β υ α} (h : Moves (Session.Lasts executes) action) (count : Nat) :
    Moves (Session.Lasts executes) (action.cleaning (·.abandon count)) :=
  fun session => ends_cleaning ((h session).mono (fun _ _ => id)
    fun _ _ lasts => trans_of (Bench.Lasts executes) lasts (Bench.lasts_abandon _ _))

theorem lasts_enclosing : Enclosing (β := β) (υ := υ)
    (fun {α} (action : Work β υ α) => Moves (Session.Lasts executes) action) where
  toSequenced := Moves.sequenced
  openUnit inner _ _ _ _ := moves_onBench (Bench.moves_openUnit (absurd · inner) _ _ _ _)
  closeUnit handle kind := moves_onBench (Bench.moves_closeUnit handle kind)
  discards count h := lasts_cleaning h count
  emitSend _ _ _ _ := moves_onBench (Bench.lasts_appending.emitSend _ _ _ _)

end Work

/-! ## The bytecode backend -/

namespace Recorder

theorem lasts_deferred : Deferred (υ := υ)
    (fun {α} (action : Work Recorder υ α) => Moves (Session.Lasts false) action) where
  toEnclosing := Work.lasts_enclosing
  look := fun session => refl_of (Session.Lasts false) session
  target := Work.moves_onBench Bench.Appending.moves_target
  primitive p _ := Work.moves_onBench (Bench.moves_emitPrimitive p)
  makeClosure _ := Work.moves_onBench (Bench.moves_emit _ _)
  makeMethod _ _ := Work.moves_onBench (Bench.lasts_appending.emitPooled _ _ (fun _ => rfl) fun _ => rfl)
  checked := moves_checked
  startScript := moves_startScript (Work.moves_onBench (Bench.moves_openUnit (fun _ => rfl) _ _ _ _))
  setEnded := moves_setScript _

theorem lasts_contract (nests : Work Recorder υ Unit → Prop) :
    (contract υ).Keeps nests (Session.Lasts false) :=
  fun operation parts => lasts_deferred.issue (fun part has => (parts part has).2)
    (fun _ controls => Control.lasts_emit fun part has =>
      (parts part (operation.has_of_controls controls has)).2)
    fun line _ => Work.moves_onBench (Bench.moves_emitPrimitive (.line line))

end Recorder

/-! ## The immediate backend -/

namespace Interpreter

section Steps

variable {S : Session Interpreter υ → Session Interpreter υ → Prop}
  {T : Halt CompileError → Session Interpreter υ → Prop}

/-- What is said of failures holds of those of generating code, of those of the running script,
which are reported with the current line, and where the budget is used up. -/
structure Faults (T : Halt CompileError → Session Interpreter υ → Prop) : Prop where
  static : ∀ {error : CompileError} (session : Session Interpreter υ), error.Static →
    T (.failure error) session
  executed : ∀ (error : RuntimeError) (session : Session Interpreter υ),
    T (.failure (.runtime error session.bench.line)) session
  outOfFuel : ∀ session : Session Interpreter υ, T .outOfFuel session

theorem faults_true : Faults fun _ (_ : Session Interpreter υ) => True :=
  ⟨fun _ _ => trivial, fun _ _ => trivial, fun _ => trivial⟩

variable [IsPreorder (Session Interpreter υ) S]

theorem Faults.sequenced (faults : Faults T) : Sequenced (BlockScript.Runs S T) :=
  BlockScript.Runs.sequenced faults.static faults.outOfFuel

theorem moves_ensureOpen : Moves S (ensureOpen : Work Interpreter υ Unit) :=
  Work.moves_bench.bind fun _ => .ite (fun _ => Work.moves_violate _) fun _ => .pure _

theorem moves_recording : Moves S (recording : Work Interpreter υ Bool) :=
  Work.moves_bench.bind fun _ => .pure _

theorem moves_stack : Moves S (stack : Work Interpreter υ (List Value)) :=
  .get fun _ => .pure _

theorem runs_stack (T : Halt CompileError → Session Interpreter υ → Prop) :
    BlockScript.Runs S T (stack : Work Interpreter υ (List Value)) :=
  fun session => refl_of S session

variable [Session.IgnoresBackend S]

theorem runs_pop (faults : Faults T) (operation : String) :
    BlockScript.Runs S T (pop operation : Work Interpreter υ Value) := by
  have steps : Sequenced (BlockScript.Runs S T) := faults.sequenced
  refine steps.bind (runs_stack T) fun values => ?_
  cases values with
  | nil => exact steps.violate _
  | cons value rest =>
      have sets : BlockScript.Runs S T (setStack rest : Work Interpreter υ Unit) :=
        fun session => Session.IgnoresBackend.backend session _
      exact steps.bind sets fun _ => steps.pure value

theorem moves_pop (operation : String) : Moves S (pop operation : Work Interpreter υ Value) :=
  (runs_pop faults_true operation).moves

theorem moves_drop (operation : String) (count : Nat) :
    Moves S (drop operation count : Work Interpreter υ Unit) := by
  induction count with
  | zero => exact .pure ()
  | succ count ih => exact (moves_pop operation).bind fun _ => ih

/-- An operation is recorded or executed. -/
theorem runs_perform (faults : Faults T) {operation : String} {op : Op}
    (emits : BlockScript.Runs S T (Work.onBench (Bench.emit operation op))) (fuel : Nat) :
    BlockScript.Runs S T (perform fuel operation op : Work Interpreter υ Unit) := by
  have steps : Sequenced (BlockScript.Runs S T) := faults.sequenced
  refine steps.bind (steps.bind steps.bench fun _ => .ite (fun _ => steps.violate _)
    fun _ => steps.pure ()) fun _ session => Ends.get (Ends.ite (fun _ => emits session) fun idle => ?_)
  have current : session.bench.currentLine = session.bench.line := by
    rw [Bench.currentLine, Option.not_isSome_iff_eq_none.mp idle]
    rfl
  have executes : Ends (do execute fuel op (← Work.bench).currentLine : Work Interpreter υ Unit)
      session (fun _ => S session) fun halt session' => S session session' ∧ T halt session' := by
    refine Ends.get ?_
    rw [current]
    refine ends_execute (Ends.intro (fun _ _ _ => Session.IgnoresBackend.backend session _)
      fun halt state _ => ⟨Session.IgnoresBackend.backend session _, ?_⟩)
    cases halt with
    | failure error => exact faults.executed error { session with backend := { session.backend with
        top := state.1, world := state.2 } }
    | outOfFuel => exact faults.outOfFuel _
  exact Ends.get (Ends.ite (fun _ => (Work.ends_violate
    ⟨refl_of S session, faults.static session trivial⟩).halts) fun _ => executes)

theorem moves_perform {operation : String} {op : Op}
    (emits : Moves S (Work.onBench (Bench.emit operation op))) (fuel : Nat) :
    Moves S (perform fuel operation op : Work Interpreter υ Unit) :=
  (runs_perform faults_true (.of_moves emits fun _ _ => trivial) fuel).moves

/-- The script is opened as a unit that is not recorded. -/
theorem runs_startScript (faults : Faults T) (opens : ∀ {session : Session Interpreter υ}
      {handle : UnitHandle} {units : UnitStack (Option Recording)},
      session.bench.units.open .script mainName none = .ok (handle, units) →
      S session { session with bench := { session.bench with units } }) :
    BlockScript.Runs S T (startScript : Work Interpreter υ Unit) := by
  have steps : Sequenced (BlockScript.Runs S T) := faults.sequenced
  have opens : BlockScript.Runs S T (do
      let handle ← Work.onBench Bench.openScript
      modify fun session =>
        { session with backend := { session.backend with script := some handle } } :
      Work Interpreter υ Unit) := by
    refine steps.bind (fun session => Work.ends_onBench ?_) fun _ session =>
      Session.IgnoresBackend.backend session _
    unfold Ends Bench.openScript
    cases hopen : session.bench.units.open .script mainName none with
    | error error =>
        exact ⟨refl_of S session, faults.static _ (UnitStack.checked_open _ _ _ _ error hopen)⟩
    | ok result => simpa only [hopen] using opens hopen
  exact .get fun _ => .ite (fun _ => steps.bind (steps.violate _) fun _ => opens) fun _ => opens

theorem moves_startScript (opens : ∀ {session : Session Interpreter υ} {handle : UnitHandle}
      {units : UnitStack (Option Recording)},
      session.bench.units.open .script mainName none = .ok (handle, units) →
      S session { session with bench := { session.bench with units } }) :
    Moves S (startScript : Work Interpreter υ Unit) :=
  (runs_startScript faults_true opens).moves

/-- The value of the script is taken, unless there are too many. This is how the script ends. -/
def takeResult (checks : Bool) (line : Option UInt32) : Work Interpreter υ Unit := do
  let values ← stack
  if 1 < values.length && checks then
    Work.fail (.violation (.unbalancedUnit describeMain values.length) line)
  setStack []
  modify fun session => { session with
    backend := { session.backend with result := some (values.head?.getD .nil) } }

theorem runs_takeResult (faults : Faults T) (checks : Bool) (line : Option UInt32) :
    BlockScript.Runs S T (takeResult checks line : Work Interpreter υ Unit) := by
  have steps : Sequenced (BlockScript.Runs S T) := faults.sequenced
  refine steps.bind (runs_stack T) fun values => ?_
  have sets : BlockScript.Runs S T (do
      setStack []
      modify fun session => { session with
        backend := { session.backend with result := some (values.head?.getD .nil) } } :
      Work Interpreter υ Unit) :=
    .bind (fun session => Session.IgnoresBackend.backend session _) fun _ session =>
      Session.IgnoresBackend.backend session _
  exact .ite (fun _ => steps.bind (steps.fail trivial) fun _ => sets) fun _ => sets

theorem runs_endScript (faults : Faults T) (closes : ∀ {session : Session Interpreter υ}
      {handle : UnitHandle} {line : Option UInt32} {unit : OpenUnit (Option Recording)}
      {units : UnitStack (Option Recording)},
      session.bench.units.close handle .script line = .ok (unit, units) →
      S session { session with bench := { session.bench with units } }) :
    BlockScript.Runs S T (endScript : Work Interpreter υ Unit) := by
  intro session
  have violates (session : Session Interpreter υ) (kind : Violation) :
      S session session ∧ T (.failure (session.bench.violation kind)) session :=
    ⟨refl_of S session, faults.static session trivial⟩
  refine Ends.get (Ends.ite (fun _ => (Work.ends_violate (violates session _)).halts)
    fun _ => Ends.get ?_)
  split
  · exact Work.ends_violate (violates session _)
  · rename_i handle _
    let forgotten : Session Interpreter υ :=
      { session with backend := { session.backend with script := none } }
    have forgets : S session forgotten := Session.IgnoresBackend.backend session _
    refine Ends.changes ?_
    cases closed : session.bench.units.close handle .script session.bench.currentLine with
    | error error =>
        simp only [closed]
        have static := UnitStack.checked_close _ _ _ _ error closed
        exact (Work.ends_fail ⟨forgets, faults.static forgotten static⟩).halts
    | ok result =>
        simp only [closed]
        have ends : S forgotten
            { forgotten with bench := { forgotten.bench with units := result.2 } } := closes closed
        refine Ends.changes ((runs_takeResult (S := S) faults _ _ _).mono ?_ ?_)
        · exact fun _ _ => trans_of S (trans_of S forgets ends)
        · exact fun _ _ taken => ⟨trans_of S (trans_of S forgets ends) taken.1, taken.2⟩

theorem moves_endScript (closes : ∀ {session : Session Interpreter υ} {handle : UnitHandle}
      {line : Option UInt32} {unit : OpenUnit (Option Recording)}
      {units : UnitStack (Option Recording)},
      session.bench.units.close handle .script line = .ok (unit, units) →
      S session { session with bench := { session.bench with units } }) :
    Moves S (endScript : Work Interpreter υ Unit) :=
  (runs_endScript faults_true closes).moves

end Steps

/-- The script unit is executed, so it has no slot to give back. -/
theorem lasts_closeScript {bench : Bench} {handle : UnitHandle} {line : Option UInt32}
    {unit : OpenUnit (Option Recording)} {units : UnitStack (Option Recording)}
    (closed : bench.units.close handle .script line = .ok (unit, units)) :
    bench.Lasts true { bench with units } := by
  obtain ⟨-, -, kind, hunits, heq⟩ := UnitStack.close_ok closed
  rw [heq]
  intro proper
  have executed : unit.payload = none :=
    Option.isNone_iff_eq_none.mp (proper.script unit (hunits ▸ List.mem_cons_self ..) kind)
  exact Bench.lasts_drop [unit] hunits (by simp [Bench.slots, Bench.place, executed]) proper

theorem lasts_immediate (fuel : Nat) : Immediate (υ := υ) fuel
    (fun {α} (action : Work Interpreter υ α) => Moves (Session.Lasts true) action) where
  toEnclosing := Work.lasts_enclosing
  look _ := fun session => refl_of (Session.Lasts true) session
  pop := moves_pop
  collapse _ _ := moves_perform (Work.moves_onBench (Bench.moves_emit _ _)) fuel
  perform _ _ _ _ := moves_perform (Work.moves_onBench (Bench.moves_emit _ _)) fuel
  intern constant := Work.moves_onBench (Bench.lasts_appending.intern constant)
  checkScopeDepth depth := Work.moves_onBench (Bench.lasts_appending.checkScopeDepth depth)
  emitYield _ _ := Work.moves_onBench (Bench.lasts_appending.emitYield _ _)
  nested := Work.lasts_nested
  startScript := moves_startScript Bench.lasts_open
  endScript := moves_endScript lasts_closeScript

theorem lasts_contract (nests : Work Interpreter υ Unit → Prop) (fuel : Nat) :
    (contract υ fuel).Keeps nests (Session.Lasts true) :=
  fun operation parts => (lasts_immediate fuel).issue (fun part has => (parts part has).2)
    (fun _ controls => Control.lasts_emit fun part has =>
      (parts part (operation.has_of_controls controls has)).2)
    fun line _ => (lasts_immediate fuel).mark
      (fun line => Work.moves_onBench (Bench.moves_setLine line))
      (fun line => .modifies fun session =>
        Bench.lasts_rest session.bench.program.constants (some line)) line

end Interpreter

end BlockScript
