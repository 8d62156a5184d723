import BlockScript.Proofs.Backend.Nested

/-!
# Failures lead back to the enclosing unit

Nested code that does not close a unit that was open around it may still leave units of its
own open when it breaks off. An operation with nested code discards them, gives their slots
back and leaves the control-flow level, so after its failure the units that are open are those
from before it.

There is one exception. A branch that is carried out at script level counts the open units
only after it has left its control-flow level, so nothing is discarded when the arm that was
taken succeeds with a unit left open.
-/

namespace BlockScript

variable {β υ α γ : Type}

/-- The units that were open still are; more units may be open inside them. -/
def Session.Inside (session session' : Session β υ) : Prop :=
  session.bench.units.ids <:+ session'.bench.units.ids

instance : IsPreorder (Session β υ) Session.Inside where
  refl _ := List.suffix_rfl
  trans _ _ _ h₁ h₂ := h₁.trans h₂

theorem Session.Still.inside {session session' : Session β υ} (h : session.Still session') :
    session.Inside session' := by
  have same : session'.bench.units.ids = session.bench.units.ids := h
  unfold Session.Inside
  exact same ▸ List.suffix_rfl

/-- If no unit was closed and as many are open as before, they are the same. -/
theorem Session.Inside.still {session session' : Session β υ} (h : session.Inside session')
    (size : session'.bench.units.size = session.bench.units.size) : session.Still session' :=
  (h.eq_of_length (by simpa [UnitStack.ids, UnitStack.size] using size.symm)).symm

namespace Bench

theorem abandon_units (bench : Bench) (count : Nat) :
    (bench.abandon count).units = (bench.units.truncate count).2 := by
  unfold abandon
  simp only
  split <;> rfl

/-- Discarding everything that was opened since leads back to the units from before. -/
theorem ids_abandon {bench bench' : Bench} (h : bench.units.ids <:+ bench'.units.ids) :
    (bench'.abandon bench.units.size).units.ids = bench.units.ids := by
  obtain ⟨inner, heq⟩ := h
  have size : bench'.units.size - bench.units.size = inner.length := by
    have length := congrArg List.length heq
    simp only [UnitStack.ids, List.length_append, List.length_map] at length
    simp only [UnitStack.size]
    omega
  rw [abandon_units, UnitStack.truncate, size]
  show (bench'.units.units.drop inner.length).map (·.id) = bench.units.ids
  rw [List.map_drop, ← UnitStack.ids, ← heq, List.drop_left]

end Bench

/-! ## Pieces of an operation -/

/-- A success leaves the same units open, and a failure may leave more. -/
def Settles (action : Work β υ α) : Prop :=
  ∀ session, Ends action session (fun _ => session.Still) fun _ => session.Inside

namespace Settles

theorem of_still {action : Work β υ α} (h : Moves Session.Still action) : Settles action :=
  fun session => (h session).mono (fun _ _ => id) fun _ _ => Session.Still.inside

theorem after {action : Work β υ α} (h : Settles action) {session session' : Session β υ}
    (reached : session.Still session') :
    Ends action session' (fun _ => session.Still) fun _ => session.Inside :=
  (h session').mono (fun _ _ => trans_of Session.Still reached)
    fun _ _ => trans_of Session.Inside reached.inside

theorem bind {first : Work β υ α} {next : α → Work β υ γ} (h₁ : Settles first)
    (h₂ : ∀ value, Settles (next value)) : Settles (first >>= next) :=
  fun session => (h₁ session).bind fun value _ => (h₂ value).after

theorem pure (value : α) : Settles (Pure.pure value : Work β υ α) :=
  .of_still (.pure value)

theorem ite {c : Prop} [Decidable c] {yes no : Work β υ α} (h₁ : c → Settles yes)
    (h₂ : ¬c → Settles no) : Settles (if c then yes else no) :=
  fun session => Ends.ite (fun h => h₁ h session) fun h => h₂ h session

end Settles

namespace Work

theorem still_emitTimes (operation : String) (op : Op) (count : Nat) :
    Moves Session.Still (emitTimes operation op count : Work β υ Unit) := by
  induction count with
  | zero => exact .pure ()
  | succ count ih => exact (moves_onBench (Bench.still.emit operation op)).bind fun _ => ih

/-- Nested code that is followed by a check. -/
theorem ends_part {part : Work β υ Unit} (h : Moves Session.Inside part) (construct : String)
    {next : Work β υ α} {session start : Session β υ} (reached : start.Still session)
    (rest : ∀ session', start.Still session' →
      Ends next session' (fun _ => start.Still) fun _ => start.Inside) :
    Ends (do part; ensureSameUnit construct start.bench.units.size; next) session
      (fun _ => start.Still) fun _ => start.Inside := by
  have inside := (h session).mono (fun _ _ => trans_of Session.Inside reached.inside)
    fun _ _ => trans_of Session.Inside reached.inside
  refine inside.bind fun _ session' inside => ?_
  have checked : Ends (ensureSameUnit construct start.bench.units.size) session'
      (fun _ => start.Still) fun _ => start.Inside :=
    ends_ensureSameUnit (fun size => inside.still size) fun _ => inside
  exact checked.bind fun _ => rest

/-- A region is left however it ends, and what it leaves open when it breaks off is discarded. -/
theorem ends_nested_inside {region : Work β υ α} {session : Session β υ}
    {done : α → Session β υ → Prop}
    (h : Ends region { session with bench := session.bench.enterRegion }
      (fun value session' => done value { session' with bench := session'.bench.exitRegion })
      fun _ => session.Inside) :
    Ends (nested region) session done fun _ => session.Still :=
  ends_nested (refl_of Session.Still session) (h.mono (fun _ _ => id)
    fun _ session' => @Bench.ids_abandon session.bench session'.bench.exitRegion)

theorem still_nested {region : Work β υ α} (h : Settles region) :
    Moves Session.Still (nested region) :=
  fun session => ends_nested_inside (h { session with bench := session.bench.enterRegion })

theorem settles_runRegion {region : Work β υ Unit} (h : Moves Session.Inside region)
    (construct : String) (allowed : DepthTracker.Allowance) :
    Settles (runRegion construct allowed region) := by
  intro session
  have target := Settles.of_still (β := β) (υ := υ) (moves_onBench Bench.Appending.moves_target)
  refine (target session).bind fun before session₁ reached => ?_
  refine ends_part h construct reached fun _ => Settles.after ?_
  refine .bind (.of_still moves_bench) fun bench => .bind target fun after => ?_
  cases delta : after.stack.expectDelta construct before.depth allowed bench.currentLine with
  | error error =>
      simp only [delta]
      exact .of_still (moves_fail error)
  | ok _ =>
      simp only [delta]
      exact .pure _

theorem settles_forEachIndex {action : Nat → Work β υ Unit} (h : ∀ index, Settles (action index))
    (first count : Nat) : Settles (forEachIndex action first count) := by
  induction count generalizing first with
  | zero => exact .pure ()
  | succ count ih => exact (h first).bind fun _ => ih (first + 1)

end Work

/-! ## Emission -/

theorem Control.still_emit {control : Control (Session β υ)}
    (parts : ∀ part, control.Has part → Moves Session.Inside part) :
    Moves Session.Still control.emit := by
  cases control with
  | branch onTrue onFalse =>
      have last (before afterTrue : Nat) (toEnd : JumpPatch) : Settles (do
          let builder ← Work.onBench Bench.target
          let afterFalse := builder.depth
          if afterTrue ≠ afterFalse ∧ builder.stack.strict then
            Work.violate (.unbalancedBranch (afterTrue - before) (afterFalse - before))
          Work.patchHere toEnd : Work β υ Unit) :=
        .bind (.of_still (Work.moves_onBench Bench.Appending.moves_target)) fun _ => .ite
          (fun _ => .bind (.of_still (Work.moves_violate _)) fun _ =>
            .of_still (Work.still_patchHere _))
          fun _ => .of_still (Work.still_patchHere _)
      refine Work.still_nested fun session => Ends.get ?_
      refine (Settles.of_still (Work.still_emitJump _ _) session).bind fun toElse _ reached => ?_
      refine ((Settles.of_still Work.still_depth).after reached).bind fun before _ reached => ?_
      refine Work.ends_part (parts _ (.inl rfl)) _ reached fun _ reached => ?_
      refine ((Settles.of_still Work.still_depth).after reached).bind fun afterTrue _ reached => ?_
      refine ((Settles.of_still (Work.still_emitJump _ _)).after reached).bind
        fun toEnd _ reached => ?_
      refine ((Settles.of_still (Work.still_patchHere _)).after reached).bind fun _ _ reached => ?_
      refine ((Settles.of_still (Work.moves_onBench (Bench.still.modifyBuilder _))).after
        reached).bind fun _ _ reached => ?_
      exact Work.ends_part (parts _ (.inr rfl)) _ reached fun _ =>
        (last before afterTrue toEnd).after
  | logical connective right =>
      exact Work.still_nested <| .bind (.of_still (Work.moves_onBench (Bench.still.emit _ _))) fun _ =>
        .bind (.of_still (Work.still_emitJump _ _)) fun _ =>
        .bind (.of_still (Work.moves_onBench (Bench.still.emit _ _))) fun _ =>
        .bind (Work.settles_runRegion (parts _ rfl) _ _) fun _ => .of_still (Work.still_patchHere _)
  | loop condition body checkFirst =>
      have tests : Settles (Work.emitCondition condition) :=
        .bind (Work.settles_runRegion (parts _ (.inl rfl)) _ _) fun _ => .pure _
      have repeats : Settles (Work.emitLoopBody body) :=
        .bind (Work.settles_runRegion (parts _ (.inr rfl)) _ _) fun _ =>
          .of_still (Work.still_emitTimes _ _ _)
      refine Work.still_nested <| .bind (.of_still (Work.moves_onBench Bench.Appending.moves_target)) fun _ =>
        .ite (fun _ => ?_) fun _ => ?_
      · exact tests.bind fun _ => .bind (.of_still (Work.still_emitJump _ _)) fun _ =>
          repeats.bind fun _ => .bind (.of_still (Work.still_emitJumpBack _ _ _)) fun _ =>
          .of_still (Work.still_patchHere _)
      · exact repeats.bind fun _ => tests.bind fun _ => .of_still (Work.still_emitJumpBack _ _ _)
  | array count element =>
      exact Work.still_nested <| .bind (Work.settles_forEachIndex (fun index =>
        .bind (Work.settles_runRegion (parts _ ⟨index, rfl⟩) _ _) fun _ => .pure _) 0 count)
        fun _ => .of_still (Work.moves_onBench (Bench.still.emit _ _))

/-! ## Units of their own -/

/-- Closing a unit by its own handle leads back to where it was opened, and so does a failure
in doing so, unless the unit is still open. -/
theorem Bench.ends_closeUnit_opened {start bench : Bench} (fresh : start.units.Fresh)
    {kind : UnitKind} {name : String} {payload : Option Recording} {handle : UnitHandle}
    {opened : UnitStack (Option Recording)}
    (hopen : start.units.open kind name payload = .ok (handle, opened))
    (evolves : opened.Evolves Recording.Extends bench.units) :
    Ends (Bench.closeUnit handle kind) bench (fun _ => start.Still)
      fun _ bench' => start.Still bench' ∨ bench' = bench := by
  have back {unit : OpenUnit (Option Recording)} {units : UnitStack (Option Recording)}
      (closed : bench.units.close handle kind bench.currentLine = .ok (unit, units)) :
      units.ids = start.units.ids :=
    congrArg (List.map OpenUnit.id) (UnitStack.units_after_close fresh hopen evolves closed).1
  refine (Bench.ends_closeUnit handle kind).mono ?_ ?_
  · rintro installed bench' ⟨unit, units, slot, builder, code, closed, -, -, -, installs⟩
    cases installs with
    | shared recorded => exact back closed
    | fills inside => exact back closed
  · intro error bench' failed
    cases failed with
    | refused static => exact .inr rfl
    | executed static closed payload => exact .inl (back closed)
    | discarded generated static closed payload => exact .inl (back closed)

namespace Work

theorem ends_recordUnit {body : Work β υ Unit} {executes : Bool}
    (lasts : Moves (Session.Lasts executes) body) (inside : Moves Session.Inside body)
    {kind : UnitKind} (inner : kind ≠ .script) (name : String) (arity localCount : Nat)
    (locals : List String) {session : Session β υ} (proper : session.bench.Proper executes) :
    Ends (recordUnit kind name arity localCount locals body) session (fun _ => session.Still)
      fun _ => session.Still := by
  refine Ends.get ?_
  have opens : Ends (onBench (Bench.openUnit kind name arity localCount locals)) session
      (fun handle session' => session.bench.Lasts executes session'.bench ∧ ∃ payload,
        session.bench.units.open kind name payload = .ok (handle, session'.bench.units))
      fun _ => session.Still := by
    refine ends_onBench (Bench.ends_openUnit.mono ?_ ?_)
    · rintro handle _ ⟨builder, units, room, -, hopen, rfl⟩
      exact ⟨Bench.lasts_openUnit room hopen (absurd · inner), _, hopen⟩
    · rintro error _ ⟨-, rfl | ⟨-, rfl⟩⟩ <;> rfl
  refine opens.bind ?_
  rintro handle session₁ ⟨opened, payload, hopen⟩
  have proper₁ := (opened proper).proper
  have suffix : session.bench.units.ids <:+ session₁.bench.units.ids := by
    rw [UnitStack.ids_open hopen]
    exact List.suffix_cons ..
  refine ends_cleaning ?_
  have records : Ends (do body; onBench (Bench.closeUnit handle kind)) session₁
      (fun _ => session.Still) fun _ => session.Inside := by
    have runs : Ends body session₁
        (fun _ session' => session₁.Lasts executes session' ∧ session₁.Inside session')
        fun _ => session.Inside :=
      Ends.intro (fun _ _ run => ⟨lasts.ok run, inside.ok run⟩)
        fun _ _ run => suffix.trans (inside.error run)
    refine runs.bind ?_
    rintro _ session₂ ⟨lasts, within⟩
    refine ends_onBench ((Bench.ends_closeUnit_opened proper.fresh hopen
      (lasts proper₁).units).mono (fun _ _ => id) ?_)
    rintro _ bench' (still | rfl)
    · exact Session.Still.inside still
    · exact suffix.trans within
  exact records.mono (fun _ _ => id) fun _ session' => @Bench.ids_abandon session.bench session'.bench

theorem ends_recordBlock {body : Work β υ Unit} {executes : Bool}
    (lasts : Moves (Session.Lasts executes) body) (inside : Moves Session.Inside body)
    (scope : StaticScope) (arity : Nat) {session : Session β υ}
    (proper : session.bench.Proper executes) :
    Ends (recordBlock scope arity body) session (fun _ => session.Still) fun _ => session.Still :=
  Ends.get (ends_recordUnit lasts inside (by nofun) _ _ _ _ proper)

theorem ends_recordBlock? {block : Option (BlockBody (Session β υ))} {executes : Bool}
    (lasts : ∀ given, block = some given → Moves (Session.Lasts executes) given.body)
    (inside : ∀ given, block = some given → Moves Session.Inside given.body)
    {session : Session β υ} (proper : session.bench.Proper executes) :
    Ends (recordBlock? block) session (fun _ => session.Still) fun _ => session.Still := by
  cases block with
  | none => exact Ends.pure (refl_of Session.Still session)
  | some given =>
      refine (ends_recordBlock (lasts given rfl) (inside given rfl) _ _ proper).bind ?_
      exact fun _ _ still => Ends.pure still

end Work

/-! ## The immediate backend -/

namespace Interpreter

theorem still_perform (fuel : Nat) (operation : String) (op : Op) :
    Moves Session.Still (perform fuel operation op : Work Interpreter υ Unit) :=
  moves_perform (Work.moves_onBench (Bench.still.emit operation op)) fuel

theorem settles_runRegion {region : Work Interpreter υ Unit} (h : Moves Session.Inside region)
    (construct : String) (allowed : DepthTracker.Allowance) :
    Settles (runRegion construct allowed region) := by
  refine fun session => Ends.get (Ends.get ?_)
  refine Work.ends_part h construct (refl_of Session.Still session) fun _ => Settles.after ?_
  exact .bind (.of_still moves_stack) fun _ => .bind (.of_still Work.moves_bench) fun _ => .ite
    (fun _ => .bind (.of_still (Work.moves_violate _)) fun _ => .pure _) fun _ => .pure _

theorem settles_passes {condition body : Work Interpreter υ Unit}
    (h₁ : Moves Session.Inside condition) (h₂ : Moves Session.Inside body) (fuel : Nat)
    (test : Bool) : Settles (passes condition body fuel test) := by
  induction fuel generalizing test with
  | zero => exact .of_still (.throws _)
  | succ fuel ih =>
      have pass (goOn : Bool) : Settles (do
          if goOn then
            let produced ← runRegion (Work.loopOperation ++ " body") .atMostOne body
            drop Work.loopOperation produced.toNat
            passes condition body fuel true : Work Interpreter υ Unit) :=
        .ite (fun _ => (settles_runRegion h₂ _ _).bind fun _ =>
          .bind (.of_still (moves_drop _ _)) fun _ => ih true) fun _ => .pure ()
      exact .ite (fun _ => (settles_runRegion h₁ _ _).bind fun _ =>
        .bind (.of_still (moves_pop _)) fun _ => pass _) fun _ => pass true

end Interpreter

/-- An operation that is given nested code. -/
def Operation.Driven {σ : Type} : Operation σ α → Prop
  | .invoke _ _ _ | .control _ | .closure _ _ _ | .defineMethod _ _ _ _ => True
  | _ => False

/-- The operation is a branch. -/
def Operation.IsBranch {σ : Type} : Operation σ α → Prop
  | .control (.branch _ _) => True
  | _ => False

/-- How a branch at script level ends whose arm succeeds with units left open. -/
structure Interpreter.Leaks (operation : Operation (Session Interpreter υ) α)
    (session : Session Interpreter υ) (halt : Halt CompileError)
    (session' : Session Interpreter υ) : Prop where
  branch : operation.IsBranch
  executed : session.bench.recording? = none
  reported : halt =
    .failure (session'.bench.violation (.callbackLeakedUnit "perform_boolean_branch"))
  inside : session.Inside session'
  more : session'.bench.units.size ≠ session.bench.units.size

namespace Interpreter

variable {session : Session Interpreter υ}

theorem ends_opened {action : Work Interpreter υ Unit}
    {failed : Halt CompileError → Session Interpreter υ → Prop}
    (still : ∀ halt session', session.Still session' → failed halt session')
    (h : Ends action session (fun _ _ => True) failed) :
    Ends (do ensureOpen; action) session (fun _ _ => True) failed := by
  have opens : Ends ensureOpen session (fun _ session' => session' = session) failed :=
    Ends.get (Ends.ite (fun _ => Work.ends_violate (still _ _ (refl_of Session.Still session)))
      fun _ => Ends.pure rfl)
  refine opens.bind ?_
  rintro _ session rfl
  exact h

/-- An operation is recorded or carried out. -/
theorem ends_either {recorded live : Work Interpreter υ Unit}
    {failed : Halt CompileError → Session Interpreter υ → Prop}
    (still : ∀ halt session', session.Still session' → failed halt session')
    (h₁ : Ends recorded session (fun _ _ => True) failed)
    (h₂ : session.bench.recording? = none →
      Ends live session (fun _ _ => True) failed) :
    Ends (do ensureOpen; if ← recording then recorded else live) session (fun _ _ => True)
      failed := by
  refine ends_opened still (Ends.get (Ends.ite (fun _ => ?_) fun idle => ?_))
  · exact h₁
  · exact h₂ (by simpa using idle)

/-- The arm that is taken may succeed with units left open. -/
theorem ends_arm {onTrue onFalse : Work Interpreter υ Unit}
    (h₁ : Moves Session.Inside onTrue) (h₂ : Moves Session.Inside onFalse)
    (idle : session.bench.recording? = none) : Ends (do
      let condition ← pop "perform_boolean_branch"
      let units := (← Work.bench).units.size
      Work.nested (if condition.isTruthy then onTrue else onFalse)
      Work.ensureSameUnit "perform_boolean_branch" units) session (fun _ _ => True)
      fun halt session' => session.Still session' ∨
        Leaks (.control (.branch onTrue onFalse)) session halt session' := by
  have pops : Ends (pop "perform_boolean_branch") session (fun _ => session.Still) fun halt session' =>
      session.Still session' ∨ Leaks (.control (.branch onTrue onFalse)) session halt session' :=
    (moves_pop _ session).mono (fun _ _ => id) fun _ _ => .inl
  refine pops.bind fun condition session₁ still => Ends.get ?_
  have arm : Moves Session.Inside (if condition.isTruthy then onTrue else onFalse) :=
    .ite (fun _ => h₁) fun _ => h₂
  have nests : Ends (Work.nested (if condition.isTruthy then onTrue else onFalse)) session₁
      (fun _ => session.Inside) fun halt session' => session.Still session' ∨
        Leaks (.control (.branch onTrue onFalse)) session halt session' :=
    (Work.ends_nested_inside (arm { session₁ with bench := session₁.bench.enterRegion })).mono
      (fun _ _ => trans_of Session.Inside still.inside)
      fun _ _ reached => .inl (trans_of Session.Still still reached)
  refine nests.bind fun _ session₂ inside => ?_
  exact Work.ends_ensureSameUnit (fun _ => trivial) fun more =>
    .inr ⟨trivial, idle, rfl, inside, still.size ▸ more⟩

theorem ends_control {control : Control (Session Interpreter υ)}
    (inside : ∀ part, control.Has part → Moves Session.Inside part) (fuel : Nat) :
    Ends (control.issue (contract υ fuel)) session (fun _ _ => True) fun halt session' =>
      session.Still session' ∨ Leaks (.control control) session halt session' := by
  have still {action : Work Interpreter υ Unit} (h : Moves Session.Still action)
      (leaks : Halt CompileError → Session Interpreter υ → Prop) :
      Ends action session (fun _ _ => True) fun halt session' =>
        session.Still session' ∨ leaks halt session' :=
    (h session).mono (fun _ _ _ => trivial) fun _ _ => .inl
  have emits := still (control.still_emit inside)
  cases control with
  | branch onTrue onFalse =>
      exact ends_either (fun _ _ => .inl) (emits _)
        (ends_arm (inside _ (.inl rfl)) (inside _ (.inr rfl)))
  | logical connective right =>
      refine ends_either (fun _ _ => .inl) (emits _)
        fun _ => still (moves_stack.bind fun values => ?_) _
      cases values with
      | nil => exact Work.moves_violate _
      | cons left rest =>
          exact .ite (fun _ => (moves_pop _).bind fun _ => Work.still_nested
            ((settles_runRegion (inside _ rfl) _ _).bind fun _ => .pure _)) fun _ => .pure _
  | loop condition body checkFirst =>
      exact ends_either (fun _ _ => .inl) (emits _) fun _ => still (Work.still_nested
        (settles_passes (inside _ (.inl rfl)) (inside _ (.inr rfl)) fuel checkFirst)) _
  | array count element =>
      exact ends_either (fun _ _ => .inl) (emits _) fun _ => still ((Work.still_nested
        (Work.settles_forEachIndex (fun index =>
          .bind (settles_runRegion (inside _ ⟨index, rfl⟩) _ _) fun _ => .pure _) 0 count)).bind
        fun _ => still_perform _ _ _) _

/-- When an operation with nested code fails, the units that are open are those from before it,
unless it is a branch at script level that only finds out too late. -/
theorem ends_driven {operation : Operation (Session Interpreter υ) α} (driven : operation.Driven)
    (lasts : ∀ part, operation.Has part → Moves (Session.Lasts true) part)
    (inside : ∀ part, operation.Has part → Moves Session.Inside part)
    (proper : session.bench.Proper true) (fuel : Nat) :
    Ends (operation.issue (contract υ fuel)) session (fun _ _ => True) fun halt session' =>
      session.Still session' ∨ Leaks operation session halt session' := by
  have failed (halt : Halt CompileError) (session' : Session Interpreter υ)
      (still : session.Still session') : session.Still session' ∨ Leaks operation session halt session' :=
    .inl still
  have follows {γ : Type} {records : Work Interpreter υ γ} {next : γ → Work Interpreter υ Unit}
      (h : Ends records session (fun _ => session.Still) fun _ => session.Still)
      (rest : ∀ value, Moves Session.Still (next value)) :
      Ends (records >>= next) session (fun _ _ => True) fun _ => session.Still :=
    h.bind fun value _ reached => ((rest value).after reached).weaken fun _ _ _ => trivial
  cases operation with
  | startScript => exact driven.elim
  | endScript => exact driven.elim
  | beginMethod name arity localCount => exact driven.elim
  | endMethod handle => exact driven.elim
  | primitive p => exact driven.elim
  | control inner => exact ends_control inside fuel
  | invoke name shape block =>
      have records := Work.ends_recordBlock? (fun given h => lasts _ ⟨given, h, rfl⟩)
        (fun given h => inside _ ⟨given, h, rfl⟩) proper
      have calls := follows records fun slot =>
        (Work.moves_onBench (Bench.still.appending.intern (.name name))).bind fun position =>
          still_perform fuel Work.callOperation
            (.send position shape.argc.toUInt32 shape.hasReceiver slot)
      have emits := follows records fun slot =>
        Work.moves_onBench (Bench.still.appending.emitSend Work.callOperation name shape slot)
      refine ends_either failed (emits.mono (fun _ _ => id) failed) fun _ => Ends.get ?_
      refine Ends.ite (fun _ => ?_) fun _ => calls.mono (fun _ _ => id) failed
      exact (Work.ends_violate (failed _ _ (refl_of Session.Still session))).halts
  | closure scope arity body =>
      refine ends_opened failed ((follows (Work.ends_recordBlock (lasts _ rfl) (inside _ rfl) _ _
        proper) fun _ => still_perform _ _ _).mono (fun _ _ => id) failed)
  | defineMethod name arity localCount body =>
      refine ends_opened failed ((follows (Work.ends_recordUnit (lasts _ rfl) (inside _ rfl)
        (by nofun) _ _ _ _ proper) fun _ => (Work.moves_onBench (Bench.still.appending.intern _)).bind
          fun _ => still_perform _ _ _).mono (fun _ _ => id) failed)

end Interpreter

/-! ## Failures lead back -/

namespace Bench

/-- The open units, innermost first, without what has been recorded for them. -/
def openUnits (bench : Bench) : List (OpenUnit (Option UInt32)) :=
  bench.units.units.map fun unit =>
    { id := unit.id, kind := unit.kind, name := unit.name, payload := unit.payload.map (·.slot) }

theorem places_of_openUnits (bench : Bench) :
    bench.places = bench.openUnits.map fun unit => (unit.id, unit.payload.map (·.toNat)) := by
  rw [places, openUnits, List.map_map]
  congr 1
  funext unit
  simp [place, Function.comp_def]

theorem openUnits_eq {executes : Bool} {bench bench' : Bench} (proper : bench.Proper executes)
    (later : bench.Later executes bench') (still : bench.Still bench') :
    bench'.openUnits = bench.openUnits := by
  cases hunits : bench.units.units with
  | nil =>
      have none_open : bench'.units.ids = [] := by
        rw [show bench'.units.ids = bench.units.ids from still, UnitStack.ids, hunits]
        rfl
      rw [openUnits, openUnits, hunits, List.map_eq_nil_iff.mp none_open]
  | cons unit outer =>
      have alive : unit.id ∈ bench'.units.ids := by
        rw [show bench'.units.ids = bench.units.ids from still, UnitStack.ids, hunits]
        exact List.mem_cons_self ..
      obtain ⟨⟨id, kind, name, payload⟩, units, rfl, rfl, rfl, extends_⟩ :=
        later.units.level proper.fresh proper.distinct hunits alive still.size
      rw [openUnits, openUnits, hunits, units, List.map_cons, List.map_cons, extends_.slot]

/-- The open units, the level of control flow and the empty slots are those of before. -/
structure Restored (bench bench' : Bench) : Prop where
  openUnits : bench'.openUnits = bench.openUnits
  nesting : bench'.units.nesting = bench.units.nesting
  empty : ∀ (position : Nat) code, bench'.program.code[position]? = some code →
    (code.ops = #[] ↔ position ∈ slots bench.places)

end Bench

namespace Interpreter

/-- Whatever a caller has done with a new session, its bench is in order. -/
theorem ends_client {config : Config} (limit : config.maxPoolEntries ≤ UInt32.size)
    (limits : Limits) (owner fuel : Nat) (own : υ) {manner : Manner Interpreter υ}
    {action : Work Interpreter υ α} (client : Client (contract υ fuel) manner action) :
    Ends action (new config limits owner own)
      (fun _ session => session.bench.Proper true ∧ session.bench.Tabled)
      fun _ session => session.bench.Proper true ∧ session.bench.Tabled := by
  have lasts := client.moves (lasts_contract manner.nests fuel)
    fun _ _ session => refl_of (Bench.Lasts true) session.bench
  refine (lasts (new config limits owner own)).mono ?_ ?_ <;>
  · intro _ session reached
    have later := reached (Bench.proper_new config owner true)
    exact ⟨later.proper, (later.table (Bench.tabled_new limit owner true)).1⟩

/-- When an operation with nested code fails that closes no unit from around it, the units that
are open are those of before, the level of control flow is given back and no slot of a unit that
was discarded is left. The exception is a branch at script level whose arm succeeds with a unit
left open: it fails, but the unit stays open. -/
theorem failure_restores {fuel : Nat} {manner : Manner Interpreter υ}
    {operation : Operation (Session Interpreter υ) α} (driven : operation.Driven)
    (callers : ∀ part, operation.Has part → Client (contract υ fuel) manner part)
    (inside : ∀ part, operation.Has part → Moves Session.Inside part)
    {session session' : Session Interpreter υ} (proper : session.bench.Proper true)
    (tabled : session.bench.Tabled) {halt : Halt CompileError}
    (failed : operation.issue (contract υ fuel) session = .error halt session') :
    session.bench.Restored session'.bench ∨ Leaks operation session halt session' := by
  have preserves (part : Work Interpreter υ Unit) (has : operation.Has part) :
      Moves (Session.Lasts true) part :=
    (callers part has).moves (lasts_contract manner.nests fuel)
      fun _ _ session => refl_of (Bench.Lasts true) session.bench
  have later : session.bench.Later true session'.bench :=
    (lasts_contract (fun _ => True) fuel operation fun part has =>
      ⟨trivial, preserves part has⟩).error failed proper
  refine ((ends_driven driven preserves inside proper fuel).error failed).imp_left fun still => ?_
  have units := Bench.openUnits_eq proper later still
  refine ⟨units, later.nesting, fun position code found => ?_⟩
  rw [(later.table tabled).1.empty position code found, Bench.places_of_openUnits, units,
    ← Bench.places_of_openUnits]

/-- Beginning a method closes nothing. -/
theorem inside_beginMethod (name : String) (arity localCount : Nat) :
    Moves Session.Inside (beginMethod name arity localCount : Work Interpreter υ UnitHandle) := by
  have opens : Moves Session.Inside
      (Work.onBench (Bench.openUnit .method name arity localCount []) :
        Work Interpreter υ UnitHandle) := by
    refine fun session => Work.ends_onBench (Bench.ends_openUnit.mono ?_ ?_)
    · rintro handle _ ⟨builder, units, -, -, hopen, rfl⟩
      rw [Session.Inside, UnitStack.ids_open hopen]
      exact List.suffix_cons ..
    · rintro error _ ⟨-, rfl | ⟨-, rfl⟩⟩ <;> exact List.suffix_rfl
  exact (moves_ensureOpen.mono fun _ _ => Session.Still.inside).bind fun _ => opens

/-- The state after a script was started in a new session. -/
def opened : Session Interpreter Unit :=
  match Operation.startScript.issue (contract Unit 0) (new .strict {} 0 ()) with
  | .ok _ session => session
  | .error _ session => session

/-- A block whose body opens a method and then breaks off. -/
def brokenBlock : Operation (Session Interpreter Unit) Unit :=
  .closure (.ofBlock []) 0 do
    let _ ← (Operation.beginMethod "m" 0 0).issue (contract Unit 0)
    Work.fail (.artifact "broken off")

theorem broken_block_restores : ∃ halt session',
    brokenBlock.issue (contract Unit 0) opened = .error halt session' ∧
      opened.bench.Restored session'.bench := by
  have outcome : (match brokenBlock.issue (contract Unit 0) opened with
      | .ok _ _ => none
      | .error _ session' => some session'.bench.units.size) = some 1 := by decide +kernel
  cases failed : brokenBlock.issue (contract Unit 0) opened with
  | ok value session' => simp [failed] at outcome
  | error halt session' =>
      have callers : ∀ part, brokenBlock.Has part → Client (contract Unit 0) {} part := by
        rintro part rfl
        refine .bind (.issue ?_ ?_) fun _ => .raise trivial <;> exact fun _ has => has.elim
      have inside : ∀ part, brokenBlock.Has part → Moves Session.Inside part := by
        rintro part rfl
        exact (inside_beginMethod "m" 0 0).bind fun _ => .throws _
      have starts : Client (contract Unit 0) {} (Operation.startScript.issue (contract Unit 0)) :=
        .issue (fun _ has => has.elim) fun _ has => has.elim
      have started : Operation.startScript.issue (contract Unit 0) (new .strict {} 0 ()) =
          .ok () opened := rfl
      obtain ⟨proper, tabled⟩ := (ends_client (by decide) {} 0 0 () starts).ok started
      have driven : brokenBlock.Driven := trivial
      rcases failure_restores driven callers inside proper tabled failed with restored | leaks
      · exact ⟨halt, session', rfl, restored⟩
      · exact leaks.branch.elim

/-- The units that are open before and after a branch whose arm begins a method, if it fails. -/
def unitsAroundBranch : Option (List String × List String) :=
  let value : Action Empty := .seq .startScript (.primitive .loadTrue)
  let leaking : Action Empty := .branch (.beginMethod "m" "m" 0 0) .skip
  match value.run (contract Notes 0) Empty.elim (new .strict {} 0 {}) with
  | .error _ _ => none
  | .ok _ session =>
    match leaking.run (contract Notes 0) Empty.elim session with
    | .ok _ _ => none
    | .error _ session' =>
      some (session.bench.units.units.map (·.name), session'.bench.units.units.map (·.name))

/-- The leak is reported, but not mended. -/
theorem branch_leaves_unit_open : unitsAroundBranch = some (["<main>"], ["m", "<main>"]) := by
  decide +kernel

end Interpreter

end BlockScript
