import BlockScript.Proofs.Backend.Poison
import BlockScript.Proofs.Backend.Rooted
import BlockScript.Proofs.Backend.SameUnit

/-!
# What every step on a bench preserves

Apart from what they do to their own state, the backends change a bench in few ways: something
is recorded, a region is entered or left, a unit is opened, closed or discarded. A relation that
each of these steps preserves is preserved by every operation, whatever its outcome, and so by
every caller. One such relation says that units which are not recorded are scripts.
-/

namespace BlockScript

variable {β υ α : Type}

/-- Every step on a bench preserves the relation. A unit that is not recorded is only opened and
closed for the script of a backend that executes it. -/
structure Bench.Persistent (executes : Bool) (R : Bench → Bench → Prop) : Prop extends
    Bench.Superficial R where
  enterRegion : ∀ bench : Bench, R bench bench.enterRegion
  exitRegion : ∀ bench : Bench, R bench bench.exitRegion
  abandon : ∀ (bench : Bench) (count : Nat), R bench (bench.abandon count)
  openUnit : ∀ {kind : UnitKind}, (kind = .script → executes = false) →
    ∀ (name : String) (arity localCount : Nat) (locals : List String),
      Moves R (Bench.openUnit kind name arity localCount locals)
  closeUnit : ∀ (handle : UnitHandle) (kind : UnitKind), Moves R (Bench.closeUnit handle kind)
  openScript : executes = true → ∀ {bench : Bench} {handle : UnitHandle}
    {units : UnitStack (Option Recording)},
    bench.units.open .script mainName none = .ok (handle, units) → R bench { bench with units }
  closeScript : executes = true → ∀ {bench : Bench} {handle : UnitHandle} {line : Option UInt32}
    {unit : OpenUnit (Option Recording)} {units : UnitStack (Option Recording)},
    bench.units.close handle .script line = .ok (unit, units) → R bench { bench with units }

namespace Bench.Persistent

variable {executes : Bool} {R : Bench → Bench → Prop} [IsPreorder Bench R]
  (kept : Persistent executes R)

include kept

/-! ## Nested code -/

theorem stepwise : Stepwise (β := β) (υ := υ)
    (fun {α} (action : Work β υ α) => Moves (Session.Related R) action) where
  toSequenced := Moves.sequenced
  target := Work.moves_onBench Appending.moves_target
  emit _ _ _ _ := Work.moves_onBench (kept.emit _ _)
  emitJump _ _ := Work.moves_onBench (kept.build fun builder => builder.checked_emitJump _ _)
  emitJumpBack _ _ _ := Work.moves_onBench (kept.build fun builder =>
    .bind (builder.checked_emit _ _) fun _ => .ok _)
  patchHere _ := Moves.sequenced.patchHere (Work.moves_onBench Appending.moves_target)
    (Work.moves_onBench (kept.modifyBuilder _))
  resetTo _ := Work.moves_onBench (kept.modifyBuilder _)

theorem nested {region : Work β υ α} (h : Moves (Session.Related R) region) :
    Moves (Session.Related R) (Work.nested region) := by
  intro session
  have exits {session' : Session β υ} (reached : R session.bench.enterRegion session'.bench) :
      R session.bench session'.bench.exitRegion :=
    trans_of R (trans_of R (kept.enterRegion _) reached) (kept.exitRegion _)
  refine Work.ends_nested (refl_of R session.bench) ((h _).mono (fun _ _ => exits) ?_)
  exact fun _ session' reached => trans_of R (exits reached) (kept.abandon _ _)

theorem emits {control : Control (Session β υ)}
    (parts : ∀ part, control.Has part → Moves (Session.Related R) part) :
    Moves (Session.Related R) control.emit := by
  obtain ⟨region, emits, moves⟩ := kept.stepwise.region control parts
  rw [emits]
  exact kept.nested moves

theorem enclosing : Enclosing (β := β) (υ := υ)
    (fun {α} (action : Work β υ α) => Moves (Session.Related R) action) where
  toSequenced := Moves.sequenced
  openUnit inner _ _ _ _ := Work.moves_onBench (kept.openUnit (absurd · inner) _ _ _ _)
  closeUnit handle kind := Work.moves_onBench (kept.closeUnit handle kind)
  discards _ h := fun session => Work.ends_cleaning ((h session).mono (fun _ _ => id)
    fun _ _ reached => trans_of R reached (kept.abandon _ _))
  emitSend _ _ _ _ := Work.moves_onBench (kept.appending.emitSend _ _ _ _)

end Bench.Persistent

/-! ## The bytecode backend -/

namespace Recorder

variable {R : Bench → Bench → Prop} [IsPreorder Bench R]

theorem persists_deferred (kept : Bench.Persistent false R) : Deferred (υ := υ)
    (fun {α} (action : Work Recorder υ α) => Moves (Session.Related R) action) where
  toEnclosing := kept.enclosing
  look := fun session => refl_of (Session.Related R) session
  target := Work.moves_onBench Bench.Appending.moves_target
  primitive p _ := Work.moves_onBench (kept.emitPrimitive p)
  makeClosure _ := Work.moves_onBench (kept.emit _ _)
  makeMethod _ _ := Work.moves_onBench (kept.appending.emitPooled _ _ (fun _ => rfl) fun _ => rfl)
  checked := moves_checked
  startScript := moves_startScript (Work.moves_onBench (kept.openUnit (fun _ => rfl) _ _ _ _))
  setEnded := moves_setScript _

theorem persists (kept : Bench.Persistent false R) (nests : Work Recorder υ Unit → Prop) :
    (contract υ).Keeps nests (Session.Related R) :=
  fun operation parts => (persists_deferred kept).issue (fun part has => (parts part has).2)
    (fun _ controls => kept.emits fun part has =>
      (parts part (operation.has_of_controls controls has)).2)
    fun line _ => Work.moves_onBench (kept.emitPrimitive (.line line))

end Recorder

/-! ## The immediate backend -/

namespace Interpreter

variable {R : Bench → Bench → Prop} [IsPreorder Bench R] (kept : Bench.Persistent true R)

include kept

theorem persists_immediate (fuel : Nat) : Immediate (υ := υ) fuel
    (fun {α} (action : Work Interpreter υ α) => Moves (Session.Related R) action) where
  toEnclosing := kept.enclosing
  look _ := fun session => refl_of (Session.Related R) session
  pop := moves_pop
  collapse _ _ := moves_perform (Work.moves_onBench (kept.emit _ _)) fuel
  perform _ _ _ _ := moves_perform (Work.moves_onBench (kept.emit _ _)) fuel
  intern constant := Work.moves_onBench (kept.appending.intern constant)
  checkScopeDepth depth := Work.moves_onBench (kept.appending.checkScopeDepth depth)
  emitYield _ _ := Work.moves_onBench (kept.appending.emitYield _ _)
  nested := kept.nested
  startScript := moves_startScript (kept.openScript rfl)
  endScript := moves_endScript (kept.closeScript rfl)

theorem persists (fuel : Nat) (nests : Work Interpreter υ Unit → Prop) :
    (contract υ fuel).Keeps nests (Session.Related R) :=
  fun operation parts => (persists_immediate kept fuel).issue (fun part has => (parts part has).2)
    (fun _ controls => kept.emits fun part has =>
      (parts part (operation.has_of_controls controls has)).2)
    fun line _ => (persists_immediate kept fuel).mark
      (fun line => Work.moves_onBench (kept.setLine line))
      (fun line => .modifies fun session =>
        kept.rest session.bench session.bench.program.constants (some line)) line

end Interpreter

/-! ## Every caller -/

namespace Backend

variable {R : Bench → Bench → Prop} [IsPreorder Bench R] {backend : Backend}

/-- Whatever a caller does, and whether it succeeds or fails, the relation is preserved. -/
theorem persists_client (kept : Bench.Persistent backend.executes R) {manner : Manner backend.State υ}
    {action : Work backend.State υ α} (client : Client (backend.contract υ) manner action) :
    Moves (Session.Related R) action := by
  refine client.moves ?_ fun _ _ session => refl_of R session.bench
  cases backend with
  | recording => exact Recorder.persists kept manner.nests
  | immediate fuel => exact Interpreter.persists kept fuel manner.nests

end Backend

/-! ## Units that are not recorded -/

namespace Bench

variable {executes : Bool} {bench bench' : Bench}

/-- A unit that is not recorded is a script, and the backend executes it. -/
def OnlyScripts (executes : Bool) (bench : Bench) : Prop :=
  ∀ unit ∈ bench.units.units, unit.payload = none → executes = true ∧ unit.kind = .script

/-- No other unit came to be executed. -/
def KeepsScripts (executes : Bool) (bench bench' : Bench) : Prop :=
  bench.OnlyScripts executes → bench'.OnlyScripts executes

instance : IsPreorder Bench (KeepsScripts executes) where
  refl _ := id
  trans _ _ _ h₁ h₂ := h₂ ∘ h₁

theorem KeepsScripts.of_subset (fewer : bench'.units.units ⊆ bench.units.units) :
    bench.KeepsScripts executes bench' :=
  fun scripts unit member => scripts unit (fewer member)

/-- A unit that is opened is recorded, or it is the script. -/
theorem KeepsScripts.of_opened {unit : OpenUnit (Option Recording)}
    (opened : bench'.units.units = unit :: bench.units.units)
    (allowed : unit.payload = none → executes = true ∧ unit.kind = .script) :
    bench.KeepsScripts executes bench' := by
  intro scripts other member
  rw [opened] at member
  rcases List.mem_cons.mp member with rfl | member
  · exact allowed
  · exact scripts other member

theorem keepsScripts (executes : Bool) : Persistent executes (KeepsScripts executes) where
  setBuilder bench builder := by
    cases hunits : bench.units.units with
    | nil => exact .of_subset (UnitStack.mapTop_nil hunits _ ▸ List.Subset.refl _)
    | cons unit outer =>
        intro scripts other member idle
        rw [setBuilder, UnitStack.mapTop_units hunits] at member
        rcases List.mem_cons.mp member with rfl | member
        · refine scripts unit (hunits ▸ List.mem_cons_self ..) ?_
          simpa using idle
        · exact scripts other (hunits ▸ List.mem_cons_of_mem _ member) idle
  rest _ _ _ := id
  enterRegion _ := id
  exitRegion _ := id
  abandon bench count := .of_subset (units_abandon bench count ▸ List.drop_subset _ _)
  openUnit _ _ _ _ _ bench := by
    refine ends_openUnit.mono ?_ ?_
    · rintro handle _ ⟨builder, units, -, -, opened, rfl⟩
      obtain ⟨-, rfl⟩ := UnitStack.open_ok opened
      exact .of_opened rfl nofun
    · rintro error _ ⟨-, rfl | ⟨-, rfl⟩⟩ <;> exact id
  closeUnit handle kind bench := by
    have closes {bench' : Bench} (closed : bench.Closes kind bench') :
        bench.KeepsScripts executes bench' := by
      obtain ⟨unit, hunits, -⟩ := closed
      exact .of_subset (hunits ▸ List.subset_cons_self ..)
    refine (bench.ends_closeUnit_units handle kind).mono (fun _ _ => closes) ?_
    rintro error bench' (rfl | closed)
    · exact id
    · exact closes closed
  openScript executes _ _ _ opened := by
    obtain ⟨-, rfl⟩ := UnitStack.open_ok opened
    exact .of_opened rfl fun _ => ⟨executes, rfl⟩
  closeScript _ _ _ _ _ _ closed := by
    obtain ⟨-, -, -, hunits, -⟩ := UnitStack.close_ok closed
    exact .of_subset (hunits ▸ List.subset_cons_self ..)

end Bench

end BlockScript
