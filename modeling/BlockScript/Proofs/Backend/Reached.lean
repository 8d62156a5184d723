import Mathlib.Logic.Relation
import BlockScript.Proofs.Artifact.Index
import BlockScript.Proofs.Backend.Grounded
import BlockScript.Proofs.Backend.Persistent
import BlockScript.Proofs.Contract.Journal

/-!
# What a bench becomes

A backend that executes the script changes its bench in few ways, and `Bench.Step` lists them.
A bench that is reached from another one by such steps has the same configuration, it is in
order if the other one was, and a constant that was in the pool is found at the same position.

Whatever a caller does leads from one bench to one that is reached from it. All states that are
noted on the way, however deep in nested code, lie on that way.
-/

namespace BlockScript

variable {α : Type}

/-! ## Pools that grow -/

namespace Pool

variable {pool pool' pool'' : Pool} {constant : Constant}

/-- What is found in the one pool is found in the other one at the same position. -/
def Within (pool pool' : Pool) : Prop :=
  ∀ constant position, pool.find? constant = some position → pool'.find? constant = some position

theorem Within.refl (pool : Pool) : pool.Within pool := fun _ _ => id

theorem Within.trans (h₁ : pool.Within pool') (h₂ : pool'.Within pool'') : pool.Within pool'' :=
  fun constant position found => h₂ constant position (h₁ constant position found)

theorem find?_push (new constant : Constant) : (⟨pool.entries.push new⟩ : Pool).find? constant =
    if new = constant then some pool.size else pool.find? constant := by
  have size : (⟨pool.entries.push new⟩ : Pool).size = pool.size + 1 := Array.size_push ..
  have last : (pool.entries.push new)[pool.size]? = some new := Array.getElem?_push_size
  unfold find?
  rw [size, lastBelow, last]
  by_cases same : new = constant
  · rw [if_pos same, if_pos (congrArg some same)]
  · rw [if_neg same, if_neg fun eq => same (Option.some.inj eq)]
    have pushed : pool.entries.push new = (pool.entries.toList ++ [new]).toArray := by
      rw [← Array.toList_push]
    rw [pushed]
    exact lastBelow_append _ _ (Nat.le_refl _)

/-- Interning a constant gives the position where it is found from then on, and nothing that was
found before is lost. -/
theorem intern_within {limit : Nat} {position : UInt32}
    (run : pool.intern constant limit = .ok (position, pool')) :
    pool.Within pool' ∧ ∃ found, pool'.find? constant = some found ∧ position = found.toUInt32 := by
  unfold intern at run
  split at run
  · rename_i found known
    cases run
    exact ⟨.refl pool, found, known, rfl⟩
  · rename_i unknown
    split at run
    · cases run
      refine ⟨fun other position found => ?_, pool.size, ?_, rfl⟩
      · rw [find?_push, if_neg, found]
        rintro rfl
        cases unknown.symm.trans found
      · rw [find?_push, if_pos rfl]
    · cases run

/-- A constant that is in the pool is not added again. -/
theorem intern_found {limit found : Nat} (known : pool.find? constant = some found) :
    pool.intern constant limit = .ok (found.toUInt32, pool) := by
  unfold intern
  rw [known]

end Pool

/-! ## Steps -/

/-- The computation ends in this state, whether it succeeds or not. -/
def EndsIn {ε σ : Type} (action : EStateM ε σ α) (state state' : σ) : Prop :=
  Ends action state (fun _ reached => reached = state') fun _ reached => reached = state'

theorem EndsIn.related {ε σ : Type} {action : EStateM ε σ α} {state state' : σ}
    (h : EndsIn action state state') {R : σ → σ → Prop} (moves : Moves R action) :
    R state state' := by
  unfold EndsIn Ends at h
  cases run : action state with
  | ok value reached =>
      rw [run] at h
      exact h ▸ moves.ok run
  | error halt reached =>
      rw [run] at h
      exact h ▸ moves.error run

theorem moves_endsIn {ε σ : Type} {action : EStateM ε σ α} {R : σ → σ → Prop}
    (h : ∀ state state', EndsIn action state state' → R state state') : Moves R action := by
  have ends {state state' : σ} (result : (∃ value, action state = .ok value state') ∨
      ∃ halt, action state = .error halt state') : EndsIn action state state' := by
    unfold EndsIn Ends
    obtain ⟨value, run⟩ | ⟨halt, run⟩ := result <;> rw [run]
  intro state
  refine Ends.intro (fun value state' run => h _ _ (ends (.inl ⟨value, run⟩))) ?_
  exact fun halt state' run => h _ _ (ends (.inr ⟨halt, run⟩))

namespace Bench

/-- What a backend that executes the script does to its bench. -/
inductive Step : Bench → Bench → Prop
  | setBuilder (bench : Bench) (builder : Builder) : Step bench (bench.setBuilder builder)
  | setLine (bench : Bench) (line : Option UInt32) : Step bench { bench with line }
  | intern {bench bench' : Bench} {constant : Constant}
      (ends : EndsIn (Bench.intern constant) bench bench') : Step bench bench'
  | enterRegion (bench : Bench) : Step bench bench.enterRegion
  | exitRegion (bench : Bench) : Step bench bench.exitRegion
  | abandon (bench : Bench) (count : Nat) : Step bench (bench.abandon count)
  | openUnit {bench bench' : Bench} {kind : UnitKind} (inner : kind ≠ .script) {name : String}
      {arity localCount : Nat} {locals : List String}
      (ends : EndsIn (Bench.openUnit kind name arity localCount locals) bench bench') :
      Step bench bench'
  | closeUnit {bench bench' : Bench} {handle : UnitHandle} {kind : UnitKind}
      (ends : EndsIn (Bench.closeUnit handle kind) bench bench') : Step bench bench'
  | openScript {bench : Bench} {handle : UnitHandle} {units : UnitStack (Option Recording)}
      (opened : bench.units.open .script mainName none = .ok (handle, units)) :
      Step bench { bench with units }
  | closeScript {bench : Bench} {handle : UnitHandle} {line : Option UInt32}
      {unit : OpenUnit (Option Recording)} {units : UnitStack (Option Recording)}
      (closed : bench.units.close handle .script line = .ok (unit, units)) :
      Step bench { bench with units }

/-- The bench is reached in any number of steps. -/
def Reaches : Bench → Bench → Prop := Relation.ReflTransGen Step

instance : IsPreorder Bench Reaches where
  refl _ := .refl
  trans _ _ _ := Relation.ReflTransGen.trans

variable {bench bench' : Bench}

theorem Step.reaches (h : bench.Step bench') : bench.Reaches bench' := .single h

/-- What every step preserves is preserved. -/
theorem Reaches.preserved (h : bench.Reaches bench') {R : Bench → Bench → Prop} [IsPreorder Bench R]
    (steps : ∀ bench bench', Step bench bench' → R bench bench') : R bench bench' := by
  induction h with
  | refl => exact refl_of R bench
  | tail _ step ih => exact trans_of R ih (steps _ _ step)

/-! ## What steps preserve -/

/-- No constant is lost. -/
def KeepsPool (bench bench' : Bench) : Prop :=
  bench.program.constants.Within bench'.program.constants

instance : IsPreorder Bench KeepsPool where
  refl _ := .refl _
  trans _ _ _ := .trans

theorem KeepsPool.of_eq (same : bench'.program.constants = bench.program.constants) :
    bench.KeepsPool bench' := by
  unfold KeepsPool
  rw [same]
  exact .refl _

theorem keepsPool_intern (constant : Constant) : Moves KeepsPool (Bench.intern constant) := by
  refine fun bench => ends_intern.mono ?_ fun _ _ => Appending.unmoved
  rintro position _ ⟨constants, run, rfl⟩
  exact (Pool.intern_within run).1

theorem keepsPool_openUnit (kind : UnitKind) (name : String) (arity localCount : Nat)
    (locals : List String) :
    Moves KeepsPool (Bench.openUnit kind name arity localCount locals) := by
  refine fun bench => ends_openUnit.mono ?_ ?_
  · rintro handle _ ⟨builder, units, -, -, -, rfl⟩
    exact .of_eq rfl
  · rintro error _ ⟨-, rfl | ⟨-, rfl⟩⟩ <;> exact .of_eq rfl

theorem keepsPool_closeUnit (handle : UnitHandle) (kind : UnitKind) :
    Moves KeepsPool (Bench.closeUnit handle kind) := by
  refine fun bench => (ends_closeUnit handle kind).mono ?_ ?_
  · rintro installed bench' ⟨unit, units, slot, builder, code, -, -, -, -, installs⟩
    cases installs <;> exact .of_eq rfl
  · intro error bench' failed
    cases failed <;> exact .of_eq rfl

theorem keepsPool_abandon (bench : Bench) (count : Nat) :
    bench.KeepsPool (bench.abandon count) := by
  refine .of_eq ?_
  unfold abandon
  dsimp only
  split <;> rfl

theorem Step.keepsPool (h : bench.Step bench') : bench.KeepsPool bench' := by
  cases h with
  | setBuilder | setLine | enterRegion | exitRegion | openScript | closeScript => exact .of_eq rfl
  | intern ends => exact ends.related (keepsPool_intern _)
  | abandon count => exact keepsPool_abandon bench count
  | openUnit _ ends => exact ends.related (keepsPool_openUnit _ _ _ _ _)
  | closeUnit ends => exact ends.related (keepsPool_closeUnit _ _)

/-- Order is kept, and so is what a bench was made with. -/
def Regards (bench bench' : Bench) : Prop := bench.InOrder →
  bench'.InOrder ∧ bench'.config = bench.config ∧ bench'.sharing = bench.sharing

instance : IsPreorder Bench Regards where
  refl _ order := ⟨order, rfl, rfl⟩
  trans _ _ _ h₁ h₂ order := by
    obtain ⟨order', config, sharing⟩ := h₁ order
    obtain ⟨order'', config', sharing'⟩ := h₂ order'
    exact ⟨order'', config'.trans config, sharing'.trans sharing⟩

theorem Lasts.regards (h : bench.Lasts true bench') : bench.Regards bench' := fun order =>
  have later := h order.proper
  ⟨⟨later.proper, (later.table order.tabled).1⟩, later.config, later.sharing⟩

theorem Step.regards (h : bench.Step bench') : bench.Regards bench' := by
  cases h with
  | setBuilder builder => exact fun order => ⟨(bench.upholds_setBuilder builder order).1, rfl, rfl⟩
  | setLine line => exact (lasts_rest _ line).regards
  | intern ends => exact (ends.related (lasts_appending.intern _)).regards
  | enterRegion => exact fun order => ⟨(bench.upholds_nesting _ order).1, rfl, rfl⟩
  | exitRegion => exact fun order => ⟨(bench.upholds_nesting _ order).1, rfl, rfl⟩
  | abandon count => exact (lasts_abandon bench count).regards
  | openUnit inner ends => exact (ends.related (moves_openUnit (absurd · inner) _ _ _ _)).regards
  | closeUnit ends => exact (ends.related (moves_closeUnit _ _)).regards
  | openScript opened => exact (lasts_open opened).regards
  | closeScript closed => exact (Interpreter.lasts_closeScript closed).regards

theorem Reaches.keepsPool (h : bench.Reaches bench') : bench.KeepsPool bench' :=
  h.preserved fun _ _ => Step.keepsPool

theorem Reaches.regards (h : bench.Reaches bench') : bench.Regards bench' :=
  h.preserved fun _ _ => Step.regards

/-! ## The operations of a bench -/

theorem reaches_intern (constant : Constant) : Moves Reaches (Bench.intern constant) :=
  moves_endsIn fun _ _ ends => (Step.intern ends).reaches

theorem reaches_openUnit {kind : UnitKind} (inner : kind ≠ .script) (name : String)
    (arity localCount : Nat) (locals : List String) :
    Moves Reaches (Bench.openUnit kind name arity localCount locals) :=
  moves_endsIn fun _ _ ends => (Step.openUnit inner ends).reaches

theorem reaches_closeUnit (handle : UnitHandle) (kind : UnitKind) :
    Moves Reaches (Bench.closeUnit handle kind) :=
  moves_endsIn fun _ _ ends => (Step.closeUnit ends).reaches

theorem reaches_build {action : Builder → Except CompileError (α × Builder)}
    (checked : ∀ builder, Checked (action builder)) : Moves Reaches (build action) := by
  refine fun bench => (ends_build checked).mono ?_ fun _ _ => Appending.unmoved
  rintro _ _ ⟨_, _, builder, -, -, rfl⟩
  exact (Step.setBuilder bench builder).reaches

theorem reaches_emit (operation : String) (op : Op) : Moves Reaches (emit operation op) :=
  reaches_build fun builder => .bind (builder.checked_emit _ _) fun _ => .ok _

theorem reaches_modifyBuilder (f : Builder → Builder) : Moves Reaches (modifyBuilder f) := by
  intro bench
  cases found : bench.recording? with
  | some recording =>
      refine (ends_modifyBuilder found f).weaken ?_
      rintro _ _ rfl
      exact (Step.setBuilder bench _).reaches
  | none =>
      unfold Ends
      rw [modifyBuilder_of_none found]
      exact refl_of Reaches bench

theorem reaches_setLine (line : UInt32) : Moves Reaches (setLine line) :=
  Appending.moves_target.bind fun _ => reaches_modifyBuilder _

theorem reaches_enter : Moves Reaches fun bench =>
    match bench.units.enter with
    | .ok units => .ok () { bench with units }
    | .error error => .error error bench := by
  intro bench
  unfold Ends
  dsimp only
  cases entered : bench.units.enter with
  | error error => exact refl_of Reaches bench
  | ok units =>
      rw [UnitStack.enter_eq] at entered
      split at entered
      · cases entered
        exact (Step.enterRegion bench).reaches
      · cases entered

theorem reaches_appending : Appending (fun {α} (action : BenchM α) => Moves Reaches action) where
  pure value := .pure value
  bind h₁ h₂ := h₁.bind h₂
  look := fun bench => refl_of Reaches bench
  fail _ _ := .throws _
  target := Appending.moves_target
  intern := reaches_intern
  emit operation op _ _ := reaches_emit operation op

end Bench

/-! ## Sessions with a journal -/

namespace Interpreter

variable {υ : Type}

/-- The one session leads to the other one, and all that is noted meanwhile lies between them. -/
structure Leads (session session' : Session Interpreter (Journal Interpreter υ)) : Prop where
  reaches : session.bench.Reaches session'.bench
  noted : ∃ events, session'.client.events = events ++ session.client.events ∧
    ∀ event ∈ events, session.bench.Reaches event.bench ∧ event.bench.Reaches session'.bench

theorem Leads.of_bench {session session' : Session Interpreter (Journal Interpreter υ)}
    (reaches : session.bench.Reaches session'.bench)
    (events : session'.client.events = session.client.events) : Leads session session' :=
  ⟨reaches, [], events, by simp⟩

instance : IsPreorder (Session Interpreter (Journal Interpreter υ)) Leads where
  refl session := .of_bench (refl_of Bench.Reaches session.bench) rfl
  trans first second third h₁ h₂ := by
    obtain ⟨reached, earlier, heq, between⟩ := h₁
    obtain ⟨reached', later, heq', between'⟩ := h₂
    refine ⟨trans_of Bench.Reaches reached reached', later ++ earlier, ?_, fun event member => ?_⟩
    · rw [heq', heq, List.append_assoc]
    · rcases List.mem_append.mp member with member | member
      · obtain ⟨before, after⟩ := between' event member
        exact ⟨trans_of Bench.Reaches reached before, after⟩
      · obtain ⟨before, after⟩ := between event member
        exact ⟨before, trans_of Bench.Reaches after reached'⟩

instance : Session.IgnoresBackend (Leads (υ := υ)) where
  backend session _ := .of_bench (refl_of Bench.Reaches session.bench) rfl

theorem leads_note (session : Session Interpreter (Journal Interpreter υ)) (operation : String)
    (since : Nat) (occasion : Occasion) :
    Leads session (session.note (session.event operation since occasion)) := by
  refine ⟨refl_of Bench.Reaches session.bench, [session.event operation since occasion], rfl, ?_⟩
  intro event member
  cases List.mem_singleton.mp member
  exact ⟨refl_of Bench.Reaches session.bench, refl_of Bench.Reaches session.bench⟩

theorem leads_onBench {action : BenchM α} (h : Moves Bench.Reaches action) :
    Moves Leads (Work.onBench action : Work Interpreter (Journal Interpreter υ) α) :=
  fun session => Work.ends_onBench ((h session.bench).mono
    (fun _ _ reached => .of_bench reached rfl) fun _ _ reached => .of_bench reached rfl)

theorem leads_modifyBench {f : Bench → Bench} (h : ∀ bench : Bench, bench.Reaches (f bench)) :
    Moves Leads (Work.modifyBench f : Work Interpreter (Journal Interpreter υ) Unit) :=
  .modifies fun session => .of_bench (h session.bench) rfl

theorem leads_cleaning {action : Work Interpreter (Journal Interpreter υ) α} {f : Bench → Bench}
    (h : Moves Leads action) (cleans : ∀ bench : Bench, bench.Reaches (f bench)) :
    Moves Leads (action.cleaning f) := by
  refine fun session => Work.ends_cleaning ((h session).mono (fun _ _ => id) ?_)
  intro _ session' reached
  have cleaned : Leads session' { session' with bench := f session'.bench } :=
    .of_bench (cleans session'.bench) rfl
  exact trans_of Leads reached cleaned

theorem leads_journaled {action : Work Interpreter (Journal Interpreter υ) α}
    (h : Moves Leads action) (name : String) : Moves Leads (Work.journaled name action) := by
  refine fun session => Work.ends_journaled ((h (session.note _)).mono ?_ ?_) <;>
  · exact fun _ session' reached => trans_of Leads
      (trans_of Leads (leads_note session name _ .issued) reached) (leads_note session' name _ _)

/-! ## Operations -/

theorem leads_stepwise : Stepwise (β := Interpreter) (υ := Journal Interpreter υ)
    (fun {α} (action : Work Interpreter (Journal Interpreter υ) α) => Moves Leads action) where
  toSequenced := Moves.sequenced
  target := leads_onBench Bench.Appending.moves_target
  emit operation op _ _ := leads_onBench (Bench.reaches_emit operation op)
  emitJump _ _ := leads_onBench (Bench.reaches_build fun builder => builder.checked_emitJump _ _)
  emitJumpBack _ _ _ := leads_onBench (Bench.reaches_build fun builder =>
    .bind (builder.checked_emit _ _) fun _ => .ok _)
  patchHere _ := Moves.sequenced.patchHere (leads_onBench Bench.Appending.moves_target)
    (leads_onBench (Bench.reaches_modifyBuilder _))
  resetTo _ := leads_onBench (Bench.reaches_modifyBuilder _)

theorem leads_nested {region : Work Interpreter (Journal Interpreter υ) α}
    (h : Moves Leads region) : Moves Leads (Work.nested region) := by
  have exits (bench : Bench) : bench.Reaches bench.exitRegion :=
    (Bench.Step.exitRegion bench).reaches
  refine (leads_onBench Bench.reaches_enter).bind fun _ => Work.moves_bench.bind fun before => ?_
  refine (leads_cleaning h fun bench => ?_).bind fun _ =>
    (leads_modifyBench exits).bind fun _ => .pure _
  exact trans_of Bench.Reaches (exits bench) (Bench.Step.abandon _ _).reaches

theorem leads_compositional : Compositional (β := Interpreter) (υ := Journal Interpreter υ)
    (fun {α} (action : Work Interpreter (Journal Interpreter υ) α) => Moves Leads action) where
  toStepwise := leads_stepwise
  nested := leads_nested

theorem leads_enclosing : Enclosing (β := Interpreter) (υ := Journal Interpreter υ)
    (fun {α} (action : Work Interpreter (Journal Interpreter υ) α) => Moves Leads action) where
  toSequenced := Moves.sequenced
  openUnit inner _ _ _ _ := leads_onBench (Bench.reaches_openUnit inner _ _ _ _)
  closeUnit handle kind := leads_onBench (Bench.reaches_closeUnit handle kind)
  discards count h := leads_cleaning h fun bench => (Bench.Step.abandon bench count).reaches
  emitSend _ _ _ _ := leads_onBench (Bench.reaches_appending.emitSend _ _ _ _)

theorem leads_immediate (fuel : Nat) : Immediate (υ := Journal Interpreter υ) fuel
    (fun {α} (action : Work Interpreter (Journal Interpreter υ) α) => Moves Leads action) where
  toEnclosing := leads_enclosing
  look _ := fun session => refl_of Leads session
  pop := moves_pop
  collapse _ _ := moves_perform (leads_onBench (Bench.reaches_emit _ _)) fuel
  perform _ _ _ _ := moves_perform (leads_onBench (Bench.reaches_emit _ _)) fuel
  intern constant := leads_onBench (Bench.reaches_intern constant)
  checkScopeDepth depth := leads_onBench (Bench.reaches_appending.checkScopeDepth depth)
  emitYield _ _ := leads_onBench (Bench.reaches_appending.emitYield _ _)
  nested := leads_nested
  startScript :=
    moves_startScript fun opened => .of_bench (Bench.Step.openScript opened).reaches rfl
  endScript := moves_endScript fun closed => .of_bench (Bench.Step.closeScript closed).reaches rfl

/-- Every operation leads on, provided that its nested code does. -/
theorem leads_issue (fuel : Nat)
    (operation : Operation (Session Interpreter (Journal Interpreter υ)) α)
    (parts : ∀ part, operation.Has part → Moves Leads part) :
    Moves Leads (operation.issue (contract (Journal Interpreter υ) fuel)) :=
  (leads_immediate fuel).issue parts
    (fun inner controls => leads_compositional.control inner fun part has =>
      parts part (operation.has_of_controls controls has))
    fun line _ => (leads_immediate fuel).mark
      (fun line => leads_onBench (Bench.reaches_setLine line))
      (fun line => leads_modifyBench fun bench =>
        (Bench.Step.setLine bench (some line)).reaches) line

/-- Whatever a caller does, and whether it succeeds or fails, leads on. -/
theorem leads_client {fuel : Nat} {manner : Manner Interpreter (Journal Interpreter υ)}
    {action : Work Interpreter (Journal Interpreter υ) α}
    (client : Client (contract _ fuel).journaled manner.journaled action) : Moves Leads action := by
  refine client.moves (fun operation parts => ?_) ?_
  · rw [Operation.issue_journaled]
    exact leads_journaled (leads_issue fuel _ fun part has => (parts part has).2) _
  · rintro _ ⟨change, rfl⟩ session
    exact .of_bench (refl_of Bench.Reaches session.bench) rfl

end Interpreter

end BlockScript
