import BlockScript.Proofs.Backend.Congruent
import BlockScript.Proofs.Backend.Orderly
import BlockScript.Proofs.Backend.Steady

/-!
# What strict recording hands over is verified

Under a strict configuration the verifier has nothing to add: if every operation succeeds,
no nested code closes a unit that was open around it, and the script has ended, then the
verifier accepts every code object and finds the stack size that was recorded with it.
Nested code is kept from closing such units by a variant of the backend that fails when it
does; whatever succeeds there goes the same way without the variant.
-/

namespace BlockScript

namespace Recorder

variable {υ α β : Type}

/-- Run nested code, and fail if it closed a unit that was open before. -/
def keeping (region : Work Recorder υ Unit) : Work Recorder υ Unit := do
  let before := (← Work.bench).units.ids
  region
  let after := (← Work.bench).units.ids
  if before.any (· ∉ after) then Work.violate (.callbackLeakedUnit "nested code")

/-- The bytecode backend, for nested code that closes no unit which was open around it. -/
def guarded (υ : Type) : Contract (Session Recorder υ) :=
  { contract υ with
    invoke name shape block := (contract υ).invoke name shape
      (block.map fun block => { block with body := keeping block.body })
    objectArray count element := (contract υ).objectArray count fun index => keeping (element index)
    branch onTrue onFalse := (contract υ).branch (keeping onTrue) (keeping onFalse)
    logical connective right := (contract υ).logical connective (keeping right)
    loop condition body checkFirst :=
      (contract υ).loop (keeping condition) (keeping body) checkFirst
    closure scope arity body := (contract υ).closure scope arity (keeping body)
    defineMethod name arity localCount body :=
      (contract υ).defineMethod name arity localCount (keeping body) }

theorem keeps_keeping {region : Work Recorder υ Unit} (h : Orderly region) :
    Keeps (keeping region) := by
  intro session held regular
  refine Ensures.get ((h session held regular).bind fun _ session' onward => Ensures.get ?_)
  refine Ensures.ite (fun _ => Ensures.get Ensures.throws) fun kept => ?_
  refine Ensures.pure ⟨onward, fun id member => ?_⟩
  by_contra missing
  exact kept (List.any_eq_true.mpr ⟨id, member, decide_eq_true missing⟩)

theorem Keeps.orderly {region : Work Recorder υ α} (h : Keeps region) : Orderly region :=
  fun session held regular => (h session held regular).mono fun _ _ => And.left

/-- Every operation keeps benches regular if its nested code does and is guarded. -/
theorem Orderly.issue_guarded (operation : Operation (Session Recorder υ) α)
    (parts : ∀ part, operation.Has part → Orderly part) :
    Orderly (operation.issue (guarded υ)) := by
  cases operation with
  | startScript => exact .startScript
  | endScript => exact .endScript
  | beginMethod name arity localCount => exact .beginMethod name arity localCount
  | endMethod handle => exact .endMethod handle
  | primitive p => exact .checked (.primitive p)
  | invoke name shape block =>
      refine .checked (.emitCall ?_)
      rintro _ same
      obtain ⟨given, rfl, rfl⟩ := Option.map_eq_some_iff.mp same
      exact (keeps_keeping (parts _ ⟨given, rfl, rfl⟩)).orderly
  | control inner =>
      have kept (part : Work Recorder υ Unit) (has : inner.Has part) : Keeps (keeping part) :=
        keeps_keeping (parts part has)
      cases inner with
      | branch onTrue onFalse =>
          exact .checked (.emitBranch (kept onTrue (.inl rfl)) (kept onFalse (.inr rfl)))
      | logical connective right => exact .checked (.emitLogical connective (kept right rfl))
      | loop condition body checkFirst =>
          exact .checked (.emitLoop (kept condition (.inl rfl)) (kept body (.inr rfl)) checkFirst)
      | array count element =>
          exact .checked (.emitArray count fun index => kept (element index) ⟨index, rfl⟩)
  | closure scope arity body => exact .closure scope arity (keeps_keeping (parts body rfl)).orderly
  | defineMethod name arity localCount body =>
      exact .defineMethod name arity localCount (keeps_keeping (parts body rfl)).orderly

/-! ## Dropping the guard -/

/-- Whatever the first computation succeeds with, the second one succeeds with, too. -/
def Follows (action action' : Work Recorder υ α) : Prop :=
  ∀ session, Ensures action session fun value session' => action' session = .ok value session'

namespace Follows

theorem rfl {action : Work Recorder υ α} : Follows action action :=
  fun _ _ _ run => run

theorem bind {first first' : Work Recorder υ α} {next next' : α → Work Recorder υ β}
    (h₁ : Follows first first') (h₂ : ∀ value, Follows (next value) (next' value)) :
    Follows (first >>= next) (first' >>= next') := by
  intro session
  refine (h₁ session).bind fun value session' run => ?_
  refine (h₂ value session').mono fun value' session'' run' => ?_
  show EStateM.bind first' next' session = _
  rw [EStateM.bind, run]
  exact run'

theorem keeping (region : Work Recorder υ Unit) : Follows (keeping region) region := by
  intro session
  refine Ensures.get ?_
  have same : Ensures region session fun value session' => region session = .ok value session' :=
    fun _ _ run => run
  refine same.bind fun _ session' run => Ensures.get ?_
  exact Ensures.ite (fun _ => Ensures.get Ensures.throws) fun _ => Ensures.pure run

theorem cleaning {action action' : Work Recorder υ α} (h : Follows action action')
    (cleanUp : Bench → Bench) : Follows (action.cleaning cleanUp) (action'.cleaning cleanUp) := by
  intro session
  refine Work.ensures_cleaning ((h session).mono fun value session' run => ?_)
  simp only [Work.cleaning, run]

theorem checked {operation operation' : Work Recorder υ α} (h : Follows operation operation') :
    Follows (Recorder.checked operation) (Recorder.checked operation') := by
  intro session value session' run
  unfold Recorder.checked at run ⊢
  cases hpoisoned : session.backend.poisoned with
  | some error => simp only [hpoisoned] at run; cases run
  | none =>
      simp only [hpoisoned] at run ⊢
      cases hresult : operation session with
      | error halt state => cases halt <;> simp only [hresult] at run <;> cases run
      | ok value' state =>
          simp only [hresult] at run
          cases run
          simp only [h session _ _ hresult]

/-- What is put together in the same way goes the same way. -/
theorem congruent : Congruent (β := Recorder) (υ := υ) (fun action action' => Follows action action') where
  refl _ := rfl
  bind := bind
  cleaning := cleaning

theorem closure (scope : StaticScope) (arity : Nat) {body body' : Work Recorder υ Unit}
    (h : Follows body body') :
    Follows (Recorder.closure scope arity body) (Recorder.closure scope arity body') :=
  checked (congruent.after _ fun _ => congruent.before (congruent.recordBlock scope arity h) _)

theorem defineMethod (name : String) (arity localCount : Nat)
    {body body' : Work Recorder υ Unit} (h : Follows body body') :
    Follows (Recorder.defineMethod name arity localCount body)
      (Recorder.defineMethod name arity localCount body') :=
  checked (congruent.after _ fun _ => congruent.before (congruent.recordUnit _ _ _ _ _ h) _)

/-- Nested code that is guarded goes the way of nested code that is not. -/
theorem unguarded {region region' : Work Recorder υ Unit} (h : Follows region region') :
    Follows (Recorder.keeping region) region' := by
  intro session
  refine (keeping region session).mono fun value session' run => ?_
  exact h session value session' run

end Follows

end Recorder

namespace Action

variable {ε : Type} {onExtra : ε → Work Recorder Notes Unit} {action : Action ε}

open Recorder in
/-- Every operation of a straight action keeps the bench regular. -/
theorem orderly_run (h : action.Straight) :
    Orderly (action.run (Recorder.guarded Notes) onExtra) := by
  have owned : Owned fun {α} (action : Work Recorder Notes α) => Orderly action :=
    { pure := .pure
      bind := .bind
      look := fun _ _ regular => Ensures.get (Ensures.pure (.refl regular))
      note := fun _ _ _ regular => Ensures.modifies ⟨.refl _, regular, id⟩
      fail := .fails }
  exact h.run owned Orderly.issue_guarded

open Recorder Follows in
/-- What succeeds with guarded nested code goes the same way without the guard. -/
theorem run_follows (h : action.Straight) :
    Follows (action.run (Recorder.guarded Notes) onExtra)
      (action.run (Recorder.contract Notes) onExtra) := by
  induction action with
  | seq first next ih₁ ih₂ => exact (ih₁ h.1).bind fun _ => ih₂ h.2
  | callBlock name shape scope arity body ih =>
      exact .checked (congruent.emitCall name shape (congruent.recordBlock? scope arity (ih h).unguarded))
  | array count element ih =>
      exact .checked (congruent.emitArray count fun index => (ih index (h index)).unguarded)
  | branch onTrue onFalse ih₁ ih₂ =>
      exact .checked (congruent.emitBranch (ih₁ h.1).unguarded (ih₂ h.2).unguarded)
  | logical connective right ih =>
      exact .checked (congruent.emitLogical connective (ih h).unguarded)
  | loop condition body checkFirst ih₁ ih₂ =>
      exact .checked (congruent.emitLoop (ih₁ h.1).unguarded (ih₂ h.2).unguarded checkFirst)
  | closure scope arity body ih => exact .closure scope arity (ih h).unguarded
  | method name arity localCount body ih =>
      exact .defineMethod name arity localCount (ih h).unguarded
  | rescue | extra => exact h.elim
  | _ => exact .rfl

end Action

/-! ## The recorded program -/

theorem Code.verifyRefs_of_inside {code : Code} {size : Nat} (h : Code.Inside size code.ops) :
    code.verifyRefs size = .ok () := by
  have none : (code.ops.toList.findSome? fun op => op.codeRef?.filter (size ≤ ·.toNat)) = none := by
    refine List.findSome?_eq_none_iff.mpr fun op member => ?_
    refine Option.filter_eq_none_iff.mpr fun target ref => ?_
    simpa using h op (Array.mem_toList_iff.mp member) target ref
  unfold Code.verifyRefs
  rw [none]

theorem Program.verify_of {program : Program}
    (verified : ∀ code ∈ program.code, ∃ most, code.verify = .ok most)
    (inside : ∀ code ∈ program.code, Code.Inside program.code.size code.ops) :
    program.verify = .ok () := by
  have all : ∀ codes : List Code, (∀ code ∈ codes, code ∈ program.code) →
      (codes.forM fun code => do
        let _ ← code.verify
        code.verifyRefs program.code.size) = .ok () := by
    intro codes
    induction codes with
    | nil => exact fun _ => rfl
    | cons first rest ih =>
        intro sub
        obtain ⟨hfirst, hrest⟩ := List.forall_mem_cons.mp sub
        obtain ⟨most, hmost⟩ := verified first hfirst
        have accepted : (do
            let _ ← first.verify
            first.verifyRefs program.code.size) = .ok () := by
          rw [hmost]
          exact Code.verifyRefs_of_inside (inside first hfirst)
        show ((do let _ ← first.verify; first.verifyRefs program.code.size) >>= fun _ =>
          rest.forM _) = _
        rw [accepted]
        exact ih hrest
  exact all _ fun code member => Array.mem_toList_iff.mp member

theorem Bench.regular_new {config : Config} (checks : config.checkStack = true) (owner : Nat) :
    (Bench.new config owner false).Regular [] where
  sharing := rfl
  checkStack := checks
  fresh := by simp [UnitStack.Fresh, Bench.new, UnitStack.new]
  distinct := List.nodup_nil
  issued := by simp
  opened := by simp [Bench.new, UnitStack.new]
  installed := by simp [Bench.new, Program.empty]
  finishable _ _ := ⟨by simp [Bench.new, UnitStack.new], by simp [Bench.new, Program.empty]⟩

section Recorded

variable {ε : Type} {action : Action ε} {onExtra : ε → Work Recorder Notes Unit} {config : Config}
  {owner : Nat} {session : Session Recorder Notes}

open Recorder

/-- Every slot is filled once the script has ended, and what fills it is verified. -/
theorem Action.verifies_guarded (straight : action.Straight) (checks : config.checkStack = true)
    (recorded : action.run (guarded Notes) onExtra (new config owner {}) = .ok () session)
    (ended : session.backend.script = .ended)
    (slots : session.bench.program.code.size ≤ UInt32.size)
    (short : ∀ code ∈ session.bench.program.code, code.ops.size < 2 ^ 31) :
    session.bench.program.verify = .ok () ∧
      ∀ code ∈ session.bench.program.code, code.verify = .ok code.maxStack.toNat := by
  have onward := Action.orderly_run straight _ _ (Bench.regular_new checks owner) _ _ recorded
  have empty : session.bench.units.units = [] :=
    onward.closed (fun ended => by cases ended) ended
  have verified : ∀ code ∈ session.bench.program.code, code.verify = .ok code.maxStack.toNat := by
    intro code member
    obtain ⟨position, hposition⟩ := Array.mem_iff_getElem?.mp member
    obtain ⟨-, table⟩ := onward.regular.finishable slots (List.nil_subset _)
    rcases table position code hposition with ⟨unit, member, -⟩ | verify
    · rw [empty] at member
      cases member
    · exact verify (short code member)
  exact ⟨Program.verify_of (fun code member => ⟨_, verified code member⟩)
    onward.regular.installed, verified⟩

end Recorded

/-- If every operation succeeds under a configuration that checks the stack, no nested code
closes a unit that was open around it, and the script has ended, then the verifier accepts
the recorded program and finds the recorded stack sizes. -/
theorem Recorder.recorded_verifies {ε : Type} {action : Action ε} (straight : action.Straight)
    {onExtra : ε → Work Recorder Notes Unit} {config : Config}
    (checks : config.checkStack = true) {owner : Nat} {session : Session Recorder Notes}
    (recorded : action.run (guarded Notes) onExtra (new config owner {}) = .ok () session)
    (ended : session.backend.script = .ended)
    (slots : session.bench.program.code.size ≤ UInt32.size)
    (short : ∀ code ∈ session.bench.program.code, code.ops.size < 2 ^ 31) :
    action.run (contract Notes) onExtra (new config owner {}) = .ok () session ∧
      session.bench.program.verify = .ok () ∧
      ∀ code ∈ session.bench.program.code, code.verify = .ok code.maxStack.toNat :=
  ⟨Action.run_follows straight _ _ _ recorded,
    Action.verifies_guarded straight checks recorded ended slots short⟩

/-- A loop around a branch. -/
def Action.looper : Action Empty :=
  .seq .startScript (.seq
    (.loop (.primitive .loadTrue) (.seq (.primitive .loadFalse)
      (.branch (.primitive (.fixnum 1)) (.primitive .loadNil))) false)
    .endScript)

/-- What is recorded for it. -/
def Program.looper : Program where
  code := #[{
    name := "<main>", kind := .script, maxStack := 1
    ops := #[.pushFalse, .jumpIfFalse 3, .pushFixnum 1, .jump 2, .pushNil, .pop, .pushTrue,
      .jumpIfTrue (-7), .pushNil, .ret] }]

theorem Recorder.looper_verifies : Program.looper.verify = .ok () ∧
    ∀ code ∈ Program.looper.code, code.verify = .ok code.maxStack.toNat := by
  have outcome : ((Action.looper.run (guarded Notes) Empty.elim).session?
      (new { verifyUnits := false } 0 {})).map (fun session =>
        (session.backend.script, session.bench.program)) = some (.ended, Program.looper) := by
    decide +kernel
  obtain ⟨session, ends, found⟩ := Option.map_eq_some_iff.mp outcome
  obtain ⟨value, recorded⟩ := Work.run_of_session? ends
  obtain ⟨ended, program⟩ := Prod.mk.inj found
  have straight : Action.looper.Straight :=
    ⟨trivial, ⟨trivial, trivial, trivial, trivial⟩, trivial⟩
  rw [← program]
  refine (recorded_verifies straight rfl recorded ended ?_ ?_).2
  · rw [program]
    decide
  · rw [program]
    decide

end BlockScript
