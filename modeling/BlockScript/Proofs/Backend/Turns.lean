import Mathlib.Data.List.Chain
import BlockScript.Proofs.Backend.Exact
import BlockScript.Proofs.Backend.Nested

/-!
# The turns of nested code

At script level nested code is run while its operation is carried out. Which piece has its turn,
how often and in which order depends on the values that it leaves, and a caller may do anything in
it. So the turns are noted: nested code that is wrapped for this does what it did before, and then
adds a note that it cannot see itself. An operation with such nested code comes to the same as
before, and its notes say what was run.
-/

namespace BlockScript

variable {β υ α γ : Type}

/-! ## The configuration of a bench

A backend is given its configuration once. No operation changes it, whether it succeeds or
fails, so whatever a caller has done, its backend still checks what it checked before.
-/

namespace Bench

/-- The configuration is still the same. -/
def Configured (bench bench' : Bench) : Prop := bench'.config = bench.config

instance : IsPreorder Bench Configured where
  refl _ := rfl
  trans _ _ _ h₁ h₂ := h₂.trans h₁

theorem configured_modifyBuilder (f : Builder → Builder) : Moves Configured (modifyBuilder f) :=
  .modifies fun _ => rfl

theorem configured_build (action : Builder → Except CompileError (α × Builder)) :
    Moves Configured (build action) := by
  refine Appending.moves_target.bind fun builder => ?_
  cases action builder with
  | ok result => exact (configured_modifyBuilder _).bind fun _ => .pure _
  | error error => exact .throws error

theorem configured_appending : Appending (fun {α} (action : BenchM α) => Moves Configured action) :=
  .of_moves (fun _ _ => rfl) fun _ _ _ _ => configured_build _

theorem configured_openUnit (kind : UnitKind) (name : String) (arity localCount : Nat)
    (locals : List String) : Moves Configured (openUnit kind name arity localCount locals) := by
  refine fun bench => ends_openUnit.mono ?_ ?_
  · rintro handle _ ⟨builder, units, -, -, -, rfl⟩
    rfl
  · rintro error _ ⟨-, rfl | ⟨-, rfl⟩⟩ <;> rfl

theorem configured_closeUnit (handle : UnitHandle) (kind : UnitKind) :
    Moves Configured (closeUnit handle kind) := by
  refine fun bench => (ends_closeUnit handle kind).mono ?_ ?_
  · rintro installed bench' ⟨unit, units, slot, builder, code, -, -, -, -, installs⟩
    cases installs <;> rfl
  · intro error bench' failed
    cases failed <;> rfl

theorem configured_abandon (bench : Bench) (count : Nat) :
    bench.Configured (bench.abandon count) := by
  unfold abandon
  dsimp only
  split <;> rfl

end Bench

namespace Work

theorem configured_nested {region : Work β υ α}
    (h : Moves (Session.Related Bench.Configured) region) :
    Moves (Session.Related Bench.Configured) (nested region) := by
  intro session
  refine ends_nested (refl_of (Session.Related Bench.Configured) session)
    ((h { session with bench := session.bench.enterRegion }).mono ?_ ?_)
  · exact fun _ _ same => same
  · exact fun _ _ same => (Bench.configured_abandon _ _).trans same

theorem configured_compositional : Compositional (β := β) (υ := υ)
    (fun {α} (action : Work β υ α) => Moves (Session.Related Bench.Configured) action) where
  toSequenced := Moves.sequenced
  target := moves_onBench Bench.Appending.moves_target
  emit _ _ _ _ := moves_onBench (Bench.configured_build _)
  emitJump _ _ := moves_onBench (Bench.configured_build _)
  emitJumpBack _ _ _ := moves_onBench (Bench.configured_build _)
  patchHere _ := Moves.sequenced.patchHere (moves_onBench Bench.Appending.moves_target)
    (moves_onBench (Bench.configured_modifyBuilder _))
  resetTo _ := moves_onBench (Bench.configured_modifyBuilder _)
  nested := configured_nested

theorem configured_enclosing : Enclosing (β := β) (υ := υ)
    (fun {α} (action : Work β υ α) => Moves (Session.Related Bench.Configured) action) where
  toSequenced := Moves.sequenced
  openUnit _ _ _ _ _ := moves_onBench (Bench.configured_openUnit _ _ _ _ _)
  closeUnit _ _ := moves_onBench (Bench.configured_closeUnit _ _)
  discards _ h := fun session => ends_cleaning ((h session).mono (fun _ _ => id)
    fun _ _ same => (Bench.configured_abandon _ _).trans same)
  emitSend _ _ _ _ := moves_onBench (Bench.configured_appending.emitSend _ _ _ _)

end Work

namespace Interpreter

theorem configured_contract (nests : Work Interpreter υ Unit → Prop) (fuel : Nat) :
    (contract υ fuel).Keeps nests (Session.Related Bench.Configured) := by
  have steps : Immediate (υ := υ) fuel
      (fun {α} (action : Work Interpreter υ α) =>
        Moves (Session.Related Bench.Configured) action) :=
    { toEnclosing := Work.configured_enclosing
      look := fun _ => fun session => refl_of (Session.Related Bench.Configured) session
      pop := moves_pop
      collapse := fun _ _ => moves_perform (Work.moves_onBench (Bench.configured_build _)) fuel
      perform := fun _ _ _ _ => moves_perform (Work.moves_onBench (Bench.configured_build _)) fuel
      intern := fun constant => Work.moves_onBench (Bench.configured_appending.intern constant)
      checkScopeDepth := fun depth =>
        Work.moves_onBench (Bench.configured_appending.checkScopeDepth depth)
      emitYield := fun _ _ => Work.moves_onBench (Bench.configured_appending.emitYield _ _)
      nested := Work.configured_nested
      startScript := moves_startScript fun _ => rfl
      endScript := moves_endScript fun _ => rfl }
  exact fun {_} operation parts => steps.issue (fun part has => (parts part has).2)
    (fun inner controls => Work.configured_compositional.control inner fun part has =>
      (parts part (operation.has_of_controls controls has)).2)
    fun line _ => steps.mark
      (fun _ => Work.moves_onBench
        (Bench.Appending.moves_target.bind fun _ => Bench.configured_modifyBuilder _))
      (fun _ => .modifies fun _ => rfl) line

/-- Whatever a caller does, its backend keeps the configuration. -/
theorem configured_client {fuel : Nat} {manner : Manner Interpreter υ}
    {action : Work Interpreter υ α} (client : Client (contract υ fuel) manner action) :
    Moves (Session.Related Bench.Configured) action :=
  client.moves (configured_contract manner.nests fuel)
    fun _ _ session => refl_of Bench.Configured session.bench

end Interpreter

/-! ## Noting turns -/

/-- A piece of nested code that was run. -/
inductive Turn where
  /-- The condition of a loop, and whether it left a truthy value on top. -/
  | condition (holds : Bool)
  /-- The body of a loop. -/
  | body
  /-- The arm of a branch for a truthy condition, or the other one. -/
  | arm (truthy : Bool)
  /-- The right-hand side of an operator. -/
  | right
deriving DecidableEq, Repr

namespace Turn

/-- The turn is one of the condition. -/
def isCondition : Turn → Bool
  | .condition _ => true
  | _ => false

/-- A loop whose condition holds so many times and then does not. -/
def rounds : Nat → List Turn
  | 0 => [.condition false]
  | count + 1 => .condition true :: .body :: rounds count

/-- The same of a loop that tests first or last. -/
def ofLoop (checkFirst : Bool) (count : Nat) : List Turn :=
  if checkFirst then rounds count else .body :: rounds count

theorem countP_rounds (count : Nat) : (rounds count).countP isCondition = count + 1 := by
  induction count with
  | zero => rfl
  | succ count ih => simp [rounds, List.countP_cons, isCondition, ih]

theorem count_rounds (count : Nat) : (rounds count).count .body = count := by
  induction count with
  | zero => rfl
  | succ count ih => simp [rounds, ih]

/-- The condition is tested once more than it holds. -/
theorem countP_ofLoop (checkFirst : Bool) (count : Nat) :
    (ofLoop checkFirst count).countP isCondition = count + 1 := by
  cases checkFirst <;> simp [ofLoop, isCondition, countP_rounds]

/-- No two conditions and no two bodies follow each other. -/
theorem alternates_rounds (count : Nat) :
    (.body :: rounds count).IsChain fun turn next => turn.isCondition ≠ next.isCondition := by
  induction count with
  | zero => exact .cons_cons nofun (.singleton _)
  | succ count ih => exact .cons_cons nofun (.cons_cons nofun ih)

theorem alternates_ofLoop (checkFirst : Bool) (count : Nat) :
    (ofLoop checkFirst count).IsChain fun turn next => turn.isCondition ≠ next.isCondition := by
  cases checkFirst with
  | true => exact (alternates_rounds count).tail
  | false => exact alternates_rounds count

/-- The body is run whenever the condition holds, and before it is tested for the first time if it
is tested last. -/
theorem count_ofLoop (checkFirst : Bool) (count : Nat) :
    (ofLoop checkFirst count).count .body = if checkFirst then count else count + 1 := by
  cases checkFirst <;> simp [ofLoop, count_rounds]

end Turn

namespace Session

/-- The session with notes beside what belongs to the caller. -/
def noting (session : Session β υ) (notes : List Turn) : Session β (υ × List Turn) :=
  ⟨session.bench, session.backend, (session.client, notes)⟩

/-- The session as code sees it that knows of no notes. -/
def unnoted (session : Session β (υ × List Turn)) : Session β υ :=
  ⟨session.bench, session.backend, session.client.1⟩

end Session

namespace Work

/-- Nested code that notes its turn when it has ended, whichever way. -/
def noted (turn : Session β υ → Turn) (part : Work β υ Unit) : Work β (υ × List Turn) Unit :=
  fun session =>
    match part session.unnoted with
    | .ok _ after => .ok () (after.noting (session.client.2 ++ [turn after]))
    | .error halt after => .error halt (after.noting (session.client.2 ++ [turn after]))

/-- If the computation succeeds, the noted one succeeds as well, with the same result, and adds
its turns to whatever was noted before. -/
def Tells (action : Work β υ α) (noted : Work β (υ × List Turn) α) (session : Session β υ)
    (post : α → Session β υ → List Turn → Prop) : Prop :=
  ∀ value session', action session = .ok value session' → ∃ turns, post value session' turns ∧
    ∀ before, noted (session.noting before) = .ok value (session'.noting (before ++ turns))

namespace Tells

variable {action : Work β υ α} {action' : Work β (υ × List Turn) α} {session : Session β υ}
  {post post' : α → Session β υ → List Turn → Prop}

theorem mono (h : Tells action action' session post)
    (weaker : ∀ value session' turns, post value session' turns → post' value session' turns) :
    Tells action action' session post' := by
  intro value session' run
  obtain ⟨turns, told, same⟩ := h value session' run
  exact ⟨turns, weaker _ _ _ told, same⟩

theorem pure {value : α} (h : post value session []) :
    Tells (Pure.pure value) (Pure.pure value) session post := by
  rintro _ _ ⟨⟩
  exact ⟨[], h, fun before => by rw [List.append_nil]; rfl⟩

/-- What never succeeds tells everything. -/
theorem fails (h : ∀ value session', action session ≠ .ok value session') :
    Tells action action' session post :=
  fun value session' run => absurd run (h value session')

theorem throws (halt : Halt CompileError) :
    Tells (throw halt : Work β υ α) (throw halt) session post :=
  fails nofun

theorem bind {next : α → Work β υ γ} {next' : α → Work β (υ × List Turn) γ}
    {done : γ → Session β υ → List Turn → Prop} (h₁ : Tells action action' session post)
    (h₂ : ∀ value session' turns, post value session' turns →
      Tells (next value) (next' value) session' fun result after more =>
        done result after (turns ++ more)) :
    Tells (action >>= next) (action' >>= next') session done := by
  intro result after run
  change EStateM.bind action next session = .ok result after at run
  unfold EStateM.bind at run
  split at run
  · rename_i value session' first
    obtain ⟨turns, told, same⟩ := h₁ value session' first
    obtain ⟨more, told', same'⟩ := h₂ value session' turns told result after run
    refine ⟨turns ++ more, told', fun before => ?_⟩
    rw [run_bind_ok (same before), same', List.append_assoc]
  · cases run

theorem ite {c : Prop} [Decidable c] {yes no : Work β υ α} {yes' no' : Work β (υ × List Turn) α}
    (h₁ : c → Tells yes yes' session post) (h₂ : ¬c → Tells no no' session post) :
    Tells (if c then yes else no) (if c then yes' else no') session post := by
  by_cases h : c
  · rw [if_pos h, if_pos h]
    exact h₁ h
  · rw [if_neg h, if_neg h]
    exact h₂ h

/-- Notes are not part of the bench. -/
theorem bench {next : Bench → Work β υ α} {next' : Bench → Work β (υ × List Turn) α}
    (h : Tells (next session.bench) (next' session.bench) session post) :
    Tells (Work.bench >>= next) (Work.bench >>= next') session post := h

theorem onBench (step : BenchM α) : Tells (Work.onBench step) (Work.onBench step) session
    fun value session' turns => turns = [] ∧
      ∃ bench, step session.bench = .ok value bench ∧ session' = { session with bench } := by
  intro value session' run
  cases result : step session.bench with
  | error error bench =>
      rw [onBench_error result] at run
      cases run
  | ok value' bench =>
      rw [onBench_ok result] at run
      cases run
      refine ⟨[], ⟨rfl, bench, rfl, rfl⟩, fun before => ?_⟩
      rw [List.append_nil]
      have noted : (session.noting before).bench = session.bench := rfl
      exact onBench_ok (noted ▸ result)

theorem violate (kind : Violation) :
    Tells (Work.violate kind : Work β υ α) (Work.violate kind) session post :=
  fails nofun

/-- What comes after a failure is never run. -/
theorem stops (kind : Violation) {next : α → Work β υ γ}
    {next' : α → Work β (υ × List Turn) γ} {post : γ → Session β υ → List Turn → Prop} :
    Tells (Work.violate kind >>= next) (Work.violate kind >>= next') session post :=
  fails nofun

theorem ensureSameUnit (construct : String) (before : Nat) :
    Tells (Work.ensureSameUnit construct before) (Work.ensureSameUnit construct before) session
      fun _ session' turns => turns = [] ∧ session' = session :=
  bench (ite (fun _ => violate _) fun _ => pure ⟨rfl, rfl⟩)

/-- Only what succeeds is of interest, so cleaning up is not. -/
theorem cleaning (h : Tells action action' session post) (cleanUp : Bench → Bench) :
    Tells (action.cleaning cleanUp) (action'.cleaning cleanUp) session post := by
  intro value session' run
  unfold Work.cleaning at run
  split at run
  · rename_i succeeded
    cases run
    obtain ⟨turns, told, same⟩ := h _ _ succeeded
    refine ⟨turns, told, fun before => ?_⟩
    unfold Work.cleaning
    rw [same]
  · cases run

/-- One control-flow level deeper. -/
theorem nested (h : ∀ bench : Bench, bench.config = session.bench.config →
      Tells action action' { session with bench } fun value inner turns =>
        post value { inner with bench := inner.bench.exitRegion } turns) :
    Tells (Work.nested action) (Work.nested action') session post := by
  refine (onBench _).bind ?_
  rintro _ _ _ ⟨rfl, entered, enters, rfl⟩
  have config : entered.config = session.bench.config := by
    split at enters <;> cases enters
    rfl
  refine bench ((h entered config).cleaning _ |>.bind fun value inner turns told => ?_)
  rintro _ _ ⟨⟩
  refine ⟨[], ?_, fun before => by rw [List.append_nil]; rfl⟩
  change post value { inner with bench := inner.bench.exitRegion } ([] ++ (turns ++ []))
  rwa [List.nil_append, List.append_nil]

/-- Nested code that is noted tells its own turn. -/
theorem noted (turn : Session β υ → Turn) (part : Work β υ Unit) :
    Tells part (part.noted turn) session fun _ session' turns =>
      part session = .ok () session' ∧ turns = [turn session'] := by
  rintro ⟨⟩ session' run
  refine ⟨_, ⟨run, rfl⟩, fun before => ?_⟩
  have same : part (session.noting before).unnoted = .ok () session' := run
  unfold Work.noted
  rw [same]
  rfl

end Tells

/-- The nested code leaves its backend with the checks that it found, as every caller does. -/
def KeepsChecks (part : Work β υ Unit) : Prop :=
  ∀ session session', part session = .ok () session' →
    session'.bench.config.checkStack = session.bench.config.checkStack

end Work

theorem Interpreter.keepsChecks_client {fuel : Nat} {manner : Manner Interpreter υ}
    {part : Work Interpreter υ Unit} (client : Client (contract υ fuel) manner part) :
    part.KeepsChecks :=
  fun _ _ run => congrArg Config.checkStack ((configured_client client).ok run)

/-! ## The steps of the immediate backend -/

namespace Interpreter

open Work

variable {session : Session Interpreter υ} {post : α → Session Interpreter υ → List Turn → Prop}

/-- Notes are not part of the value stack. -/
theorem tells_stack {next : List Value → Work Interpreter υ α}
    {next' : List Value → Work Interpreter (υ × List Turn) α}
    (h : Tells (next session.backend.top.stack) (next' session.backend.top.stack) session post) :
    Tells (stack >>= next) (stack >>= next') session post := h

theorem tells_pop (operation : String) :
    Tells (pop operation) (pop operation) session fun value session' turns =>
      turns = [] ∧ session'.bench = session.bench ∧
        session.backend.top.stack = value :: session'.backend.top.stack := by
  refine tells_stack ?_
  cases values : session.backend.top.stack with
  | nil => exact .violate _
  | cons value rest =>
      rintro _ _ ⟨⟩
      exact ⟨[], ⟨rfl, rfl, rfl⟩, fun before => by rw [List.append_nil]; rfl⟩

theorem tells_drop (operation : String) (count : Nat) :
    Tells (drop operation count) (drop operation count) session fun _ session' turns =>
      turns = [] ∧ session'.bench = session.bench ∧
        session.backend.top.stack.length = session'.backend.top.stack.length + count := by
  induction count generalizing session with
  | zero => exact .pure ⟨rfl, rfl, rfl⟩
  | succ count ih =>
      refine (tells_pop operation).bind ?_
      rintro value popped _ ⟨rfl, bench, values⟩
      refine ih.mono ?_
      rintro _ session' turns ⟨rfl, bench', length⟩
      refine ⟨rfl, bench'.trans bench, ?_⟩
      rw [values, List.length_cons, length]
      omega

/-- A region whose values are counted, and checked if that is still wanted after it. -/
theorem tells_runRegion (turn : Session Interpreter υ → Turn) (part : Work Interpreter υ Unit)
    (construct : String) (allowed : DepthTracker.Allowance) :
    Tells (runRegion construct allowed part) (runRegion construct allowed (part.noted turn)) session
      fun produced session' turns => turns = [turn session'] ∧ part session = .ok () session' ∧
        produced = session'.backend.top.stack.length - (session.backend.top.stack.length : Int) ∧
        (session'.bench.config.checkStack = true → allowed.admits produced = true) := by
  refine .bench (tells_stack ((Tells.noted turn part).bind ?_))
  rintro _ after _ ⟨run, rfl⟩
  refine (Tells.ensureSameUnit construct _).bind ?_
  rintro _ _ _ ⟨rfl, rfl⟩
  refine tells_stack (.bench (.ite (fun _ => .stops _) fun admitted => .pure ⟨rfl, run, rfl, ?_⟩))
  intro kept
  rwa [kept, Bool.and_true, Bool.not_eq_true', Bool.not_eq_false] at admitted

/-- Nor are they part of what is recorded. -/
theorem tells_recording {next : Bool → Work Interpreter υ α}
    {next' : Bool → Work Interpreter (υ × List Turn) α}
    (h : Tells (next session.bench.recording?.isSome) (next' session.bench.recording?.isSome)
      session post) :
    Tells (recording >>= next) (recording >>= next') session post := h

/-- At script level an operation is carried out. -/
theorem tells_either {recorded live : Work Interpreter υ Unit}
    {recorded' live' : Work Interpreter (υ × List Turn) Unit}
    {post : Unit → Session Interpreter υ → List Turn → Prop}
    (level : session.bench.recording? = none) (h : Tells live live' session post) :
    Tells (do ensureOpen; if ← recording then recorded else live)
      (do ensureOpen; if ← recording then recorded' else live') session post := by
  have opened : Tells (ensureOpen : Work Interpreter υ Unit) ensureOpen session
      fun _ session' turns => turns = [] ∧ session' = session :=
    .bench (.ite (fun _ => .violate _) fun _ => .pure ⟨rfl, rfl⟩)
  refine opened.bind ?_
  rintro _ _ _ ⟨rfl, rfl⟩
  refine tells_recording ?_
  rw [level]
  exact h

/-! ## Control flow -/

/-- The topmost value of the script is truthy. -/
def holds (session : Session Interpreter υ) : Bool :=
  session.backend.top.stack.head?.any (·.isTruthy)

/-- A condition that notes whether it holds. -/
abbrev notedCondition (condition : Work Interpreter υ Unit) :
    Work Interpreter (υ × List Turn) Unit :=
  condition.noted fun session => .condition (holds session)

/-- Any other piece of nested code. -/
abbrev notedAs (turn : Turn) (part : Work Interpreter υ Unit) :
    Work Interpreter (υ × List Turn) Unit :=
  part.noted fun _ => turn

section Loop

variable {condition body : Work Interpreter υ Unit}

/-- Values are counted, and neither piece of nested code puts an end to that. -/
structure CheckedLoop (condition body : Work Interpreter υ Unit) (session : Session Interpreter υ) :
    Prop where
  checks : session.bench.config.checkStack = true
  condition : condition.KeepsChecks
  body : body.KeepsChecks

/-- A condition leaves a value, which is taken and decides how to go on. -/
theorem tells_test (body : Work Interpreter υ Unit) (construct operation : String)
    {next : Bool → Work Interpreter υ α} {next' : Bool → Work Interpreter (υ × List Turn) α}
    (h : ∀ goOn, ∀ session' : Session Interpreter υ,
      (CheckedLoop condition body session → CheckedLoop condition body session' ∧
        session'.backend.top.stack.length = session.backend.top.stack.length) →
      Tells (next goOn) (next' goOn) session' fun result last turns =>
        post result last (.condition goOn :: turns)) :
    Tells (do
        let _ ← runRegion construct .one condition
        let goOn ← pure (← pop operation).isTruthy
        next goOn)
      (do
        let _ ← runRegion construct .one (notedCondition condition)
        let goOn ← pure (← pop operation).isTruthy
        next' goOn) session post := by
  refine (tells_runRegion _ condition construct .one).bind ?_
  rintro produced after _ ⟨rfl, run, rfl, admitted⟩
  refine (tells_pop operation).bind ?_
  rintro value popped _ ⟨rfl, bench, values⟩
  have decides : holds after = value.isTruthy := by simp [holds, values]
  rw [decides]
  refine h value.isTruthy popped fun checked => ?_
  have kept := (checked.condition _ _ run).trans checked.checks
  have left := DepthTracker.Allowance.one_admits.mp (admitted kept)
  rw [values, List.length_cons] at left
  exact ⟨{ checked with checks := bench ▸ kept }, by omega⟩

/-- Whatever the body leaves is dropped, and the condition has its turn next. -/
theorem tells_pass (construct operation : String) {again : Work Interpreter υ Unit}
    {again' : Work Interpreter (υ × List Turn) Unit}
    (h : ∀ session' : Session Interpreter υ,
      Tells again again' session' fun _ last turns => (∃ count, turns = Turn.rounds count) ∧
        (CheckedLoop condition body session' →
          last.backend.top.stack.length = session'.backend.top.stack.length)) :
    Tells (do
        let produced ← runRegion construct .atMostOne body
        drop operation produced.toNat
        again)
      (do
        let produced ← runRegion construct .atMostOne (notedAs .body body)
        drop operation produced.toNat
        again')
      session fun _ last turns => (∃ count, turns = .body :: Turn.rounds count) ∧
        (CheckedLoop condition body session →
          last.backend.top.stack.length = session.backend.top.stack.length) := by
  refine (tells_runRegion _ body construct .atMostOne).bind ?_
  rintro produced after _ ⟨rfl, run, rfl, admitted⟩
  refine (tells_drop operation _).bind ?_
  rintro _ dropped _ ⟨rfl, bench, length⟩
  refine (h dropped).mono ?_
  rintro _ last _ ⟨⟨count, rfl⟩, same⟩
  refine ⟨⟨count, rfl⟩, fun checked => ?_⟩
  have kept := (checked.body _ _ run).trans checked.checks
  have left := DepthTracker.Allowance.atMostOne_admits.mp (admitted kept)
  have height := same { checked with checks := bench ▸ kept }
  omega

/-- By induction on the budget: a pass notes its turns and leaves the stack as high as it was. -/
theorem tells_passes (fuel : Nat) (test : Bool) :
    Tells (passes condition body fuel test)
      (passes (notedCondition condition) (notedAs .body body) fuel test) session
      fun _ last turns => (∃ count, turns = Turn.ofLoop test count) ∧
        (CheckedLoop condition body session →
          last.backend.top.stack.length = session.backend.top.stack.length) := by
  induction fuel generalizing session test with
  | zero => exact .throws _
  | succ fuel ih =>
      cases test with
      | false => exact tells_pass _ _ fun session' => ih true
      | true =>
          refine tells_test body _ _ fun goOn tested kept => ?_
          cases goOn with
          | false => exact .pure ⟨⟨0, rfl⟩, fun checked => (kept checked).2⟩
          | true =>
              refine (tells_pass _ _ fun session' => ih true).mono ?_
              rintro _ last _ ⟨⟨count, rfl⟩, same⟩
              exact ⟨⟨count + 1, rfl⟩, fun checked =>
                (same (kept checked).1).trans (kept checked).2⟩

/-- A loop at script level is made of passes. -/
theorem tells_loop (level : session.bench.recording? = none) (fuel : Nat) (checkFirst : Bool) :
    Tells (loop fuel condition body checkFirst)
      (loop fuel (notedCondition condition) (notedAs .body body) checkFirst) session
      fun _ last turns => (∃ count, turns = Turn.ofLoop checkFirst count) ∧
        (CheckedLoop condition body session →
          last.backend.top.stack.length = session.backend.top.stack.length) := by
  refine tells_either level (Tells.nested fun entered config =>
    (tells_passes fuel checkFirst).mono ?_)
  rintro _ last turns ⟨told, height⟩
  exact ⟨told, fun checked => height { checked with checks := config ▸ checked.checks }⟩

end Loop

/-- A branch takes its condition and runs the arm for it. -/
theorem tells_branch {onTrue onFalse : Work Interpreter υ Unit}
    (level : session.bench.recording? = none) :
    Tells (branch onTrue onFalse)
      (branch (notedAs (.arm true) onTrue) (notedAs (.arm false) onFalse)) session
      fun _ _ turns => ∃ condition rest, session.backend.top.stack = condition :: rest ∧
        turns = [.arm condition.isTruthy] := by
  refine tells_either level ((tells_pop _).bind ?_)
  rintro condition popped _ ⟨rfl, -, values⟩
  have arm (bench : Bench) : Tells (if condition.isTruthy then onTrue else onFalse)
      (if condition.isTruthy then notedAs (.arm true) onTrue else notedAs (.arm false) onFalse)
      { popped with bench } fun _ _ turns => turns = [.arm condition.isTruthy] :=
    .ite (fun truthy => (Tells.noted _ onTrue).mono fun _ _ _ told => truthy ▸ told.2)
      fun falsy => (Tells.noted _ onFalse).mono fun _ _ _ told =>
        Bool.eq_false_iff.mpr falsy ▸ told.2
  have chosen : Tells (Work.nested (if condition.isTruthy then onTrue else onFalse))
      (Work.nested (if condition.isTruthy then notedAs (.arm true) onTrue
        else notedAs (.arm false) onFalse))
      popped fun _ _ turns => turns = [.arm condition.isTruthy] :=
    Tells.nested fun bench _ => arm bench
  refine .bench (chosen.bind ?_)
  rintro _ inner _ rfl
  refine (Tells.ensureSameUnit _ _).mono ?_
  rintro _ _ _ ⟨rfl, -⟩
  exact ⟨condition, _, values, rfl⟩

/-- An operator keeps the left value, or runs its right-hand side in the place of it. -/
theorem tells_logical {right : Work Interpreter υ Unit}
    (level : session.bench.recording? = none) (checks : session.bench.config.checkStack = true)
    (connective : Connective) :
    Tells (logical connective right) (logical connective (notedAs .right right)) session
      fun _ session' turns => ∃ left rest, session.backend.top.stack = left :: rest ∧
        if left.isTruthy = runsWhen connective then
          turns = [.right] ∧ (right.KeepsChecks → ∃ value rest',
            session'.backend.top.stack = value :: rest' ∧ rest'.length = rest.length)
        else turns = [] ∧ session' = session := by
  refine tells_either level (tells_stack ?_)
  cases values : session.backend.top.stack with
  | nil => exact .violate _
  | cons left rest =>
      refine .ite (fun runs => (tells_pop _).bind ?_) fun skips => .pure ?_
      · rintro value popped _ ⟨rfl, bench, popping⟩
        refine Tells.nested fun entered config => ?_
        refine (tells_runRegion _ right _ .one).bind ?_
        rintro produced after _ ⟨rfl, run, rfl, admitted⟩
        obtain ⟨-, rfl⟩ := List.cons.inj (values.symm.trans popping)
        refine .pure ⟨left, _, rfl, ?_⟩
        rw [if_pos runs]
        refine ⟨rfl, fun keeps => ?_⟩
        have kept : after.bench.config.checkStack = true := by
          rw [keeps _ _ run, config, bench, checks]
        have height := DepthTracker.Allowance.one_admits.mp (admitted kept)
        obtain ⟨result, rest', split⟩ := List.exists_cons_of_length_eq_add_one height
        rw [split, List.length_cons] at height
        exact ⟨result, rest', split, Nat.succ.inj height⟩
      · exact ⟨left, rest, rfl, by rw [if_neg skips]; exact ⟨rfl, rfl⟩⟩

/-- Something is left to count. -/
def remaining : Work Interpreter Nat Unit := do
  let session ← get
  (contract Nat 0).primitive (if session.client = 0 then .loadFalse else .loadTrue)

/-- One less is left, and a value for the loop to drop. -/
def countDown : Work Interpreter Nat Unit := do
  Work.keep (· - 1)
  (contract Nat 0).primitive .loadNil

/-- A script whose stack holds a number, with two left to count. -/
def counting : Session Interpreter Nat :=
  match (do startScript; primitive 0 (.fixnum 5)) (new .strict {} 0 2) with
  | .ok _ session | .error _ session => session

theorem client_primitive (p : Primitive) :
    Client (contract Nat 0) {} ((contract Nat 0).primitive p) :=
  (@Client.issue _ _ _ {} _ (.primitive p)) (fun _ _ => trivial) fun _ has => has.elim

theorem keepsChecks_remaining : remaining.KeepsChecks :=
  keepsChecks_client (.bind .look fun _ => client_primitive _)

theorem keepsChecks_countDown : countDown.KeepsChecks :=
  keepsChecks_client (.bind (.keep trivial) fun _ => client_primitive .loadNil)

end Interpreter

end BlockScript
