import BlockScript.Proofs.Backend.Around
import BlockScript.Proofs.Backend.Congruent
import BlockScript.Proofs.Backend.Dated

/-!
# The line that is reported from inside nested code

The failures of one operation of a script can be marked, so that they are told from all others. On
the way into nested code the immediate backend knows the current line where what is around the
operation fixes it, however often nested code is run. So the marked failures are reported with the
line that is known where the operation begins.
-/

namespace BlockScript

variable {β υ α γ : Type} {line : Option UInt32}

/-- Any two benches. -/
def Bench.Free (_ _ : Bench) : Prop := True

instance : IsPreorder Bench Bench.Free where
  refl _ := trivial
  trans _ _ _ _ _ := trivial

/-- The failure is marked. -/
def Halt.Marked (halt : Halt CompileError) : Prop := ∃ error, halt = .failure (.aborted error)

theorem Halt.unmarked_of_fresh {error : CompileError} (fresh : error.isAborted = false) :
    ¬Halt.Marked (.failure error) := by
  rintro ⟨_, ⟨⟩⟩
  cases fresh

/-- If the failure is marked, it is an error of the script that is reported with this line. Internal
errors are not raised by what the script does. -/
def Halt.Reports (line : Option UInt32) (halt : Halt CompileError) : Prop :=
  ∀ error line', halt = .failure (.aborted (.runtime error line')) → error.kind ≠ .internal →
    line' = line

theorem Halt.reports_of_unmarked {halt : Halt CompileError} (unmarked : ¬halt.Marked) :
    halt.Reports line :=
  fun error line' failed => absurd ⟨.runtime error line', failed⟩ unmarked

/-- A step that leaves the current line as it was and marks no failure. -/
def Work.Unmarking (action : Work β υ α) : Prop :=
  Runs (Session.Related Bench.SameLine) (fun halt _ => ¬halt.Marked) action

namespace Work

/-- From what is known of the current line follows what is known after a success, and marked failures
are reported with the one line. -/
def Reports (line : Option UInt32) (known known' : Known) (action : Work β υ α) : Prop :=
  ∀ session, known session.bench.line → Ends action session
    (fun _ after => known' after.bench.line) fun halt _ => halt.Reports line

namespace Reports

variable {known known' middle : Known}

theorem bind {first : Work β υ α} {next : α → Work β υ γ} (h₁ : Reports line known middle first)
    (h₂ : ∀ value, Reports line middle known' (next value)) :
    Reports line known known' (first >>= next) :=
  fun session before => (h₁ session before).bind h₂

theorem consequence {weaker stronger : Known} {action : Work β υ α}
    (h : Reports line weaker stronger action) (implies : known.Implies weaker)
    (follows : stronger.Implies known') : Reports line known known' action :=
  fun session before => (h session (implies _ before)).weaken fun _ _ => follows _

theorem weaken {weaker : Known} {action : Work β υ α} (h : Reports line weaker known' action)
    (implies : known.Implies weaker) : Reports line known known' action :=
  h.consequence implies (.refl known')

theorem loosen {action : Work β υ α} (h : Reports line known known' action) :
    Reports line known .any action :=
  h.consequence (.refl known) known'.implies_any

/-- What is known after a success may have been found in another way. -/
theorem ensured {action : Work β υ α} (h : Reports line known .any action)
    (ensures : ∀ session, known session.bench.line → Ensures action session
      fun _ after => known' after.bench.line) : Reports line known known' action :=
  fun session before => ((h session before).ensured (ensures session before)).weaken
    fun _ _ => And.right

theorem still {action : Work β υ α} (h : Unmarking action) (known : Known) :
    Reports line known known action :=
  fun session before => (h session).mono (fun _ _ same => (same : _ = _) ▸ before)
    fun _ _ failed => Halt.reports_of_unmarked failed.2

theorem ite {c : Prop} [Decidable c] {yes no : Work β υ α} (h₁ : Reports line known known' yes)
    (h₂ : Reports line known known' no) : Reports line known known' (if c then yes else no) := by
  by_cases h : c
  · rwa [if_pos h]
  · rwa [if_neg h]

theorem nested {region : Work β υ α} (h : Reports line known known' region) :
    Reports line known known' (Work.nested region) := by
  intro session before
  have inside := h { session with bench := session.bench.enterRegion } before
  exact Work.ends_nested (Halt.reports_of_unmarked (Halt.unmarked_of_fresh rfl)) inside

theorem cleaning {action : Work β υ α} (h : Reports line known known' action)
    (cleanUp : Bench → Bench) : Reports line known known' (action.cleaning cleanUp) :=
  fun session before => Work.ends_cleaning (h session before)

theorem tracks (line : Option UInt32) :
    Tracks (β := β) (υ := υ) (fun {α} (action : Work β υ α) => Unmarking action)
      (fun known known' {α} (action : Work β υ α) => Reports line known known' action) where
  steps := stepwise_sameLine (fun _ generated => Halt.unmarked_of_fresh generated.not_aborted)
    fun _ => nofun
  still := still
  bind := bind
  nested := nested
  consequence := consequence

end Reports

end Work

namespace Interpreter

open Work (Reports Unmarking)

variable {known known' entry exit last : Known} {fuel : Nat}

/-! ## Nested code that is executed -/

theorem faults_unmarked : Faults (υ := υ) fun halt _ => ¬halt.Marked where
  static _ static := Halt.unmarked_of_fresh static.not_aborted
  executed _ _ := Halt.unmarked_of_fresh rfl
  outOfFuel _ := nofun

theorem unmarking_immediate (fuel : Nat) :
    Immediate (υ := υ) fuel fun {α} (action : Work Interpreter υ α) => Unmarking action :=
  immediate_sameLine faults_unmarked
    (fun _ generated => Halt.unmarked_of_fresh generated.not_aborted) (fun _ _ _ _ => id) fuel

/-- Apart from setting a line, the operations leave what is known of the line as it is. -/
theorem reports_immediate (fuel : Nat) (line : Option UInt32) (known : Known) :
    Immediate (υ := υ) fuel
      fun {α} (action : Work Interpreter υ α) => Reports line known known action :=
  have steps := unmarking_immediate (υ := υ) fuel
  { pure := fun value => .still (steps.pure value) known
    bind := .bind
    bench := .still steps.bench known
    fail := fun static => .still (steps.fail static) known
    breakOff := .still steps.breakOff known
    look := fun view => .still (steps.look view) known
    pop := fun operation => .still (steps.pop operation) known
    collapse := fun operation count => .still (steps.collapse operation count) known
    perform := fun operation _ falls straight => .still (steps.perform operation falls straight) known
    intern := fun constant => .still (steps.intern constant) known
    checkScopeDepth := fun depth => .still (steps.checkScopeDepth depth) known
    emitYield := fun operation hasArgs => .still (steps.emitYield operation hasArgs) known
    openUnit := fun inner name arity localCount locals =>
      .still (steps.openUnit inner name arity localCount locals) known
    closeUnit := fun handle kind => .still (steps.closeUnit handle kind) known
    discards := fun _ h => h.cleaning _
    emitSend := fun operation name shape block =>
      .still (steps.emitSend operation name shape block) known
    nested := .nested
    startScript := .still steps.startScript known
    endScript := .still steps.endScript known }

section Live

variable (steps : Scripted (υ := υ) fuel fun {α} (action : Work Interpreter υ α) => Unmarking action)
  {part : Work Interpreter υ Unit}

include steps

/-- An operation is recorded or carried out. -/
theorem reports_either {recorded live : Work Interpreter υ Unit}
    (h₁ : Reports line known known' recorded) (h₂ : Reports line known known' live) :
    Reports line known known' (do ensureOpen; if ← recording then recorded else live) :=
  (Reports.tracks line).after steps.ensureOpen fun _ =>
    (Reports.tracks line).after steps.recording fun _ => .ite h₁ h₂

theorem reports_runRegion (construct : String) (allowed : DepthTracker.Allowance)
    (h : Reports line known known' part) :
    Reports line known known' (runRegion construct allowed part) :=
  (Reports.tracks line).after steps.bench fun _ => (Reports.tracks line).after steps.stack fun _ =>
    (Reports.tracks line).before h fun _ => steps.endRegion _ _ _ _

theorem reports_branch {onTrue onFalse : Work Interpreter υ Unit}
    (recorded : Reports line known known' (Work.emitBranch onTrue onFalse))
    (h₁ : Reports line known known' onTrue) (h₂ : Reports line known known' onFalse) :
    Reports line known known' (branch onTrue onFalse) := by
  have tracks := Reports.tracks (β := Interpreter) (υ := υ) line
  refine reports_either steps recorded (tracks.after (steps.pop _) fun _ =>
    tracks.after steps.bench fun _ => ?_)
  exact tracks.before (Reports.nested (.ite h₁ h₂)) fun _ => steps.ensureSameUnit _ _

theorem reports_logical (connective : Connective)
    (recorded : Reports line known known' (Work.emitLogical connective part))
    (h : Reports line known known' part) (skipped : known.Implies known') :
    Reports line known known' (logical connective part) := by
  have tracks := Reports.tracks (β := Interpreter) (υ := υ) line
  refine reports_either steps recorded (tracks.after steps.stack fun values => ?_)
  cases values with
  | nil => exact (Reports.still (steps.violate _) known').weaken skipped
  | cons left rest =>
      have goesOn : Reports line known known' (Work.nested do
          let _ ← runRegion connective.operation .one part) :=
        .nested (tracks.before (reports_runRegion steps _ _ h) fun _ => steps.pure _)
      exact .ite (tracks.after (steps.pop _) fun _ => goesOn)
        ((Reports.still (steps.pure _) known').weaken skipped)

/-- By induction on the budget: what is known where the condition is tested and where the body is
chosen is known in every pass, and the loop ends with a test. -/
theorem reports_passes {condition body : Work Interpreter υ Unit} {tested chosen : Known}
    (h₁ : Reports line tested exit condition) (h₂ : Reports line chosen tested body)
    (again : exit.Implies chosen) (budget : Nat) (test : Bool) :
    Reports line (if test then tested else chosen) exit (passes condition body budget test) := by
  have tracks := Reports.tracks (β := Interpreter) (υ := υ) line
  induction budget generalizing test with
  | zero => exact fun _ _ => nofun
  | succ budget ih =>
      have repeats : Reports line chosen exit (do
          let produced ← runRegion (Work.loopOperation ++ " body") .atMostOne body
          drop Work.loopOperation produced.toNat
          passes condition body budget true : Work Interpreter υ Unit) :=
        (reports_runRegion steps _ _ h₂).bind fun _ => tracks.after (steps.drop _ _) fun _ => ih true
      cases test with
      | false => exact repeats
      | true =>
          exact (reports_runRegion steps _ _ h₁).bind fun _ => tracks.after (steps.pop _) fun value =>
            .ite (repeats.weaken again) (.still (steps.pure _) exit)

theorem reports_loop {condition body : Work Interpreter υ Unit} {checkFirst : Bool}
    (recorded : Reports line known known' (Work.emitLoop condition body checkFirst))
    (live : Reports line known known' (passes condition body fuel checkFirst)) :
    Reports line known known' (loop fuel condition body checkFirst) :=
  reports_either steps recorded live.nested

theorem reports_array {count : Nat} {elements : Nat → Work Interpreter υ Unit} {knows : Nat → Known}
    (recorded : Reports line (knows 0) (knows count) (Work.emitArray count elements))
    (h : ∀ index < count, Reports line (knows index) (knows (index + 1)) (elements index)) :
    Reports line (knows 0) (knows count) (objectArray fuel count elements) := by
  have tracks := Reports.tracks (β := Interpreter) (υ := υ) line
  have each (index : Nat) (inside : index < count) :
      Reports line (knows index) (knows (index + 1)) (do
        let _ ← runRegion (Work.arrayOperation ++ " element") .one (elements index) :
          Work Interpreter υ Unit) :=
    tracks.before (reports_runRegion steps _ _ (h index inside)) fun _ => steps.pure _
  have produced := tracks.forEachIndex knows fun index (_ : 0 ≤ index)
    (inside : index < 0 + count) => each index (Nat.zero_add count ▸ inside)
  rw [Nat.zero_add] at produced
  exact reports_either steps recorded
    (tracks.before produced.nested fun _ => steps.collapse _ _)

/-- Nested code that reports the line makes the operation around it report the line, where it is
executed and where it is recorded. -/
theorem reports_control {place : Place (Work Interpreter υ Unit)}
    (enters : place.Enters (fun part known known' => Reports line known known' part) part known entry)
    (others : ∀ other, place.Has other → Reports line .any .any other)
    (h : Reports line entry .any part) :
    Reports line known .any ((place.control part).issue (contract υ fuel)) := by
  have tracks := Reports.tracks (β := Interpreter) (υ := υ) line
  have recorded := tracks.holds (tracks.around enters others) h
  cases place with
  | onTrue onFalse =>
      obtain rfl : entry = known := enters
      exact reports_branch steps recorded h ((others _ rfl).weaken entry.implies_any)
  | onFalse onTrue => exact reports_branch steps recorded enters.2.loosen (h.weaken enters.1)
  | right connective =>
      obtain rfl : entry = known := enters
      exact reports_logical steps connective recorded h entry.implies_any
  | condition body checkFirst =>
      obtain ⟨again, start, tests, repeats⟩ := enters
      have runs := reports_passes steps tests repeats (.refl again) fuel checkFirst
      exact reports_loop steps recorded (runs.weaken start).loosen
  | body condition checkFirst =>
      obtain ⟨again, start, repeats, tests⟩ := enters
      have runs := reports_passes steps tests repeats (.refl entry) fuel checkFirst
      exact reports_loop steps recorded (runs.weaken start).loosen
  | element count elements index =>
      obtain ⟨knows, rfl, rfl, earlier⟩ := enters
      -- after the part nothing is known
      let later (other : Nat) : Known := if other ≤ index then knows other else .any
      have upTo {other : Nat} (before : other ≤ index) : later other = knows other := if_pos before
      have behind {other : Nat} (after : index < other) : later other = .any :=
        if_neg (Nat.not_le.mpr after)
      have each (other : Nat) : Reports line (later other) (later (other + 1))
          (Function.update elements index part other) := by
        rcases Nat.lt_trichotomy other index with before | rfl | after
        · rw [Function.update_of_ne (Nat.ne_of_lt before), upTo (Nat.le_of_lt before), upTo before]
          exact earlier other before
        · rw [Function.update_self, upTo (Nat.le_refl _), behind (Nat.lt_succ_self _)]
          exact h
        · rw [Function.update_of_ne (Nat.ne_of_gt after), behind after,
            behind (Nat.lt_succ_of_lt after)]
          exact others _ ⟨other, Nat.ne_of_gt after, rfl⟩
      rw [← upTo (Nat.zero_le _), ← behind index.isLt] at recorded ⊢
      exact reports_array steps recorded fun other _ => each other

end Live

/-- The same of any layer around a part. -/
theorem reports_layer {layer : Layer (Work Interpreter υ Unit)} {part : Work Interpreter υ Unit}
    (enters : layer.Enters (fun part known known' => Reports line known known' part) part known entry)
    (others : ∀ other, layer.Has other → Reports line .any .any other)
    (h : Reports line entry .any part) :
    Reports line known .any (layer.wrap (contract υ fuel) part) := by
  cases layer with
  | first next =>
      obtain rfl : entry = known := enters
      exact h.bind fun _ => others _ rfl
  | next first =>
      have before : Reports line known entry first := enters
      exact before.bind fun _ => h
  | nested place => exact reports_control (unmarking_immediate fuel).toScripted enters others h

end Interpreter

/-! ## Without the marks -/

/-- The computation comes to the same as the other one, but does not mark its failure. -/
def Work.Reveals (work marked : Work β υ α) : Prop :=
  ∀ session, work session = marked session ∨ ∃ error session',
    work session = .error (.failure error) session' ∧
      marked session = .error (.failure (.aborted error)) session'

namespace Work.Reveals

theorem bind {first first' : Work β υ α} {next next' : α → Work β υ γ} (h₁ : first.Reveals first')
    (h₂ : ∀ value, (next value).Reveals (next' value)) :
    (first >>= next).Reveals (first' >>= next') := by
  intro session
  obtain same | ⟨error, session', breaks, marks⟩ := h₁ session
  · cases run : first' session with
    | error halt session' =>
        left
        rw [run_bind_error run, run_bind_error (same.trans run)]
    | ok value session' =>
        rw [run_bind_ok run, run_bind_ok (same.trans run)]
        exact h₂ value session'
  · exact .inr ⟨error, session', run_bind_error breaks, run_bind_error marks⟩

theorem cleaning {work work' : Work β υ α} (h : work.Reveals work') (cleanUp : Bench → Bench) :
    (work.cleaning cleanUp).Reveals (work'.cleaning cleanUp) := by
  intro session
  obtain same | ⟨error, session', breaks, marks⟩ := h session
  · exact .inl (by simp only [Work.cleaning, same])
  · exact .inr ⟨error, { session' with bench := cleanUp session'.bench },
      by simp only [Work.cleaning, breaks], by simp only [Work.cleaning, marks]⟩

theorem ensures {work marked : Work β υ α} (h : work.Reveals marked) {session : Session β υ}
    {done : α → Session β υ → Prop} (ensures : Ensures work session done) :
    Ensures marked session done := by
  intro value session' run
  obtain same | ⟨error, after, -, marks⟩ := h session
  · exact ensures value session' (same.trans run)
  · cases marks.symm.trans run

theorem congruent : Congruent (β := β) (υ := υ) (fun work work' => Work.Reveals work work') where
  refl _ := fun _ => .inl rfl
  bind := bind
  cleaning h := h.cleaning

end Work.Reveals

namespace Interpreter

open Work (Reports Reveals)

variable {ε : Type} {onExtra : ε → Work Interpreter Notes Unit} {action operation : Action ε}
  {known known' : Known} {fuel : Nat}

theorem reveals_tagged : Reveals (operation.run (contract Notes fuel) onExtra)
    (operation.tagged.run (contract Notes fuel) onExtra) := by
  intro session
  have runs : operation.tagged.run (contract Notes fuel) onExtra =
      (operation.run (contract Notes fuel) onExtra).rescue fun error =>
        Work.fail (.aborted error) := Action.recover_eq_rescue _ _
  rw [runs]
  cases run : operation.run (contract Notes fuel) onExtra session with
  | ok value session' => exact .inl (by simp only [Work.rescue, run])
  | error halt session' =>
      cases halt with
      | outOfFuel => exact .inl (by simp only [Work.rescue, run])
      | failure error => exact .inr ⟨error, session', rfl, by simp only [Work.rescue, run]; rfl⟩

theorem reveals_layer {part part' : Work Interpreter υ Unit} (h : Reveals part part')
    (layer : Layer (Work Interpreter υ Unit)) :
    Reveals (layer.wrap (contract υ fuel) part) (layer.wrap (contract υ fuel) part') := by
  have related := Reveals.congruent (β := Interpreter) (υ := υ)
  cases layer with
  | first next => exact related.before h _
  | next first => exact related.after first fun _ => h
  | nested place =>
      cases place with
      | onTrue onFalse => exact related.branch h (related.refl _)
      | onFalse onTrue => exact related.branch (related.refl _) h
      | right connective => exact related.logical connective h
      | condition body checkFirst =>
          exact related.either (related.emitLoop h (related.refl _) checkFirst)
            (related.nested (related.passes h (related.refl _) fuel checkFirst))
      | body condition checkFirst =>
          exact related.either (related.emitLoop (related.refl _) h checkFirst)
            (related.nested (related.passes (related.refl _) h fuel checkFirst))
      | element count elements index =>
          refine related.objectArray count (fun other => ?_) (related.refl _)
          obtain rfl | apart := eq_or_ne other index
          · rwa [Function.update_self, Function.update_self]
          · rw [Function.update_of_ne apart, Function.update_of_ne apart]
            exact related.refl _

/-- An action comes to the same whether the failures of a part of it are marked or not. -/
theorem reveals_context (context : List (Layer (Action ε))) :
    Reveals ((Action.inContext context operation).run (contract Notes fuel) onExtra)
      ((Action.inContext context operation.tagged).run (contract Notes fuel) onExtra) := by
  induction context with
  | nil => exact reveals_tagged
  | cons layer context ih =>
      rw [Action.inContext, Action.inContext, List.foldr_cons, List.foldr_cons, Action.run_within,
        Action.run_within]
      exact reveals_layer ih _

/-! ## Operations of a program -/

/-- Whether failures are marked does not depend on what becomes of the bench. -/
theorem lax_unmarked : Lax (β := Interpreter) (υ := υ) (fun {α} (action : Work Interpreter υ α) =>
    BlockScript.Runs (Session.Related Bench.Free) (fun halt _ => ¬halt.Marked) action) :=
  BlockScript.Runs.lax (fun _ _ => trivial) (fun _ _ => Halt.unmarked_of_fresh) (fun _ => nofun)
    fun _ _ _ => id

/-- No operation of the backend marks its failures. -/
theorem immediate_unmarked (fuel : Nat) : Immediate (υ := υ) fuel
    (fun {α} (action : Work Interpreter υ α) =>
      BlockScript.Runs (Session.Related Bench.Free) (fun halt _ => ¬halt.Marked) action) where
  toEnclosing := lax_unmarked.enclosing
  look _ := fun _ => trivial
  pop := runs_pop faults_unmarked
  collapse _ _ := runs_perform faults_unmarked
    (lax_unmarked.onBench (Bench.plain_appending.emit _ rfl rfl)) fuel
  perform _ _ falls straight := runs_perform faults_unmarked
    (lax_unmarked.onBench (Bench.plain_appending.emit _ falls straight)) fuel
  intern _ := lax_unmarked.onBench (Bench.plain_appending.intern _)
  checkScopeDepth _ := lax_unmarked.onBench (Bench.plain_appending.checkScopeDepth _)
  emitYield _ _ := lax_unmarked.onBench (Bench.plain_appending.emitYield _ _)
  nested := lax_unmarked.nested
  startScript := runs_startScript faults_unmarked fun _ => trivial
  endScript := runs_endScript faults_unmarked fun _ => trivial

/-- Operations of a program mark no failures. -/
theorem unmarked_plain (plain : action.Plain) : BlockScript.Runs (Session.Related Bench.Free)
    (fun halt _ => ¬halt.Marked) (action.run (contract Notes fuel) onExtra) := by
  have steps := immediate_unmarked (υ := Notes) fuel
  refine plain.holds (steps.pure ()) (fun h₁ h₂ => steps.bind h₁ fun _ => h₂)
    (fun operation _ parts => steps.issue parts (fun inner controls => ?_) fun mark _ => ?_) onExtra
  · exact lax_unmarked.compositional.control inner fun part has =>
      parts part (operation.has_of_controls controls has)
  · exact steps.mark (fun _ => lax_unmarked.onBench (Bench.plain_setLine _))
      (fun _ => lax_unmarked.modifyBench _) mark

theorem reports_plain (plain : action.Plain) (line : Option UInt32) (known : Known) :
    Reports line known .any (action.run (contract Notes fuel) onExtra) :=
  fun session _ => (unmarked_plain plain session).mono (fun _ _ _ => trivial)
    fun _ _ failed => Halt.reports_of_unmarked failed.2

/-- By the rules for what is known: nested code is recorded, or it is executed as often as it takes,
and bodies are recorded. -/
theorem reports_settles (settles : action.Settles known known') (plain : action.Plain)
    (line : Option UInt32) :
    Reports line known known' (action.run (contract Notes fuel) onExtra) := by
  have tracks := Reports.tracks (β := Interpreter) (υ := Notes) line
  have steps := (unmarking_immediate (υ := Notes) fuel).toScripted
  have issues (operation : Operation (Session Interpreter Notes) Unit) (known : Known)
      (controls : ∀ inner, ¬operation.Controls inner) (marks : ∀ line, ¬operation.Marks line)
      (parts : ∀ part, operation.Has part → Reports line known known part) :
      Reports line known known (operation.issue (contract Notes fuel)) :=
    (reports_immediate fuel line known).issue parts (fun inner is => absurd is (controls inner))
      fun line is => absurd is (marks line)
  induction settles with
  | silent silent known =>
      exact .still (silent_sameLine faults_unmarked
        (fun _ generated => Halt.unmarked_of_fresh generated.not_aborted) (fun _ _ _ _ => id) plain
        silent) known
  | mark mark known =>
      exact (reports_plain plain line known).ensured fun session _ => @ensures_mark _ fuel mark session
  | seq _ _ ih₁ ih₂ => exact (ih₁ plain.1).bind fun _ => ih₂ plain.2
  | branch _ _ _ ih₁ ih₂ ih₃ =>
      exact reports_branch steps (tracks.emitBranch (ih₁ plain.1) (ih₃ plain.2)) (ih₁ plain.1)
        (ih₂ plain.2)
  | logical connective _ ih =>
      exact reports_logical steps connective (tracks.emitLogical connective (ih plain)) (ih plain)
        (.refl _)
  | loopFirst _ _ again ih₁ ih₂ =>
      have repeats := (ih₂ plain.2).consequence (.refl _) again
      exact reports_loop steps (tracks.emitLoopFirst (ih₁ plain.1) (ih₂ plain.2))
        (reports_passes steps (ih₁ plain.1) repeats (.refl _) fuel true)
  | loopLast _ _ again ih₁ ih₂ =>
      exact reports_loop steps (tracks.emitLoopLast (ih₁ plain.2) (ih₂ plain.1))
        (reports_passes steps (ih₂ plain.1) (ih₁ plain.2) again fuel false)
  | array knows _ ih =>
      exact reports_array steps (tracks.emitArray fun index inside => ih index inside (plain index))
        fun index inside => ih index inside (plain index)
  | @callBlock name shape scope arity body known _ ih =>
      refine issues (.invoke name shape (some ⟨scope, arity, body.run (contract Notes fuel) onExtra⟩))
        known nofun nofun ?_
      rintro _ ⟨_, ⟨⟩, rfl⟩
      exact ih plain
  | @closure scope arity body known _ ih =>
      refine issues (.closure scope arity (body.run (contract Notes fuel) onExtra)) known nofun nofun ?_
      rintro _ rfl
      exact ih plain
  | @method name arity localCount body known _ ih =>
      refine issues (.defineMethod name arity localCount (body.run (contract Notes fuel) onExtra))
        known nofun nofun ?_
      rintro _ rfl
      exact ih plain
  | any action known => exact reports_plain plain line known
  | consequence _ implies follows ih => exact (ih plain).consequence implies follows

/-- Where no line is set, marked failures are reported with the line from before. -/
theorem reports_tagged (plain : operation.Plain) (silent : operation.Silent) (line : Option UInt32) :
    Reports line (.exactly line) .any (operation.tagged.run (contract Notes fuel) onExtra) := by
  intro session known
  have dated : Work.Dated (operation.run (contract Notes fuel) onExtra) := dated_silent plain silent
  have runs : operation.tagged.run (contract Notes fuel) onExtra =
      (operation.run (contract Notes fuel) onExtra).rescue fun error =>
        Work.fail (.aborted error) := Action.recover_eq_rescue _ _
  rw [runs]
  refine Work.ends_rescue ((dated session).mono (fun _ _ _ => trivial) ?_)
  rintro (error | _) session' ⟨same, current⟩
  · refine Work.ends_fail ?_
    rintro error line' ⟨⟩ genuine
    exact (current error line' rfl genuine).trans (Eq.trans same known)
  · exact nofun

/-- The marked failures of an operation are reported with the line that is known where it begins. -/
theorem reports_context {context : List (Layer (Action ε))} {line : Option UInt32}
    (leads : Action.Leads operation context known (.exactly line))
    (plain : (Action.inContext context operation).Plain) (silent : operation.Silent) :
    Reports line known .any
      ((Action.inContext context operation.tagged).run (contract Notes fuel) onExtra) := by
  generalize where_ : Known.exactly line = entry at leads
  induction leads with
  | here known =>
      subst where_
      exact reports_tagged plain silent line
  | @inside layer context known middle entry enters leads ih =>
      obtain ⟨inner, others⟩ := Action.plain_of_within plain
      have part := ih inner where_
      rw [Action.inContext, List.foldr_cons, Action.run_within]
      refine reports_layer (enters.map (fun other has _ _ settles =>
        reports_settles settles (others other has) line) fun settles => ?_) ?_ part
      · -- what the part does to the line does not depend on the marks
        exact part.ensured fun session before => (reveals_context context).ensures
          (reports_settles settles inner line session before).ensures
      · rintro _ has
        obtain ⟨other, here, rfl⟩ := Layer.has_map has
        exact reports_plain (others other here) line .any
  | weaken leads implies ih => exact (ih plain where_).weaken implies

end Interpreter

end BlockScript
