import BlockScript.Proofs.Backend.Issued
import BlockScript.Proofs.Machine.Operands

/-!
# Operations of a script that is executed

Where the innermost unit is the script itself, the immediate backend carries operations out on
the value stack of the script, and nested code as well. An operation that succeeds has replaced
its operands by its results and left the values below them as they were, in the same units and
on the same control-flow level. The bodies of methods and blocks are recorded even there.
-/

namespace BlockScript

variable {υ α γ : Type}

/-! ## The script as an operation finds it -/

/-- The innermost unit is the script, which is not recorded. -/
def Bench.Executes (bench : Bench) : Prop :=
  ∃ unit outer, bench.units.units = unit :: outer ∧ unit.payload = none ∧ unit.kind = .script

namespace Bench.Executes

variable {bench bench' : Bench}

theorem recording? (executes : bench.Executes) : bench.recording? = none := by
  obtain ⟨unit, outer, hunits, payload, -⟩ := executes
  rw [Bench.recording?, UnitStack.top?, hunits]
  exact payload

/-- A yield at script level has no method around it. -/
theorem insideMethod (executes : bench.Executes) : bench.units.insideMethod = false := by
  obtain ⟨unit, outer, hunits, -, kind⟩ := executes
  simp [UnitStack.insideMethod, hunits, kind]

theorem congr (executes : bench.Executes) (same : bench'.units.units = bench.units.units) :
    bench'.Executes := by
  obtain ⟨unit, outer, hunits, rest⟩ := executes
  exact ⟨unit, outer, same.trans hunits, rest⟩

end Bench.Executes

/-- The topmost values of the script were replaced, in the same units. -/
structure Scene (taken given : Nat) (start session : Session Interpreter υ) : Prop where
  units : session.bench.units.units = start.bench.units.units
  beside : start.bench.Beside session.bench
  stack : Replaces taken given start.backend.top.stack session.backend.top.stack

namespace Scene

variable {taken given taken' given' : Nat} {start session session' : Session Interpreter υ}

theorem refl (session : Session Interpreter υ) : Scene 0 0 session session :=
  ⟨rfl, refl_of Bench.Beside _, .refl _⟩

theorem trans (h₁ : Scene taken given start session) (h₂ : Scene taken' given' session session') :
    Scene (taken + (taken' - given)) (given' + (given - taken')) start session' :=
  ⟨h₂.units.trans h₁.units, trans_of Bench.Beside h₁.beside h₂.beside, h₁.stack.trans h₂.stack⟩

/-- As many units are open as before. -/
theorem ends_ensureSameUnit (scene : Scene taken given start session) (construct : String)
    {failed : Halt CompileError → Session Interpreter υ → Prop} :
    Ends (Work.ensureSameUnit construct start.bench.units.size) session
      (fun _ session' => session = session') failed :=
  Work.ends_ensureSameUnit (fun _ => rfl) fun leaked =>
    absurd (congrArg List.length scene.units) leaked

end Scene

theorem Session.Intact.scene {session session' : Session Interpreter υ}
    (intact : session.Intact session') : Scene 0 0 session session' :=
  ⟨intact.units, intact.beside, intact.backend ▸ .refl _⟩

/-- A session in which the script is executed. -/
structure Interpreter.Live (session : Session Interpreter υ) : Prop where
  checks : session.bench.config.checkStack = true
  sharing : session.bench.sharing = true
  executes : session.bench.Executes

namespace Interpreter

variable {fuel taken given taken' given' : Nat} {session session' : Session Interpreter υ}

theorem Live.scene (live : Live session) (scene : Scene taken given session session') :
    Live session' :=
  ⟨scene.beside.config ▸ live.checks, scene.beside.sharing.trans live.sharing,
    live.executes.congr scene.units⟩

theorem Live.prepared (live : Live session) (fuel : Nat) :
    (Backend.immediate fuel).Prepared session :=
  ⟨trivial, live.checks, live.sharing⟩

/-- Wherever the script is executed, the computation takes and leaves that many values. -/
structure Runs (taken given : Nat) (action : Work Interpreter υ α) : Prop where
  ends {session : Session Interpreter υ} : Live session →
    taken ≤ session.backend.top.stack.length →
    Ends action session (fun _ session' => Scene taken given session session')
      fun halt _ => halt.Permitted true

namespace Runs

variable {action : Work Interpreter υ α}

theorem cast (h : Runs taken given action) (same : taken = taken') (same' : given = given') :
    Runs taken' given' action :=
  same ▸ same' ▸ h

/-- What is below the operands stays there. -/
theorem frame (h : Runs taken given action) {whole : Nat} (enough : taken ≤ whole) :
    Runs whole (whole - taken + given) action where
  ends live covered := (h.ends live (Nat.le_trans enough covered)).weaken fun _ _ scene =>
    ⟨scene.units, scene.beside, scene.stack.frame enough covered⟩

theorem pure (value : α) : Runs 0 0 (Pure.pure value : Work Interpreter υ α) :=
  ⟨fun {session} _ _ => Ends.pure (.refl session)⟩

/-- What would come after a failure does not matter. -/
theorem stops {error : CompileError} (permitted : error.Permitted true)
    {next : α → Work Interpreter υ γ} : Runs taken given (Work.fail error >>= next) :=
  ⟨fun _ _ => Ends.stops permitted⟩

/-- What comes second takes what the first one left, and then what was there before. -/
theorem bind {next : α → Work Interpreter υ γ} (h₁ : Runs taken given action)
    (h₂ : ∀ value, Runs taken' given' (next value)) :
    Runs (taken + (taken' - given)) (given' + (given - taken')) (action >>= next) where
  ends live enough := by
    refine (h₁.ends live (by omega)).bind fun value session' scene => ?_
    have length := scene.stack.length
    exact ((h₂ value).ends (live.scene scene) (by omega)).weaken fun _ _ => scene.trans

/-- What comes first leaves the stack alone. -/
theorem after {next : α → Work Interpreter υ γ} (h₁ : Runs 0 0 action)
    (h₂ : ∀ value, Runs taken given (next value)) : Runs taken given (action >>= next) :=
  (bind h₁ h₂).cast (by omega) (by omega)

/-- The session may be looked at. -/
theorem get {next : Session Interpreter υ → Work Interpreter υ α}
    (h : ∀ session, Runs taken given (next session)) :
    Runs taken given (MonadStateOf.get >>= next) :=
  ⟨fun {session} live enough => (h session).ends live enough⟩

theorem ite {c : Prop} [Decidable c] {yes no : Work Interpreter υ α}
    (h₁ : c → Runs taken given yes) (h₂ : ¬c → Runs taken given no) :
    Runs taken given (if c then yes else no) :=
  ⟨fun live enough => Ends.ite (fun h => (h₁ h).ends live enough) fun h => (h₂ h).ends live enough⟩

theorem intact (h : ∀ session, (Backend.immediate 0).Prepared session →
      Ends action session (fun _ session' => session.Intact session')
        fun halt _ => halt.Permitted true) : Runs 0 0 action :=
  ⟨fun live _ => (h _ (live.prepared 0)).weaken fun _ _ => Session.Intact.scene⟩

theorem intern (constant : Constant) :
    Runs 0 0 (Work.onBench (Bench.intern constant) : Work Interpreter υ UInt32) :=
  intact fun session _ => Work.ends_intern constant session true

theorem checkScopeDepth (depth : Nat) :
    Runs 0 0 (Work.onBench (Bench.checkScopeDepth depth) : Work Interpreter υ Unit) :=
  intact fun session _ => Work.ends_checkScopeDepth depth session true

theorem ensureOpen : Runs 0 0 (ensureOpen : Work Interpreter υ Unit) where
  ends {session} live _ := by
    obtain ⟨unit, outer, hunits, -⟩ := live.executes
    unfold Ends
    rw [ensureOpen_eq hunits]
    exact .refl session

theorem recording {next : Bool → Work Interpreter υ α} (h : Runs taken given (next false)) :
    Runs taken given (recording >>= next) where
  ends live enough := by
    unfold Ends
    rw [run_bind_ok (recording_eq _), live.executes.recording?]
    exact h.ends live enough

/-- Nothing is recorded, so the operation is carried out. -/
theorem either {recorded live : Work Interpreter υ Unit} (h : Runs taken given live) :
    Runs taken given (do
      Interpreter.ensureOpen
      if ← Interpreter.recording then recorded else live) :=
  ensureOpen.after fun _ => recording h

/-! ## Steps on the value stack -/

theorem execute (fuel : Nat) (op : Op) (line : Option UInt32) :
    Runs op.pops op.pushes (execute fuel op line : Work Interpreter υ Unit) where
  ends {session} _ _ := by
    have completes := Machine.ends_complete_operands session.bench.program session.backend.limits
      fuel op session.backend.top session.backend.world
    refine ends_execute (completes.mono (fun _ state replaced => ?_) fun halt state _ => ?_)
    · exact ⟨rfl, refl_of Bench.Beside _, replaced⟩
    · cases halt <;> rfl

theorem perform {operation : String} {op : Op} (h : op.Straight taken given) :
    Runs taken given (perform fuel operation op : Work Interpreter υ Unit) := by
  refine either ⟨fun {session} live enough => ?_⟩
  rw [← h.pops] at enough ⊢
  rw [← h.pushes]
  refine Ends.get (Ends.ite (fun short => absurd enough (Nat.not_le.mpr short)) fun _ => ?_)
  exact Ends.get ((execute fuel op _).ends live enough)

theorem pop (operation : String) : Runs 1 0 (pop operation : Work Interpreter υ Value) where
  ends {session} _ enough := by
    refine Ends.get ?_
    cases stack : session.backend.top.stack with
    | nil => simp [stack] at enough
    | cons value rest =>
        refine Ends.changes (Ends.pure ⟨rfl, refl_of Bench.Beside _, [], rfl, ?_⟩)
        rw [stack]
        rfl

theorem nested {region : Work Interpreter υ α} (h : Runs taken given region) :
    Runs taken given (Work.nested region) where
  ends {session} live enough := by
    have entered : Live { session with bench := session.bench.enterRegion } :=
      ⟨live.checks, live.sharing, live.executes.congr rfl⟩
    refine Work.ends_nested trivial ((h.ends entered enough).weaken ?_)
    intro _ session' scene
    have level : session'.bench.units.nesting - 1 = session.bench.units.nesting := by
      rw [scene.beside.nesting]
      rfl
    exact ⟨scene.units, ⟨scene.beside.config, scene.beside.sharing, scene.beside.owner, level,
      scene.beside.table⟩, scene.stack⟩

theorem primitive (fuel : Nat) (p : Primitive) :
    Runs p.taken p.given (primitive fuel p : Work Interpreter υ Unit) := by
  have acts := p.acts_form
  unfold Interpreter.primitive
  cases form : p.form with
  | op single =>
      obtain ⟨-, straight⟩ : _ ∧ _ := form ▸ acts
      exact perform straight
  | pooled constant make =>
      obtain ⟨-, straight⟩ : _ ∧ _ := form ▸ acts
      have pooled : Runs p.taken p.given (do
          Interpreter.perform fuel p.operation (make (← Work.onBench (Bench.intern constant))) :
            Work Interpreter υ Unit) :=
        .after (.intern constant) fun position => perform (straight position)
      dsimp only
      split
      · exact .after .ensureOpen fun _ => .recording (.get fun session =>
          .ite (fun _ => .get fun _ => .stops (by exact rfl)) fun _ => pooled)
      · exact pooled
  | access index depth assign =>
      obtain ⟨-, straight⟩ : _ ∧ _ := form ▸ acts
      exact .after (.checkScopeDepth depth) fun _ => perform straight
  | aliasMethod newName oldName =>
      obtain ⟨-, taken, given⟩ : _ ∧ _ ∧ _ := form ▸ acts
      rw [taken, given]
      exact .after (.intern _) fun new => .after (.intern _) fun old =>
        perform ⟨rfl, rfl, rfl, rfl⟩
  | yield hasArgs =>
      refine .after .ensureOpen fun _ => ⟨fun {session} live _ => Work.ends_onBench ?_⟩
      unfold Bench.emitYield
      refine Ends.get (Ends.ite (fun _ => Ends.stops trivial) fun inside => ?_)
      simp [live.executes.insideMethod] at inside
  | line line =>
      obtain ⟨-, taken, given⟩ : _ ∧ _ ∧ _ := form ▸ acts
      rw [taken, given]
      exact .after .ensureOpen fun _ => .recording ⟨fun _ _ => Ends.modifies
        ⟨rfl, ⟨rfl, rfl, rfl, rfl, fun _ => Nat.le_refl _⟩, .refl _⟩⟩

/-! ## Nested code -/

section Parts

variable {part : Work Interpreter υ Unit}

/-- A region that leaves one value leaves as many as it owes. -/
theorem ends_runRegion (h : Runs 0 1 part) (live : Live session) (construct : String)
    {allowed : DepthTracker.Allowance} (admits : allowed.admits 1 = true) :
    Ends (runRegion construct allowed part) session
      (fun produced session' => produced = 1 ∧ Scene 0 1 session session')
      fun halt _ => halt.Permitted true := by
  refine Ends.get (Ends.get ((h.ends live (Nat.zero_le _)).bind fun _ session' scene => ?_))
  have length := scene.stack.length
  have produced : (session'.backend.top.stack.length : Int) - session.backend.top.stack.length = 1 := by
    omega
  refine (scene.ends_ensureSameUnit construct).bind ?_
  rintro _ _ rfl
  refine Ends.get (Ends.get ?_)
  rw [produced, admits]
  exact Ends.pure ⟨rfl, scene⟩

/-- What comes after a region takes the value that it has left. -/
theorem region (h : Runs 0 1 part) (construct : String) {allowed : DepthTracker.Allowance}
    (admits : allowed.admits 1 = true) {next : Int → Work Interpreter υ α}
    (rest : Runs 1 given (next 1)) : Runs 0 given (runRegion construct allowed part >>= next) where
  ends live _ := by
    refine (ends_runRegion h live construct admits).bind ?_
    rintro _ session' ⟨rfl, scene⟩
    have length := scene.stack.length
    exact (rest.ends (live.scene scene) (by omega)).weaken fun _ _ => scene.trans

/-- A region whose value stays. -/
theorem keeping (h : Runs 0 1 part) (construct : String) :
    Runs 0 1 (do let _ ← runRegion construct .one part) :=
  ⟨fun live _ => (ends_runRegion h live construct (by decide)).bind
    fun _ _ ⟨_, scene⟩ => Ends.pure scene⟩

theorem guarded (h : Runs taken given part) (construct : String) :
    Runs taken given (Work.guarded construct part) where
  ends live enough := by
    refine Ends.get ((h.ends live enough).bind fun _ session' scene => ?_)
    exact (scene.ends_ensureSameUnit construct).weaken fun _ _ same => same ▸ scene

theorem drop_one (operation : String) :
    Runs 1 0 (drop operation (1 : Int).toNat : Work Interpreter υ Unit) :=
  bind (pop operation) fun _ => pure ()

/-- Every pass of a loop leaves the stack as it was. -/
theorem passes {condition body : Work Interpreter υ Unit} (h₁ : Runs 0 1 condition)
    (h₂ : Runs 0 1 body) (budget : Nat) (test : Bool) :
    Runs 0 0 (passes condition body budget test) := by
  induction budget generalizing test with
  | zero => exact ⟨fun _ _ => Ends.throws rfl⟩
  | succ budget ih =>
      have repeated : Runs 1 0 (do
          drop Work.loopOperation (1 : Int).toNat
          Interpreter.passes condition body budget true : Work Interpreter υ Unit) :=
        bind (drop_one _) fun _ => ih true
      have pass (goOn : Bool) : Runs 0 0 (do
          if goOn then
            let produced ← runRegion (Work.loopOperation ++ " body") .atMostOne body
            drop Work.loopOperation produced.toNat
            Interpreter.passes condition body budget true : Work Interpreter υ Unit) :=
        ite (fun _ => region h₂ _ (show DepthTracker.Allowance.atMostOne.admits 1 = true by decide)
          repeated) fun _ => pure ()
      refine ite (fun _ => ?_) fun _ => pass true
      exact region h₁ _ (show DepthTracker.Allowance.one.admits 1 = true by decide)
        (bind (pop _) fun value => pass value.isTruthy)

/-- The elements of an aggregate leave one value each. -/
theorem elements {element : Nat → Work Interpreter υ Unit} (construct : String) (first total : Nat)
    (h : ∀ index, first ≤ index → index < first + total → Runs 0 1 (element index)) :
    Runs 0 total (Work.forEachIndex (fun index => do
      let _ ← runRegion construct .one (element index)) first total) := by
  induction total generalizing first with
  | zero => exact pure ()
  | succ total ih =>
      have one := keeping (h first (Nat.le_refl _) (by omega)) construct
      have rest := ih (first + 1) fun index low high => h index (by omega) (by omega)
      exact (bind one fun _ => rest).cast (by omega) (by omega)

/-! ## Operations with nested code -/

theorem branch {onTrue onFalse : Work Interpreter υ Unit} (h₁ : Runs 0 1 onTrue)
    (h₂ : Runs 0 1 onFalse) : Runs 1 1 (branch onTrue onFalse) := by
  have arm (condition : Value) : Runs 0 1 (Work.guarded "perform_boolean_branch"
      (Work.nested (if condition.isTruthy then onTrue else onFalse))) :=
    guarded (nested (ite (fun _ => h₁) fun _ => h₂)) _
  exact either (bind (pop _) arm)

theorem logical (connective : Connective) {right : Work Interpreter υ Unit} (h : Runs 0 1 right) :
    Runs 1 1 (logical connective right) := by
  have replaced : Runs 1 1 (do
      let _ ← Interpreter.pop connective.operation
      Work.nested do
        let _ ← runRegion connective.operation .one right : Work Interpreter υ Unit) :=
    bind (pop _) fun _ => nested (keeping h _)
  refine either ⟨fun {session} live enough => Ends.get ?_⟩
  cases stack : session.backend.top.stack with
  | nil => simp [stack] at enough
  | cons left rest =>
      refine Ends.ite (fun _ => replaced.ends live enough) fun _ => Ends.pure ?_
      refine ⟨rfl, refl_of Bench.Beside _, [left], rfl, ?_⟩
      rw [stack]
      rfl

theorem loop (fuel : Nat) {condition body : Work Interpreter υ Unit} (h₁ : Runs 0 1 condition)
    (h₂ : Runs 0 1 body) (checkFirst : Bool) : Runs 0 0 (loop fuel condition body checkFirst) :=
  either (nested (passes h₁ h₂ fuel checkFirst))

theorem objectArray (fuel : Nat) {total : Nat} {element : Nat → Work Interpreter υ Unit}
    (h : ∀ index < total, Runs 0 1 (element index)) (short : total < 2 ^ 31) :
    Runs 0 1 (objectArray fuel total element) := by
  have exact : total.toUInt32.toNat = total := Program.toNat_toUInt32_short short
  have parts := elements (Work.arrayOperation ++ " element") 0 total fun index _ inside =>
    h index (by omega)
  have collapse : (Op.makeArray total.toUInt32).Straight total 1 := ⟨exact, rfl, rfl, rfl⟩
  exact either ((bind (nested parts) fun _ => perform collapse).cast (by omega) (by omega))

end Parts

section Bodies

variable {body : Work Interpreter υ Unit} (fits : (Backend.immediate fuel).Fits body)

include fits

theorem recordUnit (kind : UnitKind) (name : String) (arity localCount : Nat)
    (locals : List String) :
    Runs 0 0 (Work.recordUnit kind name arity localCount locals body) := by
  obtain ⟨count, short, writes⟩ := fits
  exact ⟨fun live _ => (Backend.ends_recordUnit writes short (live.prepared fuel) kind name arity
    localCount locals).weaken fun _ _ => Session.Intact.scene⟩

theorem closure (scope : StaticScope) (arity : Nat) :
    Runs 0 1 (closure fuel scope arity body) :=
  .after .ensureOpen fun _ => .after (.get fun _ => recordUnit fits _ _ _ _ _) fun _ =>
    perform ⟨rfl, rfl, rfl, rfl⟩

theorem defineMethod (name : String) (arity localCount : Nat) :
    Runs 0 0 (defineMethod fuel name arity localCount body) :=
  .after .ensureOpen fun _ => .after (recordUnit fits _ _ _ _ _) fun _ =>
    .after (.intern _) fun _ => perform ⟨rfl, rfl, rfl, rfl⟩

end Bodies

theorem invoke (name : String) {shape : Invocation} (few : shape.argc < 2 ^ 31)
    {block : Option (BlockBody (Session Interpreter υ))}
    (fits : ∀ given, block = some given → (Backend.immediate fuel).Fits given.body) :
    Runs shape.consumed 1 (invoke fuel name shape block) := by
  have called : Runs shape.consumed 1 (do
      let block ← Work.recordBlock? block
      let position ← Work.onBench (Bench.intern (.name name))
      Interpreter.perform fuel Work.callOperation
        (.send position shape.argc.toUInt32 shape.hasReceiver block) : Work Interpreter υ Unit) := by
    refine .after ?_ fun slot => .after (.intern _) fun position =>
      perform (shape.straight_send few position slot)
    cases block with
    | none => exact pure none
    | some given => exact .after (.get fun _ => recordUnit (fits given rfl) _ _ _ _ _) fun _ => pure _
  exact either ⟨fun live enough => Ends.get (Ends.ite
    (fun short => absurd enough (Nat.not_le.mpr short)) fun _ => called.ends live enough)⟩

end Runs

end Interpreter

end BlockScript
