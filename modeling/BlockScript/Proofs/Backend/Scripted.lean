import BlockScript.Backend.Interpreter
import BlockScript.Proofs.Backend.Composed
import BlockScript.Proofs.Contract.Straight

/-!
# How the immediate backend carries out nested code

At script level an operation with nested code takes values from the stack of the script, runs
nested code, compares depths, and executes what collects the results. So a property that these
steps have and that is kept when computations are put together is one of the whole operation,
provided that the operation has it when it is recorded.
-/

namespace BlockScript.Interpreter

variable {υ α : Type}

/-- An operation that is executed changes the activation of the script and the world, and an error
is reported with a line. -/
theorem ends_execute {fuel : Nat} {op : Op} {line : Option UInt32}
    {session : Session Interpreter υ} {done : Unit → Session Interpreter υ → Prop}
    {failed : Halt CompileError → Session Interpreter υ → Prop}
    (h : Ends (Machine.complete session.bench.program session.backend.limits fuel op)
      (session.backend.top, session.backend.world)
      (fun _ state => done () { session with
        backend := { session.backend with top := state.1, world := state.2 } })
      fun halt state => failed
        (match halt with
          | .failure error => .failure (.runtime error line)
          | .outOfFuel => .outOfFuel)
        { session with backend := { session.backend with top := state.1, world := state.2 } }) :
    Ends (execute fuel op line) session done failed := by
  obtain ⟨bench, ⟨limits, world, top, script, result⟩, client⟩ := session
  unfold Ends execute
  dsimp only
  cases run : Machine.complete bench.program limits fuel op (top, world) with
  | ok value state => exact h.ok run
  | error halt state => cases halt <;> exact h.error run

/-- A property that the steps at script level have and that is kept when computations are put
together. -/
structure Scripted (fuel : Nat) (P : ∀ {α : Type}, Work Interpreter υ α → Prop) : Prop extends
    Sequenced (β := Interpreter) (υ := υ) P where
  look : ∀ {γ : Type} (view : Activation → World → γ), P (do
    let session ← get
    return view session.backend.top session.backend.world : Work Interpreter υ γ)
  pop : ∀ operation : String, P (pop operation : Work Interpreter υ Value)
  collapse : ∀ (operation : String) (count : UInt32),
    P (perform fuel operation (.makeArray count) : Work Interpreter υ Unit)

namespace Scripted

variable {fuel : Nat} {P : ∀ {α : Type}, Work Interpreter υ α → Prop}
  (scripted : Scripted (υ := υ) fuel P) {part : Work Interpreter υ Unit}

include scripted

/-- What is done next depends on what is seen of the activation and the world. -/
theorem looks {γ : Type} (view : Activation → World → γ) {next : γ → Work Interpreter υ α}
    (h : ∀ seen, P (next seen)) : P (do
      let session ← get
      next (view session.backend.top session.backend.world)) :=
  have bound := scripted.bind (scripted.look view) h
  bound

theorem stack : P (stack : Work Interpreter υ (List Value)) :=
  scripted.look fun top _ => top.stack

theorem recording : P (recording : Work Interpreter υ Bool) :=
  scripted.bind scripted.bench fun _ => scripted.pure _

theorem ensureOpen : P (ensureOpen : Work Interpreter υ Unit) :=
  scripted.bind scripted.bench fun _ => Sequenced.ite (scripted.violate _) (scripted.pure ())

/-- An operation is recorded or carried out. -/
theorem either {recorded live : Work Interpreter υ α} (h₁ : P recorded) (h₂ : P live) : P (do
    Interpreter.ensureOpen
    if ← Interpreter.recording then recorded else live) :=
  scripted.bind scripted.ensureOpen fun _ => scripted.bind scripted.recording fun _ =>
    Sequenced.ite h₁ h₂

theorem drop (operation : String) (count : Nat) :
    P (drop operation count : Work Interpreter υ Unit) := by
  induction count with
  | zero => exact scripted.pure ()
  | succ count ih => exact scripted.bind (scripted.pop operation) fun _ => ih

/-- How a region ends: in the same unit, and with the values it owes. -/
theorem endRegion (construct : String) (allowed : DepthTracker.Allowance) (units before : Nat) :
    P (do
      Work.ensureSameUnit construct units
      let produced : Int := (← Interpreter.stack).length - before
      if !allowed.admits produced && (← Work.bench).config.checkStack then
        Work.violate (.callbackResult construct allowed.text produced)
      return produced : Work Interpreter υ Int) :=
  scripted.bind (scripted.ensureSameUnit _ _) fun _ => scripted.bind scripted.stack fun _ =>
    scripted.bind scripted.bench fun _ =>
      Sequenced.ite (scripted.bind (scripted.violate _) fun _ => scripted.pure _) (scripted.pure _)

theorem runRegion (construct : String) (allowed : DepthTracker.Allowance) (h : P part) :
    P (runRegion construct allowed part) :=
  scripted.bind scripted.bench fun _ => scripted.bind scripted.stack fun _ => scripted.bind h fun _ =>
    scripted.endRegion _ _ _ _

theorem passes {condition body : Work Interpreter υ Unit} (h₁ : P condition) (h₂ : P body)
    (budget : Nat) (test : Bool) : P (passes condition body budget test) := by
  induction budget generalizing test with
  | zero => exact scripted.breakOff
  | succ budget ih =>
      have pass (goOn : Bool) : P (do
          if goOn then
            let produced ← Interpreter.runRegion (Work.loopOperation ++ " body") .atMostOne body
            Interpreter.drop Work.loopOperation produced.toNat
            Interpreter.passes condition body budget true : Work Interpreter υ Unit) :=
        Sequenced.ite (scripted.bind (scripted.runRegion _ _ h₂) fun _ =>
          scripted.bind (scripted.drop _ _) fun _ => ih true) (scripted.pure ())
      exact Sequenced.ite (scripted.bind (scripted.runRegion _ _ h₁) fun _ =>
        scripted.bind (scripted.pop _) fun _ => pass _) (pass true)

/-- What an operation with nested code does at script level. -/
theorem live (nested : ∀ {region : Work Interpreter υ Unit}, P region → P (Work.nested region))
    {operation : Control (Session Interpreter υ)} (parts : ∀ part, operation.Has part → P part) :
    ∃ live : Work Interpreter υ Unit, P live ∧ operation.issue (contract υ fuel) = (do
      Interpreter.ensureOpen
      if ← Interpreter.recording then operation.emit else live) := by
  cases operation with
  | branch onTrue onFalse =>
      refine ⟨_, scripted.bind (scripted.pop _) fun _ => ?_, rfl⟩
      exact scripted.bind scripted.bench fun _ =>
        scripted.bind (nested (Sequenced.ite (parts _ (.inl rfl)) (parts _ (.inr rfl)))) fun _ =>
        scripted.ensureSameUnit _ _
  | logical connective right =>
      refine ⟨_, scripted.bind scripted.stack fun values => ?_, rfl⟩
      cases values with
      | nil => exact scripted.violate _
      | cons left rest =>
          exact Sequenced.ite (scripted.bind (scripted.pop _) fun _ => nested
            (scripted.bind (scripted.runRegion _ _ (parts _ rfl)) fun _ => scripted.pure _))
            (scripted.pure _)
  | loop condition body checkFirst =>
      exact ⟨_, nested (scripted.passes (parts _ (.inl rfl)) (parts _ (.inr rfl)) fuel checkFirst), rfl⟩
  | array count element =>
      exact ⟨_, scripted.bind (nested (scripted.forEachIndex (fun index =>
        scripted.bind (scripted.runRegion _ _ (parts _ ⟨index, rfl⟩)) fun _ => scripted.pure _)
        0 count)) fun _ => scripted.collapse _ _, rfl⟩

/-- An operation with nested code in the same unit. -/
theorem control (nested : ∀ {region : Work Interpreter υ Unit}, P region → P (Work.nested region))
    {operation : Control (Session Interpreter υ)} (emits : P operation.emit)
    (parts : ∀ part, operation.Has part → P part) : P (operation.issue (contract υ fuel)) := by
  obtain ⟨live, lives, issues⟩ := scripted.live nested parts
  rw [issues]
  exact scripted.either emits lives

end Scripted

/-! ## Operations without nested code -/

/-- The same of a property that the steps have of operations without nested code, apart from
setting a line. -/
structure Direct (fuel : Nat) (P : ∀ {α : Type}, Work Interpreter υ α → Prop) : Prop extends
    Scripted fuel P where
  perform : ∀ (operation : String) {op : Op}, op.falls = true → op.jumpOffset? = none →
    P (perform fuel operation op : Work Interpreter υ Unit)
  intern : ∀ constant : Constant,
    P (Work.onBench (Bench.intern constant) : Work Interpreter υ UInt32)
  checkScopeDepth : ∀ depth : Nat,
    P (Work.onBench (Bench.checkScopeDepth depth) : Work Interpreter υ Unit)
  emitYield : ∀ (operation : String) (hasArgs : Bool),
    P (Work.onBench (Bench.emitYield operation hasArgs) : Work Interpreter υ Unit)

namespace Direct

variable {fuel : Nat} {P : ∀ {α : Type}, Work Interpreter υ α → Prop}
  (steps : Direct (υ := υ) fuel P)

include steps

/-- Setting a line, if both of its steps have the property. -/
theorem mark (setLine : ∀ line : UInt32,
      P (Work.onBench (Bench.setLine line) : Work Interpreter υ Unit))
    (setCurrent : ∀ line : UInt32,
      P (Work.modifyBench fun bench => { bench with line := some line } : Work Interpreter υ Unit))
    (line : UInt32) : P (Interpreter.primitive fuel (.line line) : Work Interpreter υ Unit) :=
  steps.either (steps.bind (setLine line) fun _ => setCurrent line) (setCurrent line)

theorem primitive (p : Primitive)
    (marks : ∀ line, p = .line line → P (Interpreter.primitive fuel p : Work Interpreter υ Unit)) :
    P (Interpreter.primitive fuel p : Work Interpreter υ Unit) := by
  have acts := p.acts_form
  unfold Interpreter.primitive
  split <;> rename_i form <;> rw [form] at acts
  · exact steps.perform _ acts.2.falls acts.2.straight
  · rename_i constant op
    have pooled : P (do
        Interpreter.perform fuel p.operation (op (← Work.onBench (Bench.intern constant))) :
          Work Interpreter υ Unit) :=
      steps.bind (steps.intern constant) fun position =>
        steps.perform _ (acts.2 position).falls (acts.2 position).straight
    split
    · rename_i name
      have refuses : P (do
          Work.fail (.resolution .constant name (← Work.bench).currentLine)
          Interpreter.perform fuel _ (op (← Work.onBench (Bench.intern constant))) :
            Work Interpreter υ Unit) :=
        steps.bind steps.bench fun _ => steps.bind (steps.fail trivial) fun _ => pooled
      exact steps.bind steps.ensureOpen fun _ => steps.bind steps.recording fun recorded =>
        steps.looks (fun _ world => (world.constants.get? name).isNone)
          fun unset => show P (if (!recorded && unset) = true then _ else _) from
            Sequenced.ite refuses pooled
    · exact pooled
  · exact steps.bind (steps.checkScopeDepth _) fun _ =>
      steps.perform _ acts.2.falls acts.2.straight
  · exact steps.bind (steps.intern _) fun _ => steps.bind (steps.intern _) fun _ =>
      steps.perform _ rfl rfl
  · exact steps.bind steps.ensureOpen fun _ => steps.emitYield _ _
  · rename_i line
    obtain rfl : p = .line line := by
      cases p <;> cases form
      rfl
    exact marks line rfl

end Direct

/-! ## All operations -/

/-- The same of a property that every step of the backend has, apart from those by which control
flow is recorded and from setting a line. -/
structure Immediate (fuel : Nat) (P : ∀ {α : Type}, Work Interpreter υ α → Prop) : Prop extends
    Direct fuel P, Enclosing (β := Interpreter) (υ := υ) P where
  nested : ∀ {region : Work Interpreter υ Unit}, P region → P (Work.nested region)
  startScript : P (startScript : Work Interpreter υ Unit)
  endScript : P (endScript : Work Interpreter υ Unit)

namespace Immediate

variable {fuel : Nat} {P : ∀ {α : Type}, Work Interpreter υ α → Prop}
  (steps : Immediate (υ := υ) fuel P)

include steps

/-- An operation has the property if its nested code has, and what is recorded of it. -/
theorem issue {operation : Operation (Session Interpreter υ) α}
    (parts : ∀ part, operation.Has part → P part)
    (emits : ∀ inner, operation.Controls inner → P inner.emit)
    (marks : ∀ line, operation.Marks line →
      P (Interpreter.primitive fuel (.line line) : Work Interpreter υ Unit)) :
    P (operation.issue (contract υ fuel)) := by
  cases operation with
  | startScript => exact steps.startScript
  | endScript => exact steps.endScript
  | beginMethod name arity localCount =>
      exact steps.bind steps.ensureOpen fun _ => steps.openUnit (by nofun) _ _ _ _
  | endMethod handle => exact steps.bind (steps.closeUnit _ _) fun _ => steps.pure _
  | primitive p => exact steps.primitive p fun line marked => marked ▸ marks line marked
  | invoke name shape block =>
      have bodies (given : BlockBody (Session Interpreter υ)) (h : block = some given) :
          P given.body := parts _ ⟨given, h, rfl⟩
      have calls : P (do
          let block ← Work.recordBlock? block
          let position ← Work.onBench (Bench.intern (.name name))
          Interpreter.perform fuel Work.callOperation
            (.send position shape.argc.toUInt32 shape.hasReceiver block)) :=
        steps.bind (steps.recordBlock? bodies) fun _ => steps.bind (steps.intern _) fun _ =>
          steps.perform _ rfl rfl
      exact steps.either (steps.emitCall _ _ bodies) (steps.bind steps.stack fun _ =>
        Sequenced.ite (steps.bind (steps.violate _) fun _ => calls) calls)
  | control inner => exact steps.control steps.nested (emits inner rfl) parts
  | closure scope arity body =>
      exact steps.bind steps.ensureOpen fun _ =>
        steps.bind (steps.recordBlock scope arity (parts _ rfl)) fun _ => steps.perform _ rfl rfl
  | defineMethod name arity localCount body =>
      exact steps.bind steps.ensureOpen fun _ =>
        steps.bind (steps.recordUnit (by nofun) name arity localCount [] (parts _ rfl)) fun _ =>
          steps.bind (steps.intern _) fun _ => steps.perform _ rfl rfl

end Immediate

end BlockScript.Interpreter
