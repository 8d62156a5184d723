import BlockScript.Proofs.Builder.Lines

/-!
# The line table against the history of a builder

A code object is recorded step by step: a line is set, an operation or a jump is appended, a
waiting jump is aimed. The line table of the finished code is a second account of that history.
Each operation is on the line that was set last before it was appended, whatever came between,
and on none where no line was set before.
-/

namespace BlockScript.Builder

/-- One step of recording a code object. -/
inductive Step where
  | setLine (line : UInt32)
  | emit (operation : String) (op : Op)
  | jump (operation : String) (kind : JumpKind)
  | jumpBack (operation : String) (kind : JumpKind) (target : Nat)
  | patch (waiting : JumpPatch)
deriving DecidableEq, Repr

namespace Step

/-- The line that the step sets. -/
def line : Step → Option UInt32
  | .setLine line => some line
  | _ => none

/-- The builder after the step. A refused operation leaves it as it was. -/
def perform (builder : Builder) : Step → Builder
  | .setLine line => builder.setLine line
  | .emit operation op => (builder.emit operation op).toOption.getD builder
  | .jump operation kind => ((builder.emitJump operation kind).toOption.map (·.2)).getD builder
  | .jumpBack operation kind target =>
      (builder.emitJumpBack operation kind target).toOption.getD builder
  | .patch waiting => builder.patchHere waiting

/-- The builder after all steps of a history, which stands in the order of its steps. -/
def performAll (steps : List Step) (builder : Builder) : Builder := steps.foldl perform builder

/-- The line that was set last in a history. -/
def lastLine : List Step → Option UInt32
  | [] => none
  | step :: rest => (lastLine rest).or step.line

/-- The part of a history that comes before the step that appends the operation at a position,
and all of it where no step does. -/
def issuedBefore (position : Nat) (builder : Builder) : List Step → List Step
  | [] => []
  | step :: rest =>
      let next := step.perform builder
      if position < next.label then [] else step :: issuedBefore position next rest

variable {builder : Builder}

/-- A step that sets no line leaves the line table alone. -/
theorem unmarked_perform {step : Step} (silent : step.line = none) :
    builder.Unmarked (step.perform builder) := by
  have emitted (operation : String) (op : Op) :
      builder.Unmarked ((builder.emit operation op).toOption.getD builder) := by
    cases run : builder.emit operation op with
    | error _ => exact refl_of Unmarked builder
    | ok _ => exact unmarked_emit run
  cases step with
  | setLine line => cases silent
  | emit operation op => exact emitted operation op
  | jump operation kind =>
      simp only [perform]
      cases run : builder.emitJump operation kind with
      | error _ => exact refl_of Unmarked builder
      | ok _ => exact unmarked_emit (emitJump_ok run).2
  | jumpBack operation kind target => exact emitted operation _
  | patch waiting => exact unmarked_patchHere builder waiting

/-- Each step keeps the lines of what was appended before. -/
theorem retains_perform (builder : Builder) (step : Step) :
    builder.Retains (step.perform builder) := by
  cases line : step.line with
  | none => exact (unmarked_perform line).retains
  | some line =>
      cases step <;> cases line
      exact retains_setLine builder _

/-- After a step, the line in effect is the one it sets, else the one that was in effect. -/
theorem lineFor_perform {step : Step} (listed : builder.Listed)
    (small : (step.perform builder).label < 2 ^ 32) :
    (step.perform builder).code.lineFor (step.perform builder).label =
      step.line.or (builder.code.lineFor builder.label) := by
  cases line : step.line with
  | none =>
      have unmarked : builder.Unmarked (step.perform builder) := unmarked_perform line
      exact unmarked.lineFor listed unmarked.label small
  | some line =>
      cases step <;> cases line
      exact lineFor_setLine listed small _

theorem retains_performAll (steps : List Step) (builder : Builder) :
    builder.Retains (performAll steps builder) := by
  induction steps generalizing builder with
  | nil => exact refl_of Retains builder
  | cons step rest ih => exact trans_of Retains (retains_perform builder step) (ih _)

/-- From where a history starts, each position is on the line that the history set last before
it, and on the line that was in effect at the start where the history had set none. -/
theorem lineFor_performAll {steps : List Step} {position : Nat} (listed : builder.Listed)
    (fits : (performAll steps builder).label < 2 ^ 32) (after : builder.label ≤ position)
    (small : position < 2 ^ 32) :
    (performAll steps builder).code.lineFor position =
      (lastLine (issuedBefore position builder steps)).or
        (builder.code.lineFor builder.label) := by
  induction steps generalizing builder with
  | nil => exact (refl_of Unmarked builder).lineFor listed after small
  | cons step rest ih =>
      have kept := retains_perform builder step
      have later := retains_performAll rest (step.perform builder)
      have fits' : (step.perform builder).label < 2 ^ 32 := Nat.lt_of_le_of_lt later.label fits
      unfold issuedBefore
      dsimp only
      split
      · -- the step appends this operation, so that it sets no line
        rename_i reached
        have silent : step.line = none := by
          cases step with
          | setLine line => exact absurd reached (Nat.not_lt_of_le after)
          | _ => rfl
        calc (performAll rest (step.perform builder)).code.lineFor position
          _ = (step.perform builder).code.lineFor position :=
              later.lines (kept.listed listed) fits position reached
          _ = builder.code.lineFor builder.label :=
              (unmarked_perform silent).lineFor listed after small
      · rename_i beyond
        calc (performAll rest (step.perform builder)).code.lineFor position
          _ = (lastLine (issuedBefore position (step.perform builder) rest)).or
                (step.line.or (builder.code.lineFor builder.label)) := by
              rw [← lineFor_perform listed fits']
              exact ih (kept.listed listed) fits (Nat.le_of_not_lt beyond)
          _ = _ := (Option.or_assoc ..).symm

end Step

variable {name : String} {kind : UnitKind} {arity localCount : Nat} {locals : List String}
variable {checkStack : Bool} {steps : List Step} {code : Code}

/-- The line table of a finished code object is faithful to the history of its builder: its
entries ascend, and each operation, those that close the unit included, is on the line that was
set last before it was appended, or on none. -/
theorem lines_faithful
    (finished : (Step.performAll steps
      (.new name kind arity localCount locals checkStack)).finish = .ok code)
    (small : code.ops.size < 2 ^ 32) :
    code.lines.Ascends ∧ ∀ position < code.ops.size, code.lineFor position =
      Step.lastLine (Step.issuedBefore position
        (.new name kind arity localCount locals checkStack) steps) := by
  obtain ⟨lines, -, closed⟩ := lines_finish finished
  have fits := Nat.lt_of_le_of_lt closed small
  have listed : (Builder.new name kind arity localCount locals checkStack).Listed :=
    listed_of_empty rfl
  refine ⟨?_, fun position inside => ?_⟩
  · rw [lines]
    exact ((Step.retains_performAll steps _).listed listed fits).ascends
  · have effect := Step.lineFor_performAll listed fits (Nat.zero_le position)
      (Nat.lt_trans inside small)
    rw [Code.lineFor, lines]
    exact effect.trans Option.or_none

/-- A marker that is replaced before anything is appended, one that repeats the line in effect,
and one that only the end of the unit stands behind. -/
theorem lines_faithful_markers :
    let steps : List Step := [.emit "load_nil" .pushNil, .setLine 3, .setLine 4,
      .emit "pop" .pop, .setLine 4, .emit "load_true" .pushTrue, .setLine 2]
    let builder := Builder.new "main" .script 0 0 [] true
    let code : Code :=
      { builder.code with ops := #[.pushNil, .pop, .pushTrue, .ret], lines := #[⟨1, 4⟩, ⟨3, 2⟩]
                          maxStack := 1 }
    (List.range 4).map code.lineFor = [none, some 4, some 4, some 2] ∧ code.lines.Ascends ∧
      ∀ position < 4, code.lineFor position =
        Step.lastLine (Step.issuedBefore position builder steps) :=
  ⟨by decide, lines_faithful rfl (by decide)⟩

end BlockScript.Builder
