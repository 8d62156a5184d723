import BlockScript.Backend.Interpreter

/-!
# Emission of nested code that is related

Two computations that are put together in the same way are related if their parts are, whatever the
relation is that is kept when computations are put together. So the emission of nested code is
related to the emission of related code, and its execution to the execution of related code.
-/

namespace BlockScript

variable {β υ α γ : Type}

/-- A relation between computations that is kept when they are put together. -/
structure Congruent (R : ∀ {α : Type}, Work β υ α → Work β υ α → Prop) : Prop where
  refl : ∀ {α : Type} (work : Work β υ α), R work work
  bind : ∀ {α γ : Type} {first first' : Work β υ α} {next next' : α → Work β υ γ},
    R first first' → (∀ value, R (next value) (next' value)) → R (first >>= next) (first' >>= next')
  cleaning : ∀ {α : Type} {work work' : Work β υ α}, R work work' → ∀ cleanUp : Bench → Bench,
    R (work.cleaning cleanUp) (work'.cleaning cleanUp)

namespace Congruent

variable {R : ∀ {α : Type}, Work β υ α → Work β υ α → Prop} (related : Congruent (β := β) (υ := υ) R)

include related

/-- What comes second is related. -/
theorem after (first : Work β υ α) {next next' : α → Work β υ γ}
    (h : ∀ value, R (next value) (next' value)) : R (first >>= next) (first >>= next') :=
  related.bind (related.refl first) h

/-- What comes first is related. -/
theorem before {first first' : Work β υ α} (h : R first first') (next : α → Work β υ γ) :
    R (first >>= next) (first' >>= next) :=
  related.bind h fun value => related.refl (next value)

omit related in
theorem ite {c : Prop} [Decidable c] {yes yes' no no' : Work β υ α} (h₁ : R yes yes')
    (h₂ : R no no') : R (if c then yes else no) (if c then yes' else no') := by
  by_cases h : c
  · rwa [if_pos h, if_pos h]
  · rwa [if_neg h, if_neg h]

theorem nested {region region' : Work β υ α} (h : R region region') :
    R (Work.nested region) (Work.nested region') :=
  related.after _ fun _ => related.after _ fun _ => related.before (related.cleaning h _) _

variable {part part' other other' : Work β υ Unit}

theorem runRegion (construct : String) (allowed : DepthTracker.Allowance) (h : R part part') :
    R (Work.runRegion construct allowed part) (Work.runRegion construct allowed part') :=
  related.after _ fun _ => related.after _ fun _ => related.before h _

theorem emitBranch (h₁ : R part part') (h₂ : R other other') :
    R (Work.emitBranch part other) (Work.emitBranch part' other') :=
  related.nested <| related.after _ fun _ => related.after _ fun _ => related.after _ fun _ =>
    related.bind h₁ fun _ => related.after _ fun _ => related.after _ fun _ => related.after _ fun _ =>
      related.after _ fun _ => related.after _ fun _ => related.before h₂ _

theorem emitLogical (connective : Connective) (h : R part part') :
    R (Work.emitLogical connective part) (Work.emitLogical connective part') :=
  related.nested <| related.after _ fun _ => related.after _ fun _ => related.after _ fun _ =>
    related.before (related.runRegion _ _ h) _

theorem emitLoop (h₁ : R part part') (h₂ : R other other') (checkFirst : Bool) :
    R (Work.emitLoop part other checkFirst) (Work.emitLoop part' other' checkFirst) := by
  have tested : R (Work.emitCondition part) (Work.emitCondition part') :=
    related.before (related.runRegion _ _ h₁) _
  have repeated : R (Work.emitLoopBody other) (Work.emitLoopBody other') :=
    related.before (related.runRegion _ _ h₂) _
  refine related.nested (related.after _ fun builder => ?_)
  cases checkFirst with
  | true => exact related.bind tested fun _ => related.after _ fun _ => related.before repeated _
  | false => exact related.bind repeated fun _ => related.before tested _

theorem forEachIndex {action action' : Nat → Work β υ Unit} (h : ∀ index, R (action index) (action' index))
    (first count : Nat) :
    R (Work.forEachIndex action first count) (Work.forEachIndex action' first count) := by
  induction count generalizing first with
  | zero => exact related.refl _
  | succ count ih => exact related.bind (h first) fun _ => ih (first + 1)

theorem emitArray (count : Nat) {element element' : Nat → Work β υ Unit}
    (h : ∀ index, R (element index) (element' index)) :
    R (Work.emitArray count element) (Work.emitArray count element') :=
  related.nested <| related.before (related.forEachIndex
    (fun index => related.before (related.runRegion _ _ (h index)) _) 0 count) _

theorem recordUnit (kind : UnitKind) (name : String) (arity localCount : Nat) (locals : List String)
    (h : R part part') : R (Work.recordUnit kind name arity localCount locals part)
      (Work.recordUnit kind name arity localCount locals part') :=
  related.after _ fun _ => related.after _ fun _ => related.cleaning (related.before h _) _

theorem recordBlock (scope : StaticScope) (arity : Nat) (h : R part part') :
    R (Work.recordBlock scope arity part) (Work.recordBlock scope arity part') :=
  related.after _ fun _ => related.recordUnit _ _ _ _ _ h

theorem recordBlock? (scope : StaticScope) (arity : Nat) (h : R part part') :
    R (Work.recordBlock? (some ⟨scope, arity, part⟩)) (Work.recordBlock? (some ⟨scope, arity, part'⟩)) :=
  related.before (related.recordBlock scope arity h) _

theorem emitCall (name : String) (shape : Invocation) {block block' : Option (BlockBody (Session β υ))}
    (h : R (Work.recordBlock? block) (Work.recordBlock? block')) :
    R (Work.emitCall name shape block) (Work.emitCall name shape block') :=
  related.before h _

end Congruent

/-! ## At script level -/

namespace Congruent

variable {R : ∀ {α : Type}, Work Interpreter υ α → Work Interpreter υ α → Prop}
  (related : Congruent (β := Interpreter) (υ := υ) R) {part part' other other' : Work Interpreter υ Unit}

include related

/-- What is recorded, and what is carried out where nothing is recorded. -/
theorem either {recorded recorded' live live' : Work Interpreter υ Unit} (h₁ : R recorded recorded')
    (h₂ : R live live') :
    R (do Interpreter.ensureOpen; if ← Interpreter.recording then recorded else live)
      (do Interpreter.ensureOpen; if ← Interpreter.recording then recorded' else live') :=
  related.after _ fun _ => related.after _ fun _ => ite h₁ h₂

theorem region (construct : String) (allowed : DepthTracker.Allowance) (h : R part part') :
    R (Interpreter.runRegion construct allowed part)
      (Interpreter.runRegion construct allowed part') :=
  related.after _ fun _ => related.after _ fun _ => related.before h _

theorem branch (h₁ : R part part') (h₂ : R other other') :
    R (Interpreter.branch part other) (Interpreter.branch part' other') :=
  related.either (related.emitBranch h₁ h₂) (related.after _ fun _ => related.after _ fun _ =>
    related.before (related.nested (ite h₁ h₂)) _)

theorem logical (connective : Connective) (h : R part part') :
    R (Interpreter.logical connective part) (Interpreter.logical connective part') := by
  refine related.either (related.emitLogical connective h) (related.after _ fun stack => ?_)
  cases stack with
  | nil => exact related.refl _
  | cons left rest =>
      exact ite (related.after _ fun _ => related.nested
        (related.before (related.region _ _ h) _)) (related.refl _)

/-- The elements, and what collapses them. -/
theorem objectArray {fuel fuel' : Nat} (count : Nat) {element element' : Nat → Work Interpreter υ Unit}
    (h : ∀ index, R (element index) (element' index))
    (collapse : R (Interpreter.perform fuel Work.arrayOperation (.makeArray count.toUInt32))
      (Interpreter.perform fuel' Work.arrayOperation (.makeArray count.toUInt32))) :
    R (Interpreter.objectArray fuel count element) (Interpreter.objectArray fuel' count element') :=
  related.either (related.emitArray count h) (related.bind (related.nested (related.forEachIndex
    (fun index => related.before (related.region _ _ (h index)) _) 0 count)) fun _ => collapse)

/-- One pass of a loop, and what comes after it. -/
theorem pass {again again' : Work Interpreter υ Unit} (h₁ : R part part') (h₂ : R other other')
    (rest : R again again') (test : Bool) :
    R (do
        let goOn ← if test then do
            let _ ← Interpreter.runRegion (Work.loopOperation ++ " condition") .one part
            pure (← Interpreter.pop Work.loopOperation).isTruthy
          else pure true
        if goOn then
          let produced ← Interpreter.runRegion (Work.loopOperation ++ " body") .atMostOne other
          Interpreter.drop Work.loopOperation produced.toNat
          again)
      (do
        let goOn ← if test then do
            let _ ← Interpreter.runRegion (Work.loopOperation ++ " condition") .one part'
            pure (← Interpreter.pop Work.loopOperation).isTruthy
          else pure true
        if goOn then
          let produced ← Interpreter.runRegion (Work.loopOperation ++ " body") .atMostOne other'
          Interpreter.drop Work.loopOperation produced.toNat
          again') := by
  have chosen (goOn : Bool) : R (do
        if goOn then
          let produced ← Interpreter.runRegion (Work.loopOperation ++ " body") .atMostOne other
          Interpreter.drop Work.loopOperation produced.toNat
          again)
      (do
        if goOn then
          let produced ← Interpreter.runRegion (Work.loopOperation ++ " body") .atMostOne other'
          Interpreter.drop Work.loopOperation produced.toNat
          again') :=
    ite (related.bind (related.region _ _ h₂) fun _ => related.after _ fun _ => rest)
      (related.refl _)
  exact ite (related.bind (related.region _ _ h₁) fun _ => related.after _ fun _ => chosen _)
    (chosen true)

theorem passes (h₁ : R part part') (h₂ : R other other') (fuel : Nat) (test : Bool) :
    R (Interpreter.passes part other fuel test) (Interpreter.passes part' other' fuel test) := by
  induction fuel generalizing test with
  | zero => exact related.refl _
  | succ fuel ih => exact related.pass h₁ h₂ (ih true) test

end Congruent

end BlockScript
