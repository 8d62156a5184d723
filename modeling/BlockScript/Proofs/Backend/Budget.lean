import BlockScript.Contract.Action
import BlockScript.Backend.Interpreter
import BlockScript.Proofs.Backend.Congruent
import BlockScript.Proofs.Backend.Ensures
import BlockScript.Proofs.Machine.Runs

/-!
# Larger budgets

A budget only decides whether the immediate backend gives up. Whatever it comes to within a budget,
it comes to within every larger one.
-/

namespace BlockScript

variable {β υ α γ : Type} {ε : Type}

/-- The second computation comes to what the first one does, unless that uses up its budget. -/
def Work.Widens (work work' : Work β υ α) : Prop :=
  ∀ session, (∃ session', work session = .error .outOfFuel session') ∨ work' session = work session

namespace Work.Widens

theorem refl (work : Work β υ α) : work.Widens work := fun _ => .inr rfl

theorem bind {first first' : Work β υ α} {next next' : α → Work β υ γ} (h₁ : first.Widens first')
    (h₂ : ∀ value, (next value).Widens (next' value)) : (first >>= next).Widens (first' >>= next') := by
  intro session
  obtain ⟨session', out⟩ | same := h₁ session
  · exact .inl ⟨session', run_bind_error out⟩
  · cases run : first session with
    | error halt session' =>
        right
        rw [run_bind_error run, run_bind_error (same.trans run)]
    | ok value session' =>
        rw [run_bind_ok run, run_bind_ok (same.trans run)]
        exact h₂ value session'

theorem cleaning {work work' : Work β υ α} (h : work.Widens work') (cleanUp : Bench → Bench) :
    (work.cleaning cleanUp).Widens (work'.cleaning cleanUp) := by
  intro session
  obtain ⟨session', out⟩ | same := h session
  · exact .inl ⟨_, by simp only [Work.cleaning, out]; rfl⟩
  · exact .inr (by simp only [Work.cleaning, same])

theorem congruent : Congruent (β := β) (υ := υ) (fun work work' => Work.Widens work work') where
  refl := refl
  bind := bind
  cleaning h := h.cleaning

end Work.Widens

/-- A run that comes to an end within a budget comes to it within a larger one. -/
theorem Machine.run_widens (program : Program) (limits : Limits) (machine : Machine)
    {fuel fuel' : Nat} (larger : fuel ≤ fuel') :
    (∃ world, Machine.run program limits fuel machine = .error .outOfFuel world) ∨
      Machine.run program limits fuel' machine = Machine.run program limits fuel machine := by
  by_cases done : ((Machine.step program limits)^[fuel] machine).Done
  · obtain ⟨more, rfl⟩ := Nat.exists_eq_add_of_le' larger
    right
    rw [Machine.run_steps, Machine.run_done done more 0, ← Machine.run_steps, Nat.zero_add]
  · exact .inl ⟨_, Machine.run_busy done⟩

/-- An operation that is executed with the bodies it calls comes to the same with a larger budget. -/
theorem Machine.complete_widens (program : Program) (limits : Limits) (op : Op)
    (state : Activation × World) {fuel fuel' : Nat} (larger : fuel ≤ fuel') :
    (∃ state', complete program limits fuel op state = .error .outOfFuel state') ∨
      complete program limits fuel' op state = complete program limits fuel op state := by
  unfold complete
  cases run : Exec.perform program op state with
  | error error state' => exact .inr rfl
  | ok flow state' =>
      obtain ⟨activation, world⟩ := state'
      cases flow with
      | enter position callee =>
          obtain ⟨world', out⟩ | same :=
            run_widens program limits ⟨.enter position callee, [], world⟩ larger
          · exact .inl ⟨(activation, world'), by simp only [settle, runFrom, out]⟩
          · exact .inr (by simp only [settle, runFrom, same])
      | iterate loop =>
          obtain ⟨world', out⟩ | same :=
            run_widens program limits ⟨.iterate loop, [], world⟩ larger
          · exact .inl ⟨(activation, world'), by simp only [settle, runFrom, out]⟩
          · exact .inr (by simp only [settle, runFrom, same])
      | _ => exact .inr rfl

namespace Interpreter

open Work (Widens)

variable {fuel fuel' : Nat} (larger : fuel ≤ fuel')

include larger

theorem widens_execute (op : Op) (line : Option UInt32) :
    Widens (execute fuel op line : Work Interpreter υ Unit) (execute fuel' op line) := by
  rintro ⟨bench, ⟨limits, world, top, script, result⟩, client⟩
  obtain ⟨state, out⟩ | same := Machine.complete_widens bench.program limits op (top, world) larger
  · exact .inl ⟨_, by simp only [execute, out]; rfl⟩
  · exact .inr (by simp only [execute, same])

theorem widens_perform (operation : String) (op : Op) :
    Widens (perform fuel operation op : Work Interpreter υ Unit) (perform fuel' operation op) := by
  have runs : Widens (do execute fuel op (← Work.bench).currentLine : Work Interpreter υ Unit)
      (do execute fuel' op (← Work.bench).currentLine) :=
    Widens.congruent.after _ fun _ => widens_execute larger op _
  exact Widens.congruent.either (.refl _) (Widens.congruent.after _ fun _ =>
    Congruent.ite (Widens.congruent.after _ fun _ => runs) runs)

theorem widens_primitive (p : Primitive) :
    Widens (primitive fuel p : Work Interpreter υ Unit) (primitive fuel' p) := by
  unfold primitive
  cases p.form with
  | op single => exact widens_perform larger _ _
  | pooled constant make =>
      have pooled : Widens (do
          perform fuel p.operation (make (← Work.onBench (Bench.intern constant))) :
            Work Interpreter υ Unit)
          (do perform fuel' p.operation (make (← Work.onBench (Bench.intern constant)))) :=
        Widens.congruent.after _ fun _ => widens_perform larger _ _
      dsimp only
      split
      · exact Widens.congruent.after _ fun _ => Widens.congruent.after _ fun _ =>
          Widens.congruent.after _ fun _ => Congruent.ite (Widens.congruent.after _ fun _ =>
            Widens.congruent.after _ fun _ => pooled) pooled
      · exact pooled
  | access index depth assign => exact Widens.congruent.after _ fun _ => widens_perform larger _ _
  | aliasMethod newName oldName =>
      exact Widens.congruent.after _ fun _ => Widens.congruent.after _ fun _ => widens_perform larger _ _
  | yield hasArgs => exact .refl _
  | line line => exact .refl _

section Nested

variable {part part' other other' : Work Interpreter υ Unit}

theorem widens_invoke (name : String) (shape : Invocation)
    {block block' : Option (BlockBody (Session Interpreter υ))}
    (h : Widens (Work.recordBlock? block) (Work.recordBlock? block')) :
    Widens (invoke fuel name shape block) (invoke fuel' name shape block') := by
  have sends : Widens (do
      let slot ← Work.recordBlock? block
      let position ← Work.onBench (Bench.intern (.name name))
      perform fuel Work.callOperation (.send position shape.argc.toUInt32 shape.hasReceiver slot))
      (do
        let slot ← Work.recordBlock? block'
        let position ← Work.onBench (Bench.intern (.name name))
        perform fuel' Work.callOperation
          (.send position shape.argc.toUInt32 shape.hasReceiver slot)) :=
    Widens.congruent.bind h fun _ => Widens.congruent.after _ fun _ => widens_perform larger _ _
  exact Widens.congruent.either (Widens.congruent.emitCall name shape h)
    (Widens.congruent.after _ fun _ =>
      Congruent.ite (Widens.congruent.after _ fun _ => sends) sends)

theorem widens_passes (h₁ : Widens part part') (h₂ : Widens other other') (test : Bool) :
    Widens (passes part other fuel test) (passes part' other' fuel' test) := by
  induction fuel generalizing fuel' test with
  | zero => exact fun session => .inl ⟨session, rfl⟩
  | succ fuel ih =>
      obtain ⟨fuel', rfl⟩ := Nat.exists_eq_add_of_le' (Nat.le_trans (Nat.le_add_left 1 fuel) larger)
      exact Widens.congruent.pass h₁ h₂ (ih (Nat.le_of_succ_le_succ larger) true) test

theorem widens_loop (h₁ : Widens part part') (h₂ : Widens other other') (checkFirst : Bool) :
    Widens (loop fuel part other checkFirst) (loop fuel' part' other' checkFirst) :=
  Widens.congruent.either (Widens.congruent.emitLoop h₁ h₂ checkFirst)
    (Widens.congruent.nested (widens_passes larger h₁ h₂ _))

theorem widens_closure (scope : StaticScope) (arity : Nat) (h : Widens part part') :
    Widens (closure fuel scope arity part) (closure fuel' scope arity part') :=
  Widens.congruent.after _ fun _ => Widens.congruent.bind (Widens.congruent.recordBlock scope arity h) fun _ =>
    widens_perform larger _ _

theorem widens_defineMethod (name : String) (arity localCount : Nat) (h : Widens part part') :
    Widens (defineMethod fuel name arity localCount part)
      (defineMethod fuel' name arity localCount part') :=
  Widens.congruent.after _ fun _ => Widens.congruent.bind (Widens.congruent.recordUnit _ _ _ _ _ h) fun _ =>
    Widens.congruent.after _ fun _ => widens_perform larger _ _

end Nested

end Interpreter

/-- Whatever an action comes to within a budget, it comes to within every larger one. -/
theorem Action.run_widens {fuel fuel' : Nat} (larger : fuel ≤ fuel') (action : Action ε)
    (onExtra : ε → Work Interpreter Notes Unit) :
    (action.run (Interpreter.contract Notes fuel) onExtra).Widens
      (action.run (Interpreter.contract Notes fuel') onExtra) := by
  induction action with
  | seq first next ih₁ ih₂ => exact .bind ih₁ fun _ => ih₂
  | primitive p => exact Interpreter.widens_primitive larger p
  | call name shape => exact Interpreter.widens_invoke larger name shape (.refl _)
  | callBlock name shape scope arity body ih =>
      exact Interpreter.widens_invoke larger name shape
        (Work.Widens.congruent.recordBlock? scope arity ih)
  | array count element ih =>
      exact Work.Widens.congruent.objectArray count ih (Interpreter.widens_perform larger _ _)
  | branch onTrue onFalse ih₁ ih₂ => exact Work.Widens.congruent.branch ih₁ ih₂
  | logical connective right ih => exact Work.Widens.congruent.logical connective ih
  | loop condition body checkFirst ih₁ ih₂ => exact Interpreter.widens_loop larger ih₁ ih₂ checkFirst
  | closure scope arity body ih => exact Interpreter.widens_closure larger scope arity ih
  | method name arity localCount body ih =>
      exact Interpreter.widens_defineMethod larger name arity localCount ih
  | rescue body handler ih₁ ih₂ =>
      intro session
      obtain ⟨session', out⟩ | same := ih₁ session
      · exact .inl ⟨session', by simp only [run, recover, out]⟩
      · cases result : body.run (Interpreter.contract Notes fuel) onExtra session with
        | ok value session' => exact .inr (by simp only [run, recover, same, result])
        | error halt session' =>
            cases halt with
            | outOfFuel => exact .inl ⟨session', by simp only [run, recover, result]⟩
            | failure error =>
                simp only [run, recover, same, result]
                exact ih₂ error session'
  | _ => exact .refl _

/-- An action that finishes within a budget finishes in the same way within any other one, unless it
uses that up. -/
theorem Action.run_finishes {fuel : Nat} {action : Action ε} {onExtra : ε → Work Interpreter Notes Unit}
    {session finished : Session Interpreter Notes}
    (finishes : action.run (Interpreter.contract Notes fuel) onExtra session = .ok () finished)
    (fuel' : Nat) :
    (∃ out, action.run (Interpreter.contract Notes fuel') onExtra session = .error .outOfFuel out) ∨
      action.run (Interpreter.contract Notes fuel') onExtra session = .ok () finished := by
  rcases Nat.le_total fuel fuel' with larger | smaller
  · obtain ⟨out, broken⟩ | same := run_widens larger action onExtra session
    · cases finishes.symm.trans broken
    · exact .inr (same.trans finishes)
  · exact (run_widens smaller action onExtra session).imp_right fun same => same.symm.trans finishes

end BlockScript
