import BlockScript.Proofs.Contract.Client

/-!
# What a caller sees

A journal notes every operation at the moment when it is issued and at the moment when it
replies, at any depth of nested code, together with the state of the backend at that moment.
It is kept with what belongs to the caller, who reads it but does not write in it, so the
operations themselves are not affected. Properties of a journal are properties of all states
between operations, and of all replies in their order.
-/

namespace BlockScript

variable {β υ α : Type}

/-- Why something is noted. -/
inductive Occasion where
  | issued
  | succeeded
  | failed (halt : Halt CompileError)

/-- Whether an operation has just failed. -/
def Occasion.failed? : Occasion → Bool
  | .failed _ => true
  | _ => false

/-- The state of a backend when an operation is issued or replies. -/
structure Event (β : Type) where
  operation : String
  occasion : Occasion
  /-- How many events there were when the operation was issued. -/
  since : Nat
  bench : Bench
  backend : β

/-- The events so far, the latest one first, and what is the caller's own. -/
structure Journal (β υ : Type) where
  events : List (Event β)
  own : υ

/-- What is noted of an operation at this moment. -/
def Session.event (session : Session β (Journal β υ)) (operation : String) (since : Nat)
    (occasion : Occasion) : Event β :=
  { operation, occasion, since, bench := session.bench, backend := session.backend }

/-- Note an event. -/
def Session.note (session : Session β (Journal β υ)) (event : Event β) : Session β (Journal β υ) :=
  { session with client := { session.client with events := event :: session.client.events } }

/-- Note when an operation is issued and how it replies. -/
def Work.journaled (name : String) (operation : Work β (Journal β υ) α) :
    Work β (Journal β υ) α := fun session =>
  let since := session.client.events.length
  match operation (session.note (session.event name since .issued)) with
  | .ok value session => .ok value (session.note (session.event name since .succeeded))
  | .error halt session => .error halt (session.note (session.event name since (.failed halt)))

theorem Work.ends_journaled {name : String} {operation : Work β (Journal β υ) α}
    {session : Session β (Journal β υ)} {done : α → Session β (Journal β υ) → Prop}
    {failed : Halt CompileError → Session β (Journal β υ) → Prop}
    (h : Ends operation (session.note (session.event name session.client.events.length .issued))
      (fun value session' => done value
        (session'.note (session'.event name session.client.events.length .succeeded)))
      fun halt session' => failed halt
        (session'.note (session'.event name session.client.events.length (.failed halt)))) :
    Ends (journaled name operation) session done failed := by
  unfold Ends journaled
  dsimp only
  cases run : operation
      (session.note (session.event name session.client.events.length .issued)) with
  | ok value session' => exact h.ok run
  | error halt session' => exact h.error run

/-- An operation that is noted has succeeded between two notes. -/
theorem Work.run_of_journaled {name : String} {operation : Work β (Journal β υ) α}
    {session after : Session β (Journal β υ)} {value : α}
    (run : journaled name operation session = .ok value after) : ∃ ended,
      operation (session.note (session.event name session.client.events.length .issued)) =
        .ok value ended ∧
      after = ended.note (ended.event name session.client.events.length .succeeded) := by
  unfold journaled at run
  dsimp only at run
  split at run
  · rename_i ended succeeded
    cases run
    exact ⟨ended, succeeded, rfl⟩
  · cases run

/-- Noting an operation does not touch the bench. -/
theorem Work.moves_journaled {R : Bench → Bench → Prop} {operation : Work β (Journal β υ) α}
    (h : Moves (Session.Related R) operation) (name : String) :
    Moves (Session.Related R) (journaled name operation) :=
  fun session => ends_journaled (h (session.note _))

/-- A backend whose operations are noted. -/
def Contract.journaled (contract : Contract (Session β (Journal β υ))) :
    Contract (Session β (Journal β υ)) where
  startScript := Work.journaled "start_script" contract.startScript
  endScript := Work.journaled "end_script" contract.endScript
  beginMethod name arity localCount :=
    Work.journaled "begin_method" (contract.beginMethod name arity localCount)
  endMethod handle := Work.journaled "end_method" (contract.endMethod handle)
  primitive p := Work.journaled p.operation (contract.primitive p)
  invoke name shape block := Work.journaled Work.callOperation (contract.invoke name shape block)
  objectArray count element :=
    Work.journaled Work.arrayOperation (contract.objectArray count element)
  branch onTrue onFalse :=
    Work.journaled "perform_boolean_branch" (contract.branch onTrue onFalse)
  logical connective right := Work.journaled connective.operation (contract.logical connective right)
  loop condition body checkFirst :=
    Work.journaled Work.loopOperation (contract.loop condition body checkFirst)
  closure scope arity body :=
    Work.journaled Work.closureOperation (contract.closure scope arity body)
  defineMethod name arity localCount body :=
    Work.journaled Work.defineOperation (contract.defineMethod name arity localCount body)

/-- An operation is noted under its own name. -/
theorem Operation.issue_journaled (contract : Contract (Session β (Journal β υ)))
    (operation : Operation (Session β (Journal β υ)) α) :
    operation.issue contract.journaled =
      Work.journaled operation.name (operation.issue contract) := by
  cases operation with
  | control inner => cases inner <;> rfl
  | _ => rfl

/-- A caller that leaves the journal to itself. -/
def Manner.journaled (manner : Manner β (Journal β υ)) : Manner β (Journal β υ) :=
  { manner with changes := fun f => ∃ change : υ → υ,
      f = fun journal => { journal with own := change journal.own } }

end BlockScript
