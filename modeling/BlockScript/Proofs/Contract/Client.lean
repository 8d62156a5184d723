import BlockScript.Contract.Action
import BlockScript.Proofs.Backend.Outcome

/-!
# Callers of a backend

A backend is used through the operations of its contract, and nested code uses it in the same
way. `Client` says that a computation is such a caller: it issues operations, whose nested code
is again a caller, and between them it may look at anything, change what is its own, fail on
its own account and recover from failures. It decides what to do next by what it has seen, so
the same nested code may do something else each time that it runs.

What every operation preserves, provided that its nested code does, is preserved by every
caller.
-/

namespace BlockScript

variable {σ β υ α γ : Type}

/-! ## Operations -/

/-- An operation whose nested code goes into the unit that is open. -/
inductive Control (σ : Type) where
  | branch (onTrue onFalse : Gen σ Unit)
  | logical (connective : Connective) (right : Gen σ Unit)
  | loop (condition body : Gen σ Unit) (checkFirst : Bool)
  | array (count : Nat) (element : Nat → Gen σ Unit)

namespace Control

/-- The operation as a backend offers it. -/
def issue (contract : Contract σ) : Control σ → Gen σ Unit
  | branch onTrue onFalse => contract.branch onTrue onFalse
  | logical connective right => contract.logical connective right
  | loop condition body checkFirst => contract.loop condition body checkFirst
  | array count element => contract.objectArray count element

/-- The computation is nested code of the operation. -/
def Has : Control σ → Gen σ Unit → Prop
  | branch first second, part | loop first second _, part => part = first ∨ part = second
  | logical _ right, part => part = right
  | array _ element, part => ∃ index, part = element index

/-- The operation as diagnostics name it. -/
def name : Control σ → String
  | branch _ _ => "perform_boolean_branch"
  | logical connective _ => connective.operation
  | loop _ _ _ => Work.loopOperation
  | array _ _ => Work.arrayOperation

end Control

/-- An operation of the contract, by what it results in. -/
inductive Operation (σ : Type) : Type → Type
  | startScript : Operation σ Unit
  | endScript : Operation σ Unit
  | beginMethod (name : String) (arity localCount : Nat) : Operation σ UnitHandle
  | endMethod (handle : UnitHandle) : Operation σ Unit
  | primitive (p : Primitive) : Operation σ Unit
  | invoke (name : String) (shape : Invocation) (block : Option (BlockBody σ)) : Operation σ Unit
  | control (inner : Control σ) : Operation σ Unit
  | closure (scope : StaticScope) (arity : Nat) (body : Gen σ Unit) : Operation σ Unit
  | defineMethod (name : String) (arity localCount : Nat) (body : Gen σ Unit) : Operation σ Unit

namespace Operation

/-- The operation as a backend offers it. -/
def issue (contract : Contract σ) : Operation σ α → Gen σ α
  | startScript => contract.startScript
  | endScript => contract.endScript
  | beginMethod name arity localCount => contract.beginMethod name arity localCount
  | endMethod handle => contract.endMethod handle
  | primitive p => contract.primitive p
  | invoke name shape block => contract.invoke name shape block
  | control inner => inner.issue contract
  | closure scope arity body => contract.closure scope arity body
  | defineMethod name arity localCount body => contract.defineMethod name arity localCount body

/-- The computation is nested code of the operation. -/
def Has : Operation σ α → Gen σ Unit → Prop
  | invoke _ _ block, part => ∃ given, block = some given ∧ part = given.body
  | control inner, part => inner.Has part
  | closure _ _ body, part | defineMethod _ _ _ body, part => part = body
  | _, _ => False

/-- The operation is this one with nested code in the same unit. -/
def Controls : Operation σ α → Control σ → Prop
  | control inner, other => other = inner
  | _, _ => False

/-- The operation is this one without nested code. -/
def Issues : Operation σ α → Primitive → Prop
  | primitive p, other => p = other
  | _, _ => False

/-- The operation sets this line. -/
def Marks : Operation σ α → UInt32 → Prop
  | primitive p, line => p = .line line
  | _, _ => False

theorem issues_of_marks (operation : Operation σ α) {line : UInt32} (marks : operation.Marks line) :
    operation.Issues (.line line) := by
  cases operation with
  | primitive p => exact marks
  | _ => exact marks.elim

theorem has_of_controls (operation : Operation σ α) {inner : Control σ}
    (controls : operation.Controls inner) {part : Gen σ Unit} (has : inner.Has part) :
    operation.Has part := by
  cases operation with
  | control other => exact (show inner = other from controls) ▸ has
  | _ => exact controls.elim

/-- The operation as diagnostics name it. -/
def name : Operation σ α → String
  | startScript => "start_script"
  | endScript => "end_script"
  | beginMethod _ _ _ => "begin_method"
  | endMethod _ => "end_method"
  | primitive p => p.operation
  | invoke _ _ _ => Work.callOperation
  | control inner => inner.name
  | closure _ _ _ => Work.closureOperation
  | defineMethod _ _ _ _ => Work.defineOperation

/-- Opening and closing the script is told apart: only this changes how far the script has
come. -/
def SetsScript : Operation σ α → Prop
  | startScript | endScript => True
  | _ => False

/-- Neither the script nor a method is opened or closed. -/
def Computes : Operation σ α → Prop
  | startScript | endScript | beginMethod _ _ _ | endMethod _ => False
  | _ => True

theorem not_setsScript_of_computes (operation : Operation σ α) (computes : operation.Computes) :
    ¬operation.SetsScript := by
  cases operation with
  | startScript | endScript => exact computes.elim
  | _ => exact id

/-- No other operation is named like the one that opens the script. -/
theorem name_ne_start {operation : Operation σ α} (other : ¬operation.SetsScript) :
    operation.name ≠ "start_script" := by
  cases operation with
  | startScript => exact absurd trivial other
  | endScript => exact absurd trivial other
  | primitive p => cases p <;> simp [name, Primitive.operation]
  | control inner =>
      cases inner with
      | logical connective right => cases connective <;> simp [name, Control.name, Connective.operation]
      | _ => simp [name, Control.name, Work.loopOperation, Work.arrayOperation]
  | _ => simp [name, Work.callOperation, Work.closureOperation, Work.defineOperation]

end Operation

/-! ## Callers -/

namespace Work

/-- Change what belongs to the caller. -/
def keep (f : υ → υ) : Work β υ Unit := modify fun session =>
  { session with client := f session.client }

/-- Go on with the handler after a failure. What was changed before it stays changed. -/
def rescue (body : Work β υ α) (handler : CompileError → Work β υ α) : Work β υ α :=
  fun session =>
    match body session with
    | .ok value session => .ok value session
    | .error (.failure error) session => handler error session
    | .error .outOfFuel session => .error .outOfFuel session

end Work

/-- What a caller restricts itself to. -/
structure Manner (β υ : Type) where
  /-- The changes that it makes to what is its own. -/
  changes : (υ → υ) → Prop := fun _ => True
  /-- The errors that it fails with on its own account. -/
  raises : CompileError → Prop := fun _ => True
  /-- The nested code that it passes to operations. -/
  nests : Work β υ Unit → Prop := fun _ => True

/-- A computation that uses a backend through its contract. -/
inductive Client (contract : Contract (Session β υ)) (manner : Manner β υ) :
    {α : Type} → Work β υ α → Prop
  | pure {α : Type} (value : α) : Client contract manner (Pure.pure value)
  | bind {α γ : Type} {first : Work β υ α} {next : α → Work β υ γ}
      (first_client : Client contract manner first)
      (next_client : ∀ value, Client contract manner (next value)) :
      Client contract manner (first >>= next)
  | look : Client contract manner (get : Work β υ (Session β υ))
  | keep {f : υ → υ} (allowed : manner.changes f) : Client contract manner (Work.keep f)
  | raise {α : Type} {error : CompileError} (allowed : manner.raises error) :
      Client contract manner (Work.fail error : Work β υ α)
  | rescue {α : Type} {body : Work β υ α} {handler : CompileError → Work β υ α}
      (body_client : Client contract manner body)
      (handler_client : ∀ error, Client contract manner (handler error)) :
      Client contract manner (body.rescue handler)
  | issue {α : Type} {operation : Operation (Session β υ) α}
      (allowed : ∀ part, operation.Has part → manner.nests part)
      (parts_client : ∀ part, operation.Has part → Client contract manner part) :
      Client contract manner (operation.issue contract)

/-- Every operation preserves the relation, provided that its nested code does. -/
def Contract.Keeps (contract : Contract (Session β υ)) (nests : Work β υ Unit → Prop)
    (R : Session β υ → Session β υ → Prop) : Prop :=
  ∀ {α : Type} (operation : Operation (Session β υ) α),
    (∀ part, operation.Has part → nests part ∧ Moves R part) →
    Moves R (operation.issue contract)

theorem Work.ends_rescue {body : Work β υ α} {handler : CompileError → Work β υ α}
    {session : Session β υ} {done : α → Session β υ → Prop}
    {failed : Halt CompileError → Session β υ → Prop}
    (h : Ends body session done fun halt session' =>
      match halt with
      | .failure error => Ends (handler error) session' done failed
      | .outOfFuel => failed .outOfFuel session') : Ends (body.rescue handler) session done failed := by
  unfold Ends rescue
  cases run : body session with
  | ok value session' => exact h.ok run
  | error halt session' => cases halt <;> exact h.error run

theorem Work.moves_rescue {R : Session β υ → Session β υ → Prop} [IsPreorder (Session β υ) R]
    {body : Work β υ α} {handler : CompileError → Work β υ α} (h₁ : Moves R body)
    (h₂ : ∀ error, Moves R (handler error)) : Moves R (body.rescue handler) := by
  refine fun session => ends_rescue ((h₁ session).mono (fun _ _ => id) ?_)
  rintro (error | _) session' reached
  · exact (h₂ error).after reached
  · exact reached

/-- What every operation preserves is preserved by every caller. -/
theorem Client.moves {contract : Contract (Session β υ)} {manner : Manner β υ}
    {R : Session β υ → Session β υ → Prop} [IsPreorder (Session β υ) R]
    (operations : contract.Keeps manner.nests R)
    (own : ∀ f, manner.changes f → ∀ session : Session β υ,
      R session { session with client := f session.client })
    {action : Work β υ α} (client : Client contract manner action) : Moves R action := by
  induction client with
  | pure value => exact .pure value
  | bind _ _ first next => exact first.bind next
  | look => exact fun session => refl_of R session
  | keep allowed => exact .modifies (own _ allowed)
  | raise _ => exact .throws _
  | rescue _ _ body handler => exact Work.moves_rescue body handler
  | issue allowed _ parts => exact operations _ fun part has => ⟨allowed part has, parts part has⟩

/-! ## Actions -/

namespace Action

variable {ε : Type}

theorem recover_eq_rescue (body : Work β Notes Unit) (handler : CompileError → Work β Notes Unit) :
    recover body handler = body.rescue handler := by
  funext session
  unfold recover Work.rescue
  cases body session with
  | ok value session' => rfl
  | error halt session' => cases halt <;> rfl

/-- Running an action is one way of using a backend. -/
theorem client {contract : Contract (Session β Notes)} {onExtra : ε → Work β Notes Unit}
    (extras : ∀ operation, Client contract {} (onExtra operation)) (action : Action ε) :
    Client contract {} (action.run contract onExtra) := by
  have note (f : Notes → Notes) : Client contract {} (note f) := .keep trivial
  have issues {α : Type} (operation : Operation (Session β Notes) α)
      (parts : ∀ part, operation.Has part → Client contract {} part) :
      Client contract {} (operation.issue contract) := .issue (fun _ _ => trivial) parts
  induction action with
  | skip => exact .pure ()
  | seq first next ih₁ ih₂ => exact ih₁.bind fun _ => ih₂
  | startScript => exact issues .startScript nofun
  | endScript => exact issues .endScript nofun
  | beginMethod key name arity localCount =>
      exact (issues (.beginMethod name arity localCount) nofun).bind fun _ => note _
  | endMethod key =>
      refine .bind .look fun session => ?_
      split
      · rename_i handle _
        exact (note _).bind fun _ => issues (.endMethod handle) nofun
      · exact note _
  | hold key handle => exact note _
  | primitive p => exact issues (.primitive p) nofun
  | call name shape => exact issues (.invoke name shape none) nofun
  | callBlock name shape scope arity body ih =>
      refine issues (.invoke name shape
        (some { scope, arity, body := body.run contract onExtra })) fun part has => ?_
      obtain ⟨_, heq, rfl⟩ := has
      cases heq
      exact ih
  | array count element ih =>
      refine issues (.control (.array count
        fun index => (element index).run contract onExtra)) fun part has => ?_
      obtain ⟨index, rfl⟩ := has
      exact ih index
  | branch onTrue onFalse ih₁ ih₂ =>
      refine issues (.control (.branch (onTrue.run contract onExtra)
        (onFalse.run contract onExtra))) fun part has => ?_
      rcases has with rfl | rfl
      · exact ih₁
      · exact ih₂
  | logical connective right ih =>
      refine issues (.control (.logical connective
        (right.run contract onExtra))) fun part has => ?_
      cases has
      exact ih
  | loop condition body checkFirst ih₁ ih₂ =>
      refine issues (.control (.loop (condition.run contract onExtra)
        (body.run contract onExtra) checkFirst)) fun part has => ?_
      rcases has with rfl | rfl
      · exact ih₁
      · exact ih₂
  | closure scope arity body ih =>
      refine issues (.closure scope arity (body.run contract onExtra)) fun part has => ?_
      cases has
      exact ih
  | method name arity localCount body ih =>
      refine issues (.defineMethod name arity localCount
        (body.run contract onExtra)) fun part has => ?_
      cases has
      exact ih
  | mark label => exact note _
  | fail error => exact .raise trivial
  | rescue body handler ih₁ ih₂ =>
      rw [run, recover_eq_rescue]
      exact ih₁.rescue ih₂
  | extra operation => exact extras operation

end Action

end BlockScript
