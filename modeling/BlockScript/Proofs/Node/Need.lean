import Mathlib.Data.List.Forall2
import BlockScript.Contract.Action
import BlockScript.Node.Walk
import BlockScript.Proofs.Backend.Levels

/-!
# The levels that a tree needs

Each construct that is recorded in a unit or a region of its own puts its parts one level deeper,
and a tree needs as many levels as its deepest node. The nesting limit of a configuration is
exact: the bytecode backend never complains about it while the script and its tree fit, and never
accepts a tree that does not.
-/

namespace BlockScript

/-! ## How deep a tree is -/

namespace Node

/-- The largest of several needs. -/
def deepest (needs : List Nat) : Nat := needs.foldr max 0

theorem deepest_singleton (need : Nat) : deepest [need] = need := Nat.max_zero need

mutual

/-- How many levels the operations of a node open at once. Arms of a branch, right-hand sides,
parts of a loop, elements and bodies are one level deeper than the node. -/
def need : Node → Nat
  | nil | bool _ | selfRef | fixnum _ | bignum _ | string _ | symbol _ => 0
  | getLocal _ _ | getIvar _ | getGlobal _ | getConstant _ | aliasMethod _ _ => 0
  | array items => 1 + deepest (needs items)
  | toArray value | not value => value.need
  | setLocal _ _ value | setIvar _ value | setGlobal _ value | setConstant _ value => value.need
  | call receiver _ args => max (optionalNeed receiver) (deepest (needs args))
  | callBlock receiver _ args _ _ body =>
    max (optionalNeed receiver) (max (deepest (needs args)) (1 + body.need))
  | yield argument => optionalNeed argument
  | ifElse condition onTrue onFalse => max condition.need (1 + max onTrue.need onFalse.need)
  | and left right | or left right => max left.need (1 + right.need)
  | loop condition body _ => 1 + max condition.need body.need
  | seq statements => deepest (needs statements)
  | method _ _ _ body | lambda _ _ body => 1 + body.need
  | line _ body => body.need

/-- The need of a node that may be missing. -/
def optionalNeed : Option Node → Nat
  | none => 0
  | some node => node.need

/-- The needs of several nodes. -/
def needs : List Node → List Nat
  | [] => []
  | node :: rest => node.need :: needs rest

end

end Node

/-! ## Operations of the backend -/

namespace Recorder

variable {υ α : Type} {n m : Nat}

/-- What a failure says does not depend on whether it is remembered. -/
theorem ends_checked_halts {operation : Work Recorder υ α} {session : Session Recorder υ}
    {done : α → Session Recorder υ → Prop} {failed : Halt CompileError → Prop}
    (refused : ∀ error, failed (.failure (.aborted error)))
    (h : Ends operation session done fun halt _ => failed halt) :
    Ends (checked operation) session done fun halt _ => failed halt := by
  apply ends_checked
  · exact fun error _ => refused error
  · intro unpoisoned
    apply h.mono (fun _ _ => id)
    rintro (error | _) session' other <;> exact other

/-- An operation is refused after a failure, which is no matter of levels. -/
theorem needs_checked {operation : Work Recorder υ α} (h : operation.Needs n) :
    (checked operation).Needs n :=
  fun session within => ends_checked_halts (fun _ => nofun) (h session within)

theorem needs_primitive (p : Primitive) : Work.Needs 0 ((contract υ).primitive p) :=
  needs_checked (.onBench (Bench.flat_emitPrimitive p))

end Recorder

/-- Running the action opens this many levels at most at once. -/
abbrev Action.Needs {ε : Type} (onExtra : ε → Work Recorder Notes Unit) (n : Nat)
    (action : Action ε) : Prop :=
  (action.run (Recorder.contract Notes) onExtra).Needs n

namespace Action.Needs

variable {ε : Type} {onExtra : ε → Work Recorder Notes Unit} {n m : Nat}

theorem skip : Needs onExtra 0 .skip := .pure ()

theorem primitive (p : Primitive) : Needs onExtra 0 (.primitive p) := Recorder.needs_primitive p

theorem seq {first next : Action ε} (h₁ : Needs onExtra n first) (h₂ : Needs onExtra m next) :
    Needs onExtra (max n m) (.seq first next) :=
  Work.Needs.bind h₁ fun _ => h₂

/-- What is done after an action in the same unit adds nothing. -/
theorem before {first next : Action ε} (h₁ : Needs onExtra n first) (h₂ : Needs onExtra 0 next) :
    Needs onExtra n (.seq first next) :=
  Work.Needs.before h₁ fun _ => h₂

theorem after {first next : Action ε} (h₁ : Needs onExtra 0 first) (h₂ : Needs onExtra n next) :
    Needs onExtra n (.seq first next) :=
  Work.Needs.after h₁ fun _ => h₂

theorem call (name : String) (shape : Invocation) : Needs onExtra 0 (.call name shape) :=
  Recorder.needs_checked (.emitCall name shape)

theorem callBlock (name : String) (shape : Invocation) (scope : StaticScope) (arity : Nat)
    {body : Action ε} (h : Needs onExtra n body) :
    Needs onExtra (1 + n) (.callBlock name shape scope arity body) :=
  Recorder.needs_checked (.emitCallBlock name shape h)

theorem branch {onTrue onFalse : Action ε} (h₁ : Needs onExtra n onTrue)
    (h₂ : Needs onExtra m onFalse) : Needs onExtra (1 + max n m) (.branch onTrue onFalse) :=
  Recorder.needs_checked (.emitBranch h₁ h₂)

theorem logical (connective : Connective) {right : Action ε} (h : Needs onExtra n right) :
    Needs onExtra (1 + n) (.logical connective right) :=
  Recorder.needs_checked (.emitLogical connective h)

theorem loop {condition body : Action ε} (h₁ : Needs onExtra n condition)
    (h₂ : Needs onExtra m body) (checkFirst : Bool) :
    Needs onExtra (1 + max n m) (.loop condition body checkFirst) :=
  Recorder.needs_checked (.emitLoop h₁ h₂ checkFirst)

theorem closure (scope : StaticScope) (arity : Nat) {body : Action ε} (h : Needs onExtra n body) :
    Needs onExtra (1 + n) (.closure scope arity body) :=
  Recorder.needs_checked (.after .target fun _ => (Work.Needs.recordBlock scope arity h).before
    fun _ => .emit _ _)

theorem method (name : String) (arity localCount : Nat) {body : Action ε}
    (h : Needs onExtra n body) : Needs onExtra (1 + n) (.method name arity localCount body) :=
  Recorder.needs_checked (.after .target fun _ =>
    (Work.Needs.recordUnit .method name arity localCount [] h).before fun _ =>
      .onBench (Bench.flat_appending.emitPooled _ _ (fun _ => rfl) fun _ => rfl))

/-- Several actions, and what each of them needs. -/
def Each (onExtra : ε → Work Recorder Notes Unit) : List Nat → List (Action ε) → Prop :=
  List.Forall₂ (Needs onExtra)

section Each

variable {needs : List Nat} {actions : List (Action ε)} (each : Each onExtra needs actions)

include each

theorem all : Needs onExtra (Node.deepest needs) (.all actions) := by
  induction each with
  | nil => exact skip
  | cons first rest ih =>
      cases rest with
      | nil => exact (Node.deepest_singleton _).symm ▸ first
      | cons second rest => exact seq first ih

theorem sequence : Needs onExtra (Node.deepest needs) (Node.sequence actions) := by
  induction each with
  | nil => exact primitive .loadNil
  | cons first rest ih =>
      cases rest with
      | nil => exact (Node.deepest_singleton _).symm ▸ first
      | cons second rest => exact seq (before first (primitive .consume)) ih

theorem aggregate : Needs onExtra (1 + Node.deepest needs) (Node.aggregate actions) := by
  have length : needs.length = actions.length := each.length_eq
  have elements (index : Nat) (inside : index < needs.length) :
      Needs onExtra needs[index] (actions.toArray.getD index .skip) := by
    have one := each.get inside (length ▸ inside)
    simpa [length ▸ inside] using one
  have records := Recorder.needs_checked (Work.Needs.emitArray elements)
  rw [length] at records
  exact records

end Each

end Action.Needs

/-! ## Trees -/

namespace Node

open BlockScript.Action (Needs)

variable {ε : Type} (onExtra : ε → Work Recorder Notes Unit)

mutual

/-- The operations of a tree need what the tree needs. -/
theorem needs_action : ∀ node : Node, Needs onExtra node.need node.action
  | nil => .primitive .loadNil
  | bool false => .primitive .loadFalse
  | bool true => .primitive .loadTrue
  | selfRef => .primitive .retrieveSelf
  | fixnum value => .primitive (.fixnum value)
  | bignum value => .primitive (.bignum value)
  | string text => .primitive (.string text)
  | symbol name => .primitive (.symbol name)
  | getLocal index depth => .primitive (.retrieveLocal index depth)
  | getIvar name => .primitive (.retrieveIvar name)
  | getGlobal name => .primitive (.retrieveGlobal name)
  | getConstant name => .primitive (.retrieveConstant name)
  | array items => .aggregate (needs_actions items)
  | toArray value => .before (needs_action value) (.primitive .toArray)
  | not value => .before (needs_action value) (.primitive .negate)
  | setLocal index depth value => .before (needs_action value)
    (.before (.primitive (.assignLocal index depth)) (.primitive (.retrieveLocal index depth)))
  | setIvar name value => .before (needs_action value)
    (.before (.primitive (.assignIvar name)) (.primitive (.retrieveIvar name)))
  | setGlobal name value => .before (needs_action value)
    (.before (.primitive (.assignGlobal name)) (.primitive (.retrieveGlobal name)))
  | setConstant name value => .before (needs_action value)
    (.before (.primitive (.assignConstant name)) (.primitive (.retrieveConstant name)))
  | call receiver name args =>
    .seq (needs_optional receiver) (.before (.all (needs_actions args)) (.call name _))
  | callBlock receiver name args scope arity body =>
    .seq (needs_optional receiver) (.seq (.all (needs_actions args))
      (.callBlock name _ scope arity (needs_action body)))
  | yield argument => .before (needs_optional argument) (.primitive (.yield argument.isSome))
  | ifElse condition onTrue onFalse =>
    .seq (needs_action condition) (.branch (needs_action onTrue) (needs_action onFalse))
  | and left right => .seq (needs_action left) (.logical .conjunction (needs_action right))
  | or left right => .seq (needs_action left) (.logical .disjunction (needs_action right))
  | loop condition body checkFirst =>
    .before (.loop (needs_action condition) (needs_action body) checkFirst) (.primitive .loadNil)
  | seq statements => .sequence (needs_actions statements)
  | method name arity localCount body =>
    .before (.method name arity localCount (needs_action body)) (.primitive .loadNil)
  | aliasMethod newName oldName =>
    .before (.primitive (.aliasMethod newName oldName)) (.primitive .loadNil)
  | lambda scope arity body => .closure scope arity (needs_action body)
  | line position body => .after (.primitive (.line position.line)) (needs_action body)

theorem needs_optional : ∀ node : Option Node, Needs onExtra (optionalNeed node) (optional node)
  | none => .skip
  | some node => needs_action node

theorem needs_actions : ∀ nodes : List Node, Action.Needs.Each onExtra (needs nodes) (actions nodes)
  | [] => .nil
  | node :: rest => .cons (needs_action node) (needs_actions rest)

end

end Node

/-! ## Scripts -/

namespace Recorder

variable {υ : Type} {session : Session Recorder υ}

/-- The script is one level. -/
theorem ends_startScript_level : Ends startScript session
    (fun _ session' => session'.bench.units.level = session.bench.units.level + 1 ∧
      session'.bench.units.maxNesting = session.bench.units.maxNesting ∧
      session.bench.units.level + 1 ≤ session.bench.units.maxNesting)
    fun halt _ => halt.tooDeep = true →
      session.bench.units.maxNesting < session.bench.units.level + 1 := by
  refine ends_checked_halts (fun _ => nofun) (Ends.get (Ends.get (Ends.ite ?_ fun _ => ?_)))
  · exact fun started => Ends.stops nofun
  · refine Work.ends_openUnit_level.bind ?_
    rintro handle opened ⟨size, nesting, maxNesting, room⟩
    have level : opened.bench.units.level = session.bench.units.level + 1 := by
      unfold UnitStack.level
      omega
    exact Ends.modifies ⟨level, maxNesting, room⟩

/-- Closing the script never fails for want of levels. -/
theorem ends_endScript_level : Ends endScript session (fun _ _ => True)
    fun halt _ => halt.tooDeep = false := by
  have closes (handle : UnitHandle) (session : Session Recorder υ) :
      Ends (Work.onBench (Bench.closeUnit handle .script)) session (fun _ _ => True)
        fun halt _ => halt.tooDeep = false :=
    Work.ends_onBench ((Bench.ends_closeUnit_level handle .script).mono (fun _ _ _ => trivial)
      fun _ _ => id)
  refine ends_checked_halts (fun _ => rfl) (Ends.get (Ends.ite ?_ fun _ => Ends.get ?_))
  · exact fun _ => (Work.ends_violate rfl).halts
  · split
    · exact Ends.changes ((closes _ _).bind fun _ _ _ => trivial)
    · exact Work.ends_fail rfl

end Recorder

namespace Node

variable {ε : Type} (onExtra : ε → Work Recorder Notes Unit)

/-- The nesting limit is exact. Recording the script of a tree never fails for want of levels if
the script and the tree fit into the limit, and never succeeds if they do not. -/
theorem nesting_limit_exact (config : Config) (owner : Nat) (own : Notes) (node : Node) :
    (1 + node.need ≤ config.maxNesting → ∀ limit session,
      (node.program : Action ε).run (Recorder.contract Notes) onExtra
        (Recorder.new config owner own) ≠ .error (.failure (.exhausted .nestingDepth limit)) session) ∧
    (config.maxNesting < 1 + node.need → ∀ session,
      (node.program : Action ε).run (Recorder.contract Notes) onExtra
        (Recorder.new config owner own) ≠ .ok () session) := by
  have records : Ends ((node.program : Action ε).run (Recorder.contract Notes) onExtra)
      (Recorder.new config owner own) (fun _ _ => 1 + node.need ≤ config.maxNesting)
      fun halt _ => halt.tooDeep = true → config.maxNesting < 1 + node.need := by
    have start : (Recorder.new config owner own).bench.units.level = 0 := rfl
    have limit : (Recorder.new config owner own).bench.units.maxNesting = config.maxNesting := rfl
    apply Ends.bind
    · apply Recorder.ends_startScript_level.mono (fun _ _ => id)
      intro halt _ full deep
      have := full deep
      omega
    · rintro _ begun ⟨level, maxNesting, room⟩
      apply Ends.bind
      · apply (needs_action onExtra node begun (by omega)).mono (fun _ _ => id)
        intro halt _ full deep
        have := full deep
        omega
      · rintro _ recorded ⟨same, enough⟩
        apply Recorder.ends_endScript_level.mono
        · intro _ _ _
          omega
        · intro halt _ other deep
          cases other.symm.trans deep
  constructor
  · intro fits limit session failed
    have := records.error failed rfl
    omega
  · intro exceeds session succeeded
    have := records.ok succeeded
    omega

/-- Constructs of each kind inside one another, and an empty array innermost. -/
def burrow : Node :=
  array [lambda (.ofBlock []) 0 (ifElse .nil .nil (loop (.bool false) (and .nil (array [])) true))]

theorem burrow_exact :
    (∀ limit session, (burrow.program : Action Empty).run (Recorder.contract Notes) Empty.elim
      (Recorder.new { maxNesting := 7 } 0 {}) ≠
        .error (.failure (.exhausted .nestingDepth limit)) session) ∧
    ∀ session, (burrow.program : Action Empty).run (Recorder.contract Notes) Empty.elim
      (Recorder.new { maxNesting := 6 } 0 {}) ≠ .ok () session :=
  ⟨(nesting_limit_exact Empty.elim { maxNesting := 7 } 0 {} burrow).1 (by decide),
    (nesting_limit_exact Empty.elim { maxNesting := 6 } 0 {} burrow).2 (by decide)⟩

end Node

end BlockScript
