import BlockScript.Node.Walk
import BlockScript.Proofs.Contract.Client

/-!
# What program trees become

A program tree becomes operations that compute, and nothing that looks after handles, leaves
marks or recovers from failures. The script is opened before them and closed after them.
-/

namespace BlockScript

namespace Action

variable {ε : Type}

/-- Only operations that program trees become. -/
def Plain : Action ε → Prop
  | skip | primitive _ | call _ _ => True
  | seq first next => first.Plain ∧ next.Plain
  | callBlock _ _ _ _ body => body.Plain
  | array _ element => ∀ index, (element index).Plain
  | branch onTrue onFalse => onTrue.Plain ∧ onFalse.Plain
  | logical _ right => right.Plain
  | loop condition body _ => condition.Plain ∧ body.Plain
  | closure _ _ body | method _ _ _ body => body.Plain
  | _ => False

/-- All operations without nested code are of that kind, in nested code too. -/
def Uses (allowed : Primitive → Prop) : Action ε → Prop
  | primitive p => allowed p
  | seq first next | branch first next | loop first next _ =>
    first.Uses allowed ∧ next.Uses allowed
  | callBlock _ _ _ _ body | logical _ body | closure _ _ body | method _ _ _ body =>
    body.Uses allowed
  | array _ element => ∀ index, (element index).Uses allowed
  | rescue body handler => body.Uses allowed ∧ ∀ error, (handler error).Uses allowed
  | _ => True

theorem uses_any (action : Action ε) : action.Uses fun _ => True := by
  induction action with
  | seq _ _ ih₁ ih₂ | branch _ _ ih₁ ih₂ | loop _ _ _ ih₁ ih₂ | rescue _ _ ih₁ ih₂ => exact ⟨ih₁, ih₂⟩
  | callBlock _ _ _ _ _ ih | logical _ _ ih | closure _ _ _ ih | method _ _ _ _ ih => exact ih
  | array _ _ ih => exact ih
  | _ => trivial

/-- No line is set, in nested code neither. -/
def Silent (action : Action ε) : Prop := action.Uses fun p => ∀ line, p ≠ .line line

section Holds

variable {β : Type} {contract : Contract (Session β Notes)} {P : Work β Notes Unit → Prop}
  (skip : P (pure ()))
  (seq : ∀ {first next : Work β Notes Unit}, P first → P next → P (first >>= fun _ => next))

include skip seq

/-- What every operation of some kind has if its nested code has it, and what is kept when
computations follow each other, plain operations of that kind have. -/
theorem Plain.holds_using {allowed : Primitive → Prop}
    (issue : ∀ operation : Operation (Session β Notes) Unit, operation.Computes →
      (∀ p, operation.Issues p → allowed p) →
      (∀ part, operation.Has part → P part) → P (operation.issue contract))
    (onExtra : ε → Work β Notes Unit) {action : Action ε} (plain : action.Plain)
    (uses : action.Uses allowed) : P (action.run contract onExtra) := by
  induction action with
  | skip => exact skip
  | seq first next ih₁ ih₂ => exact seq (ih₁ plain.1 uses.1) (ih₂ plain.2 uses.2)
  | primitive p =>
      apply issue (.primitive p) trivial
      · rintro _ ⟨⟩
        exact uses
      · exact nofun
  | call name shape => exact issue (.invoke name shape none) trivial nofun nofun
  | callBlock name shape scope arity body ih =>
      apply issue (.invoke name shape (some { scope, arity, body := body.run contract onExtra })) trivial
        nofun
      rintro part ⟨_, ⟨⟩, rfl⟩
      exact ih plain uses
  | array count element ih =>
      apply issue (.control (.array count fun index => (element index).run contract onExtra)) trivial
        nofun
      rintro part ⟨index, rfl⟩
      exact ih index (plain index) (uses index)
  | branch onTrue onFalse ih₁ ih₂ =>
      apply issue (.control (.branch (onTrue.run contract onExtra) (onFalse.run contract onExtra)))
        trivial nofun
      rintro part (rfl | rfl)
      · exact ih₁ plain.1 uses.1
      · exact ih₂ plain.2 uses.2
  | logical connective right ih =>
      apply issue (.control (.logical connective (right.run contract onExtra))) trivial nofun
      rintro part rfl
      exact ih plain uses
  | loop condition body checkFirst ih₁ ih₂ =>
      apply issue (.control (.loop (condition.run contract onExtra) (body.run contract onExtra)
        checkFirst)) trivial nofun
      rintro part (rfl | rfl)
      · exact ih₁ plain.1 uses.1
      · exact ih₂ plain.2 uses.2
  | closure scope arity body ih =>
      apply issue (.closure scope arity (body.run contract onExtra)) trivial nofun
      rintro part rfl
      exact ih plain uses
  | method name arity localCount body ih =>
      apply issue (.defineMethod name arity localCount (body.run contract onExtra)) trivial nofun
      rintro part rfl
      exact ih plain uses
  | _ => exact plain.elim

/-- What every operation has if its nested code has it, and what is kept when computations follow
each other, plain operations have. -/
theorem Plain.holds
    (issue : ∀ operation : Operation (Session β Notes) Unit, ¬operation.SetsScript →
      (∀ part, operation.Has part → P part) → P (operation.issue contract))
    (onExtra : ε → Work β Notes Unit) {action : Action ε} (plain : action.Plain) :
    P (action.run contract onExtra) :=
  plain.holds_using skip seq (fun operation computes _ parts =>
    issue operation (operation.not_setsScript_of_computes computes) parts) onExtra action.uses_any

end Holds

theorem plain_all {actions : List (Action ε)} (h : ∀ action ∈ actions, action.Plain) :
    (all actions).Plain := by
  fun_induction all actions with
  | case1 => trivial
  | case2 last => exact h last (List.mem_singleton_self _)
  | case3 first rest _ ih =>
      constructor
      · exact h first (List.mem_cons_self ..)
      · exact ih fun action member => h action (List.mem_cons_of_mem _ member)

end Action

namespace Node

variable {ε : Type}

theorem plain_sequence {actions : List (Action ε)} (h : ∀ action ∈ actions, action.Plain) :
    (sequence actions).Plain := by
  fun_induction sequence actions with
  | case1 => trivial
  | case2 last => exact h last (List.mem_singleton_self _)
  | case3 first rest _ ih =>
      constructor
      · exact ⟨h first (List.mem_cons_self ..), trivial⟩
      · exact ih fun action member => h action (List.mem_cons_of_mem _ member)

theorem plain_aggregate {actions : List (Action ε)} (h : ∀ action ∈ actions, action.Plain) :
    (aggregate actions).Plain := by
  intro index
  by_cases inside : index < actions.length
  · simpa [inside] using h _ (List.getElem_mem inside)
  · simp [inside, Action.Plain]

mutual

/-- A tree becomes plain operations. -/
theorem plain_action : ∀ node : Node, (node.action : Action ε).Plain
  | nil | bool _ | selfRef | fixnum _ | bignum _ | string _ | symbol _
  | getLocal _ _ | getIvar _ | getGlobal _ | getConstant _ => trivial
  | array items => plain_aggregate (plain_actions items)
  | toArray value | not value => ⟨plain_action value, trivial⟩
  | setLocal _ _ value | setIvar _ value | setGlobal _ value | setConstant _ value =>
    ⟨plain_action value, trivial, trivial⟩
  | call receiver _ args =>
    ⟨plain_optional receiver, Action.plain_all (plain_actions args), trivial⟩
  | callBlock receiver _ args _ _ body =>
    ⟨plain_optional receiver, Action.plain_all (plain_actions args), plain_action body⟩
  | yield argument => ⟨plain_optional argument, trivial⟩
  | ifElse condition onTrue onFalse =>
    ⟨plain_action condition, plain_action onTrue, plain_action onFalse⟩
  | and left right | or left right => ⟨plain_action left, plain_action right⟩
  | loop condition body _ => ⟨⟨plain_action condition, plain_action body⟩, trivial⟩
  | seq statements => plain_sequence (plain_actions statements)
  | method _ _ _ body => ⟨plain_action body, trivial⟩
  | aliasMethod _ _ => ⟨trivial, trivial⟩
  | lambda _ _ body => plain_action body
  | line _ body => ⟨trivial, plain_action body⟩

theorem plain_optional : ∀ node : Option Node, (optional node : Action ε).Plain
  | none => trivial
  | some node => plain_action node

theorem plain_actions : ∀ nodes : List Node, ∀ action ∈ (actions nodes : List (Action ε)),
    action.Plain
  | [], _, member => by cases member
  | node :: rest, action, member => by
    rcases List.mem_cons.mp member with rfl | member
    · exact plain_action node
    · exact plain_actions rest action member

end

end Node

end BlockScript
