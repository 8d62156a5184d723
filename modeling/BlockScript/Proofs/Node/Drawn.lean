import BlockScript.Proofs.Backend.Bodies
import BlockScript.Proofs.Node.Balanced

/-!
# Program trees are recorded as they are laid out

Both backends record the operations of a tree as `Action.Lays` says, wherever a unit is recorded.
There is one rule for each operation of the contract, as there is for the values that it takes and
leaves.
-/

namespace BlockScript

variable {ε υ : Type}

namespace Backend.Draws

variable {backend : Backend} {site : Site} {count count' : Nat}

/-! ## Operations of the contract -/

theorem primitive (p : Primitive) : backend.Draws p.taken p.given p.count
    (.primitive p : Action ε) site ((backend.contract υ).primitive p) := by
  cases backend with
  | recording => exact Recorder.draws_checked (.emitPrimitive p)
  | immediate fuel =>
      exact congr (.emitPrimitive p) fun found => Interpreter.primitive_of_recording found fuel p

theorem call (name : String) {shape : Invocation} (few : shape.argc < 2 ^ 31) :
    backend.Draws shape.consumed 1 1 (.call name shape : Action ε) site
      ((backend.contract υ).invoke name shape none) := by
  cases backend with
  | recording => exact Recorder.draws_checked (.emitCall few name)
  | immediate fuel => exact Interpreter.draws_either (.emitCall few name)

section Nested

variable {action action' : Action ε} {work work' : Work backend.State υ Unit}

theorem callBlock (name : String) {shape : Invocation} (few : shape.argc < 2 ^ 31)
    {scope : StaticScope} {arity : Nat} (h : backend.Draws 0 1 count action site.closure work)
    (short : count + 1 < 2 ^ 31) :
    backend.Draws shape.consumed 1 1 (.callBlock name shape scope arity action) site
      ((backend.contract υ).invoke name shape (some ⟨scope, arity, work⟩)) := by
  cases backend with
  | recording => exact Recorder.draws_checked (.emitCallBlock few name h short)
  | immediate fuel => exact Interpreter.draws_either (.emitCallBlock few name h short)

theorem array {total : Nat} {element : Nat → Action ε} {part : Nat → Work backend.State υ Unit}
    {counts : Nat → Nat}
    (h : ∀ index < total, backend.Draws 0 1 (counts index) (element index) site (part index))
    (short : total < 2 ^ 31) :
    backend.Draws 0 1 (((List.range total).map counts).sum + 1) (.array total element) site
      ((backend.contract υ).objectArray total part) := by
  cases backend with
  | recording => exact Recorder.draws_checked (.emitArray h short)
  | immediate fuel => exact Interpreter.draws_either (.emitArray h short)

theorem branch (h₁ : backend.Draws 0 1 count action site work)
    (h₂ : backend.Draws 0 1 count' action' site work') :
    backend.Draws 1 1 (count + count' + 2) (.branch action action') site
      ((backend.contract υ).branch work work') := by
  cases backend with
  | recording => exact Recorder.draws_checked (.emitBranch h₁ h₂)
  | immediate fuel => exact Interpreter.draws_either (.emitBranch h₁ h₂)

theorem logical (connective : Connective) (h : backend.Draws 0 1 count action site work) :
    backend.Draws 1 1 (count + 3) (.logical connective action) site
      ((backend.contract υ).logical connective work) := by
  cases backend with
  | recording => exact Recorder.draws_checked (.emitLogical connective h)
  | immediate fuel => exact Interpreter.draws_either (.emitLogical connective h)

theorem loop (h₁ : backend.Draws 0 1 count action site work)
    (h₂ : backend.Draws 0 1 count' action' site work') (checkFirst : Bool) :
    backend.Draws 0 0 (count + count' + Writes.loopCount checkFirst)
      (.loop action action' checkFirst) site ((backend.contract υ).loop work work' checkFirst) := by
  cases backend with
  | recording => exact Recorder.draws_checked (.emitLoop h₁ h₂ checkFirst)
  | immediate fuel => exact Interpreter.draws_either (.emitLoop h₁ h₂ checkFirst)

theorem closure (h : backend.Draws 0 1 count action site.closure work) (short : count + 1 < 2 ^ 31)
    (scope : StaticScope) (arity : Nat) : backend.Draws 0 1 1 (.closure scope arity action) site
      ((backend.contract υ).closure scope arity work) := by
  cases backend with
  | recording =>
      refine Recorder.draws_checked (congr (closing h short fun _ {_ _} _ => rfl) fun found => ?_)
      exact run_bind_ok (Work.onBench_ok (Bench.target_eq found))
  | immediate fuel =>
      refine congr (closing h short fun slot {_ _} found =>
        Interpreter.perform_of_recording found fuel Work.closureOperation (.makeClosure slot)) fun found => ?_
      obtain ⟨unit, outer, hunits, -⟩ := Bench.recording?_eq_some.mp found
      exact run_bind_ok (Interpreter.ensureOpen_eq hunits)

theorem method (name : String) (arity localCount : Nat)
    (h : backend.Draws 0 1 count action (.method name) work) (short : count + 1 < 2 ^ 31) :
    backend.Draws 0 0 1 (.method name arity localCount action) site
      ((backend.contract υ).defineMethod name arity localCount work) := by
  cases backend with
  | recording =>
      refine Recorder.draws_checked (congr (defining h short fun _ {_ _} _ => rfl) fun found => ?_)
      exact run_bind_ok (Work.onBench_ok (Bench.target_eq found))
  | immediate fuel =>
      have records : (Backend.immediate fuel).Draws 0 0 1 (.method name arity localCount action) site (do
          let slot ← Work.recordUnit .method name arity localCount [] work
          let position ← Work.onBench (Bench.intern (.name name))
          Interpreter.perform fuel Work.defineOperation (.defineMethod position slot)) := by
        refine defining h short fun slot session recording found => ?_
        rw [Bench.emitNamed, Bench.emitPooled, Work.onBench_bind,
          run_bind_ok (Work.onBench_ok (Bench.target_eq found)), Work.onBench_bind]
        exact Interpreter.bind_congr_of_intact found (Work.ends_intern _ session true)
          fun position session' found => Interpreter.perform_of_recording found fuel _ _
      refine congr records fun found => ?_
      obtain ⟨unit, outer, hunits, -⟩ := Bench.recording?_eq_some.mp found
      exact run_bind_ok (Interpreter.ensureOpen_eq hunits)

end Nested

/-! ## Operations in order -/

section Each

variable {onExtra : ε → Work backend.State Notes Unit} {counts : List Nat} {actions : List (Action ε)}

/-- The actions are recorded as they are laid out, and leave one value each. -/
def Each (backend : Backend) (onExtra : ε → Work backend.State Notes Unit) (site : Site) :
    List Nat → List (Action ε) → Prop :=
  List.Forall₂ fun count action =>
    backend.Draws 0 1 count action site (action.run (backend.contract Notes) onExtra)

theorem all (each : Each backend onExtra site counts actions) :
    backend.Draws 0 actions.length counts.sum (.all actions) site
      ((Action.all actions).run (backend.contract Notes) onExtra) := by
  induction each with
  | nil => exact skip
  | cons first rest ih =>
      cases rest with
      | nil => exact first
      | cons second rest =>
          exact (seq first ih (Nat.zero_le _)).cast (Nat.add_comm ..) List.sum_cons.symm

theorem sequence (each : Each backend onExtra site counts actions) :
    backend.Draws 0 1 (Node.sequenceCount counts) (Node.sequence actions) site
      ((Node.sequence actions).run (backend.contract Notes) onExtra) := by
  induction each with
  | nil => exact primitive .loadNil
  | cons first rest ih =>
      cases rest with
      | nil => exact first
      | cons second rest =>
          exact seq (seq first (primitive .consume) (Nat.le_refl 1)) ih (Nat.zero_le _)

theorem aggregate (each : Each backend onExtra site counts actions) (short : actions.length < 2 ^ 31) :
    backend.Draws 0 1 (counts.sum + 1) (Node.aggregate actions) site
      ((Node.aggregate actions).run (backend.contract Notes) onExtra) := by
  have length : counts.length = actions.length := each.length_eq
  have parts (index : Nat) (inside : index < actions.length) :
      backend.Draws 0 1 (counts.getD index 0) (actions.toArray.getD index .skip) site
        ((actions.toArray.getD index .skip).run (backend.contract Notes) onExtra) := by
    have one := each.get (length ▸ inside) inside
    simpa [inside, length] using one
  exact (array parts short).cast rfl (by rw [Node.map_getD_range length])

/-- A call after its receiver, if it has one, and its arguments. -/
theorem called {receiver args call : Action ε} {hasReceiver : Bool} {argc : Nat}
    {first next last : Work backend.State Notes Unit}
    (h₁ : backend.Draws 0 hasReceiver.toNat count receiver site first)
    (h₂ : backend.Draws 0 argc count' args site next)
    (h₃ : backend.Draws (Invocation.of hasReceiver argc).consumed 1 1 call site last) :
    backend.Draws 0 1 (count + count' + 1) (.seq receiver (.seq args call)) site (do
      first
      next
      last) := by
  have taken := Invocation.consumed_of hasReceiver argc
  have operands := seq h₁ h₂ (Nat.zero_le _)
  have left : (Invocation.of hasReceiver argc).consumed = hasReceiver.toNat - 0 + argc := by omega
  have whole := seq operands h₃ (Nat.le_of_eq left)
  rw [left, Nat.sub_self, bind_assoc] at whole
  exact whole.relay fun program ops => Action.lays_seq_assoc program receiver args call site ops

end Each

end Backend.Draws

/-! ## Trees -/

namespace Node

variable (backend : Backend) (onExtra : ε → Work backend.State Notes Unit)

theorem argc_short {receiver : Bool} {argc : Nat} (few : argc < 2 ^ 31) :
    (Invocation.of receiver argc).argc < 2 ^ 31 := by
  rwa [Invocation.argc_of]

mutual

/-- A tree is recorded as it is laid out. -/
theorem drawn_action : ∀ node : Node, node.Short → ∀ site, backend.Draws 0 1 node.opCount
    (node.action : Action ε) site (node.action.run (backend.contract Notes) onExtra)
  | nil, _, _ => .primitive .loadNil
  | bool false, _, _ => .primitive .loadFalse
  | bool true, _, _ => .primitive .loadTrue
  | selfRef, _, _ => .primitive .retrieveSelf
  | fixnum value, _, _ => .primitive (.fixnum value)
  | bignum value, _, _ => .primitive (.bignum value)
  | string text, _, _ => .primitive (.string text)
  | symbol name, _, _ => .primitive (.symbol name)
  | getLocal index depth, _, _ => .primitive (.retrieveLocal index depth)
  | getIvar name, _, _ => .primitive (.retrieveIvar name)
  | getGlobal name, _, _ => .primitive (.retrieveGlobal name)
  | getConstant name, _, _ => .primitive (.retrieveConstant name)
  | array items, ⟨few, short⟩, site =>
    .aggregate (drawn_actions items short site) (length_actions items ▸ few)
  | toArray value, short, site =>
    .seq (drawn_action value short site) (.primitive .toArray) (Nat.le_refl 1)
  | not value, short, site =>
    .seq (drawn_action value short site) (.primitive .negate) (Nat.le_refl 1)
  | setLocal index depth value, short, site =>
    .seq (drawn_action value short site) (.seq (.primitive (.assignLocal index depth))
      (.primitive (.retrieveLocal index depth)) (Nat.le_refl 0)) (Nat.le_refl 1)
  | setIvar name value, short, site =>
    .seq (drawn_action value short site) (.seq (.primitive (.assignIvar name))
      (.primitive (.retrieveIvar name)) (Nat.le_refl 0)) (Nat.le_refl 1)
  | setGlobal name value, short, site =>
    .seq (drawn_action value short site) (.seq (.primitive (.assignGlobal name))
      (.primitive (.retrieveGlobal name)) (Nat.le_refl 0)) (Nat.le_refl 1)
  | setConstant name value, short, site =>
    .seq (drawn_action value short site) (.seq (.primitive (.assignConstant name))
      (.primitive (.retrieveConstant name)) (Nat.le_refl 0)) (Nat.le_refl 1)
  | call receiver name args, ⟨few, short, shorts⟩, site =>
    .called (drawn_optional receiver short site)
      (length_actions args ▸ .all (drawn_actions args shorts site)) (.call name (argc_short few))
  | callBlock receiver name args scope arity body, ⟨few, short, shorts, room, bodyShort⟩, site =>
    .called (drawn_optional receiver short site)
      (length_actions args ▸ .all (drawn_actions args shorts site))
      (.callBlock name (argc_short few) (drawn_action body bodyShort _) room)
  | yield argument, short, site =>
    (Backend.Draws.seq (drawn_optional argument short site) (.primitive (.yield argument.isSome))
      (Nat.le_refl _)).cast (Nat.sub_self _ ▸ rfl) rfl
  | ifElse condition onTrue onFalse, ⟨h, h₁, h₂⟩, site =>
    (Backend.Draws.seq (drawn_action condition h site)
      (.branch (drawn_action onTrue h₁ site) (drawn_action onFalse h₂ site)) (Nat.le_refl 1)).cast rfl
      (by rw [opCount]; omega)
  | and left right, ⟨h₁, h₂⟩, site =>
    .seq (drawn_action left h₁ site) (.logical .conjunction (drawn_action right h₂ site))
      (Nat.le_refl 1)
  | or left right, ⟨h₁, h₂⟩, site =>
    .seq (drawn_action left h₁ site) (.logical .disjunction (drawn_action right h₂ site))
      (Nat.le_refl 1)
  | loop condition body checkFirst, ⟨h₁, h₂⟩, site =>
    .seq (.loop (drawn_action condition h₁ site) (drawn_action body h₂ site) checkFirst)
      (.primitive .loadNil) (Nat.le_refl 0)
  | seq statements, shorts, site => .sequence (drawn_actions statements shorts site)
  | method name arity localCount body, ⟨room, short⟩, site =>
    .seq (.method name arity localCount (drawn_action body short _) room) (.primitive .loadNil)
      (Nat.le_refl 0)
  | aliasMethod newName oldName, _, _ =>
    .seq (.primitive (.aliasMethod newName oldName)) (.primitive .loadNil) (Nat.le_refl 0)
  | lambda scope arity body, ⟨room, short⟩, _ =>
    .closure (drawn_action body short _) room scope arity
  | line position body, short, site =>
    (Backend.Draws.seq (.primitive (.line position.line)) (drawn_action body short site)
      (Nat.le_refl 0)).cast rfl (Nat.zero_add _)

theorem drawn_optional : ∀ node : Option Node, OptionalShort node → ∀ site,
    backend.Draws 0 node.isSome.toNat (optionalCount node) (optional node : Action ε) site
      ((optional node).run (backend.contract Notes) onExtra)
  | none, _, _ => .skip
  | some node, short, site => drawn_action node short site

theorem drawn_actions : ∀ nodes : List Node, EachShort nodes → ∀ site,
    Backend.Draws.Each backend onExtra site (opCounts nodes) (actions nodes)
  | [], _, _ => .nil
  | node :: rest, ⟨short, shorts⟩, site =>
    .cons (drawn_action node short site) (drawn_actions rest shorts site)

end

end Node

end BlockScript
