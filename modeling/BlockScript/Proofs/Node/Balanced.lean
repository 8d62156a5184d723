import Mathlib.Data.List.Forall2
import BlockScript.Node.Walk
import BlockScript.Proofs.Backend.Balanced

/-!
# Program trees keep the balance

Whatever a program tree looks like, its operations find their operands and leave the one value
of the tree, on either backend. So none of the checks that a backend makes can fail: what is
left are the limits, locals that are out of reach, yields without a method, and what a running
script may raise.
-/

namespace BlockScript

theorem Invocation.argc_of (receiver : Bool) (argc : Nat) : (of receiver argc).argc = argc := by
  cases receiver <;> cases argc <;> rfl

theorem Invocation.consumed_of (receiver : Bool) (argc : Nat) :
    (of receiver argc).consumed = argc + receiver.toNat := by
  cases receiver <;> cases argc <;> rfl

namespace Node

/-- A list is what it has at its positions. -/
theorem map_getD_range {counts : List Nat} {total : Nat} (length : counts.length = total) :
    (List.range total).map (counts.getD · 0) = counts := by
  refine List.ext_getElem (by simp [length]) fun index _ inside => ?_
  simp [inside]

/-! ## The number of operations of a tree -/

/-- The number of operations of statements: those between them drop a value. -/
def sequenceCount : List Nat → Nat
  | [] => 1
  | [last] => last
  | first :: rest => first + 1 + sequenceCount rest

mutual

/-- The number of operations that a tree becomes in the unit that it stands in. -/
def opCount : Node → Nat
  | nil | bool _ | selfRef | fixnum _ | bignum _ | string _ | symbol _ | getLocal _ _ | getIvar _
  | getGlobal _ | getConstant _ | lambda _ _ _ => 1
  | array items => (opCounts items).sum + 1
  | toArray value | not value => value.opCount + 1
  | setLocal _ _ value | setIvar _ value | setGlobal _ value | setConstant _ value =>
    value.opCount + 2
  | call receiver _ args | callBlock receiver _ args _ _ _ =>
    optionalCount receiver + (opCounts args).sum + 1
  | yield argument => optionalCount argument + 1
  | ifElse condition onTrue onFalse => condition.opCount + onTrue.opCount + onFalse.opCount + 2
  | and left right | or left right => left.opCount + right.opCount + 3
  | loop condition body checkFirst =>
    condition.opCount + body.opCount + Backend.Writes.loopCount checkFirst + 1
  | seq statements => sequenceCount (opCounts statements)
  | method _ _ _ _ | aliasMethod _ _ => 2
  | line _ body => body.opCount

/-- The number of operations of a tree that may be missing. -/
def optionalCount : Option Node → Nat
  | none => 0
  | some node => node.opCount

/-- The numbers of operations of several trees. -/
def opCounts : List Node → List Nat
  | [] => []
  | node :: rest => node.opCount :: opCounts rest

end

mutual

/-- The number of elements of an aggregate or of arguments fits an operand, and the body of a
method or a block is short enough for the jumps in it. -/
def Short : Node → Prop
  | array items => items.length < 2 ^ 31 ∧ EachShort items
  | seq statements => EachShort statements
  | call receiver _ args => args.length < 2 ^ 31 ∧ OptionalShort receiver ∧ EachShort args
  | callBlock receiver _ args _ _ body =>
    args.length < 2 ^ 31 ∧ OptionalShort receiver ∧ EachShort args ∧
      body.opCount + 1 < 2 ^ 31 ∧ body.Short
  | yield argument => OptionalShort argument
  | ifElse condition onTrue onFalse => condition.Short ∧ onTrue.Short ∧ onFalse.Short
  | and left right | or left right => left.Short ∧ right.Short
  | loop condition body _ => condition.Short ∧ body.Short
  | toArray value | setLocal _ _ value | setIvar _ value | setGlobal _ value
  | setConstant _ value | not value => value.Short
  | method _ _ _ body | lambda _ _ body => body.opCount + 1 < 2 ^ 31 ∧ body.Short
  | line _ body => body.Short
  | _ => True

/-- The same for a tree that may be missing. -/
def OptionalShort : Option Node → Prop
  | none => True
  | some node => node.Short

/-- The same for each of several trees. -/
def EachShort : List Node → Prop
  | [] => True
  | node :: rest => node.Short ∧ EachShort rest

end

end Node

/-! ## Operations in order -/

namespace Backend.Balanced

variable {ε : Type} {backend : Backend} {onExtra : ε → Work backend.State Notes Unit}
  {taken given count taken' given' count' : Nat}

/-- The actions leave one value each, with that many operations. -/
def Each (backend : Backend) (onExtra : ε → Work backend.State Notes Unit) :
    List Nat → List (Action ε) → Prop :=
  List.Forall₂ fun count action =>
    backend.Balanced 0 1 count (action.run (backend.contract Notes) onExtra)

section Each

variable {counts : List Nat} {actions : List (Action ε)} (each : Each backend onExtra counts actions)

include each

theorem all : backend.Balanced 0 actions.length counts.sum
    ((Action.all actions).run (backend.contract Notes) onExtra) := by
  induction each with
  | nil => exact skip
  | cons first rest ih =>
      cases rest with
      | nil => exact first
      | cons second rest => exact (seq first ih (Nat.zero_le _)).cast (Nat.add_comm ..) List.sum_cons.symm

theorem sequence : backend.Balanced 0 1 (Node.sequenceCount counts)
    ((Node.sequence actions).run (backend.contract Notes) onExtra) := by
  induction each with
  | nil => exact primitive .loadNil
  | cons first rest ih =>
      cases rest with
      | nil => exact first
      | cons second rest =>
          exact seq (seq first (primitive .consume) (Nat.le_refl 1)) ih (Nat.zero_le _)

theorem aggregate (short : actions.length < 2 ^ 31) : backend.Balanced 0 1 (counts.sum + 1)
    ((Node.aggregate actions).run (backend.contract Notes) onExtra) := by
  have length : counts.length = actions.length := each.length_eq
  have parts (index : Nat) (inside : index < actions.length) :
      backend.Balanced 0 1 (counts.getD index 0)
        ((actions.toArray.getD index .skip).run (backend.contract Notes) onExtra) := by
    have one := each.get (length ▸ inside) inside
    simpa [inside, length] using one
  exact (array parts short).cast rfl (by rw [Node.map_getD_range length])

end Each

/-- A call after its receiver, if it has one, and its arguments. -/
theorem called {receiver args : Work backend.State Notes Unit} {hasReceiver : Bool} {argc : Nat}
    (h₁ : backend.Balanced 0 hasReceiver.toNat count receiver)
    (h₂ : backend.Balanced 0 argc count' args) (few : argc < 2 ^ 31) (name : String)
    {block : Option (BlockBody (Session backend.State Notes))}
    (embeds : ∀ given, block = some given → backend.Embeds given.body) :
    backend.Balanced 0 1 (count + count' + 1) (do
      receiver
      args
      (backend.contract Notes).invoke name (.of hasReceiver argc) block) := by
  have taken := Invocation.consumed_of hasReceiver argc
  have calls := @invoke Notes backend name (.of hasReceiver argc)
    (by rwa [Invocation.argc_of]) block embeds
  have operands := seq h₁ h₂ (Nat.zero_le _)
  have left : (Invocation.of hasReceiver argc).consumed = hasReceiver.toNat - 0 + argc := by omega
  have whole := seq operands calls (Nat.le_of_eq left)
  rw [left, Nat.sub_self, bind_assoc] at whole
  exact whole

end Backend.Balanced

/-! ## Trees -/

namespace Node

variable {ε : Type} (backend : Backend) (onExtra : ε → Work backend.State Notes Unit)

theorem length_actions (nodes : List Node) : (actions nodes : List (Action ε)).length = nodes.length := by
  induction nodes with
  | nil => rfl
  | cons node rest ih => exact congrArg (· + 1) ih

mutual

/-- A tree takes nothing and leaves its value. -/
theorem balanced_action : ∀ node : Node, node.Short →
    backend.Balanced 0 1 node.opCount (node.action.run (backend.contract Notes) onExtra)
  | nil, _ => .primitive .loadNil
  | bool false, _ => .primitive .loadFalse
  | bool true, _ => .primitive .loadTrue
  | selfRef, _ => .primitive .retrieveSelf
  | fixnum value, _ => .primitive (.fixnum value)
  | bignum value, _ => .primitive (.bignum value)
  | string text, _ => .primitive (.string text)
  | symbol name, _ => .primitive (.symbol name)
  | getLocal index depth, _ => .primitive (.retrieveLocal index depth)
  | getIvar name, _ => .primitive (.retrieveIvar name)
  | getGlobal name, _ => .primitive (.retrieveGlobal name)
  | getConstant name, _ => .primitive (.retrieveConstant name)
  | array items, ⟨few, short⟩ =>
    .aggregate (balanced_actions items short) (length_actions items ▸ few)
  | toArray value, short =>
    .seq (balanced_action value short) (.primitive .toArray) (Nat.le_refl 1)
  | not value, short => .seq (balanced_action value short) (.primitive .negate) (Nat.le_refl 1)
  | setLocal index depth value, short =>
    .seq (balanced_action value short) (.seq (.primitive (.assignLocal index depth))
      (.primitive (.retrieveLocal index depth)) (Nat.le_refl 0)) (Nat.le_refl 1)
  | setIvar name value, short =>
    .seq (balanced_action value short) (.seq (.primitive (.assignIvar name))
      (.primitive (.retrieveIvar name)) (Nat.le_refl 0)) (Nat.le_refl 1)
  | setGlobal name value, short =>
    .seq (balanced_action value short) (.seq (.primitive (.assignGlobal name))
      (.primitive (.retrieveGlobal name)) (Nat.le_refl 0)) (Nat.le_refl 1)
  | setConstant name value, short =>
    .seq (balanced_action value short) (.seq (.primitive (.assignConstant name))
      (.primitive (.retrieveConstant name)) (Nat.le_refl 0)) (Nat.le_refl 1)
  | call receiver name args, ⟨few, short, shorts⟩ =>
    .called (balanced_optional receiver short) (length_actions args ▸ .all (balanced_actions args shorts))
      few name nofun
  | callBlock receiver name args scope arity body, ⟨few, short, shorts, room, bodyShort⟩ =>
    .called (balanced_optional receiver short) (length_actions args ▸ .all (balanced_actions args shorts))
      few name fun given found => by
        cases found
        exact ⟨_, room, balanced_action body bodyShort⟩
  | yield argument, short =>
    (Backend.Balanced.seq (balanced_optional argument short) (.primitive (.yield argument.isSome))
      (Nat.le_refl _)).cast (Nat.sub_self _ ▸ rfl) rfl
  | ifElse condition onTrue onFalse, ⟨h, h₁, h₂⟩ =>
    (Backend.Balanced.seq (balanced_action condition h)
      (.branch (balanced_action onTrue h₁) (balanced_action onFalse h₂)) (Nat.le_refl 1)).cast rfl
      (by rw [opCount]; omega)
  | and left right, ⟨h₁, h₂⟩ =>
    .seq (balanced_action left h₁) (.logical .conjunction (balanced_action right h₂)) (Nat.le_refl 1)
  | or left right, ⟨h₁, h₂⟩ =>
    .seq (balanced_action left h₁) (.logical .disjunction (balanced_action right h₂)) (Nat.le_refl 1)
  | loop condition body checkFirst, ⟨h₁, h₂⟩ =>
    .seq (.loop (balanced_action condition h₁) (balanced_action body h₂) checkFirst)
      (.primitive .loadNil) (Nat.le_refl 0)
  | seq statements, shorts => .sequence (balanced_actions statements shorts)
  | method name arity localCount body, ⟨room, short⟩ =>
    .seq (.method ⟨_, room, balanced_action body short⟩ name arity localCount) (.primitive .loadNil)
      (Nat.le_refl 0)
  | aliasMethod newName oldName, _ =>
    .seq (.primitive (.aliasMethod newName oldName)) (.primitive .loadNil) (Nat.le_refl 0)
  | lambda scope arity body, ⟨room, short⟩ =>
    .closure ⟨_, room, balanced_action body short⟩ scope arity
  | line position body, short =>
    (Backend.Balanced.seq (.primitive (.line position.line)) (balanced_action body short)
      (Nat.le_refl 0)).cast rfl (Nat.zero_add _)

theorem balanced_optional : ∀ node : Option Node, OptionalShort node →
    backend.Balanced 0 node.isSome.toNat (optionalCount node)
      ((optional node).run (backend.contract Notes) onExtra)
  | none, _ => .skip
  | some node, short => balanced_action node short

theorem balanced_actions : ∀ nodes : List Node, EachShort nodes →
    Backend.Balanced.Each backend onExtra (opCounts nodes) (actions nodes)
  | [], _ => .nil
  | node :: rest, ⟨short, shorts⟩ =>
    .cons (balanced_action node short) (balanced_actions rest shorts)

end

/-- Wherever a caller has got to, as long as a unit is open and no operation has failed that the
backend remembers, the operations of a tree leave exactly one value more in the same units, or
fail with an error that does not blame the caller: a limit is exceeded, a local is out of reach,
a yield has no method around it, or, where the script is executed, an error of the running
program. Depths are signed numbers of 64 bits, which the innermost recording must not exceed. -/
theorem leaves_one_value {config : Config} (checks : config.checkStack = true) {limits : Limits}
    {owner : Nat} {own : Notes} {α : Type} {manner : Manner backend.State Notes}
    {setup : Work backend.State Notes α} (client : Client (backend.contract Notes) manner setup)
    {session : Session backend.State Notes}
    (reached : Backend.Reaches setup (backend.new config limits owner own) session)
    (unpoisoned : backend.Unpoisoned session.backend) (opened : session.bench.units.units ≠ [])
    (node : Node) (short : node.Short)
    (room : ∀ found, session.bench.recording? = some found →
      found.builder.depth + node.opCount < 2 ^ 63) :
    Ends (node.action.run (backend.contract Notes) onExtra) session
      (fun _ session' => backend.OneMore session session')
      fun halt _ => halt.Permitted backend.executes :=
  (balanced_action backend onExtra node short).ends_oneMore
    (Backend.reached_prepared client reached checks unpoisoned)
    (Backend.reached_hasRoom client reached opened room)

/-- A script that has just been opened and is executed. -/
def opened : Session Interpreter Notes :=
  let new : Session Interpreter Notes := Interpreter.new .strict {} 0 {}
  { new with
    bench := { new.bench with
      units := { new.bench.units with nextId := 2, units := [⟨1, .script, mainName, none⟩] } }
    backend := { new.backend with script := some ⟨0, 1⟩ } }

/-- A loop, a method, and a call of it with a block that makes an array. -/
def counting : Node := seq [
  setGlobal "n" (int 0),
  loop ((getGlobal "n").binary "<" (int 2)) (setGlobal "n" ((getGlobal "n").binary "+" (int 1))) true,
  method "twice" 0 0 (seq [yield none, yield none]),
  callBlock none "twice" [] (.ofBlock []) 0
    (ifElse (getGlobal "n") (array [getGlobal "n", lambda (.ofBlock []) 0 nil]) nil)]

theorem counting_leaves_one_value : ∃ session' value,
    (counting.action : Action Empty).run (Interpreter.contract Notes 40) Empty.elim opened =
      .ok () session' ∧
    session'.backend.top.stack = [value] ∧ session'.bench.units.units = opened.bench.units.units := by
  have outcome : (((counting.action : Action Empty).run (Interpreter.contract Notes 40)
      Empty.elim).session? opened).isSome = true := by decide +kernel
  have short : counting.Short := by
    simp [counting, int, binary, send, Short, EachShort, OptionalShort, opCount, opCounts,
      optionalCount, sequenceCount]
  have reached : Backend.Reaches (Interpreter.startScript : Work Interpreter Notes Unit)
      (Interpreter.new .strict {} 0 {}) opened := rfl
  have empty : opened.backend.top.stack = [] := rfl
  have idle : opened.bench.recording? = none := rfl
  have openUnits : opened.bench.units.units ≠ [] := List.cons_ne_nil _ _
  have client : Client (Interpreter.contract Notes 40) {}
      (Operation.startScript.issue (Interpreter.contract Notes 40)) :=
    .issue (fun _ has => has.elim) fun _ has => has.elim
  have checks : Config.strict.checkStack = true := rfl
  generalize opened = session at outcome reached empty idle openUnits ⊢
  generalize counting = node at outcome short ⊢
  obtain ⟨session', ends⟩ := Option.isSome_iff_exists.mp outcome
  obtain ⟨value, run⟩ := Work.run_of_session? ends
  have one := leaves_one_value (.immediate 40) Empty.elim checks client reached trivial
    openUnits node short fun _ recorded => by cases idle.symm.trans recorded
  obtain ⟨-, -, more⟩ := one.ok run
  rw [idle] at more
  obtain ⟨units, value, stack⟩ := more
  exact ⟨session', value, run, stack.trans (congrArg _ empty), units⟩

end Node

end BlockScript
