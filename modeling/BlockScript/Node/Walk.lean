import BlockScript.Contract.Action
import BlockScript.Node.Basic

/-!
# From trees to operations

A tree is walked depth first, and every node becomes the operations of the contract that
compute it. They take nothing from the stack and leave the one value of the node on it.
-/

namespace BlockScript

namespace Node

variable {ε : Type}

/-- The operations of statements: all values but the last are dropped. -/
def sequence : List (Action ε) → Action ε
  | [] => .primitive .loadNil
  | [last] => last
  | first :: rest => .seq (.seq first (.primitive .consume)) (sequence rest)

/-- The operations of an aggregate with these elements. -/
def aggregate (elements : List (Action ε)) : Action ε :=
  let elements := elements.toArray
  .array elements.size fun index => elements.getD index .skip

mutual

/-- The operations of a node. -/
def action : Node → Action ε
  | nil => .primitive .loadNil
  | bool b => .primitive (if b then .loadTrue else .loadFalse)
  | selfRef => .primitive .retrieveSelf
  | fixnum value => .primitive (.fixnum value)
  | bignum value => .primitive (.bignum value)
  | string text => .primitive (.string text)
  | symbol name => .primitive (.symbol name)
  | array items => aggregate (actions items)
  | toArray value => .seq value.action (.primitive .toArray)
  | getLocal index depth => .primitive (.retrieveLocal index depth)
  | setLocal index depth value =>
    .seq value.action
      (.seq (.primitive (.assignLocal index depth)) (.primitive (.retrieveLocal index depth)))
  | getIvar name => .primitive (.retrieveIvar name)
  | setIvar name value =>
    .seq value.action (.seq (.primitive (.assignIvar name)) (.primitive (.retrieveIvar name)))
  | getGlobal name => .primitive (.retrieveGlobal name)
  | setGlobal name value =>
    .seq value.action (.seq (.primitive (.assignGlobal name)) (.primitive (.retrieveGlobal name)))
  | getConstant name => .primitive (.retrieveConstant name)
  | setConstant name value =>
    .seq value.action
      (.seq (.primitive (.assignConstant name)) (.primitive (.retrieveConstant name)))
  | call receiver name args =>
    .seq (optional receiver)
      (.seq (.all (actions args)) (.call name (.of receiver.isSome args.length)))
  | callBlock receiver name args scope arity body =>
    .seq (optional receiver)
      (.seq (.all (actions args))
        (.callBlock name (.of receiver.isSome args.length) scope arity body.action))
  | yield argument => .seq (optional argument) (.primitive (.yield argument.isSome))
  | ifElse condition onTrue onFalse =>
    .seq condition.action (.branch onTrue.action onFalse.action)
  | and left right => .seq left.action (.logical .conjunction right.action)
  | or left right => .seq left.action (.logical .disjunction right.action)
  | not value => .seq value.action (.primitive .negate)
  | loop condition body checkFirst =>
    .seq (.loop condition.action body.action checkFirst) (.primitive .loadNil)
  | seq statements => sequence (actions statements)
  | method name arity localCount body =>
    .seq (.method name arity localCount body.action) (.primitive .loadNil)
  | aliasMethod newName oldName =>
    .seq (.primitive (.aliasMethod newName oldName)) (.primitive .loadNil)
  | lambda scope arity body => .closure scope arity body.action
  | line position body => .seq (.primitive (.line position.line)) body.action

/-- The operations of a node that may be missing. -/
def optional : Option Node → Action ε
  | none => .skip
  | some node => node.action

/-- The operations of several nodes, one action each. -/
def actions : List Node → List (Action ε)
  | [] => []
  | node :: rest => node.action :: actions rest

end

/-- The operations of a whole program. -/
def program (node : Node) : Action ε := .seq .startScript (.seq node.action .endScript)

end Node

end BlockScript
