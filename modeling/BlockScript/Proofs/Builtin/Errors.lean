import BlockScript.Builtin.Dispatch
import BlockScript.Proofs.Backend.Outcome

/-!
# The errors of messages

Answering a message may fail in many ways, but never because a limit was reached or because an
operand is missing: these are errors of the machine that runs the bodies. So whoever sees such an
error knows which step of the machine raised it.
-/

namespace BlockScript

/-- If the computation fails, then with one of these errors. -/
def Raises {ε σ α : Type} (allowed : ε → Prop) (action : EStateM ε σ α) : Prop :=
  ∀ state, Ends action state (fun _ _ => True) fun error _ => allowed error

namespace Raises

variable {ε σ α β : Type} {allowed : ε → Prop} {action : EStateM ε σ α}

theorem pure (value : α) : Raises allowed (Pure.pure value : EStateM ε σ α) :=
  fun _ => Ends.pure trivial

theorem throws {error : ε} (h : allowed error) :
    Raises allowed (throw error : EStateM ε σ α) :=
  fun _ => Ends.throws h

theorem bind {next : α → EStateM ε σ β} (h₁ : Raises allowed action)
    (h₂ : ∀ value, Raises allowed (next value)) : Raises allowed (action >>= next) :=
  fun state => (h₁ state).bind fun value state' _ => h₂ value state'

theorem get {next : σ → EStateM ε σ β} (h : ∀ state, Raises allowed (next state)) :
    Raises allowed (MonadStateOf.get >>= next) :=
  fun state => h state state

theorem modifies (f : σ → σ) : Raises allowed (modify f : EStateM ε σ Unit) :=
  fun _ => Ends.modifies trivial

theorem ite {c : Prop} [Decidable c] {yes no : EStateM ε σ α} (h₁ : c → Raises allowed yes)
    (h₂ : ¬c → Raises allowed no) : Raises allowed (if c then yes else no) :=
  fun state => Ends.ite (fun h => h₁ h state) fun h => h₂ h state

/-- A computation that may not be there at all. -/
theorem mapM {γ : Type} {found : Option γ} {next : γ → EStateM ε σ β}
    (h : ∀ value, Raises allowed (next value)) : Raises allowed (found.mapM next) := by
  cases found with
  | none => exact .pure none
  | some value => exact (h value).bind fun _ => .pure _

end Raises

/-- No limit was reached, and no operand is missing. -/
structure RuntimeError.OfMessage (error : RuntimeError) : Prop where
  kind : error.kind ≠ .limit
  supplied : ∀ operation, error ≠ .stackUnderflow operation

namespace RuntimeError.OfMessage

/-- A fault of the program. -/
theorem fault {error : RuntimeError} (h : error.kind ≠ .limit) (h' : error.kind ≠ .internal) :
    error.OfMessage where
  kind := h
  supplied _ same := h' (congrArg RuntimeError.kind same)

/-- A broken invariant whose message begins in another way than that of a missing operand. -/
theorem internal {message : String} (h : message.toList.head? ≠ some 'o') :
    (RuntimeError.internal message).OfMessage where
  kind := nofun
  supplied operation same := by
    have text : message = "operand stack underflow in " ++ operation :=
      congrArg RuntimeError.message same
    simp [text] at h

theorem noCode (position : UInt32) : (RuntimeError.noCode position).OfMessage :=
  internal (by simp)

end RuntimeError.OfMessage

/-- Whatever the computation fails with is the error of a message. -/
abbrev Run.Messages {α : Type} (action : Run α) : Prop := Raises RuntimeError.OfMessage action

namespace Run

variable {α : Type} {program : Program}

/-- A computation that cannot go on because of a fault of the program. -/
theorem messages_throw {error : RuntimeError} (h : error.kind ≠ .limit)
    (h' : error.kind ≠ .internal) : Messages (throw error : Run α) :=
  .throws (.fault h h')

theorem messages_wrongArity (given expected : Nat) :
    Messages (throw (.wrongArity given expected) : Run α) :=
  messages_throw nofun nofun

theorem messages_notConvertible (expected : String) (value : Value) :
    Messages (notConvertible expected value : Run α) :=
  .get fun _ => messages_throw nofun nofun

theorem messages_noMethod (name : String) (receiver : Value) :
    Messages (noMethod name receiver : Run α) :=
  .get fun _ => messages_throw nofun nofun

theorem messages_alloc (make : Heap → α × Heap) : Messages (alloc make) := fun _ => trivial

theorem messages_newString (text : String) : Messages (newString text) :=
  (messages_alloc _).bind fun _ => .pure _

theorem messages_newArray (items : Array Value) : Messages (newArray items) :=
  (messages_alloc _).bind fun _ => .pure _

theorem messages_newInteger (n : Int) : Messages (newInteger n) :=
  .ite (fun _ => .pure _) fun _ => messages_alloc _

theorem messages_newObject (className : String) : Messages (newObject className) :=
  (messages_alloc _).bind fun _ => .pure _

theorem messages_intern (name : String) : Messages (intern name) := fun _ => trivial

theorem messages_expectArgs (args : List Value) (expected : Nat) :
    Messages (expectArgs args expected) :=
  .ite (fun _ => .pure _) fun _ => messages_wrongArity _ _

theorem messages_requireBlock (block : Option (Ref .proc)) : Messages (requireBlock block) := by
  cases block with
  | some cell => exact .pure cell
  | none => exact messages_throw nofun nofun

theorem messages_code (position : UInt32) : Messages (code program position) := by
  unfold code
  cases program.code? position with
  | some body => exact .pure body
  | none => exact .throws (.noCode position)

theorem messages_enterMethod (position : UInt32) (self : Value) (args : List Value)
    (block : Option (Ref .proc)) : Messages (enterMethod program position self args block) :=
  (messages_code position).bind fun _ => (messages_alloc _).bind fun _ => .pure _

theorem messages_enterBlock (cell : Ref .proc) (args : List Value) :
    Messages (enterBlock program cell args) := by
  refine .get fun world => ?_
  cases world.heap.proc? cell with
  | none => exact .throws (.internal (by simp))
  | some proc =>
      exact (messages_code proc.code).bind fun _ => .get fun _ =>
        (messages_alloc _).bind fun _ => .pure _

theorem messages_aliasMethod (newName oldName : String) :
    Messages (aliasMethod newName oldName) := by
  refine .get fun world => ?_
  cases world.methods.get? oldName with
  | some method => exact .modifies _
  | none => exact .ite (fun _ => .modifies _) fun _ => messages_throw nofun nofun

end Run

theorem BlockLoop.messages_result (loop : BlockLoop) : Run.Messages loop.result := by
  cases loop with
  | times | each => exact .pure _
  | map => exact Run.messages_newArray _

namespace Builtin

open Run

variable {program : Program} {args : List Value}

theorem messages_stringArg (value : Value) : Messages (stringArg value) := by
  cases value with
  | string cell => exact .get fun _ => .pure _
  | _ => exact messages_notConvertible "String" _

theorem messages_indexArg (value : Value) : Messages (indexArg value) := by
  cases value with
  | fixnum n => exact .pure _
  | _ => exact messages_notConvertible "Integer" _

/-- A value that a computation makes is the answer. -/
theorem messages_answer {action : Run Value} (h : Messages action) :
    Messages (return .value (← action) : Run Reply) :=
  h.bind fun _ => .pure _

theorem messages_bigArithmetic (operator : Arithmetic) (a b : Value) :
    Messages (bigArithmetic operator a b) := by
  unfold bigArithmetic
  cases a.int? with
  | none => exact messages_notConvertible "Integer" a
  | some m =>
      cases b.int? with
      | none => exact messages_notConvertible "Integer" b
      | some n =>
          dsimp only
          cases operator.result? m n with
          | some result => exact messages_newInteger result
          | none => exact messages_throw nofun nofun

theorem messages_arithmetic (operator : Arithmetic) (a b : Value) :
    Messages (arithmetic operator a b) := by
  unfold arithmetic
  split
  · refine .ite (fun _ => messages_throw nofun nofun) fun _ => ?_
    split
    · exact .pure _
    · exact messages_bigArithmetic operator _ _
  · exact messages_bigArithmetic operator a b

/-- The answer to a method that takes one argument. -/
theorem messages_unary {reply : Value → Run Reply} (h : ∀ argument, Messages (reply argument)) :
    Messages (match args with
      | [argument] => reply argument
      | _ => throw (.wrongArity args.length 1)) := by
  match args with
  | [argument] => exact h argument
  | [] | _ :: _ :: _ => exact messages_wrongArity _ _

theorem messages_integerReply (method : IntegerMethod) (receiver : Value) (n : Int)
    (block : Option (Ref .proc)) : Messages (integerReply method receiver n args block) := by
  cases method with
  | arithmetic operator =>
      exact messages_unary fun argument => messages_answer (messages_arithmetic operator _ argument)
  | comparison relation =>
      refine messages_unary fun argument => ?_
      cases compareIntegers receiver argument with
      | some order => exact .pure _
      | none => exact .get fun _ => messages_throw nofun nofun
  | equal => exact messages_unary fun _ => .get fun _ => .pure _
  | order =>
      refine messages_unary fun argument => ?_
      cases compareIntegers receiver argument <;> exact .pure _
  | negate | successor => exact messages_answer (messages_arithmetic _ _ _)
  | display => exact messages_answer (messages_newString _)
  | isZero => exact .pure _
  | absolute =>
      exact .ite (fun _ => messages_answer (messages_arithmetic _ _ _)) fun _ => .pure _
  | isEven | isOdd =>
      exact ((messages_arithmetic _ _ _).bind fun _ => .pure _).bind fun _ => .pure _
  | times =>
      refine (messages_requireBlock block).bind fun _ => ?_
      cases receiver with
      | fixnum count => exact .pure _
      | _ => exact messages_notConvertible "Fixnum" _

theorem messages_stringReply (method : StringMethod) (cell : Ref .string) :
    Messages (stringReply method cell args) := by
  cases method with
  | concat =>
      exact messages_unary fun argument => (messages_stringArg argument).bind fun _ =>
        .get fun _ => messages_answer (messages_newString _)
  | append =>
      exact messages_unary fun argument => (messages_stringArg argument).bind fun _ =>
        (Raises.modifies _).bind fun _ => .pure _
  | length | isEmpty => exact .get fun _ => .pure _
  | equal => exact messages_unary fun _ => .get fun _ => .pure _
  | display => exact .pure _
  | toSymbol => exact .get fun _ => messages_answer (messages_intern _)
  | upcase | reverse | duplicate => exact .get fun _ => messages_answer (messages_newString _)
  | repeated =>
      match args with
      | [argument] =>
          cases argument with
          | fixnum count =>
              exact .get fun _ => .ite (fun _ => messages_throw nofun nofun) fun _ =>
                .ite (fun _ => messages_throw nofun nofun) fun _ =>
                  messages_answer (messages_newString _)
          | _ => exact messages_notConvertible "Integer" _
      | [] => exact messages_wrongArity _ _
      | first :: _ :: _ => cases first <;> exact messages_wrongArity _ _

theorem messages_symbolReply (method : SymbolMethod) (symbol : Symbol) :
    Messages (symbolReply method symbol args) := by
  cases method with
  | display =>
      exact (messages_expectArgs args 0).bind fun _ => messages_answer (messages_newString _)
  | toSymbol => exact .pure _

theorem messages_arrayReply (method : ArrayMethod) (cell : Ref .array)
    (block : Option (Ref .proc)) : Messages (arrayReply method cell args block) := by
  cases method with
  | length | isEmpty | first | last => exact .get fun _ => .pure _
  | get =>
      exact messages_unary fun argument => (messages_indexArg argument).bind fun _ =>
        .get fun _ => .pure _
  | set =>
      match args with
      | [argument, value] =>
          exact (messages_indexArg argument).bind fun _ => .get fun _ =>
            .ite (fun _ => messages_throw nofun nofun) fun _ =>
              .ite (fun _ => messages_throw nofun nofun) fun _ =>
                (Raises.modifies _).bind fun _ => .pure _
      | [] | [_] | _ :: _ :: _ :: _ => exact messages_wrongArity _ _
  | push => exact (Raises.modifies _).bind fun _ => .pure _
  | pop => exact .get fun _ => (Raises.modifies _).bind fun _ => .pure _
  | each | map =>
      exact (messages_requireBlock block).bind fun _ => .get fun _ => .pure _
  | join =>
      refine .get fun world => ?_
      match args with
      | [] | .nil :: _ | .string _ :: _ => exact messages_answer (messages_newString _)
      | .bool _ :: _ | .fixnum _ :: _ | .bignum _ _ :: _ | .symbol _ :: _ | .array _ :: _
      | .proc _ :: _ | .classRef _ :: _ | .object _ :: _ =>
          exact (messages_notConvertible "String" _).bind fun _ =>
            messages_answer (messages_newString _)
  | includes => exact messages_unary fun _ => .get fun _ => .pure _
  | reverse => exact .get fun _ => messages_answer (messages_newArray _)
  | toArray => exact .pure _

theorem messages_kernelReply (method : KernelMethod) (receiver : Value)
    (block : Option (Ref .proc)) : Messages (kernelReply method receiver args block) := by
  have compares {answer : Value → World → Value} :
      Messages (match args with
        | [argument] => do return answer argument (← get)
        | _ => throw (.wrongArity args.length 1)) := by
    match args with
    | [argument] => exact .get fun _ => .pure _
    | [] | _ :: _ :: _ => exact messages_wrongArity _ _
  cases method with
  | puts | print => exact .get fun _ => (Raises.modifies _).bind fun _ => .pure _
  | p =>
      refine .get fun _ => (Raises.modifies _).bind fun _ => ?_
      match args with
      | [] | [_] => exact .pure _
      | _ :: _ :: _ => exact messages_newArray _
  | blockGiven => exact .get fun _ => .pure _
  | proc => exact (messages_requireBlock block).bind fun _ => .pure _
  | isNil | not => exact .pure _
  | equal => exact compares
  | notEqual => exact compares
  | same =>
      match args with
      | [argument] => exact .pure _
      | [] | _ :: _ :: _ => exact messages_wrongArity _ _
  | inspect | display => exact .get fun _ => messages_newString _
  | className => exact .get fun _ => .pure _

theorem messages_lastReply (receiver : Value) (name : String) (block : Option (Ref .proc)) :
    Messages (lastReply receiver name args block) := by
  unfold lastReply
  cases named? kernelMethods name with
  | some method => exact messages_answer (messages_kernelReply method receiver block)
  | none => exact messages_noMethod name receiver

theorem messages_classReply (receiver : Value) (name : String) (block : Option (Ref .proc)) :
    Messages (classReply program receiver name args block) := by
  cases receiver with
  | nil =>
      refine .mapM fun method => ?_
      cases method with
      | display => exact messages_answer (messages_newString _)
      | toArray => exact messages_answer (messages_newArray _)
  | bool | object => exact .pure none
  | fixnum | bignum => exact .mapM fun method => messages_integerReply method _ _ block
  | string cell => exact .mapM fun method => messages_stringReply method cell
  | symbol symbol => exact .mapM fun method => messages_symbolReply method symbol
  | array cell => exact .mapM fun method => messages_arrayReply method cell block
  | proc cell =>
      refine .mapM fun method => ?_
      cases method with
      | call => exact (messages_enterBlock cell args).bind fun _ => .pure _
      | arity => exact .get fun _ => .pure _
  | classRef className =>
      refine .mapM fun method => ?_
      cases method with
      | new =>
          exact .ite (fun _ => messages_throw nofun nofun) fun _ =>
            (messages_expectArgs args 0).bind fun _ => messages_answer (messages_newObject _)
      | name => exact messages_answer (messages_newString _)

theorem messages_builtinReply (receiver : Value) (name : String) (block : Option (Ref .proc)) :
    Messages (builtinReply program receiver name args block) := by
  refine (messages_classReply receiver name block).bind fun answer => ?_
  cases answer with
  | some reply => exact .pure reply
  | none => exact messages_lastReply receiver name block

end Builtin

/-- Wherever the method of a message is found, a failure is one of the message itself. -/
theorem Run.messages_dispatch {program : Program} (receiver : Value) (name : String)
    (args : List Value) (block : Option (Ref .proc)) :
    Messages (dispatch program receiver name args block) := by
  refine (Builtin.messages_classReply receiver name block).bind fun answer => ?_
  cases answer with
  | some reply => exact .pure reply
  | none =>
      refine .get fun world => ?_
      cases world.methods.get? name with
      | none => exact Builtin.messages_lastReply receiver name block
      | some method =>
          cases method with
          | compiled position arity =>
              exact (messages_expectArgs args arity).bind fun _ =>
                messages_enterMethod position receiver args block
          | builtin original => exact Builtin.messages_builtinReply receiver original block

end BlockScript
