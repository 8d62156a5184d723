import BlockScript.Builtin.Dispatch
import BlockScript.Proofs.Builtin.Integer
import BlockScript.Proofs.World.Effect

/-!
# The effects of built-in methods

Every built-in method has one of the effects that `Run.Effect` lists, and so has the dispatch
of a message, wherever the method is found. Only there are all methods gone through; whoever
wants to know what messages do to worlds looks at the list.
-/

namespace BlockScript.Builtin

open Run

variable {program : Program} {known : Value → Prop} {world : World}

/-- The arguments of a method that takes one were other than that. -/
theorem answered_wrongArity (given expected : Nat) :
    Answered program known (throw (.wrongArity given expected)) world :=
  answered_throw _

theorem reads_stringArg (value : Value) : Reads (stringArg value) world fun _ => True := by
  cases value with
  | string cell => exact .get (.pure ⟨rfl, trivial⟩)
  | _ => exact reads_notConvertible "String" _

theorem reads_indexArg (value : Value) : Reads (indexArg value) world fun _ => True := by
  cases value with
  | fixnum n => exact .pure ⟨rfl, trivial⟩
  | _ => exact reads_notConvertible "Integer" _

section Plain

variable (plain : ∀ value, value.Plain → known value)

include plain

theorem answered_bool (b : Bool) : Answered program known (return .value (.bool b)) world :=
  answered_found (plain _ (.bool b))

theorem answered_fixnum (n : Int64) : Answered program known (return .value (.fixnum n)) world :=
  answered_found (plain _ (.fixnum n))

theorem made_arithmetic (operator : Arithmetic) (a b : Value) :
    Made program known (arithmetic operator a b) world := by
  rw [arithmetic_eq]
  unfold bigArithmetic
  cases a.int? with
  | none => exact (rfl : world = world)
  | some m =>
      cases b.int? with
      | none => exact (rfl : world = world)
      | some n =>
          simp only
          cases operator.result? m n with
          | some result => exact made_newInteger plain result
          | none => exact .throws rfl

theorem answered_integerReply (method : IntegerMethod) {receiver : Value} {n : Int}
    (number : receiver.int? = some n) (receiver_known : known receiver) (args : List Value)
    {block : Option (Ref .proc)} (block_known : Ref.Given known block) :
    Answered program known (integerReply method receiver n args block) world := by
  cases method with
  | arithmetic operator =>
      match args with
      | [argument] => exact (made_arithmetic plain operator receiver argument).answered
      | [] | _ :: _ :: _ => exact answered_wrongArity _ _
  | comparison relation =>
      match args with
      | [argument] =>
          unfold integerReply
          dsimp only
          cases compareIntegers receiver argument with
          | some order => exact answered_bool plain _
          | none => exact .get (answered_throw _)
      | [] | _ :: _ :: _ => exact answered_wrongArity _ _
  | equal =>
      match args with
      | [argument] => exact .get (answered_bool plain _)
      | [] | _ :: _ :: _ => exact answered_wrongArity _ _
  | order =>
      match args with
      | [argument] =>
          unfold integerReply
          dsimp only
          cases compareIntegers receiver argument with
          | some order => exact answered_fixnum plain _
          | none => exact answered_found (plain _ .nil)
      | [] | _ :: _ :: _ => exact answered_wrongArity _ _
  | negate => exact (made_arithmetic plain _ _ _).answered
  | display => exact (made_newString _).answered
  | isZero => exact answered_bool plain _
  | successor => exact (made_arithmetic plain _ _ _).answered
  | absolute =>
      exact .ite (fun _ => (made_arithmetic plain _ _ _).answered)
        fun _ => answered_found receiver_known
  | isEven | isOdd =>
      simp only [integerReply, isEvenValue_int number]
      exact answered_bool plain _
  | times =>
      refine (reads_requireBlock block_known).answered fun cell cell_known => ?_
      cases receiver with
      | fixnum count => exact .pure (.loop ⟨cell_known, receiver_known⟩)
      | _ => exact answered_notConvertible "Fixnum" _

theorem answered_stringReply (method : StringMethod) {cell : Ref .string}
    (receiver_known : known (.string cell)) (args : List Value) :
    Answered program known (stringReply method cell args) world := by
  cases method with
  | concat =>
      match args with
      | [argument] =>
          exact (reads_stringArg argument).answered fun _ _ => .get (made_newString _).answered
      | [] | _ :: _ :: _ => exact answered_wrongArity _ _
  | append =>
      match args with
      | [argument] =>
          exact (reads_stringArg argument).answered fun text _ =>
            Effect.text cell (· ++ text) receiver_known
      | [] | _ :: _ :: _ => exact answered_wrongArity _ _
  | length => exact .get (answered_fixnum plain _)
  | equal =>
      match args with
      | [argument] => exact .get (answered_bool plain _)
      | [] | _ :: _ :: _ => exact answered_wrongArity _ _
  | display => exact answered_found receiver_known
  | toSymbol => exact .get (made_intern _).answered
  | upcase => exact .get (made_newString _).answered
  | reverse => exact .get (made_newString _).answered
  | isEmpty => exact .get (answered_bool plain _)
  | repeated =>
      match args with
      | [argument] =>
          cases argument with
          | fixnum count =>
              exact .get (.ite (fun _ => answered_throw _) fun _ =>
                .ite (fun _ => answered_throw _) fun _ => (made_newString _).answered)
          | _ => exact answered_notConvertible "Integer" _
      | [] => exact answered_wrongArity _ _
      | first :: _ :: _ => cases first <;> exact answered_wrongArity _ _
  | duplicate => exact .get (made_newString _).answered

end Plain

theorem answered_symbolReply (method : SymbolMethod) {symbol : Symbol}
    (receiver_known : known (.symbol symbol)) (args : List Value) :
    Answered program known (symbolReply method symbol args) world := by
  cases method with
  | display => exact (reads_expectArgs args 0).answered fun _ _ => (made_newString _).answered
  | toSymbol => exact answered_found receiver_known

/-- Joining elements, with an optional separator. -/
theorem answered_arrayJoin (cell : Ref .array) (args : List Value) (block : Option (Ref .proc)) :
    Answered program known (arrayReply .join cell args block) world := by
  refine .get ?_
  match args with
  | [] | .nil :: _ | .string _ :: _ => exact (made_newString _).answered
  | .bool _ :: _ | .fixnum _ :: _ | .bignum _ _ :: _ | .symbol _ :: _ | .array _ :: _
  | .proc _ :: _ | .classRef _ :: _ | .object _ :: _ => exact (rfl : world = world)

section Array

variable (knows : world.Knows known) {cell : Ref .array} {args : List Value}

include knows

/-- Writing an element by an index argument, within the largest size. -/
theorem answered_arraySet (args_known : ∀ value ∈ args, known value)
    (block : Option (Ref .proc)) :
    Answered program known (arrayReply .set cell args block) world := by
  match args with
  | [argument, value] =>
      have value_known : known value := args_known value (by simp)
      refine (reads_indexArg argument).answered fun index _ => ?_
      refine .get (.ite (fun _ => answered_throw _) fun _ =>
        .ite (fun _ => answered_throw _) fun _ => Effect.elements cell ?_ value_known)
      intro items all v member
      rcases Frame.mem_setSlot member with member | rfl | rfl
      · exact all v member
      · exact value_known
      · exact knows.plain _ .nil
  | [] | [_] | _ :: _ :: _ :: _ => exact answered_wrongArity _ _

theorem answered_arrayReply (receiver_known : known (.array cell))
    (args_known : ∀ value ∈ args, known value) {block : Option (Ref .proc)}
    (block_known : Ref.Given known block) (method : ArrayMethod) :
    Answered program known (arrayReply method cell args block) world := by
  cases method with
  | length => exact .get (answered_fixnum knows.plain _)
  | get =>
      match args with
      | [argument] =>
          refine (reads_indexArg argument).answered fun index _ => .get (answered_found ?_)
          unfold elementAt
          dsimp only
          split
          · exact knows.plain _ .nil
          · exact knows.getD (knows.array cell) _
      | [] | _ :: _ :: _ => exact answered_wrongArity _ _
  | set => exact answered_arraySet knows args_known block
  | push =>
      refine Effect.elements cell ?_ receiver_known
      intro items all v member
      rcases Array.mem_append.mp member with member | member
      · exact all v member
      · exact args_known v (by simpa using member)
  | first => exact .get (answered_found (knows.getD (knows.array cell) 0))
  | last => exact .get (answered_found (knows.back? (knows.array cell)))
  | pop =>
      refine .get (Effect.elements cell ?_ (knows.back? (knows.array cell)))
      intro items all v member
      rw [← Array.mem_toList_iff, Array.toList_pop] at member
      exact all v (Array.mem_toList_iff.mp (List.dropLast_subset _ member))
  | each =>
      refine (reads_requireBlock block_known).answered fun proc proc_known => .get ?_
      exact Effect.loop ⟨proc_known, knows.toList cell, receiver_known⟩
  | map =>
      refine (reads_requireBlock block_known).answered fun proc proc_known => .get ?_
      exact Effect.loop ⟨proc_known, knows.toList cell, List.forall_mem_nil _⟩
  | join => exact answered_arrayJoin cell args block
  | isEmpty => exact .get (answered_bool knows.plain _)
  | includes =>
      match args with
      | [argument] => exact .get (answered_bool knows.plain _)
      | [] | _ :: _ :: _ => exact answered_wrongArity _ _
  | reverse =>
      exact .get (made_newArray fun value member =>
        knows.array cell value (by simpa using member)).answered
  | toArray => exact answered_found receiver_known

end Array

/-- A built-in method that may be missing either answers or leaves the world as it is. -/
theorem ends_mapM {μ : Type} {found : Option μ} {reply : μ → Run Reply}
    (h : ∀ method, Answered program known (reply method) world) :
    Ends (found.mapM reply) world
      (fun answer after => answer.elim (after = world) (Effect program known world · after))
      fun _ after => after = world := by
  cases found with
  | none => exact .pure rfl
  | some method => exact (h method).bind fun _ _ effect => .pure effect

section Dispatch

variable (knows : world.Knows known) {receiver : Value} (receiver_known : known receiver)
  {args : List Value} (args_known : ∀ value ∈ args, known value) {block : Option (Ref .proc)}
  (block_known : Ref.Given known block)

include knows args_known block_known

theorem made_kernelReply (method : KernelMethod) :
    Made program known (kernelReply method receiver args block) world := by
  have bool (b : Bool) : Made program known (return .bool b) world :=
    made_found (knows.plain _ (.bool b))
  have fails (error : RuntimeError) : Made program known (throw error) world := .throws rfl
  cases method with
  | puts | print => exact .get (Effect.printed _ (knows.plain _ .nil))
  | p =>
      refine .get ?_
      match args with
      | [] => exact Effect.printed _ (knows.plain _ .nil)
      | [argument] => exact Effect.printed _ (args_known argument (by simp))
      | first :: second :: rest =>
          exact Effect.printedArray _ fun value member => args_known value (by simpa using member)
  | blockGiven => exact .get (bool _)
  | proc =>
      refine Ends.bind (reads_requireBlock block_known) ?_
      rintro cell after ⟨rfl, cell_known⟩
      exact made_found cell_known
  | isNil => exact bool _
  | equal | notEqual =>
      match args with
      | [argument] => exact .get (bool _)
      | [] | _ :: _ :: _ => exact fails _
  | not => exact bool _
  | same =>
      match args with
      | [argument] => exact bool _
      | [] | _ :: _ :: _ => exact fails _
  | inspect => exact .get (made_newString _)
  | display => exact .get (made_newString _)
  | className => exact .get (made_found (knows.plain _ (.classRef _)))

theorem answered_lastReply (name : String) :
    Answered program known (lastReply receiver name args block) world := by
  unfold lastReply
  cases named? kernelMethods name with
  | some method => exact (made_kernelReply knows args_known block_known method).answered
  | none => exact answered_noMethod _ _

include receiver_known

/-- Without an answer from the receiver's class nothing has changed. -/
theorem ends_classReply (name : String) :
    Ends (classReply program receiver name args block) world
      (fun answer after => answer.elim (after = world) (Effect program known world · after))
      fun _ after => after = world := by
  cases receiver with
  | nil =>
      refine ends_mapM fun method => ?_
      cases method with
      | display => exact (made_newString _).answered
      | toArray => exact (made_newArray (by simp)).answered
  | bool b => exact .pure rfl
  | fixnum n =>
      exact ends_mapM fun method =>
        answered_integerReply knows.plain method rfl receiver_known args block_known
  | bignum n identity =>
      exact ends_mapM fun method =>
        answered_integerReply knows.plain method rfl receiver_known args block_known
  | string cell =>
      exact ends_mapM fun method => answered_stringReply knows.plain method receiver_known args
  | symbol symbol =>
      exact ends_mapM fun method => answered_symbolReply method receiver_known args
  | array cell =>
      exact ends_mapM fun method =>
        answered_arrayReply knows receiver_known args_known block_known method
  | proc cell =>
      refine ends_mapM fun method => ?_
      cases method with
      | call => exact (ends_enterBlock knows cell args_known).bind fun _ _ effect => .pure effect
      | arity => exact .get (answered_fixnum knows.plain _)
  | classRef className =>
      refine ends_mapM fun method => ?_
      cases method with
      | new =>
          exact .ite (fun _ => answered_throw _) fun _ =>
            (reads_expectArgs args 0).answered fun _ _ => (made_newObject className).answered
      | name => exact (made_newString _).answered
  | object cell => exact .pure rfl

theorem answered_builtinReply (name : String) :
    Answered program known (builtinReply program receiver name args block) world := by
  refine (ends_classReply knows receiver_known args_known block_known name).bind ?_
  intro answer after effect
  cases answer with
  | some reply => exact .pure effect
  | none =>
      cases (effect : after = world)
      exact answered_lastReply knows args_known block_known name

/-- A message that is answered has one effect, and one that is not has none. -/
theorem answered_dispatch (name : String) :
    Answered program known (Run.dispatch program receiver name args block) world := by
  refine (ends_classReply knows receiver_known args_known block_known name).bind ?_
  intro answer after effect
  cases answer with
  | some reply => exact .pure effect
  | none =>
      cases (effect : after = world)
      refine .get ?_
      cases bound : world.methods.get? name with
      | none =>
          simp only
          exact answered_lastReply knows args_known block_known name
      | some method =>
          cases method with
          | compiled position arity =>
              exact (reads_expectArgs args arity).answered fun _ _ =>
                answered_enterMethod bound receiver_known args_known block_known
          | builtin original =>
              exact answered_builtinReply knows receiver_known args_known block_known original

end Dispatch

end BlockScript.Builtin
