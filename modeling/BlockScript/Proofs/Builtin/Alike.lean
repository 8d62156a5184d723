import BlockScript.Builtin.Dispatch
import BlockScript.Proofs.Builtin.Integer
import BlockScript.Proofs.Code.Alike
import BlockScript.Proofs.Machine.Shown
import BlockScript.Proofs.World.Alike

/-!
# Messages in worlds that are alike

Two programs that mirror each other answer a message alike in worlds that are alike: with the
same value, by the same body or by the same repeated call of a block, or with the same error.
Only a text that shows a block could tell the worlds apart.
-/

namespace BlockScript

/-- The replies differ at most in the position of a body. -/
inductive Reply.Alike (twins : UInt32 → UInt32 → Prop) : Reply → Reply → Prop where
  | value (value : Value) : Alike twins (.value value) (.value value)
  | enter {position position' : UInt32} (activation : Activation)
      (paired : twins position position') :
      Alike twins (.enter position activation) (.enter position' activation)
  | iterate (loop : BlockLoop) : Alike twins (.iterate loop) (.iterate loop)

variable {program other : Program} {twins : UInt32 → UInt32 → Prop} {world world' : World}

/-- Both computations answer with replies that are alike. -/
abbrev Replies (twins : UInt32 → UInt32 → Prop) (action action' : Run Reply)
    (world world' : World) : Prop :=
  Agrees (Reply.Alike twins) (World.Alike twins) action action' world world'

/-! ## Bodies -/

namespace Run

section Bodies

variable (mirrors : program.Mirrors other twins) (h : world.Alike twins world')

include mirrors h

/-- Paired positions hold code objects that look the same from outside. -/
theorem agrees_code {position position' : UInt32} (paired : twins position position') :
    Agrees (fun code code' => code.Alike program other twins code') (World.Alike twins)
      (code program position) (code other position') world world' := by
  obtain ⟨body, body', found, found', alike⟩ := mirrors position position' paired
  simp only [code, found, found']
  exact .pure h alike

theorem agrees_enterMethod {position position' : UInt32} (paired : twins position position')
    (self : Value) (args : List Value) (block : Option (Ref .proc)) :
    Replies twins (enterMethod program position self args block)
      (enterMethod other position' self args block) world world' := by
  refine (agrees_code mirrors h paired).bind fun body body' after after' alike kept => ?_
  rw [alike.localCount]
  refine (agrees_alloc kept fun _ _ => rfl).bind ?_
  rintro frame _ after after' rfl kept
  exact .pure kept (.enter _ paired)

theorem agrees_enterBlock (cell : Ref .proc) (args : List Value) :
    Agrees (fun entered entered' => twins entered.1 entered'.1 ∧ entered.2 = entered'.2)
      (World.Alike twins) (enterBlock program cell args) (enterBlock other cell args) world
      world' := by
  refine .get ?_
  have found := h.proc? cell
  revert found
  generalize world.heap.proc? cell = proc
  generalize world'.heap.proc? cell = proc'
  rintro (alike | _)
  · rename_i proc proc'
    dsimp only
    refine (agrees_code mirrors h alike.code).bind fun body body' after after' same kept => ?_
    refine .get ?_
    rw [alike.rest, kept.spread, same.localCount]
    refine (agrees_alloc kept fun _ _ => rfl).bind ?_
    rintro frame _ after after' rfl kept
    exact .pure kept ⟨alike.code, rfl⟩
  · exact .throws h _

end Bodies

end Run

namespace Builtin

open Run

/-- A value that was made is a reply. -/
theorem replies_value {action action' : Run Value}
    (h : Agrees Eq (World.Alike twins) action action' world world') :
    Replies twins (do return .value (← action)) (do return .value (← action')) world world' :=
  h.bind fun value _ _ _ same kept => .pure kept (same ▸ .value value)

/-! ## Methods of one class -/

section Class

variable (h : world.Alike twins world')

include h

theorem replies_here (value : Value) :
    Replies twins (return .value value) (return .value value) world world' :=
  .pure h (.value value)

theorem agrees_stringArg (value : Value) :
    Agrees Eq (World.Alike twins) (stringArg value) (stringArg value) world world' := by
  cases value with
  | string cell =>
      refine .get ?_
      rw [h.string]
      exact .pure h rfl
  | _ => exact agrees_notConvertible h _ _

theorem agrees_indexArg (value : Value) :
    Agrees Eq (World.Alike twins) (indexArg value) (indexArg value) world world' := by
  cases value with
  | fixnum n => exact .pure h rfl
  | _ => exact agrees_notConvertible h _ _

theorem agrees_arithmetic (operator : Arithmetic) (a b : Value) :
    Agrees Eq (World.Alike twins) (arithmetic operator a b) (arithmetic operator a b) world
      world' := by
  rw [arithmetic_eq]
  unfold bigArithmetic
  cases a.int? with
  | none => exact agrees_notConvertible h _ _
  | some m =>
      cases b.int? with
      | none => exact agrees_notConvertible h _ _
      | some n =>
          simp only
          cases operator.result? m n with
          | some result => exact agrees_newInteger h result
          | none => exact .throws h _

/-- A comparison by equality. -/
theorem replies_equals (receiver argument : Value) :
    Replies twins (do return .value (.bool (receiver.equals (← get).heap argument)))
      (do return .value (.bool (receiver.equals (← get).heap argument))) world world' := by
  refine .get ?_
  rw [h.equals]
  exact replies_here h _

theorem replies_integerReply (method : IntegerMethod) {receiver : Value} {n : Int}
    (number : receiver.int? = some n) (args : List Value) (block : Option (Ref .proc))
    (blind : ∀ shown ∈ integerShows method args, shown.proc world.heap = false) :
    Replies twins (integerReply method receiver n args block)
      (integerReply method receiver n args block) world world' := by
  cases method with
  | arithmetic operator =>
      match args with
      | [argument] => exact replies_value (agrees_arithmetic h operator receiver argument)
      | [] | _ :: _ :: _ => exact .throws h _
  | comparison relation =>
      match args with
      | [argument] =>
          simp only [integerReply, compareIntegers_eq, number, Option.bind_some]
          simp only [integerShows] at blind
          cases other : argument.int? with
          | some m =>
              simp only [Option.map_some]
              exact replies_here h _
          | none =>
              simp only [other, Option.map_none, List.forall_mem_singleton] at blind ⊢
              have text : argument.inspect world'.heap = argument.inspect world.heap :=
                h.text .inspect blind
              refine .get ?_
              rw [h.className, text]
              exact .throws h _
      | [] | _ :: _ :: _ => exact .throws h _
  | equal =>
      match args with
      | [argument] => exact replies_equals h receiver argument
      | [] | _ :: _ :: _ => exact .throws h _
  | order =>
      match args with
      | [argument] =>
          unfold integerReply
          dsimp only
          cases compareIntegers receiver argument with
          | some order => exact replies_here h _
          | none => exact replies_here h _
      | [] | _ :: _ :: _ => exact .throws h _
  | negate => exact replies_value (agrees_arithmetic h _ _ _)
  | display => exact replies_value (agrees_newString h _)
  | isZero => exact replies_here h _
  | successor => exact replies_value (agrees_arithmetic h _ _ _)
  | absolute =>
      exact .ite (fun _ => replies_value (agrees_arithmetic h _ _ _)) fun _ => replies_here h _
  | isEven | isOdd =>
      simp only [integerReply, isEvenValue_int number]
      exact replies_here h _
  | times =>
      refine (agrees_requireBlock h block).bind ?_
      rintro cell _ after after' rfl kept
      cases receiver with
      | fixnum count => exact .pure kept (.iterate _)
      | _ => exact agrees_notConvertible kept _ _

/-- A text that is made from the text of the receiver. -/
theorem replies_stringText (cell : Ref .string) (f : String → String) :
    Replies twins (do return .value (← newString (f ((← get).heap.string cell))))
      (do return .value (← newString (f ((← get).heap.string cell)))) world world' := by
  refine .get ?_
  rw [h.string]
  exact replies_value (agrees_newString h _)

/-- A value that is read from the text of the receiver. -/
theorem replies_stringValue (cell : Ref .string) (f : String → Value) :
    Replies twins (do return .value (f ((← get).heap.string cell)))
      (do return .value (f ((← get).heap.string cell))) world world' := by
  refine .get ?_
  rw [h.string]
  exact replies_here h _

theorem replies_stringReply (method : StringMethod) (cell : Ref .string) (args : List Value) :
    Replies twins (stringReply method cell args) (stringReply method cell args) world world' := by
  cases method with
  | concat =>
      match args with
      | [argument] =>
          refine (agrees_stringArg h argument).bind ?_
          rintro text _ after after' rfl kept
          exact replies_stringText kept cell (· ++ text)
      | [] | _ :: _ :: _ => exact .throws h _
  | append =>
      match args with
      | [argument] =>
          refine (agrees_stringArg h argument).bind ?_
          rintro text _ after after' rfl kept
          refine (agrees_modifyHeap kept fun _ _ => rfl).bind ?_
          rintro _ _ after after' - kept
          exact replies_here kept _
      | [] | _ :: _ :: _ => exact .throws h _
  | length => exact replies_stringValue h cell fun text => .fixnum (Int64.ofNat text.length)
  | equal =>
      match args with
      | [argument] => exact replies_equals h _ argument
      | [] | _ :: _ :: _ => exact .throws h _
  | display => exact replies_here h _
  | toSymbol =>
      refine .get ?_
      rw [h.string]
      exact replies_value (agrees_intern h _)
  | upcase => exact replies_stringText h cell Text.upper
  | reverse => exact replies_stringText h cell fun text => String.ofList text.toList.reverse
  | isEmpty => exact replies_stringValue h cell fun text => .bool text.isEmpty
  | repeated =>
      match args with
      | [.fixnum count] =>
          refine .get ?_
          rw [h.string]
          exact .ite (fun _ => .throws h _) fun _ => .ite (fun _ => .throws h _) fun _ =>
            replies_value (agrees_newString h _)
      | [.nil] | [.bool _] | [.bignum _ _] | [.string _] | [.symbol _] | [.array _] | [.proc _]
      | [.classRef _] | [.object _] => exact agrees_notConvertible h _ _
      | [] => exact .throws h _
      | first :: second :: rest => cases first <;> exact .throws h _
  | duplicate => exact replies_stringText h cell id

theorem replies_symbolReply (method : SymbolMethod) (symbol : Symbol) (args : List Value) :
    Replies twins (symbolReply method symbol args) (symbolReply method symbol args) world
      world' := by
  cases method with
  | display =>
      exact (agrees_expectArgs h args 0).bind fun _ _ _ _ _ kept =>
        replies_value (agrees_newString kept _)
  | toSymbol => exact replies_here h _

/-- A value that is read from the elements of the receiver. -/
theorem replies_arrayValue (cell : Ref .array) (f : Array Value → Value) :
    Replies twins (do return .value (f ((← get).heap.array cell)))
      (do return .value (f ((← get).heap.array cell))) world world' := by
  refine .get ?_
  rw [h.array]
  exact replies_here h _

/-- A change of the receiver. -/
theorem replies_modifyArray (cell : Ref .array) (f : Array Value → Array Value) (result : Value) :
    Replies twins (do modifyHeap (·.modifyArray cell f); return .value result)
      (do modifyHeap (·.modifyArray cell f); return .value result) world world' :=
  (agrees_modifyHeap h fun _ _ => rfl).bind fun _ _ _ _ _ kept => replies_here kept _

theorem replies_arraySet (cell : Ref .array) (args : List Value) (block : Option (Ref .proc)) :
    Replies twins (arrayReply .set cell args block) (arrayReply .set cell args block) world
      world' := by
  match args with
  | [argument, value] =>
      refine (agrees_indexArg h argument).bind ?_
      rintro index _ after after' rfl kept
      refine .get ?_
      rw [kept.array]
      exact .ite (fun _ => .throws kept _) fun _ => .ite (fun _ => .throws kept _) fun _ =>
        replies_modifyArray kept cell _ value
  | [] | [_] | _ :: _ :: _ :: _ => exact .throws h _

theorem replies_arrayJoin (cell : Ref .array) (args : List Value) (block : Option (Ref .proc))
    (blind : ∀ shown ∈ arrayShows .join (world.heap.array cell).toList args,
      shown.proc world.heap = false) :
    Replies twins (arrayReply .join cell args block) (arrayReply .join cell args block) world
      world' := by
  have joined (separator : String)
      (blind : ∀ shown ∈ (world.heap.array cell).toList.map (Shown.mk .display),
        shown.proc world.heap = false) :
      Replies twins
        (do return .value (← newString
          (separator.intercalate ((world.heap.array cell).toList.map (·.display world.heap)))))
        (do return .value (← newString
          (separator.intercalate ((world'.heap.array cell).toList.map (·.display world'.heap)))))
        world world' := by
    have parts : (world'.heap.array cell).toList.map (·.display world'.heap) =
        (world.heap.array cell).toList.map (·.display world.heap) := by
      rw [h.array]
      exact List.map_congr_left fun item inside =>
        h.text .display (blind _ (List.mem_map_of_mem inside))
    rw [parts]
    exact replies_value (agrees_newString h _)
  refine .get ?_
  match args with
  | [] | .nil :: _ => exact joined "" blind
  | .string separator :: _ =>
      have text : world'.heap.string separator = world.heap.string separator := by rw [h.string]
      dsimp only
      rw [text]
      exact joined _ blind
  | .bool _ :: _ | .fixnum _ :: _ | .bignum _ _ :: _ | .symbol _ :: _ | .array _ :: _
  | .proc _ :: _ | .classRef _ :: _ | .object _ :: _ =>
      exact (agrees_notConvertible h _ _ :
        Agrees (fun _ _ : String => False) (World.Alike twins) _ _ world world').bind
          fun _ _ _ _ never _ => never.elim

theorem replies_arrayReply (method : ArrayMethod) (cell : Ref .array) (args : List Value)
    (block : Option (Ref .proc))
    (blind : ∀ shown ∈ arrayShows method (world.heap.array cell).toList args,
      shown.proc world.heap = false) :
    Replies twins (arrayReply method cell args block) (arrayReply method cell args block) world
      world' := by
  cases method with
  | length => exact replies_arrayValue h cell fun items => .fixnum (Int64.ofNat items.size)
  | get =>
      match args with
      | [argument] =>
          refine (agrees_indexArg h argument).bind ?_
          rintro index _ after after' rfl kept
          exact replies_arrayValue kept cell (elementAt · index)
      | [] | _ :: _ :: _ => exact .throws h _
  | set => exact replies_arraySet h cell args block
  | push => exact replies_modifyArray h cell _ _
  | first => exact replies_arrayValue h cell (·.getD 0 .nil)
  | last => exact replies_arrayValue h cell (·.back?.getD .nil)
  | pop =>
      refine .get ?_
      rw [h.array]
      exact replies_modifyArray h cell _ _
  | each | map =>
      refine (agrees_requireBlock h block).bind ?_
      rintro proc _ after after' rfl kept
      refine .get ?_
      rw [kept.array]
      exact .pure kept (.iterate _)
  | join => exact replies_arrayJoin h cell args block blind
  | isEmpty => exact replies_arrayValue h cell fun items => .bool items.isEmpty
  | includes =>
      match args with
      | [argument] =>
          refine .get ?_
          dsimp only
          rw [h.array, h.equals]
          exact replies_here h _
      | [] | _ :: _ :: _ => exact .throws h _
  | reverse =>
      refine .get ?_
      rw [h.array]
      exact replies_value (agrees_newArray h _)
  | toArray => exact replies_here h _

/-! ## Methods of every object -/

theorem agrees_kernelReply (method : KernelMethod) (receiver : Value) (args : List Value)
    (block : Option (Ref .proc))
    (blind : ∀ shown ∈ kernelShows method receiver args, shown.proc world.heap = false) :
    Agrees Eq (World.Alike twins) (kernelReply method receiver args block)
      (kernelReply method receiver args block) world world' := by
  have texts (rendering : Rendering)
      (blind : ∀ shown ∈ args.map (Shown.mk rendering), shown.proc world.heap = false) :
      args.map (rendering.text world'.heap) = args.map (rendering.text world.heap) :=
    List.map_congr_left fun argument inside => h.text rendering (blind _ (List.mem_map_of_mem inside))
  cases method with
  | puts =>
      refine .get ?_
      have lines : args.map (·.lines world'.heap) = args.map (·.lines world.heap) :=
        texts .lines blind
      dsimp only
      rw [lines]
      exact (agrees_write h _).bind fun _ _ _ _ _ kept => .pure kept rfl
  | print =>
      refine .get ?_
      have parts : args.map (·.display world'.heap) = args.map (·.display world.heap) :=
        texts .display blind
      dsimp only
      rw [parts]
      exact (agrees_write h _).bind fun _ _ _ _ _ kept => .pure kept rfl
  | p =>
      refine .get ?_
      have lines : args.map (·.inspect world'.heap ++ "\n") =
          args.map (·.inspect world.heap ++ "\n") :=
        List.map_congr_left fun argument inside =>
          congrArg (· ++ "\n") (h.text .inspect (blind _ (List.mem_map_of_mem inside)))
      dsimp only
      rw [lines]
      refine (agrees_write h _).bind fun _ _ _ _ _ kept => ?_
      match args with
      | [] | [_] => exact .pure kept rfl
      | first :: second :: rest => exact agrees_newArray kept _
  | blockGiven =>
      refine .get ?_
      rw [h.blockGiven]
      exact .pure h rfl
  | proc =>
      exact (agrees_requireBlock h block).bind fun _ _ _ _ same kept => .pure kept (same ▸ rfl)
  | isNil => exact .pure h rfl
  | equal | notEqual =>
      match args with
      | [argument] =>
          refine .get ?_
          rw [h.equals]
          exact .pure h rfl
      | [] | _ :: _ :: _ => exact .throws h _
  | not => exact .pure h rfl
  | same =>
      match args with
      | [argument] => exact .pure h rfl
      | [] | _ :: _ :: _ => exact .throws h _
  | inspect =>
      refine .get ?_
      have text : receiver.inspect world'.heap = receiver.inspect world.heap :=
        h.text .inspect (blind _ (List.mem_singleton_self _))
      rw [text]
      exact agrees_newString h _
  | display =>
      refine .get ?_
      have text : receiver.display world'.heap = receiver.display world.heap :=
        h.text .display (blind _ (List.mem_singleton_self _))
      rw [text]
      exact agrees_newString h _
  | className =>
      refine .get ?_
      rw [h.className]
      exact .pure h rfl

theorem replies_lastReply (receiver : Value) (name : String) (args : List Value)
    (block : Option (Ref .proc))
    (blind : ∀ shown ∈ lastShows receiver name args, shown.proc world.heap = false) :
    Replies twins (lastReply receiver name args block) (lastReply receiver name args block) world
      world' := by
  unfold lastReply
  unfold lastShows at blind
  cases found : named? kernelMethods name with
  | some method =>
      rw [found] at blind
      exact replies_value (agrees_kernelReply h method receiver args block blind)
  | none =>
      rw [found] at blind
      have text : receiver.inspect world'.heap = receiver.inspect world.heap :=
        h.text .inspect (blind _ (List.mem_singleton_self _))
      refine .get ?_
      dsimp only
      rw [h.className, text]
      exact .throws h _

end Class

/-! ## Dispatch -/

/-- Without a method of that name the receiver's class does not answer. -/
theorem classReply_none {heap : Heap} {receiver : Value} {name : String} {args : List Value}
    (none : classShows heap receiver name args = none) (program : Program)
    (block : Option (Ref .proc)) :
    classReply program receiver name args block = pure .none := by
  cases receiver with
  | bool b | object cell => rfl
  | _ => simp only [classReply, Option.map_eq_none_iff.mp none, Option.mapM_none]

section Dispatch

variable (mirrors : program.Mirrors other twins) (h : world.Alike twins world')

include mirrors h

/-- A method of the receiver's class answers. -/
theorem agrees_classReply {receiver : Value} {name : String} {args : List Value}
    {shown : List Shown} (found : classShows world.heap receiver name args = some shown)
    (block : Option (Ref .proc)) (blind : ∀ one ∈ shown, one.proc world.heap = false) :
    Agrees (fun answer answer' => ∃ reply reply', answer = some reply ∧ answer' = some reply' ∧
        reply.Alike twins reply') (World.Alike twins)
      (classReply program receiver name args block) (classReply other receiver name args block)
      world world' := by
  have answers {μ : Type} {method? : Option μ} {shows : μ → List Shown}
      {reply reply' : μ → Run Reply} (found : method?.map shows = some shown)
      (replies : ∀ method, (∀ one ∈ shows method, one.proc world.heap = false) →
        Replies twins (reply method) (reply' method) world world') :
      Agrees (fun answer answer' => ∃ reply reply', answer = some reply ∧
          answer' = some reply' ∧ reply.Alike twins reply') (World.Alike twins)
        (method?.mapM reply) (method?.mapM reply') world world' := by
    obtain ⟨method, rfl, rfl⟩ := Option.map_eq_some_iff.mp found
    exact (replies method blind).bind fun reply reply' _ _ alike kept =>
      .pure kept ⟨reply, reply', rfl, rfl, alike⟩
  cases receiver with
  | nil =>
      refine answers found fun method _ => ?_
      cases method with
      | display => exact replies_value (agrees_newString h _)
      | toArray => exact replies_value (agrees_newArray h _)
  | bool b | object cell => cases found
  | fixnum n =>
      exact answers found fun method blind => replies_integerReply h method rfl args block blind
  | bignum n identity =>
      exact answers found fun method blind => replies_integerReply h method rfl args block blind
  | string cell => exact answers found fun method _ => replies_stringReply h method cell args
  | symbol symbol => exact answers found fun method _ => replies_symbolReply h method symbol args
  | array cell =>
      exact answers found fun method blind => replies_arrayReply h method cell args block blind
  | proc cell =>
      refine answers found fun method _ => ?_
      cases method with
      | call =>
          refine (agrees_enterBlock mirrors h cell args).bind ?_
          rintro ⟨position, activation⟩ ⟨position', _⟩ after after' ⟨paired, rfl⟩ kept
          exact .pure kept (.enter activation paired)
      | arity =>
          refine .get ?_
          have proc := h.proc? cell
          revert proc
          generalize world.heap.proc? cell = proc
          generalize world'.heap.proc? cell = proc'
          rintro (alike | _)
          · rw [alike.rest]
            exact replies_here h _
          · exact replies_here h _
  | classRef className =>
      refine answers found fun method _ => ?_
      cases method with
      | new =>
          refine .ite (fun _ => .throws h _) fun _ => ?_
          exact (agrees_expectArgs h args 0).bind fun _ _ _ _ _ kept =>
            replies_value (agrees_newObject kept _)
      | name => exact replies_value (agrees_newString h _)

theorem replies_builtinReply (receiver : Value) (name : String) (args : List Value)
    (block : Option (Ref .proc))
    (blind : ∀ shown ∈ builtinShows world.heap receiver name args, shown.proc world.heap = false) :
    Replies twins (builtinReply program receiver name args block)
      (builtinReply other receiver name args block) world world' := by
  unfold builtinReply
  unfold builtinShows at blind
  cases found : classShows world.heap receiver name args with
  | some shown =>
      rw [found] at blind
      refine (agrees_classReply mirrors h found block blind).bind ?_
      rintro _ _ after after' ⟨reply, reply', rfl, rfl, alike⟩ kept
      exact .pure kept alike
  | none =>
      rw [found] at blind
      simp only [classReply_none found, pure_bind]
      exact replies_lastReply h receiver name args block blind

end Dispatch

end Builtin

namespace Run

section Dispatch

variable (mirrors : program.Mirrors other twins) (h : world.Alike twins world')

include mirrors h

/-- A message is answered alike if no block is shown for it. -/
theorem replies_dispatch (receiver : Value) (name : String) (args : List Value)
    (block : Option (Ref .proc))
    (blind : ∀ shown ∈ world.shows receiver name args, shown.proc world.heap = false) :
    Replies twins (dispatch program receiver name args block)
      (dispatch other receiver name args block) world world' := by
  unfold dispatch
  unfold World.shows at blind
  cases found : Builtin.classShows world.heap receiver name args with
  | some shown =>
      rw [found] at blind
      refine (Builtin.agrees_classReply mirrors h found block blind).bind ?_
      rintro _ _ after after' ⟨reply, reply', rfl, rfl, alike⟩ kept
      exact .pure kept alike
  | none =>
      rw [found] at blind
      simp only [Builtin.classReply_none found, pure_bind]
      refine .get ?_
      have method := h.methods name
      revert method blind
      generalize world.methods.get? name = method
      generalize world'.methods.get? name = method'
      rintro blind (alike | _)
      · cases alike with
        | compiled arity paired =>
            exact (agrees_expectArgs h args arity).bind fun _ _ _ _ _ kept =>
              agrees_enterMethod mirrors kept paired receiver args block
        | builtin original =>
            exact Builtin.replies_builtinReply mirrors h receiver original args block blind
      · exact Builtin.replies_lastReply h receiver name args block blind

end Dispatch

theorem agrees_aliasMethod (h : world.Alike twins world') (newName oldName : String) :
    Agrees Eq (World.Alike twins) (aliasMethod newName oldName) (aliasMethod newName oldName)
      world world' := by
  refine .get ?_
  have method := h.methods oldName
  revert method
  generalize world.methods.get? oldName = method
  generalize world'.methods.get? oldName = method'
  rintro (alike | _)
  · exact agrees_setMethod h alike newName
  · exact .ite (fun _ => agrees_setMethod h (.builtin oldName) newName) fun _ => .throws h _

end Run

end BlockScript
