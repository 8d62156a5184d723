import BlockScript.Builtin.Dispatch
import BlockScript.Proofs.Builtin.Integer
import BlockScript.Proofs.World.Closed

/-!
# Built-in methods on closed worlds

Every built-in method, given a receiver, arguments and a block that exist, leaves a
closed world closed and answers with something that exists; it only fails with errors
that a program can cause. So does the dispatch of a message, wherever the method is
found.
-/

namespace BlockScript.Builtin

variable {program : Program} {reach : UInt32 → Nat} {world : World}

open Run (Sound Answers)

theorem sound_indexArg (closed : world.Closed program reach) (value : Value) :
    Sound program reach world (fun _ world' => world' = world) (indexArg value world) := by
  cases value with
  | fixnum n => exact Sound.here closed rfl
  | _ => exact Run.sound_notConvertible closed _ _

theorem sound_stringArg (closed : world.Closed program reach) (value : Value) :
    Sound program reach world (fun _ world' => world' = world) (stringArg value world) := by
  cases value with
  | string cell => exact Sound.here closed rfl
  | _ => exact Run.sound_notConvertible closed _ _

theorem sound_arithmetic (closed : world.Closed program reach) (operator : Arithmetic)
    (a b : Value) : Sound program reach world (fun value world' => value.Alive world'.heap)
      (arithmetic operator a b world) := by
  rw [arithmetic_eq]
  unfold bigArithmetic
  cases a.int? with
  | none => exact Run.sound_notConvertible closed _ _
  | some m =>
      cases b.int? with
      | none => exact Run.sound_notConvertible closed _ _
      | some n =>
          simp only
          cases operator.result? m n with
          | some result => exact Run.sound_newInteger closed result
          | none => exact Sound.fault closed (by simp [RuntimeError.dividedByZero])

/-- A value that was made is a reply. -/
theorem sound_value {action : Run Value}
    (h : Sound program reach world (fun value world' => value.Alive world'.heap) (action world)) :
    Answers program reach world ((do return .value (← action) : Run Reply) world) :=
  h.bind fun _ _ closed _ alive => Sound.here closed alive

theorem sound_wrongArity (closed : world.Closed program reach) {α : Type}
    {post : α → World → Prop} (given expected : Nat) :
    Sound program reach world post (.error (.wrongArity given expected) world) :=
  Sound.fault closed (by simp [RuntimeError.wrongArity])

section Integer

variable (closed : world.Closed program reach) {receiver : Value}
  (receiver_alive : receiver.Alive world.heap) {block : Option (Ref .proc)}
  (block_alive : ∀ cell, block = some cell → cell.Alive world.heap)

include closed receiver_alive block_alive

theorem sound_integerReply (method : IntegerMethod) (n : Int) (args : List Value) :
    Answers program reach world (integerReply method receiver n args block world) := by
  have even : Sound program reach world (fun _ _ => True) (isEvenValue receiver world) :=
    (sound_arithmetic closed .mod receiver (.fixnum 2)).bind fun _ _ closed _ _ =>
      Sound.here closed trivial
  cases method with
  | arithmetic operator =>
      match args with
      | [argument] => exact sound_value (sound_arithmetic closed operator receiver argument)
      | [] | _ :: _ :: _ => exact sound_wrongArity closed _ _
  | comparison relation =>
      match args with
      | [argument] =>
          unfold integerReply
          cases order : compareIntegers receiver argument with
          | some order =>
              simp only [order]
              exact Sound.here closed trivial
          | none =>
              simp only [order]
              exact Sound.fault closed (by simp [RuntimeError.notComparable])
      | [] | _ :: _ :: _ => exact sound_wrongArity closed _ _
  | equal =>
      match args with
      | [argument] => exact Sound.here closed trivial
      | [] | _ :: _ :: _ => exact sound_wrongArity closed _ _
  | order =>
      match args with
      | [argument] =>
          unfold integerReply
          cases order : compareIntegers receiver argument with
          | some order =>
              simp only [order]
              exact Sound.here closed trivial
          | none =>
              simp only [order]
              exact Sound.here closed trivial
      | [] | _ :: _ :: _ => exact sound_wrongArity closed _ _
  | negate => exact sound_value (sound_arithmetic closed _ _ _)
  | display => exact sound_value (Run.sound_newString closed _)
  | isZero => exact Sound.here closed trivial
  | successor => exact sound_value (sound_arithmetic closed _ _ _)
  | absolute =>
      refine Sound.ite (fun _ => ?_) (fun _ => ?_)
      · exact sound_value (sound_arithmetic closed _ _ _)
      · exact Sound.here closed receiver_alive
  | isEven => exact even.bind fun _ _ closed _ _ => Sound.here closed trivial
  | isOdd => exact even.bind fun _ _ closed _ _ => Sound.here closed trivial
  | times =>
      refine (Run.sound_requireBlock closed block_alive).bind ?_
      rintro cell world' closed' - ⟨rfl, cell_alive⟩
      cases receiver with
      | fixnum count => exact Sound.here closed' ⟨cell_alive, trivial⟩
      | _ => exact Run.sound_notConvertible closed' _ _

end Integer

theorem sound_stringReply (closed : world.Closed program reach) {cell : Ref .string}
    (cell_alive : cell.Alive world.heap) (method : StringMethod) (args : List Value) :
    Answers program reach world (stringReply method cell args world) := by
  cases method with
  | concat =>
      match args with
      | [argument] =>
          refine (sound_stringArg closed argument).bind ?_
          rintro other world' closed' - rfl
          exact sound_value (Run.sound_newString closed' _)
      | [] | _ :: _ :: _ => exact sound_wrongArity closed _ _
  | append =>
      match args with
      | [argument] =>
          refine (sound_stringArg closed argument).bind ?_
          rintro other world' closed' - rfl
          refine (Run.sound_modifyHeap closed' (closed'.heap.modifyString cell _)
            (world'.heap.grows_modifyString cell _) rfl).bind ?_
          intro _ world'' closed'' grows _
          exact Sound.here closed'' (Ref.Alive.mono grows cell_alive)
      | [] | _ :: _ :: _ => exact sound_wrongArity closed _ _
  | length => exact Sound.here closed trivial
  | equal =>
      match args with
      | [argument] => exact Sound.here closed trivial
      | [] | _ :: _ :: _ => exact sound_wrongArity closed _ _
  | display => exact Sound.here closed cell_alive
  | toSymbol => exact sound_value (Run.sound_intern closed _)
  | upcase => exact sound_value (Run.sound_newString closed _)
  | reverse => exact sound_value (Run.sound_newString closed _)
  | isEmpty => exact Sound.here closed trivial
  | repeated =>
      match args with
      | [.fixnum count] =>
          refine Sound.get (Sound.ite (fun _ => ?_) fun _ => Sound.ite (fun _ => ?_) fun _ => ?_)
          · exact Sound.fault closed (by simp [RuntimeError.negativeArgument])
          · exact Sound.fault closed (by simp [RuntimeError.argumentTooBig])
          · exact sound_value (Run.sound_newString closed _)
      | [.nil] | [.bool _] | [.bignum _ _] | [.string _] | [.symbol _] | [.array _] | [.proc _]
      | [.classRef _] | [.object _] => exact Run.sound_notConvertible closed _ _
      | [] => exact sound_wrongArity closed _ _
      | first :: second :: rest => cases first <;> exact sound_wrongArity closed _ _
  | duplicate => exact sound_value (Run.sound_newString closed _)

theorem sound_symbolReply (closed : world.Closed program reach) (method : SymbolMethod)
    (symbol : Symbol) (args : List Value) :
    Answers program reach world (symbolReply method symbol args world) := by
  cases method with
  | display =>
      refine (Run.sound_expectArgs closed args 0).bind ?_
      rintro _ world' closed' - rfl
      exact sound_value (Run.sound_newString closed' _)
  | toSymbol => exact Sound.here closed trivial

section Array

/-- What is read from living elements is alive, or nil. -/
theorem alive_getD {heap : Heap} {items : Array Value}
    (alive : ∀ value ∈ items, value.Alive heap) (i : Nat) : (items.getD i .nil).Alive heap := by
  unfold Array.getD
  split
  · exact alive _ (Array.getElem_mem _)
  · trivial

theorem alive_elementAt {heap : Heap} {items : Array Value}
    (alive : ∀ value ∈ items, value.Alive heap) (index : Int) :
    (elementAt items index).Alive heap := by
  unfold elementAt
  simp only
  split
  · trivial
  · exact alive_getD alive _

theorem alive_back? {heap : Heap} {items : Array Value}
    (alive : ∀ value ∈ items, value.Alive heap) : (items.back?.getD .nil).Alive heap := by
  cases h : items.back? with
  | none => trivial
  | some value =>
      rw [Array.back?_eq_getElem?] at h
      exact alive value (Array.mem_of_getElem? h)

variable (closed : world.Closed program reach) {cell : Ref .array}

include closed

/-- Every change that a method makes to its array keeps the world closed. -/
theorem sound_modifyArray {f : Array Value → Array Value} {result : Value}
    (result_alive : result.Alive world.heap)
    (alive : ∀ items ∈ world.heap.arrays, ∀ value ∈ f items, value.Alive world.heap) :
    Answers program reach world
      ((do
        Run.modifyHeap (·.modifyArray cell f)
        return .value result : Run Reply) world) := by
  refine (Run.sound_modifyHeap closed (closed.heap.modifyArray cell alive)
    (world.heap.grows_modifyArray cell f) rfl).bind ?_
  intro _ world' closed' grows _
  exact Sound.here closed' (result_alive.mono grows)

/-- Reading an element by an index argument. -/
theorem sound_arrayGet (args : List Value) (block : Option (Ref .proc)) :
    Answers program reach world (arrayReply .get cell args block world) := by
  match args with
  | [argument] =>
      refine (sound_indexArg closed argument).bind ?_
      rintro index world' closed' - rfl
      exact Sound.here closed' (alive_elementAt (closed'.heap.array cell) index)
  | [] | _ :: _ :: _ => exact sound_wrongArity closed _ _

/-- Writing an element by an index argument, within the largest size. -/
theorem sound_arraySet {args : List Value} (args_alive : ∀ value ∈ args, value.Alive world.heap)
    (block : Option (Ref .proc)) :
    Answers program reach world (arrayReply .set cell args block world) := by
  match args with
  | [argument, value] =>
      have value_alive : value.Alive world.heap := args_alive value (by simp)
      refine (sound_indexArg closed argument).bind ?_
      rintro index world' closed' - rfl
      refine Sound.get (Sound.ite (fun _ => ?_) fun _ => Sound.ite (fun _ => ?_) fun _ => ?_)
      · exact Sound.fault closed' (by simp [RuntimeError.indexTooSmall])
      · exact Sound.fault closed' (by simp [RuntimeError.indexTooBig])
      · refine sound_modifyArray closed' value_alive ?_
        intro items hi v hv
        rcases Frame.mem_setSlot hv with hv | rfl | rfl
        · exact closed'.heap.arrays items hi v hv
        · exact value_alive
        · trivial
  | [] | [_] | _ :: _ :: _ :: _ => exact sound_wrongArity closed _ _

/-- Joining elements, with an optional separator. -/
theorem sound_arrayJoin (args : List Value) (block : Option (Ref .proc)) :
    Answers program reach world (arrayReply .join cell args block world) := by
  refine Sound.get ?_
  match args with
  | [] | .nil :: _ | .string _ :: _ => exact sound_value (Run.sound_newString closed _)
  | .bool _ :: _ | .fixnum _ :: _ | .bignum _ _ :: _ | .symbol _ :: _ | .array _ :: _
  | .proc _ :: _ | .classRef _ :: _ | .object _ :: _ =>
      exact (Run.sound_notConvertible closed _ _).bind fun _ _ _ _ (h : False) => h.elim

theorem sound_arrayReply (cell_alive : cell.Alive world.heap) {args : List Value}
    (args_alive : ∀ value ∈ args, value.Alive world.heap) {block : Option (Ref .proc)}
    (block_alive : ∀ cell, block = some cell → cell.Alive world.heap) (method : ArrayMethod) :
    Answers program reach world (arrayReply method cell args block world) := by
  have items_alive := closed.heap.array cell
  have receiver_alive : (Value.array cell).Alive world.heap := cell_alive
  have list_alive : ∀ value ∈ (world.heap.array cell).toList, value.Alive world.heap :=
    fun value hv => items_alive value (by simpa using hv)
  cases method with
  | length => exact Sound.here closed trivial
  | get => exact sound_arrayGet closed args block
  | set => exact sound_arraySet closed args_alive block
  | push =>
      refine sound_modifyArray closed receiver_alive ?_
      intro items hi v hv
      rcases Array.mem_append.mp hv with hv | hv
      · exact closed.heap.arrays items hi v hv
      · exact args_alive v (by simpa using hv)
  | first => exact Sound.here closed (alive_getD items_alive 0)
  | last => exact Sound.here closed (alive_back? items_alive)
  | pop =>
      refine Sound.get (sound_modifyArray closed (alive_back? items_alive) ?_)
      intro items hi v hv
      have : v ∈ items := by
        rw [← Array.mem_toList_iff, Array.toList_pop] at hv
        exact Array.mem_toList_iff.mp (List.dropLast_subset _ hv)
      exact closed.heap.arrays items hi v this
  | each =>
      refine (Run.sound_requireBlock closed block_alive).bind ?_
      rintro proc world' closed' - ⟨rfl, proc_alive⟩
      exact Sound.here closed' ⟨proc_alive, list_alive, receiver_alive⟩
  | map =>
      refine (Run.sound_requireBlock closed block_alive).bind ?_
      rintro proc world' closed' - ⟨rfl, proc_alive⟩
      exact Sound.here closed' ⟨proc_alive, list_alive, List.forall_mem_nil _⟩
  | join => exact sound_arrayJoin closed args block
  | isEmpty => exact Sound.here closed trivial
  | includes =>
      match args with
      | [argument] => exact Sound.here closed trivial
      | [] | _ :: _ :: _ => exact sound_wrongArity closed _ _
  | reverse =>
      exact sound_value (Run.sound_newArray closed
        fun value hv => items_alive value (by simpa using hv))
  | toArray => exact Sound.here closed receiver_alive

end Array

theorem sound_kernelReply (closed : world.Closed program reach) {receiver : Value}
    {args : List Value} (args_alive : ∀ value ∈ args, value.Alive world.heap)
    {block : Option (Ref .proc)}
    (block_alive : ∀ cell, block = some cell → cell.Alive world.heap) (method : KernelMethod) :
    Sound program reach world (fun value world' => value.Alive world'.heap)
      (kernelReply method receiver args block world) := by
  cases method with
  | puts | print =>
      refine Sound.get ((Run.sound_write closed _).bind ?_)
      intro _ world' closed' _ _
      exact Sound.here closed' trivial
  | p =>
      refine Sound.get ((Run.sound_write closed _).bind ?_)
      intro _ world' closed' grows _
      match args with
      | [] => exact Sound.here closed' trivial
      | [argument] => exact Sound.here closed' ((args_alive argument (by simp)).mono grows)
      | first :: second :: rest =>
          exact Run.sound_newArray closed'
            fun value hv => (args_alive value (by simpa using hv)).mono grows
  | blockGiven => exact Sound.here closed trivial
  | proc =>
      refine (Run.sound_requireBlock closed block_alive).bind ?_
      rintro cell world' closed' - ⟨rfl, cell_alive⟩
      exact Sound.here closed' cell_alive
  | isNil => exact Sound.here closed trivial
  | equal | notEqual | same =>
      match args with
      | [argument] => exact Sound.here closed trivial
      | [] | _ :: _ :: _ => exact sound_wrongArity closed _ _
  | not => exact Sound.here closed trivial
  | inspect => exact Run.sound_newString closed _
  | display => exact Run.sound_newString closed _
  | className => exact Sound.here closed trivial

/-- A reply of a method that the receiver's class may have. -/
theorem sound_mapM (closed : world.Closed program reach) {μ : Type} {method? : Option μ}
    {reply : μ → Run Reply}
    (h : ∀ method, Answers program reach world (reply method world)) :
    Sound program reach world (fun answer world' =>
        (answer = none → world' = world) ∧
          ∀ reply, answer = some reply → reply.Alive program reach world')
      (method?.mapM reply world) := by
  cases method? with
  | none => exact Sound.here closed ⟨fun _ => rfl, by simp⟩
  | some method =>
      refine (h method).map fun reply world' alive => ⟨by simp, ?_⟩
      rintro _ ⟨rfl⟩
      exact alive

section Dispatch

variable (closed : world.Closed program reach) {receiver : Value}
  (receiver_alive : receiver.Alive world.heap) {args : List Value}
  (args_alive : ∀ value ∈ args, value.Alive world.heap) {block : Option (Ref .proc)}
  (block_alive : ∀ cell, block = some cell → cell.Alive world.heap)

include closed args_alive block_alive

theorem sound_lastReply (name : String) :
    Answers program reach world (lastReply receiver name args block world) := by
  unfold lastReply
  cases named? kernelMethods name with
  | some method => exact sound_value (sound_kernelReply closed args_alive block_alive method)
  | none => exact Run.sound_noMethod closed _ _

include receiver_alive

/-- Without an answer from the receiver's class nothing has changed. -/
theorem sound_classReply (name : String) :
    Sound program reach world (fun answer world' =>
        (answer = none → world' = world) ∧
          ∀ reply, answer = some reply → reply.Alive program reach world')
      (classReply program receiver name args block world) := by
  cases receiver with
  | nil =>
      refine sound_mapM closed fun method => ?_
      cases method with
      | display => exact sound_value (Run.sound_newString closed _)
      | toArray => exact sound_value (Run.sound_newArray closed (by simp))
  | bool b => exact Sound.here closed ⟨fun _ => rfl, by simp⟩
  | fixnum n =>
      exact sound_mapM closed fun method =>
        sound_integerReply closed receiver_alive block_alive method _ args
  | bignum n identity =>
      exact sound_mapM closed fun method =>
        sound_integerReply closed receiver_alive block_alive method _ args
  | string cell =>
      exact sound_mapM closed fun method =>
        sound_stringReply closed receiver_alive method args
  | symbol symbol =>
      exact sound_mapM closed fun method =>
        sound_symbolReply closed method symbol args
  | array cell =>
      exact sound_mapM closed fun method =>
        sound_arrayReply closed receiver_alive args_alive block_alive method
  | proc cell =>
      refine sound_mapM closed fun method => ?_
      cases method with
      | call =>
          refine (Run.sound_enterBlock closed receiver_alive args_alive).bind ?_
          intro entry world' closed' _ alive
          exact Sound.here closed' alive
      | arity => exact Sound.here closed trivial
  | classRef className =>
      refine sound_mapM closed fun method => ?_
      cases method with
      | new =>
          refine Sound.ite (fun _ => ?_) (fun _ => ?_)
          · exact Sound.fault closed (by simp [RuntimeError.noAllocator])
          · refine (Run.sound_expectArgs closed args 0).bind ?_
            rintro _ world' closed' - rfl
            exact sound_value (Run.sound_newObject closed' _)
      | name => exact sound_value (Run.sound_newString closed _)
  | object cell => exact Sound.here closed ⟨fun _ => rfl, by simp⟩

theorem sound_builtinReply (name : String) :
    Answers program reach world (builtinReply program receiver name args block world) := by
  refine (sound_classReply closed receiver_alive args_alive block_alive name).bind ?_
  rintro answer world' closed' - ⟨unchanged, alive⟩
  cases answer with
  | some reply => exact Sound.here closed' (alive reply rfl)
  | none =>
      cases unchanged rfl
      exact sound_lastReply closed' args_alive block_alive name

/-- The dispatch of a message answers with something that exists, and fails only with an
error that the program caused. -/
theorem sound_dispatch (name : String) :
    Answers program reach world (Run.dispatch program receiver name args block world) := by
  refine (sound_classReply closed receiver_alive args_alive block_alive name).bind ?_
  rintro answer world' closed' - ⟨unchanged, alive⟩
  cases answer with
  | some reply => exact Sound.here closed' (alive reply rfl)
  | none =>
      cases unchanged rfl
      refine Sound.get ?_
      cases hmethod : world.methods.get? name with
      | none =>
          simp only
          exact sound_lastReply closed args_alive block_alive name
      | some method =>
          cases method with
          | compiled position arity =>
              simp only
              refine (Run.sound_expectArgs closed args arity).bind ?_
              rintro _ world'' closed'' - rfl
              exact Run.sound_enterMethod closed'' hmethod receiver_alive args_alive block_alive
          | builtin original =>
              simp only
              exact sound_builtinReply closed receiver_alive args_alive block_alive original

end Dispatch

end BlockScript.Builtin

namespace BlockScript.Run

/-- An alias stands for what the old name stood for, so it is placed as that was. -/
theorem sound_aliasMethod {program : Program} {reach : UInt32 → Nat} {world : World}
    (closed : world.Closed program reach) (newName oldName : String) :
    Sound program reach world (fun _ _ => True) (aliasMethod newName oldName world) := by
  refine Sound.get ?_
  cases hmethod : world.methods.get? oldName with
  | some method =>
      simp only
      refine sound_setMethod closed newName ?_
      rintro position arity rfl
      exact closed.methods oldName position arity hmethod
  | none =>
      simp only
      refine Sound.ite (fun _ => ?_) (fun _ => ?_)
      · exact sound_setMethod closed newName (by simp)
      · exact Sound.fault closed (by simp [RuntimeError.noMethodToAlias])

end BlockScript.Run
