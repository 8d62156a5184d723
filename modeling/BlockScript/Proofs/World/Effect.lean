import BlockScript.Builtin.Reply
import BlockScript.Proofs.Backend.Outcome
import BlockScript.Proofs.Heap.Closed

/-!
# What answering a message does to a world

Answering a message does at most one thing to the world apart from printing: it makes one cell,
changes one cell or gives a symbol to one name. `Run.Effect` lists what it may do, together
with the reply. The values that an effect hands on, or puts into cells, are ones that were
known before: plain values, and those that stand somewhere in the world or came with the
message. A message that is not answered has no effect.
-/

namespace BlockScript

/-! ## Values in a world -/

/-- Values that refer to nothing and need no table. -/
inductive Value.Plain : Value → Prop where
  | nil : Plain .nil
  | bool (b : Bool) : Plain (.bool b)
  | fixnum (n : Int64) : Plain (.fixnum n)
  | classRef (name : String) : Plain (.classRef name)

/-- A block that may be missing has the property. -/
def Ref.Given (known : Value → Prop) (block : Option (Ref .proc)) : Prop :=
  ∀ cell, block = some cell → known (.proc cell)

/-- The value stands in a cell, in a global, in a constant or with a call in progress. -/
inductive World.Holds (world : World) : Value → Prop where
  | element {items : Array Value} {value : Value} (cell : items ∈ world.heap.arrays)
      (member : value ∈ items) : Holds world value
  | ivar {object : Instance} {entry : String × Value} (cell : object ∈ world.heap.objects)
      (member : entry ∈ object.ivars.entries) : Holds world entry.2
  | slot {frame : Frame} {value : Value} (cell : frame ∈ world.heap.frames)
      (member : value ∈ frame.locals) : Holds world value
  | self {proc : Proc} (cell : proc ∈ world.heap.procs) : Holds world proc.self
  | block {proc : Proc} {cell : Ref .proc} (member : proc ∈ world.heap.procs)
      (given : proc.block = some cell) : Holds world (.proc cell)
  | global {entry : String × Value} (member : entry ∈ world.globals.entries) : Holds world entry.2
  | constant {entry : String × Value} (member : entry ∈ world.constants.entries) :
      Holds world entry.2
  | call {call : Call} {cell : Ref .proc} (member : call ∈ world.calls)
      (given : call.block = some cell) : Holds world (.proc cell)

/-- The property holds of everything that is found without making it. -/
structure World.Knows (world : World) (known : Value → Prop) : Prop where
  plain : ∀ value, value.Plain → known value
  held : ∀ value, world.Holds value → known value

/-- Every value that the activation works with has the property. -/
structure Activation.All (known : Value → Prop) (activation : Activation) : Prop where
  stack : ∀ value ∈ activation.stack, known value
  self : known activation.self
  block : Ref.Given known activation.block

/-- Every value that the loop goes on with has the property. -/
def BlockLoop.All (known : Value → Prop) : BlockLoop → Prop
  | .times block _ _ receiver => known (.proc block) ∧ known receiver
  | .each block rest receiver => known (.proc block) ∧ (∀ value ∈ rest, known value) ∧ known receiver
  | .map block rest results =>
    known (.proc block) ∧ (∀ value ∈ rest, known value) ∧ ∀ value ∈ results, known value

namespace World.Knows

variable {world : World} {known : Value → Prop} (knows : world.Knows known)

include knows

/-- The elements of an array, also of one that does not exist. -/
theorem array (cell : Ref .array) : ∀ value ∈ world.heap.array cell, known value := by
  intro value member
  unfold Heap.array Array.getD at member
  split at member
  · exact knows.held value (.element (Array.getElem_mem _) member)
  · simp at member

theorem toList (cell : Ref .array) : ∀ value ∈ (world.heap.array cell).toList, known value :=
  fun value member => knows.array cell value (by simpa using member)

theorem getD {items : Array Value} (all : ∀ value ∈ items, known value) (i : Nat) :
    known (items.getD i .nil) := by
  unfold Array.getD
  split
  · exact all _ (Array.getElem_mem _)
  · exact knows.plain _ .nil

theorem back? {items : Array Value} (all : ∀ value ∈ items, known value) :
    known (items.back?.getD .nil) := by
  cases found : items.back? with
  | none => exact knows.plain _ .nil
  | some value =>
      rw [Array.back?_eq_getElem?] at found
      exact all value (Array.mem_of_getElem? found)

theorem frame (cell : Ref .frame) (slot : Nat) : known ((world.heap.frame cell).get slot) := by
  apply knows.getD
  intro value member
  unfold Heap.frame Array.getD at member
  split at member
  · exact knows.held value (.slot (Array.getElem_mem _) member)
  · simp at member

theorem ivar (cell : Ref .object) (name : String) :
    known (((world.heap.object cell).ivars.get? name).getD .nil) := by
  cases found : (world.heap.object cell).ivars.get? name with
  | none => exact knows.plain _ .nil
  | some value =>
      obtain ⟨entry, member, rfl⟩ := Table.mem_of_get? found
      unfold Heap.object Array.getD at member
      split at member
      · exact knows.held _ (.ivar (Array.getElem_mem _) member)
      · cases member

theorem global (name : String) : known (world.global name) := by
  unfold World.global
  cases found : world.globals.get? name with
  | none => exact knows.plain _ .nil
  | some value =>
      obtain ⟨entry, member, rfl⟩ := Table.mem_of_get? found
      exact knows.held _ (.global member)

theorem constant {name : String} {value : Value} (found : world.constants.get? name = some value) :
    known value := by
  obtain ⟨entry, member, rfl⟩ := Table.mem_of_get? found
  exact knows.held _ (.constant member)

theorem spread {args : List Value} (all : ∀ value ∈ args, known value) (arity : Nat) :
    ∀ value ∈ Run.spread world.heap arity args, known value := by
  intro value member
  unfold Run.spread at member
  split at member
  · split at member
    · exact knows.toList _ value (List.mem_of_mem_take member)
    · exact all value (List.mem_of_mem_take member)
  · exact all value (List.mem_of_mem_take member)

end World.Knows

/-! ## Effects -/

namespace Run

/-- What an answer may do to a world, and the reply that it comes with. -/
inductive Effect (program : Program) (known : Value → Prop) (world : World) :
    Reply → World → Prop where
  | found {value : Value} (h : known value) : Effect program known world (.value value) world
  | string (text : String) :
      Effect program known world (.value (.string (world.heap.newString text).1))
        { world with heap := (world.heap.newString text).2 }
  | array {items : Array Value} (h : ∀ value ∈ items, known value) :
      Effect program known world (.value (.array (world.heap.newArray items).1))
        { world with heap := (world.heap.newArray items).2 }
  | bignum {n : Int} (large : isFixnum n = false) :
      Effect program known world (.value (world.heap.newBignum n).1)
        { world with heap := (world.heap.newBignum n).2 }
  | object (className : String) :
      Effect program known world (.value (.object (world.heap.newObject className).1))
        { world with heap := (world.heap.newObject className).2 }
  | symbol (name : String) :
      Effect program known world (.value (.symbol (world.symbols.intern name).1))
        { world with symbols := (world.symbols.intern name).2 }
  | printed (text : String) {value : Value} (h : known value) :
      Effect program known world (.value value) { world with output := world.output ++ text }
  | printedArray (text : String) {items : Array Value} (h : ∀ value ∈ items, known value) :
      Effect program known world (.value (.array (world.heap.newArray items).1))
        { world with
          heap := (world.heap.newArray items).2
          output := world.output ++ text }
  | text (cell : Ref .string) (f : String → String) {value : Value} (h : known value) :
      Effect program known world (.value value)
        { world with heap := world.heap.modifyString cell f }
  | elements (cell : Ref .array) {f : Array Value → Array Value} {value : Value}
      (all : ∀ items, (∀ value ∈ items, known value) → ∀ value ∈ f items, known value)
      (h : known value) :
      Effect program known world (.value value)
        { world with heap := world.heap.modifyArray cell f }
  /-- A body of a method that is defined is entered with a frame that lies in no other. -/
  | method {name : String} {position : UInt32} {arity : Nat} {body : Code} {self : Value}
      {args : List Value} {block : Option (Ref .proc)}
      (bound : world.methods.get? name = some (.compiled position arity))
      (code : program.code? position = some body) (self_known : known self)
      (args_known : ∀ value ∈ args, known value) (block_known : Ref.Given known block) :
      Effect program known world
        (.enter position
          ⟨[], (world.heap.newFrame (.new body.localCount.toNat args none)).1, self, block⟩)
        { world with heap := (world.heap.newFrame (.new body.localCount.toNat args none)).2 }
  /-- The body of a block is entered with a frame inside the one that it was made in. -/
  | block {cell : Ref .proc} {proc : Proc} {body : Code} {args : List Value}
      (made : world.heap.proc? cell = some proc) (code : program.code? proc.code = some body)
      (args_known : ∀ value ∈ args, known value) :
      Effect program known world
        (.enter proc.code
          ⟨[], (world.heap.newFrame (.new body.localCount.toNat args (some proc.frame))).1,
            proc.self, proc.block⟩)
        { world with
          heap := (world.heap.newFrame (.new body.localCount.toNat args (some proc.frame))).2 }
  | loop {rest : BlockLoop} (h : rest.All known) : Effect program known world (.iterate rest) world

variable {α : Type} {program : Program} {known : Value → Prop} {world : World}

/-- The computation answers with one effect, or fails and has none. -/
abbrev Answered (program : Program) (known : Value → Prop) (action : Run Reply) (world : World) :
    Prop :=
  Ends action world (Effect program known world) fun _ after => after = world

/-- The computation makes or finds a value with one effect, or fails and has none. -/
abbrev Made (program : Program) (known : Value → Prop) (action : Run Value) (world : World) :
    Prop :=
  Ends action world (fun value after => Effect program known world (.value value) after)
    fun _ after => after = world

/-- The computation only reads the world. -/
abbrev Reads (action : Run α) (world : World) (post : α → Prop) : Prop :=
  Ends action world (fun value after => after = world ∧ post value) fun _ after => after = world

/-- What follows a computation that only reads answers in the same world. -/
theorem Reads.answered {post : α → Prop} {action : Run α} {next : α → Run Reply}
    (h : Reads action world post)
    (rest : ∀ value, post value → Answered program known (next value) world) :
    Answered program known (action >>= next) world := by
  refine Ends.bind h ?_
  rintro value after ⟨rfl, holds⟩
  exact rest value holds

/-- A value that was made is a reply. -/
theorem Made.answered {action : Run Value} (h : Made program known action world) :
    Answered program known (do return .value (← action)) world :=
  h.bind fun _ _ effect => .pure effect

theorem answered_throw (error : RuntimeError) : Answered program known (throw error) world :=
  .throws rfl

theorem answered_found {value : Value} (h : known value) :
    Answered program known (return .value value) world := .pure (.found h)

theorem made_found {value : Value} (h : known value) : Made program known (return value) world :=
  .pure (.found h)

theorem made_newString (text : String) : Made program known (newString text) world :=
  .string text

theorem made_newArray {items : Array Value} (h : ∀ value ∈ items, known value) :
    Made program known (newArray items) world :=
  .array h

theorem made_newObject (className : String) : Made program known (newObject className) world :=
  .object className

theorem made_intern (name : String) : Made program known (intern name) world := .symbol name

theorem made_newInteger (plain : ∀ value, value.Plain → known value) (n : Int) :
    Made program known (newInteger n) world := by
  unfold newInteger
  cases small : isFixnum n with
  | true => exact made_found (plain _ (.fixnum _))
  | false => exact Effect.bignum small

theorem reads_expectArgs (args : List Value) (expected : Nat) :
    Reads (expectArgs args expected) world fun _ => True :=
  .ite (fun _ => .pure ⟨rfl, trivial⟩) fun _ => .throws rfl

theorem reads_requireBlock {block : Option (Ref .proc)} (given : Ref.Given known block) :
    Reads (requireBlock block) world fun cell => known (.proc cell) := by
  cases block with
  | some cell => exact ⟨rfl, given cell rfl⟩
  | none => exact (rfl : world = world)

theorem reads_code (position : UInt32) :
    Reads (code program position) world fun body => program.code? position = some body := by
  unfold code
  cases found : program.code? position with
  | some body => exact ⟨rfl, rfl⟩
  | none => exact (rfl : world = world)

theorem reads_notConvertible {post : α → Prop} (expected : String) (value : Value) :
    Reads (notConvertible expected value) world post := (rfl : world = world)

theorem answered_notConvertible (expected : String) (value : Value) :
    Answered program known (notConvertible expected value) world := (rfl : world = world)

theorem answered_noMethod (name : String) (receiver : Value) :
    Answered program known (noMethod name receiver) world := (rfl : world = world)

/-- Preparing the body of a method that is defined. -/
theorem answered_enterMethod {name : String} {position : UInt32} {arity : Nat}
    (bound : world.methods.get? name = some (.compiled position arity)) {self : Value}
    (self_known : known self) {args : List Value} (args_known : ∀ value ∈ args, known value)
    {block : Option (Ref .proc)} (block_known : Ref.Given known block) :
    Answered program known (enterMethod program position self args block) world :=
  (reads_code position).answered fun _ code =>
    Effect.method bound code self_known args_known block_known

/-- Preparing the body of a block. -/
theorem ends_enterBlock (knows : world.Knows known) (cell : Ref .proc) {args : List Value}
    (args_known : ∀ value ∈ args, known value) :
    Ends (enterBlock program cell args) world
      (fun entered after => Effect program known world (.enter entered.1 entered.2) after)
      fun _ after => after = world := by
  refine .get ?_
  cases made : world.heap.proc? cell with
  | none => exact .throws rfl
  | some proc =>
      refine Ends.bind (reads_code proc.code) ?_
      rintro body after ⟨rfl, code⟩
      exact Effect.block made code (knows.spread args_known proc.arity)

end Run

end BlockScript
