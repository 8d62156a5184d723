import Mathlib.Logic.Function.Iterate
import BlockScript.Proofs.Machine.Effect
import BlockScript.Proofs.World.Provenance

/-!
# Values in a running machine

A value that stands somewhere in a machine after a step stood there before, or the step made it.
Whatever is true of the values that a machine begins with and of every value that can be made is
therefore true of all values in all its states. Symbols that were issued remain issued.
-/

namespace BlockScript

/-! ## The values that a machine holds -/

/-- The values that an activation works with. -/
inductive Activation.Holds (activation : Activation) : Value → Prop where
  | operand {value : Value} (member : value ∈ activation.stack) : Holds activation value
  | self : Holds activation activation.self
  | block {cell : Ref .proc} (given : activation.block = some cell) : Holds activation (.proc cell)

/-- The values that a loop goes on with. -/
def BlockLoop.Holds (value : Value) : BlockLoop → Prop
  | .times block _ _ receiver => value = .proc block ∨ value = receiver
  | .each block rest receiver => value = .proc block ∨ value ∈ rest ∨ value = receiver
  | .map block rest results => value = .proc block ∨ value ∈ rest ∨ value ∈ results

/-- The values that a machine is about to use. -/
def Focus.Holds (value : Value) : Focus → Prop
  | .enter _ activation | .run _ _ activation => activation.Holds value
  | .iterate loop => loop.Holds value
  | .give result => value = result
  | .fail _ => False

/-- The values that something goes on with when it has its result. -/
def Waiting.Holds (value : Value) : Waiting → Prop
  | .body _ _ activation => activation.Holds value
  | .loop rest => rest.Holds value

/-- The value stands somewhere in the machine: in its world, or with what it is doing. -/
def Machine.Holds (machine : Machine) (value : Value) : Prop :=
  machine.world.Holds value ∨ machine.focus.Holds value ∨
    ∃ waiting ∈ machine.waiting, waiting.Holds value

/-! ## What is known of them -/

/-- Every value that the machine is about to use has the property. -/
def Focus.All (known : Value → Prop) : Focus → Prop
  | .enter _ activation | .run _ _ activation => activation.All known
  | .iterate loop => loop.All known
  | .give value => known value
  | .fail _ => True

/-- Every value that something goes on with has the property. -/
def Waiting.All (known : Value → Prop) : Waiting → Prop
  | .body _ _ activation => activation.All known
  | .loop rest => rest.All known

/-- Every value in the machine has the property. -/
structure Machine.Knows (machine : Machine) (known : Value → Prop) : Prop where
  world : machine.world.Knows known
  focus : machine.focus.All known
  waiting : ∀ waiting ∈ machine.waiting, waiting.All known

variable {known known' : Value → Prop}

theorem Activation.all_iff {activation : Activation} :
    activation.All known ↔ ∀ value, activation.Holds value → known value := by
  constructor
  · rintro all value (member | _ | given)
    · exact all.stack value member
    · exact all.self
    · exact all.block _ given
  · exact fun h => ⟨fun value member => h value (.operand member), h _ .self,
      fun cell given => h _ (.block given)⟩

theorem BlockLoop.all_iff {loop : BlockLoop} :
    loop.All known ↔ ∀ value, loop.Holds value → known value := by
  cases loop with
  | times block next count receiver => simp [All, Holds]
  | each block rest receiver => simp [All, Holds, or_imp, forall_and]
  | map block rest results => simp [All, Holds, or_imp, forall_and]

theorem Focus.all_iff {focus : Focus} :
    focus.All known ↔ ∀ value, focus.Holds value → known value := by
  cases focus with
  | enter position activation => exact Activation.all_iff
  | run code ip activation => exact Activation.all_iff
  | iterate loop => exact BlockLoop.all_iff
  | give value => simp [All, Holds]
  | fail error => simp [All, Holds]

theorem Waiting.all_iff {waiting : Waiting} :
    waiting.All known ↔ ∀ value, waiting.Holds value → known value := by
  cases waiting with
  | body code ip activation => exact Activation.all_iff
  | loop rest => exact BlockLoop.all_iff

/-- What is true of plain values and of all values that a machine holds is known of it. -/
theorem Machine.knows_iff {machine : Machine} : machine.Knows known ↔
    (∀ value, value.Plain → known value) ∧ ∀ value, machine.Holds value → known value := by
  constructor
  · rintro knows
    refine ⟨knows.world.plain, fun value held => ?_⟩
    rcases held with held | held | ⟨waiting, member, held⟩
    · exact knows.world.held value held
    · exact Focus.all_iff.mp knows.focus value held
    · exact Waiting.all_iff.mp (knows.waiting waiting member) value held
  · rintro ⟨plain, held⟩
    exact ⟨⟨plain, fun value h => held value (.inl h)⟩,
      Focus.all_iff.mpr fun value h => held value (.inr (.inl h)),
      fun waiting member => Waiting.all_iff.mpr fun value h =>
        held value (.inr (.inr ⟨waiting, member, h⟩))⟩

theorem Waiting.All.mono {waiting : Waiting} (h : waiting.All known)
    (weaker : ∀ value, known value → known' value) : waiting.All known' := by
  cases waiting with
  | body code ip activation => exact Activation.All.mono h weaker
  | loop rest => exact BlockLoop.All.mono h weaker

namespace World.Knows

variable {world : World}

theorem mono (h : world.Knows known) (weaker : ∀ value, known value → known' value) :
    world.Knows known' :=
  ⟨fun value plain => weaker value (h.plain value plain),
    fun value held => weaker value (h.held value held)⟩

/-- The calls in progress matter only for the blocks that they were given. -/
theorem withCalls (h : world.Knows known) {calls : Array Call} (steps : Nat)
    (given : ∀ call ∈ calls, call ∈ world.calls ∨ Ref.Given known call.block) :
    World.Knows { world with calls, steps } known where
  plain := h.plain
  held value held := by
    cases held with
    | element cell member => exact h.held _ (.element cell member)
    | ivar cell member => exact h.held _ (.ivar cell member)
    | slot cell member => exact h.held _ (.slot cell member)
    | self cell => exact h.held _ (.self cell)
    | block member given => exact h.held _ (.block member given)
    | global member => exact h.held _ (.global member)
    | constant member => exact h.held _ (.constant member)
    | call member block =>
        rcases given _ member with old | new
        · exact h.held _ (.call old block)
        · exact new _ block

theorem count (h : world.Knows known) : world.count.Knows known :=
  h.withCalls (world.steps + 1) fun _ => .inl

theorem beginCall (h : world.Knows known) {call : Call} (given : Ref.Given known call.block) :
    (world.beginCall call).Knows known := by
  refine h.withCalls world.steps fun other member => ?_
  rcases Array.mem_push.mp member with member | rfl
  · exact .inl member
  · exact .inr given

theorem endCall (h : world.Knows known) : world.endCall.Knows known := by
  refine h.withCalls world.steps fun call member => .inl ?_
  rw [← Array.mem_toList_iff, Array.toList_pop] at member
  exact Array.mem_toList_iff.mp (List.dropLast_subset _ member)

end World.Knows

/-! ## Operations -/

/-- What is made on top of a larger heap is made on top of a smaller one. -/
theorem Heap.Makes.earlier {heap later : Heap} {symbols : SymbolTable} {value : Value}
    (h : later.Makes symbols value) (strings : heap.strings.size ≤ later.strings.size)
    (arrays : heap.arrays.size ≤ later.arrays.size) (procs : heap.procs.size ≤ later.procs.size)
    (objects : heap.objects.size ≤ later.objects.size) (bignums : heap.bignums ≤ later.bignums) :
    heap.Makes symbols value := by
  cases h with
  | plain h => exact .plain h
  | string new => exact .string (Nat.le_trans strings new)
  | array new => exact .array (Nat.le_trans arrays new)
  | proc new => exact .proc (Nat.le_trans procs new)
  | object new => exact .object (Nat.le_trans objects new)
  | bignum large new => exact .bignum large (Nat.le_trans bignums new)
  | symbol issued => exact .symbol issued

variable {program : Program} {world after : World}

/-- Everything that an operation stores was known before. -/
theorem World.Stores.knows {op : Op} (h : world.Stores program known op after)
    (knows : world.Knows known) : after.Knows (world.Hands known after) := by
  cases h with
  | slot frame slot value_known =>
      refine knows.changes (fun _ => .inl) (fun _ => .inl) ?_ (fun _ => .inl) (fun _ => .inl)
        (fun _ => .inl) (fun _ => .inl)
      intro frame member
      simp only [Heap.setLocal] at member
      rcases Heap.Closed.mem_modify member with member | ⟨old, held, rfl⟩
      · exact .inl member
      · refine .inr fun v member => ?_
        rcases Frame.mem_setSlot member with member | rfl | rfl
        · exact .inl (knows.held _ (.slot held member))
        · exact .inl value_known
        · exact .inr (.plain .nil)
  | ivar cell name value_known =>
      refine knows.changes (fun _ => .inl) ?_ (fun _ => .inl) (fun _ => .inl) (fun _ => .inl)
        (fun _ => .inl) (fun _ => .inl)
      intro object member
      simp only [Heap.setIvar] at member
      rcases Heap.Closed.mem_modify member with member | ⟨old, held, rfl⟩
      · exact .inl member
      · refine .inr fun e member => ?_
        rcases Table.mem_put member with rfl | member
        · exact .inl value_known
        · exact .inl (knows.held _ (.ivar held member))
  | global name value_known =>
      refine knows.changes (fun _ => .inl) (fun _ => .inl) (fun _ => .inl) (fun _ => .inl) ?_
        (fun _ => .inl) (fun _ => .inl)
      intro entry member
      rcases Table.mem_put member with rfl | member
      · exact .inr (.inl value_known)
      · exact .inl member
  | constant name value_known =>
      refine knows.changes (fun _ => .inl) (fun _ => .inl) (fun _ => .inl) (fun _ => .inl)
        (fun _ => .inl) ?_ (fun _ => .inl)
      intro entry member
      rcases Table.mem_put member with rfl | member
      · exact .inr (.inl value_known)
      · exact .inl member
  | method | renamed | builtin => exact knows.same rfl rfl rfl rfl rfl rfl rfl

theorem World.Stores.symbols {op : Op} (h : world.Stores program known op after) :
    after.symbols = world.symbols := by
  cases h <;> rfl

/-- Every value that control goes on with has the property. -/
def Flow.All (known : Value → Prop) : Flow → Prop
  | .next | .jump _ => True
  | .ret value => known value
  | .enter _ activation => activation.All known
  | .iterate loop => loop.All known

/-- After a reply the operands and what control goes on with are those of the reply. -/
theorem Reply.All.flow {reply : Reply} {before : Activation} {stack : List Value}
    (h : reply.All known) (own : before.All known) (all : ∀ value ∈ stack, known value) :
    reply.flow.All known ∧ ({ before with stack := reply.onto stack } : Activation).All known := by
  cases reply with
  | value result => exact ⟨trivial, List.forall_mem_cons.mpr ⟨h, all⟩, own.self, own.block⟩
  | enter position activation => exact ⟨h, all, own.self, own.block⟩
  | iterate loop => exact ⟨h, all, own.self, own.block⟩

/-- The world with one more block knows what made it, and the block. -/
theorem World.Knows.addProc (knows : world.Knows known) {before : Activation}
    (own : before.All known) (position : UInt32) (body : Code) :
    (world.addProc (before.close position body)).Knows
      (world.Hands known (world.addProc (before.close position body))) := by
  refine (Exec.knows_addProc knows own position body).mono ?_
  rintro value (h | rfl)
  · exact .inl h
  · exact .inr (.proc (Nat.le_refl _))

namespace Exec

variable {op : Op} {before activation : Activation} {flow : Flow}

/-- What a message hands on that is answered after a block was made. -/
theorem hands_addProc {position : UInt32} {body : Code} {value : Value}
    (h : (world.addProc (before.close position body)).Hands
      (fun value => known value ∨ value = .proc world.nextProc) after value) :
    world.Hands known after value := by
  rcases h with (h | rfl) | made
  · exact .inl h
  · exact .inr (.proc (Nat.le_refl _))
  · refine .inr (made.earlier (Nat.le_refl _) (Nat.le_refl _) ?_ (Nat.le_refl _) (Nat.le_refl _))
    simp [World.addProc, Heap.newProc]

theorem Effect.symbols (h : Effect program known op before world flow activation after) :
    world.symbols.Grows after.symbols := by
  cases h with
  | moves control all => exact .refl _
  | stores all stored => exact stored.symbols ▸ .refl _
  | answers all effect => exact effect.symbols
  | closes all block code => exact .refl _
  | closesAndAnswers all block code effect => exact effect.symbols

/-- Every value that there is after an operation was known before or was made by it. -/
theorem Effect.knows (h : Effect program known op before world flow activation after)
    (knows : world.Knows known) (own : before.All known) :
    after.Knows (world.Hands known after) ∧ flow.All (world.Hands known after) ∧
      activation.All (world.Hands known after) := by
  have wide (stack : List Value) (all : ∀ value ∈ stack, known value) :
      ∀ value ∈ stack, world.Hands known after value := fun value member => .inl (all value member)
  have own' : before.All (world.Hands known after) := own.mono fun _ => .inl
  cases h with
  | moves control all =>
      refine ⟨knows.mono fun _ => .inl, ?_, wide _ all, own'.self, own'.block⟩
      cases flow with
      | next | jump => trivial
      | ret value => exact .inl control
      | enter | iterate => exact control.elim
  | stores all stored => exact ⟨stored.knows knows, trivial, wide _ all, own'.self, own'.block⟩
  | answers all effect =>
      exact ⟨effect.knows knows, (effect.reply_all knows).flow own' (wide _ all)⟩
  | closes all block code =>
      refine ⟨knows.addProc own _ _, trivial, ?_, own'.self, own'.block⟩
      exact List.forall_mem_cons.mpr ⟨.inr (.proc (Nat.le_refl _)), wide _ all⟩
  | closesAndAnswers all block code effect =>
      refine ⟨(effect.knows (knows_addProc knows own _ _)).mono fun _ => hands_addProc, ?_⟩
      exact ((effect.reply_all (knows_addProc knows own _ _)).mono fun _ => hands_addProc).flow own' (wide _ all)

theorem Leaves.symbols (h : Leaves program op before world after) :
    after.symbols = world.symbols := by
  cases h <;> rfl

theorem Leaves.knows (h : Leaves program op before world after) (knows : world.Knows known)
    (own : before.All known) : after.Knows (world.Hands known after) := by
  cases h with
  | same => exact knows.mono fun _ => .inl
  | closed block code => exact knows.addProc own _ _

end Exec

/-! ## Steps -/

namespace Machine

variable {limits : Limits} {machine : Machine} {waiting : List Waiting}

section Parts

variable (knows : world.Knows known) (outer : ∀ w ∈ waiting, w.All known)

include outer

/-- What waits goes on with what it had. -/
theorem waiting_hands (after : World) :
    ∀ w ∈ waiting, w.All (world.Hands known after) :=
  fun w member => (outer w member).mono fun _ => .inl

include knows

theorem enter_knows {position : UInt32} {activation : Activation} (own : activation.All known) :
    (enter program limits position activation waiting world).Knows
      (world.Hands known (enter program limits position activation waiting world).world) := by
  unfold enter
  split
  · exact ⟨knows.mono fun _ => .inl, trivial, waiting_hands outer _⟩
  · split
    · exact ⟨knows.mono fun _ => .inl, trivial, waiting_hands outer _⟩
    · exact ⟨(knows.beginCall own.block).mono fun _ => .inl, own.mono fun _ => .inl,
        waiting_hands outer _⟩

omit knows outer in
theorem follow_knows {code : Code} {ip : Nat} {flow : Flow} {activation : Activation}
    (knows : world.Knows known) (control : flow.All known) (own : activation.All known)
    (outer : ∀ w ∈ waiting, w.All known) :
    (follow code ip flow activation waiting world).Knows known ∧
      (follow code ip flow activation waiting world).world.symbols = world.symbols := by
  have inner : ∀ w ∈ Waiting.body code ip activation :: waiting, w.All known :=
    List.forall_mem_cons.mpr ⟨own, outer⟩
  cases flow with
  | next => exact ⟨⟨knows, own, outer⟩, rfl⟩
  | jump offset =>
      unfold follow
      dsimp only
      split
      · exact ⟨⟨knows, own, outer⟩, rfl⟩
      · exact ⟨⟨knows.endCall, trivial, outer⟩, rfl⟩
  | ret value => exact ⟨⟨knows.endCall, control, outer⟩, rfl⟩
  | enter position callee => exact ⟨⟨knows, control, inner⟩, rfl⟩
  | iterate loop => exact ⟨⟨knows, control, inner⟩, rfl⟩

theorem advance_knows {code : Code} {ip : Nat} {activation : Activation}
    (own : activation.All known) :
    (advance program limits code ip activation waiting world).Knows
        (world.Hands known (advance program limits code ip activation waiting world).world) ∧
      world.symbols.Grows
        (advance program limits code ip activation waiting world).world.symbols := by
  unfold advance
  split
  · exact ⟨⟨knows.endCall.mono fun _ => .inl, trivial, waiting_hands outer _⟩, .refl _⟩
  · rename_i op _
    dsimp only
    split
    · exact ⟨⟨knows.count.endCall.mono fun _ => .inl, trivial, waiting_hands outer _⟩, .refl _⟩
    · have performed := @Exec.acts_perform program known activation world.count knows.count own op
      split
      · rename_i flow activation' after run
        have effect := performed.ok run
        obtain ⟨after_knows, control, own'⟩ := effect.knows knows.count own
        obtain ⟨followed, symbols⟩ := @follow_knows _ after waiting code ip flow activation'
          after_knows control own' (waiting_hands outer _)
        rw [symbols]
        refine ⟨?_, effect.symbols⟩
        have same : World.Hands world known
            (follow code ip flow activation' waiting after).world = world.count.Hands known after := by
          unfold World.Hands
          rw [symbols]
          rfl
        rwa [same]
      · rename_i error activation' after run
        have left := performed.error run
        refine ⟨⟨(left.knows knows.count own).endCall, trivial, waiting_hands outer _⟩, ?_⟩
        exact (left.symbols.symm : world.symbols = _) ▸ SymbolTable.Grows.refl _

theorem iterate_knows {loop : BlockLoop} (all : loop.All known) :
    (iterate program loop waiting world).Knows
        (world.Hands known (iterate program loop waiting world).world) ∧
      world.symbols.Grows (iterate program loop waiting world).world.symbols := by
  unfold iterate
  split
  · rename_i block argument rest next
    obtain ⟨argument_known, rest_known⟩ := all.next knows.plain next
    have entered := @Run.ends_enterBlock program known world knows block [argument]
      (List.forall_mem_singleton.mpr argument_known)
    split
    · rename_i position activation after run
      have effect := entered.ok run
      refine ⟨⟨effect.knows knows, effect.reply_all knows, ?_⟩, effect.symbols⟩
      exact List.forall_mem_cons.mpr ⟨rest_known.mono fun _ => .inl, waiting_hands outer _⟩
    · rename_i error after run
      cases entered.error run
      exact ⟨⟨knows.mono fun _ => .inl, trivial, waiting_hands outer _⟩, .refl _⟩
  · have made := all.made_result program world
    split
    · rename_i value after run
      have effect := made.ok run
      exact ⟨⟨effect.knows knows, effect.reply_all knows, waiting_hands outer _⟩, effect.symbols⟩
    · rename_i error after run
      cases made.error run
      exact ⟨⟨knows.mono fun _ => .inl, trivial, waiting_hands outer _⟩, .refl _⟩

end Parts

/-- Every value in a machine after a step was known before or was made by the step, and symbols
stay symbols. -/
theorem step_knows (h : machine.Knows known) :
    (step program limits machine).Knows
        (machine.world.Hands known (step program limits machine).world) ∧
      machine.world.symbols.Grows (step program limits machine).world.symbols := by
  obtain ⟨focus, waiting, world⟩ := machine
  obtain ⟨knows, used, outer⟩ := h
  dsimp only at knows used outer
  have kept : world.Knows (world.Hands known world) := knows.mono fun _ => .inl
  cases focus with
  | enter position activation =>
      refine ⟨enter_knows knows outer used, ?_⟩
      simp only [step, enter]
      split
      · exact .refl _
      · split <;> exact .refl _
  | run code ip activation => exact advance_knows knows outer used
  | iterate loop => exact iterate_knows knows outer used
  | give value =>
      cases waiting with
      | nil => exact ⟨⟨kept, .inl used, waiting_hands outer _⟩, .refl _⟩
      | cons first rest =>
          obtain ⟨first_all, rest_all⟩ := List.forall_mem_cons.mp outer
          cases first with
          | body code ip activation =>
              have own : activation.All known := first_all
              refine ⟨⟨kept, ⟨?_, .inl own.self, ?_⟩, waiting_hands rest_all _⟩, .refl _⟩
              · exact List.forall_mem_cons.mpr ⟨.inl used, fun v member => .inl (own.stack v member)⟩
              · exact fun cell given => .inl (own.block cell given)
          | loop loop =>
              have all : loop.All known := first_all
              exact ⟨⟨kept, (all.accept used).mono fun _ => .inl, waiting_hands rest_all _⟩,
                .refl _⟩
  | fail error =>
      cases waiting with
      | nil => exact ⟨⟨kept, trivial, waiting_hands outer _⟩, .refl _⟩
      | cons first rest =>
          obtain ⟨-, rest_all⟩ := List.forall_mem_cons.mp outer
          cases first with
          | body code ip activation =>
              exact ⟨⟨knows.endCall.mono fun _ => .inl, trivial, waiting_hands rest_all _⟩, .refl _⟩
          | loop loop => exact ⟨⟨kept, trivial, waiting_hands rest_all _⟩, .refl _⟩

/-- What is true of all values that a machine begins with, and of all values that can be made
while its symbols are those of some table, is true of all values that it ever holds. -/
theorem steps_knows {valid : SymbolTable → Value → Prop}
    (grown : ∀ table later value, table.Grows later → valid table value → valid later value)
    (made : ∀ heap table value, Heap.Makes heap table value → valid table value)
    (h : machine.Knows (valid machine.world.symbols)) (count : Nat) :
    ((step program limits)^[count] machine).Knows
      (valid ((step program limits)^[count] machine).world.symbols) := by
  induction count with
  | zero => exact h
  | succ count ih =>
      rw [Function.iterate_succ_apply']
      obtain ⟨knows, symbols⟩ := @step_knows _ program limits _ ih
      rw [knows_iff] at knows ⊢
      refine ⟨fun value plain => made .empty _ value (.plain plain), fun value held => ?_⟩
      rcases knows.2 value held with known | new
      · exact grown _ _ value symbols known
      · exact made _ _ value new

end Machine

end BlockScript
