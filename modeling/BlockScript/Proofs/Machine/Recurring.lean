import Mathlib
import BlockScript.Proofs.Machine.Integers
import BlockScript.Proofs.Machine.Literals

/-!
# Names without a number of their own

The numbers of symbols have 32 bits, and nothing keeps a program from entering more names than
there are numbers. A script that counts, and turns every number into a symbol, comes to a name
that gets the number of the first one. The two symbols are equal as values, but not identical.
-/

namespace BlockScript

/-- A script that enters the numerals from zero to 2^32 and compares the first with the last. -/
def Program.counting : Program where
  code := #[
    { name := "<main>", kind := .script, maxStack := 4
      ops := #[.pushSymbol 0, .pushFixnum 1,
        .dup, .send 1 0 true none, .send 2 0 true none, .pop,
        .send 3 0 true none, .dup, .pushFixnum 4294967297, .send 4 1 true none, .jumpIfTrue (-8),
        .pop, .pushSymbol 5, .send 6 1 true none, .ret] }]
  constants := ⟨#[.symbol "0", .name "to_s", .name "to_sym", .name "succ", .name "<",
    .symbol "4294967296", .name "=="]⟩

/-- What is entered are the numerals below this number, in their order. -/
def World.Counted (world : World) (count : Nat) : Prop :=
  world.symbols = { names := ((List.range count).map toString).toArray }

namespace Machine

/-! ## Messages to values -/

/-- An operation that is done at once takes one step. -/
theorem step_performs {program : Program} {code : Code} {ip : Nat} {op : Op}
    {activation after : Activation} {waiting : List Waiting} {world world' : World} {flow : Flow}
    (executed : code.ops[ip]? = some op) (room : activation.stack.length ≤ 10000)
    (performed : Exec.perform program op (activation, world.count) = .ok flow (after, world')) :
    step program {} ⟨.run code ip activation, waiting, world⟩ =
      follow code ip flow after waiting world' := by
  have within : brokenLimit {} world.count.steps activation.stack.length = none :=
    if_neg (Nat.not_lt.mpr room)
  simp only [step, advance, executed, within, performed]

/-- A message that a value answers at once. -/
theorem perform_message {program : Program} {constant argc : UInt32} {name : String}
    {receiver value : Value} {args rest : List Value} {frame : Ref .frame} {self : Value}
    {block : Option (Ref .proc)} {world after : World}
    (pooled : program.constants.text? constant = some name) (arity : argc.toNat = args.length)
    (answered : Run.dispatch program receiver name args none world = .ok (.value value) after) :
    Exec.perform program (.send constant argc true none)
        (⟨args.reverse ++ receiver :: rest, frame, self, block⟩, world) =
      .ok .next (⟨value :: rest, frame, self, block⟩, after) := by
  have taken : Exec.popMany "SEND" argc.toNat
      (⟨args.reverse ++ receiver :: rest, frame, self, block⟩, world) =
      .ok args (⟨receiver :: rest, frame, self, block⟩, world) := by
    rw [Exec.popMany, if_pos (by simp [arity])]
    simp [arity]
  simp only [Exec.perform, Exec.constantText, pooled]
  change EStateM.bind (Exec.popMany "SEND" argc.toNat) _ _ = _
  simp only [EStateM.bind, taken]
  change EStateM.bind (Exec.lift (Run.dispatch program receiver name args none)) Exec.answer _ = _
  simp only [EStateM.bind, Exec.lift, answered]
  rfl

/-! ## One pass of the loop -/

/-- The script that counts, about to execute an operation with these operands. -/
def counting (ip : Nat) (stack : List Value) (world : World) : Machine :=
  { focus := .run Program.counting.code[0] ip { stack, frame := ⟨0⟩, self := World.main }, world }

/-- The fixnum of a number. -/
abbrev counter (count : Nat) : Value := .fixnum (Int64.ofInt count)

/-- The symbol of zero. -/
abbrev zeroth : Value := .symbol ⟨0, 0, "0"⟩

variable {world : World} {count : Nat}

/-- The script sends a message that is answered at once. -/
theorem counting_message {ip : Nat} {constant argc : UInt32} {name : String}
    {receiver value : Value} (args : List Value) {rest : List Value} {after : World}
    (executed : Program.counting.code[0].ops[ip]? = some (.send constant argc true none))
    (pooled : Program.counting.constants.text? constant = some name)
    (arity : argc.toNat = args.length) (room : (args.reverse ++ receiver :: rest).length ≤ 10000)
    (answered : Run.dispatch Program.counting receiver name args none world.count =
      .ok (.value value) after) :
    step Program.counting {} (counting ip (args.reverse ++ receiver :: rest) world) =
      counting (ip + 1) (value :: rest) after :=
  step_performs executed room (perform_message pooled arity answered)

theorem int?_counter (few : count ≤ 2 ^ 32 + 1) : (counter count).int? = some (count : Int) :=
  congrArg some (toInt_ofInt_of_isFixnum (isFixnum_iff.mpr ⟨by omega, by omega⟩))

theorem answers_numeral (few : count ≤ 2 ^ 32) :
    Run.dispatch Program.counting (counter count) "to_s" [] none world =
      .ok (.value (.string (world.heap.newString (toString count)).1))
        { world with heap := (world.heap.newString (toString count)).2 } := by
  rw [Builtin.dispatch_integer (int?_counter (by omega)) rfl]
  rfl

theorem answers_symbol {cell : Ref .string} {text : String} (holds : world.heap.string cell = text) :
    Run.dispatch Program.counting (.string cell) "to_sym" [] none world =
      .ok (.value (.symbol (world.symbols.intern text).1))
        { world with symbols := (world.symbols.intern text).2 } := by
  have own : Run.dispatch Program.counting (.string cell) "to_sym" [] none =
      Builtin.stringReply .toSymbol cell [] := Builtin.dispatch_own rfl
  rw [own, ← holds]
  rfl

theorem answers_next (few : count < 2 ^ 32) :
    Run.dispatch Program.counting (counter count) "succ" [] none world =
      .ok (.value (counter (count + 1 : Nat))) world := by
  have result : Builtin.Arithmetic.add.result? count 1 = some ((count + 1 : Nat) : Int) := rfl
  have fits : isFixnum ((count + 1 : Nat) : Int) = true := isFixnum_iff.mpr ⟨by omega, by omega⟩
  have sum : Builtin.arithmetic .add (counter count) (.fixnum 1) = return counter (count + 1 : Nat) := by
    rw [Builtin.arithmetic_int (int?_counter (by omega)) rfl result, Run.newInteger, if_pos fits]
  rw [Builtin.dispatch_integer (int?_counter (by omega)) rfl, Builtin.integerReply, sum]
  rfl

theorem answers_less (few : count ≤ 2 ^ 32) :
    Run.dispatch Program.counting (counter count) "<" [.fixnum 4294967297] none world =
      .ok (.value (.bool true)) world := by
  have bound : (Value.fixnum 4294967297).int? = some 4294967297 := by decide +kernel
  have less : Builtin.Comparison.less.relates count 4294967297 = true := by
    rw [Builtin.Comparison.relates, decide_eq_true_iff]
    omega
  rw [Builtin.dispatch_integer (int?_counter (by omega)) rfl,
    Builtin.gives_comparison (int?_counter (by omega)) bound .less, less]

/-- The numeral of the number that comes next is a new name. -/
theorem intern_counted (counted : world.Counted count) :
    world.symbols.intern (toString count) = (⟨0, count.toUInt32, toString count⟩,
      { names := ((List.range (count + 1)).map toString).toArray }) := by
  have new : world.symbols.lookup? (toString count) = none := by
    rw [SymbolTable.lookup?_eq_none, counted, List.mem_map]
    rintro ⟨other, below, same⟩
    cases Nat.repr_injective same
    exact Nat.lt_irrefl _ (List.mem_range.mp below)
  rw [SymbolTable.intern, new, counted]
  simp [SymbolTable.size, List.range_succ]

/-- The number becomes a string, and the string a symbol. -/
theorem counting_enters (few : count ≤ 2 ^ 32) (counted : world.Counted count) :
    ∃ after : World, (step Program.counting {})^[3] (counting 2 [counter count, zeroth] world) =
        counting 5 [.symbol ⟨0, count.toUInt32, toString count⟩, counter count, zeroth] after ∧
      after.Counted (count + 1) := by
  let made : World :=
    { world.count.count with heap := (world.heap.newString (toString count)).2 }
  let numeral : Ref .string := (world.heap.newString (toString count)).1
  have text : made.count.heap.string numeral = toString count := by
    simp [made, numeral, World.count, Heap.string, Heap.newString]
  have interned : made.count.symbols.intern (toString count) = _ := intern_counted counted
  have copied : step Program.counting {} (counting 2 [counter count, zeroth] world) =
      counting 3 [counter count, counter count, zeroth] world.count := rfl
  have shown : step Program.counting {}
        (counting 3 [counter count, counter count, zeroth] world.count) =
      counting 4 [.string numeral, counter count, zeroth] made :=
    counting_message [] rfl rfl rfl (by simp) (answers_numeral few)
  have entered : step Program.counting {}
        (counting 4 [.string numeral, counter count, zeroth] made) = _ :=
    counting_message [] rfl rfl rfl (by simp) (answers_symbol text)
  rw [interned] at entered
  refine ⟨{ made.count with
    symbols := { names := ((List.range (count + 1)).map toString).toArray } }, ?_, rfl⟩
  change step Program.counting {} (step Program.counting {} (step Program.counting {}
    (counting 2 [counter count, zeroth] world))) = _
  rw [copied, shown, entered]

/-- The next number is less than the bound, so the loop goes on with it. -/
theorem counting_continues {top : Value} (few : count < 2 ^ 32)
    (counted : world.Counted (count + 1)) :
    ∃ after : World, (step Program.counting {})^[6] (counting 5 [top, counter count, zeroth] world) =
        counting 2 [counter (count + 1 : Nat), zeroth] after ∧ after.Counted (count + 1) := by
  let next := counter (count + 1 : Nat)
  let bound : Value := .fixnum 4294967297
  have dropped : step Program.counting {} (counting 5 [top, counter count, zeroth] world) =
      counting 6 [counter count, zeroth] world.count := rfl
  have succeeded : step Program.counting {} (counting 6 [counter count, zeroth] world.count) =
      counting 7 [next, zeroth] world.count.count :=
    counting_message [] rfl rfl rfl (by simp) (answers_next few)
  have copied : step Program.counting {} (counting 7 [next, zeroth] world.count.count) =
      counting 8 [next, next, zeroth] world.count.count.count := rfl
  have bounded : step Program.counting {} (counting 8 [next, next, zeroth] world.count.count.count) =
      counting 9 [bound, next, next, zeroth] world.count.count.count.count := rfl
  have compared : step Program.counting {}
        (counting 9 [bound, next, next, zeroth] world.count.count.count.count) =
      counting 10 [.bool true, next, zeroth] world.count.count.count.count.count :=
    counting_message [bound] rfl rfl rfl (by simp) (answers_less few)
  have jumped (after : World) : step Program.counting {}
      (counting 10 [.bool true, next, zeroth] after) = counting 2 [next, zeroth] after.count := rfl
  refine ⟨world.count.count.count.count.count.count, ?_, counted⟩
  change step _ _ (step _ _ (step _ _ (step _ _ (step _ _ (step _ _ _))))) = _
  rw [dropped, succeeded, copied, bounded, compared, jumped]

/-- Zero is entered before the loop. -/
theorem counting_begins :
    ∃ after : World, (step Program.counting {})^[3] (start Program.counting.code[0] .new) =
        counting 2 [counter 1, zeroth] after ∧ after.Counted 1 := by
  let begun := (step Program.counting {} (start Program.counting.code[0] .new)).world
  have entered : step Program.counting {} (start Program.counting.code[0] .new) =
      counting 0 [] begun := rfl
  have interned : begun.count.symbols.intern "0" = _ := @intern_counted begun.count 0 rfl
  have pushed : step Program.counting {} (counting 0 [] begun) =
      counting 1 [.symbol (begun.count.symbols.intern "0").1]
        { begun.count with symbols := (begun.count.symbols.intern "0").2 } := rfl
  rw [interned] at pushed
  refine ⟨{ begun.count.count with symbols := { names := #["0"] } }, ?_, rfl⟩
  change step Program.counting {} (step Program.counting {} (step Program.counting {}
    (start Program.counting.code[0] .new))) = _
  rw [entered, pushed]
  rfl

/-- After so many passes so many numerals have been entered. -/
theorem counting_passes (passes : Nat) (few : passes < 2 ^ 32) :
    ∃ after : World,
      (step Program.counting {})^[9 * passes + 3] (start Program.counting.code[0] .new) =
        counting 2 [counter (passes + 1 : Nat), zeroth] after ∧ after.Counted (passes + 1) := by
  induction passes with
  | zero => exact counting_begins
  | succ passes ih =>
      obtain ⟨before, reached, counted⟩ := ih (by omega)
      obtain ⟨between, entered, counted⟩ := counting_enters (by omega) counted
      obtain ⟨after, continued, counted⟩ := counting_continues (by omega) counted
      refine ⟨after, ?_, counted⟩
      rw [show 9 * (passes + 1) + 3 = 6 + (3 + (9 * passes + 3)) by omega,
        Function.iterate_add_apply, Function.iterate_add_apply, reached, entered, continued]

/-- The numeral of 2^32 gets the number that zero has. -/
theorem counting_wraps : ∃ after : World,
    (step Program.counting {})^[9 * 2 ^ 32 - 3] (start Program.counting.code[0] .new) =
      counting 5 [.symbol ⟨0, 0, "4294967296"⟩, counter (2 ^ 32 : Nat), zeroth] after := by
  obtain ⟨before, reached, counted⟩ := counting_passes (2 ^ 32 - 1) (by decide)
  obtain ⟨after, entered, -⟩ := counting_enters (Nat.le_refl _) counted
  refine ⟨after, ?_⟩
  rw [show 9 * 2 ^ 32 - 3 = 3 + (9 * (2 ^ 32 - 1) + 3) by decide, Function.iterate_add_apply, reached]
  exact entered

end Machine

/-- A script can hold two symbols that are equal although their names differ. -/
theorem Vm.counting_meets_zero : ∃ vm main count a b,
    (Vm.new {}).load Program.counting = .ok vm ∧ Program.counting.main? = some main ∧
    let machine := (Machine.step vm.program vm.limits)^[count] (Machine.start main vm.world)
    machine.Holds (.symbol a) ∧ machine.Holds (.symbol b) ∧
      Value.equals machine.world.heap (.symbol a) (.symbol b) = true ∧ a.name ≠ b.name := by
  have loaded : (Vm.new {}).load Program.counting = .ok ⟨Program.counting, {}, .new⟩ := rfl
  obtain ⟨after, met⟩ := Machine.counting_wraps
  have held {value : Value} (operand : value ∈
      [.symbol ⟨0, 0, "4294967296"⟩, Machine.counter (2 ^ 32 : Nat), Machine.zeroth]) :
      (Machine.counting 5 [.symbol ⟨0, 0, "4294967296"⟩, Machine.counter (2 ^ 32 : Nat),
        Machine.zeroth] after).Holds value := .inr (.inl (Activation.Holds.operand operand))
  refine ⟨_, _, 9 * 2 ^ 32 - 3, ⟨0, 0, "0"⟩, ⟨0, 0, "4294967296"⟩, loaded, rfl, ?_⟩
  dsimp only
  rw [met]
  exact ⟨held (by simp), held (by simp), rfl, by decide⟩

end BlockScript
