import Mathlib.Logic.Relation
import BlockScript.Proofs.Machine.Provenance
import BlockScript.Proofs.Machine.StepLimit

/-!
# Literals

A symbol is the same value wherever its name comes from, so two symbols that a machine holds are
equal and identical just if their names are equal. A string literal is another value each time:
the string that it pushes has the text of the pool, and nothing that the machine held before leads
to it, so no change made through another value is a change of what a literal comes to.
-/

namespace BlockScript

/-! ## What values lead to -/

/-- The value refers directly to another one: an element, an instance variable, or what a block
closed over. -/
inductive Heap.Refers (heap : Heap) : Value → Value → Prop where
  | element {cell : Ref .array} {value : Value} (member : value ∈ heap.array cell) :
      Refers heap (.array cell) value
  | ivar {cell : Ref .object} {entry : String × Value}
      (member : entry ∈ (heap.object cell).ivars.entries) : Refers heap (.object cell) entry.2
  | self {cell : Ref .proc} {proc : Proc} (made : heap.proc? cell = some proc) :
      Refers heap (.proc cell) proc.self
  | block {cell inner : Ref .proc} {proc : Proc} (made : heap.proc? cell = some proc)
      (given : proc.block = some inner) : Refers heap (.proc cell) (.proc inner)
  | slot {cell : Ref .proc} {proc : Proc} {depth : Nat} {frame : Ref .frame} {value : Value}
      (made : heap.proc? cell = some proc) (around : heap.ancestor? depth proc.frame = some frame)
      (member : value ∈ (heap.frame frame).locals) : Refers heap (.proc cell) value

/-- The value is the other one or refers to it over some others. -/
abbrev Heap.Leads (heap : Heap) : Value → Value → Prop := Relation.ReflTransGen heap.Refers

/-- A string that is made is referred to by nothing. -/
theorem Heap.Closed.not_refers_newString {heap : Heap} (closed : heap.Closed) (text : String)
    (value : Value) : ¬(heap.newString text).2.Refers value (.string (heap.newString text).1) := by
  have unborn : ¬(Value.string (heap.newString text).1).Alive heap :=
    Nat.lt_irrefl heap.strings.size
  intro refers
  apply unborn
  generalize hnew : Value.string (heap.newString text).1 = new at refers
  cases refers with
  | element member => exact closed.array _ _ member
  | ivar member => exact closed.object _ _ member
  | self made => exact (closed.proc made).self
  | block made given => cases hnew
  | slot made around member => exact (closed.frame _).locals _ member

/-! ## Values in a safe machine -/

/-- Strings that a safe machine holds exist. -/
theorem Machine.Safe.string_alive {program : Program} {reach : UInt32 → Nat} {machine : Machine}
    (safe : machine.Safe program reach) {cell : Ref .string}
    (held : machine.Holds (.string cell)) : cell.Alive machine.world.heap := by
  have own {activation : Activation} (alive : activation.Alive machine.world.heap)
      (holds : activation.Holds (.string cell)) :
      (Value.string cell).Alive machine.world.heap := by
    generalize hvalue : Value.string cell = value at holds
    cases holds with
    | operand member => exact alive.stack _ member
    | self => exact alive.self
    | block given => cases hvalue
  have goes {loop : BlockLoop} (alive : loop.Alive machine.world.heap)
      (holds : loop.Holds (.string cell)) : (Value.string cell).Alive machine.world.heap := by
    cases loop with
    | times block next count receiver =>
        rcases holds with same | same
        · cases same
        · exact same ▸ alive.2
    | each block rest receiver =>
        rcases holds with same | member | same
        · cases same
        · exact alive.2.1 _ member
        · exact same ▸ alive.2.2
    | map block rest results =>
        rcases holds with same | member | member
        · cases same
        · exact alive.2.1 _ member
        · exact alive.2.2 _ member
  change (Value.string cell).Alive machine.world.heap
  rcases held with held | held | ⟨waiting, member, held⟩
  · generalize hvalue : Value.string cell = value at held
    cases held with
    | element cell member => exact safe.world.heap.arrays _ cell _ member
    | ivar cell member => exact safe.world.heap.objects _ cell _ member
    | slot cell member => exact (safe.world.heap.frames _ cell).locals _ member
    | self cell => exact (safe.world.heap.procs _ cell).self
    | block | call => cases hvalue
    | global member => exact safe.world.globals _ member
    | constant member => exact safe.world.constants _ member
  · have focus_safe := safe.focus
    cases hfocus : machine.focus with
    | enter position activation =>
        rw [hfocus] at held focus_safe
        exact own focus_safe.alive held
    | run code ip activation =>
        rw [hfocus] at held focus_safe
        exact own focus_safe.1.1 held
    | iterate loop =>
        rw [hfocus] at held focus_safe
        exact goes focus_safe held
    | give value =>
        rw [hfocus] at held focus_safe
        exact (held : Value.string cell = value) ▸ focus_safe
    | fail error =>
        rw [hfocus] at held
        exact held.elim
  · have waiting_safe := safe.waiting waiting member
    cases waiting with
    | body code ip activation => exact own waiting_safe.1.1 held
    | loop rest => exact goes waiting_safe held

/-! ## Symbols -/

/-- Symbols that one table with few and different names issued are equal and identical if their
names are equal, and not otherwise. -/
theorem Symbol.IssuedBy.same_iff {table : SymbolTable} {a b : Symbol} (ha : a.IssuedBy table)
    (hb : b.IssuedBy table) (few : table.size ≤ 2 ^ 32) (distinct : table.Distinct) :
    (a.eqv b = true ↔ a.name = b.name) ∧ (a.same b = true ↔ a.name = b.name) := by
  obtain ⟨table_a, i, entry_a, number_a⟩ := ha
  obtain ⟨table_b, j, entry_b, number_b⟩ := hb
  have inside {position : Nat} {name : String} (entry : table.names[position]? = some name) :
      position < 2 ^ 32 := Nat.lt_of_lt_of_le (Array.getElem?_eq_some_iff.mp entry).1 few
  have names : a.number = b.number ↔ a.name = b.name := by
    constructor
    · intro same
      have positions : i = j := by
        have := congrArg UInt32.toNat (number_a.symm.trans (same.trans number_b))
        rwa [UInt32.toNat_ofNat_of_lt' (inside entry_a),
          UInt32.toNat_ofNat_of_lt' (inside entry_b)] at this
      exact Option.some.inj (entry_a.symm.trans (positions ▸ entry_b))
    · intro same
      rw [← Array.getElem?_toList] at entry_a entry_b
      have positions : i = j := (List.getElem?_inj (List.getElem?_eq_some_iff.mp entry_a).1
        distinct).mp (entry_a.trans (same ▸ entry_b.symm))
      rw [number_a, number_b, positions]
  refine ⟨decide_eq_true_iff.trans names, ?_⟩
  simp [Symbol.same, table_a, table_b, names]

namespace Machine

variable {program : Program} {limits : Limits} {machine : Machine}

/-- A machine begins with plain values and the top-level object. -/
theorem start_holds {main : Code} {value : Value} (held : (start main .new).Holds value) :
    value.Plain ∨ value = World.main := by
  rcases held with held | held | ⟨waiting, member, -⟩
  · cases held with
    | element cell => simp [start, World.new, World.resetExecution, Heap.newFrame, Heap.newObject,
        Heap.empty] at cell
    | ivar cell member =>
        simp only [start, World.new, World.resetExecution, Heap.newFrame, Heap.newObject, Heap.empty,
          Array.mem_push] at cell
        obtain cell | rfl := cell
        · simp at cell
        · cases member
    | slot cell member =>
        simp only [start, World.new, World.resetExecution, Heap.newFrame, Heap.newObject, Heap.empty,
          Array.mem_push] at cell
        obtain cell | rfl := cell
        · simp at cell
        · rcases Frame.mem_new member with member | rfl
          · cases member
          · exact .inl .nil
    | self cell | block cell => simp [start, World.new, World.resetExecution, Heap.newFrame,
        Heap.newObject, Heap.empty] at cell
    | global member => cases member
    | constant member =>
        obtain rfl := List.mem_singleton.mp member
        exact .inl (.classRef _)
    | call member => simp [start, World.resetExecution] at member
  · cases held with
    | operand member => cases member
    | self => exact .inr rfl
    | block given => cases given
  · cases member

/-- All symbols that a machine holds were issued by the table that it has then. -/
theorem steps_issued (main : Code) (count : Nat) {symbol : Symbol}
    (held : ((step program limits)^[count] (start main .new)).Holds (.symbol symbol)) :
    symbol.IssuedBy ((step program limits)^[count] (start main .new)).world.symbols := by
  have begins : (start main .new).Knows fun value =>
      ∀ symbol, value = .symbol symbol → symbol.IssuedBy (start main .new).world.symbols := by
    refine knows_iff.mpr ⟨by rintro _ ⟨⟩ _ ⟨⟩, ?_⟩
    rintro _ held symbol rfl
    rcases start_holds held with plain | same
    · cases plain
    · cases same
  have knows := @steps_knows program limits _
    (fun table value => ∀ symbol, value = .symbol symbol → symbol.IssuedBy table)
    (fun table later value grows issued symbol same => (issued symbol same).mono grows)
    (by
      rintro heap table _ (⟨⟨⟩⟩ | _ | _ | _ | _ | _ | issued) symbol ⟨⟩
      exact issued) begins count
  exact (knows_iff.mp knows).2 _ held symbol rfl

/-- Names that are entered stay entered, each once. -/
theorem steps_grow (machine : Machine) (count : Nat) :
    machine.world.symbols.Grows ((step program limits)^[count] machine).world.symbols := by
  induction count with
  | zero => rfl
  | succ count ih =>
      rw [Function.iterate_succ_apply']
      have anything : ((step program limits)^[count] machine).Knows fun _ => True :=
        knows_iff.mpr ⟨fun _ _ => trivial, fun _ _ => trivial⟩
      exact ih.trans (step_knows anything).2

/-! ## Executing a literal -/

/-- The machine went on in the body that it was in, with one more operand. -/
def Pushed (machine next : Machine) (value : Value) : Prop :=
  ∃ code ip activation, machine.focus = .run code ip activation ∧
    next.focus = .run code (ip + 1) { activation with stack := value :: activation.stack }

/-- The operation is executed by performing it. -/
theorem step_executes {op : Op} (executes : machine.executes? limits = some op) :
    ∃ code ip activation, machine.focus = .run code ip activation ∧
      step program limits machine =
        match Exec.perform program op (activation, machine.world.count) with
        | .ok flow (activation, world) => follow code ip flow activation machine.waiting world
        | .error error (_, world) =>
          ⟨.fail (error.leaving (code.place ip)), machine.waiting, world.endCall⟩ := by
  obtain ⟨focus, waiting, world⟩ := machine
  unfold executes? at executes
  split at executes
  · rename_i code ip activation hfocus
    split at executes
    · rename_i within
      dsimp only at hfocus
      subst hfocus
      refine ⟨code, ip, activation, rfl, ?_⟩
      simp only [step, advance, executes]
      split
      · rename_i broken
        cases within.symm.trans broken
      · rfl
    · cases executes
  · cases executes

theorem step_pushString {constant : UInt32} {text : String}
    (executes : machine.executes? limits = some (.pushString constant))
    (pooled : program.constants.text? constant = some text) :
    machine.Pushed (step program limits machine) (.string (machine.world.heap.newString text).1) ∧
      (step program limits machine).world.heap = (machine.world.heap.newString text).2 := by
  obtain ⟨code, ip, activation, hfocus, hstep⟩ := @step_executes program limits machine _ executes
  have performed : Exec.perform program (.pushString constant) (activation, machine.world.count) =
      .ok .next
        ({ activation with
            stack := .string (machine.world.heap.newString text).1 :: activation.stack },
          { machine.world.count with heap := (machine.world.heap.newString text).2 }) := by
    simp only [Exec.perform, Exec.constantText, pooled]
    rfl
  rw [hstep, performed]
  exact ⟨⟨code, ip, activation, hfocus, rfl⟩, rfl⟩

theorem step_pushSymbol {constant : UInt32} {text : String}
    (executes : machine.executes? limits = some (.pushSymbol constant))
    (pooled : program.constants.text? constant = some text) :
    machine.Pushed (step program limits machine)
      (.symbol (machine.world.symbols.intern text).1) := by
  obtain ⟨code, ip, activation, hfocus, hstep⟩ := @step_executes program limits machine _ executes
  have performed : Exec.perform program (.pushSymbol constant) (activation, machine.world.count) =
      .ok .next
        ({ activation with
            stack := .symbol (machine.world.symbols.intern text).1 :: activation.stack },
          { machine.world.count with symbols := (machine.world.symbols.intern text).2 }) := by
    simp only [Exec.perform, Exec.constantText, pooled]
    rfl
  rw [hstep, performed]
  exact ⟨code, ip, activation, hfocus, rfl⟩

/-- A literal that is not in the pool pushes nothing. -/
theorem step_unpooled {op : Op} {constant : UInt32}
    (literal : op = .pushString constant ∨ op = .pushSymbol constant)
    (executes : machine.executes? limits = some op)
    (missing : program.constants.text? constant = none) :
    ∃ error, (step program limits machine).focus = .fail error := by
  obtain ⟨code, ip, activation, hfocus, hstep⟩ := @step_executes program limits machine _ executes
  have failed : Exec.perform program op (activation, machine.world.count) =
      .error (.badConstant constant) (activation, machine.world.count) := by
    rcases literal with rfl | rfl <;>
    · simp only [Exec.perform, Exec.constantText, missing]
      rfl
  rw [hstep, failed]
  exact ⟨_, rfl⟩

/-- What a step that executes a literal comes to. A string literal pushes a string with the text
of the pool, and nothing that the machine held leads to it; a symbol literal pushes a symbol, of
that name as long as the names are few. Without a text in the pool nothing is pushed. -/
structure Literal (program : Program) (limits : Limits) (machine : Machine) : Prop where
  string : ∀ constant text, machine.executes? limits = some (.pushString constant) →
    program.constants.text? constant = some text →
    ∃ cell, machine.Pushed (step program limits machine) (.string cell) ∧
      (step program limits machine).world.heap.string cell = text ∧
      ∀ value, machine.Holds value →
        ¬(step program limits machine).world.heap.Leads value (.string cell)
  symbol : ∀ constant text, machine.executes? limits = some (.pushSymbol constant) →
    program.constants.text? constant = some text →
    ∃ symbol, machine.Pushed (step program limits machine) (.symbol symbol) ∧
      (machine.world.symbols.size ≤ 2 ^ 32 → symbol.name = text)
  missing : ∀ op constant, op = .pushString constant ∨ op = .pushSymbol constant →
    machine.executes? limits = some op → program.constants.text? constant = none →
    ∃ error, (step program limits machine).focus = .fail error

theorem Safe.literal {reach : UInt32 → Nat} (safe : machine.Safe program reach) :
    machine.Literal program limits where
  string constant text executes pooled := by
    obtain ⟨pushed, heap⟩ := @step_pushString program limits machine _ _ executes pooled
    refine ⟨_, pushed, ?_, ?_⟩
    · rw [heap]
      simp [Heap.string, Heap.newString]
    · rw [heap]
      intro value held leads
      rcases Relation.ReflTransGen.cases_tail leads with same | ⟨last, -, refers⟩
      · exact Nat.lt_irrefl _ (safe.string_alive (same ▸ held))
      · exact safe.world.heap.not_refers_newString text last refers
  symbol constant text executes pooled :=
    ⟨_, step_pushSymbol executes pooled, fun few => SymbolTable.name_intern few text⟩
  missing op constant literal executes missing := step_unpooled literal executes missing

end Machine

/-- In every state of a run on a fresh machine in which the names are not more than the numbers of
32 bits, two symbols are equal, and identical, just if their names are; and whenever a literal is
executed it comes to a fresh string or to a symbol. -/
theorem Vm.literals_keep_identity {limits : Limits} {program : Program} {vm : Vm}
    (loaded : (Vm.new limits).load program = .ok vm) {main : Code}
    (script : program.main? = some main) (count : Nat) :
    let machine := (Machine.step vm.program vm.limits)^[count] (Machine.start main vm.world)
    (machine.world.symbols.size ≤ 2 ^ 32 →
      ∀ a b : Symbol, machine.Holds (.symbol a) → machine.Holds (.symbol b) →
        (Value.equals machine.world.heap (.symbol a) (.symbol b) = true ↔ a.name = b.name) ∧
        (Value.same (.symbol a) (.symbol b) = true ↔ a.name = b.name)) ∧
    machine.Literal vm.program vm.limits := by
  obtain ⟨verified, rfl⟩ := Vm.load_ok loaded
  have linked := Program.linked_of_verify verified
  have begins := @Machine.start_safe program (fun _ => 0) _ World.closed_new _ script rfl
  have safe := @Machine.steps_safe program _ limits _ linked begins count
  refine ⟨fun few a b ha hb => ?_, safe.literal⟩
  exact (Machine.steps_issued main count ha).same_iff (Machine.steps_issued main count hb) few
    ((Machine.steps_grow _ count).distinct .nil)

/-- A script that turns a string into a symbol and compares it with the symbol of that text. -/
def Program.spelled : Program where
  code := #[
    { name := "<main>", kind := .script, maxStack := 2
      ops := #[.pushString 0, .send 1 0 true none, .pushSymbol 2, .send 3 1 true none, .ret] }]
  constants := ⟨#[.string "a", .name "to_sym", .symbol "a", .name "equal?"]⟩

theorem Vm.spelled_symbols_same : ∃ main code ip activation a b,
    ((Machine.step Program.spelled {})^[4] (Machine.start main .new)).focus =
      .run code ip activation ∧
    activation.stack = [.symbol a, .symbol b] ∧
    Value.same (.symbol a) (.symbol b) = true := by
  have loaded : (Vm.new {}).load Program.spelled = .ok ⟨Program.spelled, {}, .new⟩ := rfl
  have script : Program.spelled.main? = some Program.spelled.code[0] := rfl
  obtain ⟨symbols, -⟩ := literals_keep_identity loaded script 4
  have focus : ((Machine.step Program.spelled {})^[4]
      (Machine.start Program.spelled.code[0] .new)).focus =
      .run Program.spelled.code[0] 3
        { stack := [.symbol ⟨0, 0, "a"⟩, .symbol ⟨0, 0, "a"⟩], frame := ⟨0⟩, self := World.main } := by
    decide +kernel
  have held : ((Machine.step Program.spelled {})^[4]
      (Machine.start Program.spelled.code[0] .new)).Holds (.symbol ⟨0, 0, "a"⟩) := by
    refine .inr (.inl ?_)
    rw [focus]
    exact Activation.Holds.operand (List.mem_cons_self ..)
  exact ⟨_, _, _, _, _, _, focus, rfl, (symbols (by decide +kernel) _ _ held held).2.mpr rfl⟩

end BlockScript
