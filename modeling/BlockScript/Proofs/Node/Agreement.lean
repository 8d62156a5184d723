import BlockScript.Proofs.Backend.Budget
import BlockScript.Proofs.Backend.Enclosed
import BlockScript.Proofs.Machine.Lockstep
import BlockScript.Proofs.Node.Drawn

/-!
# Both backends do the same with a tree

What is recorded for a program tree is laid out for it, and the immediate backend runs the tree in
the shadow of a machine that runs what was recorded. So both come to the same, whether it is a
value or an error.
-/

/-! ## A program tree as an artifact

The artifact of a program tree begins with a code object that is laid out for the tree, followed
by the operation that returns the value of the script.
-/

namespace BlockScript

/-- Nothing was recorded yet. -/
theorem Bench.tidy_new {config : Config} (tables : config.maxPoolEntries ≤ UInt32.size) (owner : Nat)
    (sharing : Bool) : (Bench.new config owner sharing).Tidy where
  tables := tables
  constants := Nat.zero_le _
  installed slot code found := by simp [Bench.new, Program.empty, Program.code?] at found
  recorded _ _ member := by cases member

namespace Recorder

variable {υ : Type} {config : Config} {owner : Nat} {client : υ}

/-- The script is opened in the first slot. -/
theorem ensures_startScript_opened (tables : config.maxPoolEntries ≤ UInt32.size) :
    Ensures (startScript : Work Recorder υ Unit) (Recorder.new config owner client)
      fun _ session => ∃ handle, (Bench.new config owner false).Opened session.bench 0 ∧
        session.bench.units.owner = handle.owner ∧
        session.bench.units.units = [⟨handle.id, .script, mainName, some ⟨0,
          (Bench.new config owner false).opening .script mainName 0 0 []⟩⟩] ∧
        session.bench.sharing = false ∧ session.backend = ⟨.opened handle, none⟩ := by
  have tidy := Bench.tidy_new tables owner false
  have opens : Ensures (Work.onBench (Bench.openUnit .script mainName 0 0 []) : Work Recorder υ UnitHandle)
      (Recorder.new config owner client) fun handle session =>
        (Bench.new config owner false).Opened session.bench 0 ∧
        session.bench.units.owner = handle.owner ∧
        session.bench.units.units = [⟨handle.id, .script, mainName, some ⟨0,
          (Bench.new config owner false).opening .script mainName 0 0 []⟩⟩] ∧
        session.bench.sharing = false ∧ session.backend = {} := by
    refine Work.ensures_onBench
      ((Bench.ends_openUnit_opened tidy .script mainName 0 0 []).ensures.mono ?_)
    rintro handle opened ⟨slot, opens, owner, units, sharing⟩
    obtain rfl : slot = 0 := UInt32.toNat.inj opens.slot
    exact ⟨opens, units ▸ owner, congrArg UnitStack.units units, sharing, rfl⟩
  refine ensures_checked (Ensures.get (Ensures.get (Ensures.ite (fun started => absurd rfl started)
    fun _ => opens.bind ?_)))
  rintro handle session ⟨opened, owner, units, sharing, backend⟩
  refine Ensures.modifies ⟨handle, opened, owner, units, sharing, ?_⟩
  rw [backend]

/-- The script is closed as any unit is. -/
theorem ensures_endScript_closes {session : Session Recorder υ} {handle : UnitHandle}
    (script : session.backend.script = .opened handle) {post : Bench → Prop}
    (closes : Ensures (Bench.closeUnit handle .script) session.bench fun _ bench => post bench) :
    Ensures (endScript : Work Recorder υ Unit) session fun _ session' => post session'.bench := by
  refine ensures_checked (Ensures.get ?_)
  have closing : Ensures (do
      setScript .ended
      let _ ← Work.onBench (Bench.closeUnit handle .script) : Work Recorder υ Unit) session
      fun _ session' => post session'.bench := by
    have closes : Ensures (Work.onBench (Bench.closeUnit handle .script) : Work Recorder υ UInt32)
        { session with backend := { session.backend with script := .ended } }
        fun _ session' => post session'.bench := Work.ensures_onBench closes
    exact closes.bind fun _ _ closed => Ensures.pure closed
  refine Ensures.ite (fun _ => Ensures.stop (Ensures.last fun _ _ => Ensures.throws)) fun _ =>
    Ensures.get ?_
  simp only [script]
  exact closing

end Recorder

section Files

open Recorder

variable {ε : Type} {config : Config} {owner : Nat} {client : Notes}

/-- The artifact holds the code of the script in its first slot, and has been verified if the
configuration asks for it. -/
theorem Action.files_of_script (checks : config.checkStack = true)
    (tables : config.maxPoolEntries ≤ UInt32.size) {action : Action ε} {count : Nat}
    {onExtra : ε → Work Recorder Notes Unit}
    (draws : Backend.recording.Draws 0 1 count action .script
      (action.run (Recorder.contract Notes) onExtra)) (room : count + 1 < 2 ^ 31)
    {session : Session Recorder Notes}
    (run : (Action.seq .startScript (.seq action .endScript)).run (Recorder.contract Notes) onExtra
      (Recorder.new config owner client) = .ok () session)
    {artifact : Program} (finished : Recorder.program session = .ok artifact) :
    (∃ code, artifact.code? 0 = some code ∧ code.ops.size = count + 1) ∧
      artifact.Files (.headOf .script mainName 0 0 []) (action.Lays artifact .script) 0 ∧
      (config.verifyUnits = true → artifact.verify = .ok ()) := by
  obtain ⟨-, -, rfl, verified⟩ := program_ok finished
  obtain ⟨_, session₁, begins, run⟩ := run_of_bind run
  obtain ⟨_, session₂, walks, ends⟩ := run_of_bind run
  obtain ⟨handle, opens, owned, units, sharing, backend⟩ := ensures_startScript_opened tables _ _ begins
  have tidy := Bench.tidy_new tables owner false
  obtain ⟨empty, stack⟩ := (Bench.new config owner false).opening_empty .script mainName 0 0 []
  have unpoisoned : session₁.backend.poisoned = none := by rw [backend]
  have records : Backend.recording.Records .script _ [] 0 _ session₁ :=
    ⟨⟨unpoisoned, opens.config ▸ checks, sharing⟩, opens.tidy tidy, units, rfl,
      UnitStack.site_script units⟩
  have depth : ((Bench.new config owner false).opening .script mainName 0 0 []).depth = 0 := by
    rw [Builder.depth, stack]
    rfl
  have label : ((Bench.new config owner false).opening .script mainName 0 0 []).label = 0 := by
    rw [Builder.label, empty]
    rfl
  obtain ⟨builder, ops, wrote, drawing⟩ :=
    (records.drawing.ends_part records draws id (Nat.zero_le _) (by omega)).ok walks
  have one := wrote.depth
  have length := wrote.label
  rw [show (Bench.new config owner false).config.checkStack = true from checks] at stack
  have sound : builder.Sound := (Builder.sound_new empty stack).grows wrote.grows
  have script : session₂.backend.script = .opened handle := by
    rw [drawing.page.backend, backend]
  have whole : builder.code.ops.toList = [] ++ ops := by
    rw [drawing.appends.ops, empty]
    rfl
  have head : builder.code.head = .headOf .script mainName 0 0 [] :=
    drawing.appends.head.trans (Bench.opening_head ..)
  have closes : Ends (Bench.closeUnit handle .script) session₂.bench
      ((Bench.new config owner false).ClosedAs session₂.bench.sharing 0 (.headOf .script mainName 0 0 [])
        action .script (builder.label + 1)) fun _ _ => True :=
    Bench.ends_closeUnit_filed tidy opens drawing.grew drawing.holds.2 drawing.page.units rfl
      (drawing.page.beside.owner.trans owned) rfl sound (by omega) (by omega) whole head
  have ended : Ensures (Bench.closeUnit handle .script) session₂.bench fun _ closed => ∃ installed,
      (Bench.new config owner false).ClosedAs session₂.bench.sharing 0 (.headOf .script mainName 0 0 [])
        action .script (builder.label + 1) installed closed :=
    closes.ensures.mono fun installed _ filed => ⟨installed, filed⟩
  obtain ⟨installed, filed⟩ := ensures_endScript_closes script ended _ _ ends
  obtain rfl := filed.own (drawing.page.beside.sharing.trans sharing)
  obtain ⟨code, found, size⟩ := filed.code
  have config := (filed.grew [.makeClosure 0] (Op.refer_single.mpr rfl)).config
  refine ⟨⟨code, found, by omega⟩, filed.files, fun verifies => verified ?_⟩
  rw [config]
  exact verifies

/-- The same for a program tree. -/
theorem Node.files_of_program {node : Node} (checks : config.checkStack = true)
    (tables : config.maxPoolEntries ≤ UInt32.size) (short : node.Short)
    (room : node.opCount + 1 < 2 ^ 31) (onExtra : ε → Work Recorder Notes Unit)
    {session : Session Recorder Notes}
    (run : node.program.run (Recorder.contract Notes) onExtra (Recorder.new config owner client) =
      .ok () session) {artifact : Program} (finished : Recorder.program session = .ok artifact) :
    (∃ code, artifact.code? 0 = some code ∧ code.ops.size = node.opCount + 1) ∧
      artifact.Files (.headOf .script mainName 0 0 [])
        ((node.action : Action ε).Lays artifact .script) 0 ∧
      (config.verifyUnits = true → artifact.verify = .ok ()) :=
  Action.files_of_script checks tables (drawn_action .recording onExtra node short .script) room run
    finished

end Files

end BlockScript

/-! ## Program trees in the shadow of their artifact

The immediate backend runs a tree at script level in the shadow of a machine that runs what is laid
out for it.
-/

namespace BlockScript

variable {ε υ : Type}

namespace Interpreter.Shadowed

variable {fuel : Nat}

/-! ### Operations in order -/

section Each

variable {onExtra : ε → Work Interpreter Notes Unit} {actions : List (Action ε)}

/-- The actions run in the shadow of what is laid out, and leave one value each. -/
def Each (fuel : Nat) (onExtra : ε → Work Interpreter Notes Unit) (actions : List (Action ε)) : Prop :=
  ∀ action ∈ actions, Shadowed fuel 0 1 action (action.run (Interpreter.contract Notes fuel) onExtra)

theorem all (each : Each fuel onExtra actions) : Shadowed fuel 0 actions.length (.all actions)
    ((Action.all actions).run (Interpreter.contract Notes fuel) onExtra) := by
  induction actions with
  | nil => exact skip
  | cons first rest ih =>
      have one := each first List.mem_cons_self
      have others := ih fun action member => each action (List.mem_cons_of_mem _ member)
      cases rest with
      | nil => exact one
      | cons second rest => exact (seq one others (Nat.zero_le _)).cast (Nat.add_comm ..)

theorem sequence (each : Each fuel onExtra actions) : Shadowed fuel 0 1 (Node.sequence actions)
    ((Node.sequence actions).run (Interpreter.contract Notes fuel) onExtra) := by
  induction actions with
  | nil => exact primitive .loadNil
  | cons first rest ih =>
      have one := each first List.mem_cons_self
      have others := ih fun action member => each action (List.mem_cons_of_mem _ member)
      cases rest with
      | nil => exact one
      | cons second rest =>
          exact seq (seq one (primitive .consume) (Nat.le_refl 1)) others (Nat.zero_le _)

theorem aggregate (each : Each fuel onExtra actions) (short : actions.length < 2 ^ 31) :
    Shadowed fuel 0 1 (Node.aggregate actions)
      ((Node.aggregate actions).run (Interpreter.contract Notes fuel) onExtra) := by
  have parts (index : Nat) (inside : index < actions.length) :
      Shadowed fuel 0 1 (actions.toArray.getD index .skip)
        ((actions.toArray.getD index .skip).run (Interpreter.contract Notes fuel) onExtra) := by
    have one := each _ (List.getElem_mem inside)
    simpa [inside] using one
  exact array parts short

/-- A call after its receiver, if it has one, and its arguments. -/
theorem called {receiver args call : Action ε} {hasReceiver : Bool} {argc : Nat}
    {first next last : Work Interpreter Notes Unit}
    (h₁ : Shadowed fuel 0 hasReceiver.toNat receiver first) (h₂ : Shadowed fuel 0 argc args next)
    (h₃ : Shadowed fuel (Invocation.of hasReceiver argc).consumed 1 call last) :
    Shadowed fuel 0 1 (.seq receiver (.seq args call)) (do
      first
      next
      last) := by
  have taken := Invocation.consumed_of hasReceiver argc
  have operands := seq h₁ h₂ (Nat.zero_le _)
  have left : (Invocation.of hasReceiver argc).consumed = hasReceiver.toNat - 0 + argc := by omega
  have whole := seq operands h₃ (Nat.le_of_eq left)
  rw [left, Nat.sub_self, bind_assoc] at whole
  exact whole.relay fun program ops => Action.lays_seq_assoc program receiver args call .script ops

end Each

end Interpreter.Shadowed

/-! ### Trees -/

namespace Node

open Interpreter (Shadowed)

variable (fuel : Nat) (onExtra : ε → Work Interpreter Notes Unit)

mutual

/-- A tree runs in the shadow of what is laid out for it. -/
theorem shadowed_action : ∀ node : Node, node.Short → Shadowed fuel 0 1 (node.action : Action ε)
    (node.action.run (Interpreter.contract Notes fuel) onExtra)
  | nil, _ => .primitive .loadNil
  | bool false, _ => .primitive .loadFalse
  | bool true, _ => .primitive .loadTrue
  | selfRef, _ => .primitive .retrieveSelf
  | fixnum value, _ => .primitive (.fixnum value)
  | bignum value, _ => .primitive (.bignum value)
  | string text, _ => .primitive (.string text)
  | symbol name, _ => .primitive (.symbol name)
  | getLocal index depth, _ => .primitive (.retrieveLocal index depth)
  | getIvar name, _ => .primitive (.retrieveIvar name)
  | getGlobal name, _ => .primitive (.retrieveGlobal name)
  | getConstant name, _ => .primitive (.retrieveConstant name)
  | array items, ⟨few, short⟩ =>
    .aggregate (shadowed_actions items short) (length_actions items ▸ few)
  | toArray value, short =>
    .seq (shadowed_action value short) (.primitive .toArray) (Nat.le_refl 1)
  | not value, short => .seq (shadowed_action value short) (.primitive .negate) (Nat.le_refl 1)
  | setLocal index depth value, short =>
    .seq (shadowed_action value short) (.seq (.primitive (.assignLocal index depth))
      (.primitive (.retrieveLocal index depth)) (Nat.le_refl 0)) (Nat.le_refl 1)
  | setIvar name value, short =>
    .seq (shadowed_action value short) (.seq (.primitive (.assignIvar name))
      (.primitive (.retrieveIvar name)) (Nat.le_refl 0)) (Nat.le_refl 1)
  | setGlobal name value, short =>
    .seq (shadowed_action value short) (.seq (.primitive (.assignGlobal name))
      (.primitive (.retrieveGlobal name)) (Nat.le_refl 0)) (Nat.le_refl 1)
  | setConstant name value, short =>
    .seq (shadowed_action value short) (.seq (.primitive (.assignConstant name))
      (.primitive (.retrieveConstant name)) (Nat.le_refl 0)) (Nat.le_refl 1)
  | call receiver name args, ⟨few, short, shorts⟩ =>
    .called (shadowed_optional receiver short)
      (length_actions args ▸ .all (shadowed_actions args shorts)) (.call (argc_short few) name)
  | callBlock receiver name args _ _ body, ⟨few, short, shorts, room, bodyShort⟩ =>
    .called (shadowed_optional receiver short)
      (length_actions args ▸ .all (shadowed_actions args shorts))
      (.callBlock (argc_short few) name (drawn_action (.immediate fuel) onExtra body bodyShort _) room)
  | yield argument, short =>
    (Shadowed.seq (shadowed_optional argument short) (.primitive (.yield argument.isSome))
      (Nat.le_refl _)).cast (Nat.sub_self _ ▸ rfl)
  | ifElse condition onTrue onFalse, ⟨h, h₁, h₂⟩ =>
    .seq (shadowed_action condition h)
      (.branch (shadowed_action onTrue h₁) (shadowed_action onFalse h₂)) (Nat.le_refl 1)
  | and left right, ⟨h₁, h₂⟩ =>
    .seq (shadowed_action left h₁) (.logical .conjunction (shadowed_action right h₂)) (Nat.le_refl 1)
  | or left right, ⟨h₁, h₂⟩ =>
    .seq (shadowed_action left h₁) (.logical .disjunction (shadowed_action right h₂)) (Nat.le_refl 1)
  | loop condition body checkFirst, ⟨h₁, h₂⟩ =>
    .seq (.loop (shadowed_action condition h₁) (shadowed_action body h₂) checkFirst)
      (.primitive .loadNil) (Nat.le_refl 0)
  | seq statements, shorts => .sequence (shadowed_actions statements shorts)
  | method name arity localCount body, ⟨room, short⟩ =>
    .seq (.method name arity localCount (drawn_action (.immediate fuel) onExtra body short _) room)
      (.primitive .loadNil) (Nat.le_refl 0)
  | aliasMethod newName oldName, _ =>
    .seq (.primitive (.aliasMethod newName oldName)) (.primitive .loadNil) (Nat.le_refl 0)
  | lambda scope arity body, ⟨room, short⟩ =>
    .closure (drawn_action (.immediate fuel) onExtra body short _) room scope arity
  | line position body, short =>
    .seq (.primitive (.line position.line)) (shadowed_action body short) (Nat.le_refl 0)

theorem shadowed_optional : ∀ node : Option Node, OptionalShort node →
    Shadowed fuel 0 node.isSome.toNat (optional node : Action ε)
      ((optional node).run (Interpreter.contract Notes fuel) onExtra)
  | none, _ => .skip
  | some node, short => shadowed_action node short

theorem shadowed_actions : ∀ nodes : List Node, EachShort nodes →
    Shadowed.Each fuel onExtra (actions nodes)
  | [], _ => nofun
  | node :: rest, ⟨short, shorts⟩ => List.forall_mem_cons.mpr
    ⟨shadowed_action node short, shadowed_actions rest shorts⟩

end

end Node

end BlockScript

/-! ## The same outcome -/

namespace BlockScript

variable {ε : Type}

/-- A machine that is about to run a script in a world in which nothing has run. -/
def Machine.opening : Machine :=
  let (frame, heap) := World.new.heap.newFrame (.new 0 [] none)
  { focus := .enter 0 { frame, self := World.main }, world := { World.new with heap } }

theorem Machine.runMain_new {program : Program} {limits : Limits} {code : Code}
    (found : program.code? 0 = some code) (head : code.head = .headOf .script mainName 0 0 [])
    (fuel : Nat) : runMain program limits fuel World.new = run program limits fuel opening := by
  have locals : code.localCount = 0 := congrArg Code.localCount head
  have main : Bounded.ofRun (Run.code program 0) World.new = .ok code World.new := by
    simp only [Bounded.ofRun, Run.code, found]
    rfl
  change (Bounded.ofRun (Run.code program 0) >>= _) World.new = _
  rw [run_bind_ok main, locals]
  rfl

/-- A machine that runs a verified artifact in a world in which nothing has run. -/
theorem Vm.run_new {program : Program} {limits : Limits} {code : Code}
    (verified : program.verify = .ok ()) (found : program.code? 0 = some code)
    (head : code.head = .headOf .script mainName 0 0 []) (fuel : Nat) :
    (Vm.new limits).run fuel program = match Machine.run program limits fuel Machine.opening with
      | .ok value world => (.ok value, ⟨program, limits, world⟩)
      | .error halt world => (.error halt, ⟨program, limits, world⟩) := by
  rw [← Machine.runMain_new found head]
  simp only [Vm.run, Vm.load, verified]
  change Vm.runMain ⟨program, limits, World.new⟩ fuel = _
  simp only [Vm.runMain, Vm.apply]
  cases Machine.runMain program limits fuel World.new <;> rfl

/-- Worlds are as alike if the calls in progress and the operations counted are forgotten. -/
theorem World.Alike.resetExecution {twins : UInt32 → UInt32 → Prop} {world other : World}
    (h : world.Alike twins other) : world.resetExecution.Alike twins other.resetExecution :=
  h.relabel { world.labels with calls := #[], steps := 0 } { other.labels with calls := #[], steps := 0 }
    { h.labels with calls := ⟨[], nofun, rfl⟩, steps := Nat.le_refl 0 }

/-- The code of a unit begins with what is laid out for its body, and then returns. -/
theorem Code.holds_whole {code : Code} {ops : List Op} (whole : code.ops.toList = ops ++ [.ret]) :
    code.Holds 0 ops ∧ code.ops[0 + ops.length]? = some .ret := by
  refine ⟨⟨[.ret], whole.symm⟩, ?_⟩
  rw [Nat.zero_add, ← Array.getElem?_toList, whole]
  simp

namespace Interpreter

variable {υ : Type} {config : Config} {limits : Limits} {owner : Nat} {client : υ}

/-- A session whose script has just been opened. -/
def begun (config : Config) (limits : Limits) (owner : Nat) (client : υ) : Session Interpreter υ :=
  let session := Interpreter.new config limits owner client
  { session with
    bench := { session.bench with
      units := { session.bench.units with nextId := 2, units := [⟨1, .script, mainName, none⟩] } }
    backend := { session.backend with script := some ⟨owner, 1⟩ } }

/-- The script is opened unless no unit may be. -/
theorem ends_startScript : Ends (startScript : Work Interpreter υ Unit)
    (Interpreter.new config limits owner client)
    (fun _ session => session = begun config limits owner client) fun halt _ => halt.Limit := by
  have opens : Ends (Work.onBench Bench.openScript) (Interpreter.new config limits owner client)
      (fun handle session => handle = ⟨owner, 1⟩ ∧
        session = { Interpreter.new config limits owner client with
          bench := (begun config limits owner client).bench })
      fun halt _ => halt.Limit := by
    refine Work.ends_onBench ?_
    unfold Ends Bench.openScript
    simp only [UnitStack.open_eq]
    by_cases room : (Interpreter.new config limits owner client).bench.units.size +
        (Interpreter.new config limits owner client).bench.units.nesting + 1 ≤
        (Interpreter.new config limits owner client).bench.units.maxNesting
    · simp only [if_pos room]
      exact ⟨rfl, rfl⟩
    · simp only [if_neg room]
      exact ⟨_, _, rfl⟩
  refine Ends.get (Ends.ite (fun started => (Bool.false_ne_true started).elim) fun _ => opens.bind ?_)
  rintro _ _ ⟨rfl, rfl⟩
  exact Ends.modifies rfl

/-- The machine that has entered the artifact of a script is shadowed. -/
theorem shadow_begun {artifact : Program} {code : Code} (checks : config.checkStack = true)
    (tables : config.maxPoolEntries ≤ UInt32.size) (found : artifact.code? 0 = some code)
    (head : code.head = .headOf .script mainName 0 0 [])
    (quiet : Machine.opening.Quiet artifact limits) :
    Shadow ε artifact limits Machine.opening code 0 0 (begun config limits owner client) where
  reached := by
    have name : code.name = mainName := congrArg Code.name head
    have shallow : ¬limits.maxCallDepth ≤ Machine.opening.world.calls.size := by
      intro deep
      refine (quiet 1).2 ⟨.callDepth limits.maxCallDepth none, ?_, rfl⟩
      rw [Function.iterate_one]
      change (Machine.enter artifact limits 0 _ [] Machine.opening.world).focus = _
      rw [Machine.enter, if_pos deep]
      rfl
    refine ⟨1, Machine.opening.world.beginCall ⟨mainName, none⟩, Nat.zero_le _, ?_, ?_⟩
    · rw [Function.iterate_one]
      change Machine.enter artifact limits 0 _ [] Machine.opening.world = _
      simp only [Machine.enter, if_neg shallow, found, name]
      rfl
    · refine ⟨rfl, .nil, fun name => ?_, ⟨[⟨mainName, none⟩], by simp, rfl⟩, Nat.le_refl _⟩
      exact .none
  limits := rfl
  script := ⟨checks, rfl, ⟨owner, 1⟩, rfl, rfl, rfl⟩
  tidy := (Bench.tidy_new tables owner true).congr rfl rfl rfl

/-- The machine returns the topmost value. -/
theorem Shadow.returns {artifact : Program} {start : Machine} {code : Code} {ip least : Nat}
    {session : Session Interpreter υ} {value : Value} {rest : List Value}
    (quiet : start.Quiet artifact limits)
    (shadow : Shadow ε artifact limits start code ip least session)
    (last : code.ops[ip]? = some .ret) (stack : session.backend.top.stack = value :: rest) :
    ∃ count world, (Machine.step artifact limits)^[count] start = ⟨.give value, [], world⟩ ∧
      world.resetExecution.Alike (artifact.Twins ε session.bench.program)
        session.backend.world.resetExecution := by
  obtain ⟨count, world, -, reached, alike⟩ := shadow.reached
  have still := reached ▸ quiet.after count
  refine ⟨count + 1, world.count.endCall, ?_, alike.resetExecution⟩
  rw [Function.iterate_succ_apply', reached, still.step_ret last stack]

/-- A script that is the only open unit is closed, unless surplus values are refused. Its value is the
topmost one. -/
theorem ends_endScript_top {session : Session Interpreter υ} {handle : UnitHandle}
    {unit : OpenUnit (Option Recording)} (opened : session.backend.script = some handle)
    (owner : session.bench.units.owner = handle.owner) (units : session.bench.units.units = [unit])
    (id : unit.id = handle.id) (kind : unit.kind = .script)
    (settled : 1 < session.backend.top.stack.length → session.bench.config.checkStack = false)
    {failed : Halt CompileError → Session Interpreter υ → Prop} :
    Ends endScript session (fun _ session' =>
      session'.backend.result = some (session.backend.top.stack.head?.getD .nil) ∧
      session'.backend.world = session.backend.world ∧
      session'.bench.program = session.bench.program) failed := by
  have alone : ¬1 < session.bench.units.size := by simp [UnitStack.size, units]
  refine Ends.get (Ends.ite (fun more => absurd more alone) fun _ => Ends.get ?_)
  simp only [opened]
  refine Ends.changes ?_
  rw [← kind, UnitStack.close_eq units owner id]
  refine Ends.changes (Ends.get (Ends.ite (fun refused => ?_) fun _ => ?_))
  · obtain ⟨more, checks⟩ := Bool.and_eq_true_iff.mp refused
    cases checks.symm.trans (settled (of_decide_eq_true more))
  · exact Ends.changes (Ends.modifies ⟨rfl, rfl, rfl⟩)

/-- The value of a script that has ended is the one that it has left. -/
theorem ends_endScript_result {session : Session Interpreter υ} {value : Value} (script : Script session)
    (stack : session.backend.top.stack = [value])
    {failed : Halt CompileError → Session Interpreter υ → Prop} :
    Ends endScript session (fun _ session' => session'.backend.result = some value ∧
      session'.backend.world = session.backend.world ∧
      session'.bench.program = session.bench.program) failed := by
  obtain ⟨handle, opened, owner, units⟩ := script.opened
  have single (more : 1 < session.backend.top.stack.length) :
      session.bench.config.checkStack = false := by
    simp [stack] at more
  refine (ends_endScript_top opened owner units rfl rfl single).weaken ?_
  rintro _ session' ⟨result, rest⟩
  rw [stack] at result
  exact ⟨result, rest⟩

end Interpreter

namespace Node

open Interpreter

/-- A session has come to the same end as a machine. Values are the same, and so are the worlds but for
the positions of code, which hold what was recorded for the same body. A constant without a value is
reported in its own way. -/
inductive Ended (ε : Type) (artifact : Program) :
    Machine → EStateM.Result (Halt CompileError) (Session Interpreter Notes) Unit → Prop where
  | finished {value : Value} {world : World} {session : Session Interpreter Notes}
      (result : session.backend.result = some value)
      (alike : world.resetExecution.Alike (artifact.Twins ε session.bench.program)
        session.backend.world.resetExecution) :
      Ended ε artifact ⟨.give value, [], world⟩ (.ok () session)
  | failed {thrown : RuntimeError} {world : World} {error : CompileError}
      {session : Session Interpreter Notes} (tells : error.Tells thrown)
      (output : world.output = session.backend.world.output) :
      Ended ε artifact ⟨.fail thrown, [], world⟩ (.error (.failure error) session)

namespace Ended

variable {artifact : Program} {machine : Machine}
  {result : EStateM.Result (Halt CompileError) (Session Interpreter Notes) Unit}

theorem done (ended : Ended ε artifact machine result) : machine.Done := by
  cases ended with
  | finished => exact ⟨rfl, .inl ⟨_, rfl⟩⟩
  | failed => exact ⟨rfl, .inr ⟨_, rfl⟩⟩

/-- The budget has sufficed. -/
theorem sufficed (ended : Ended ε artifact machine result) (session : Session Interpreter Notes) :
    result ≠ .error .outOfFuel session := by
  rintro rfl
  cases ended

end Ended

section Program

variable {config : Config} {limits : Limits} {owner : Nat} {node : Node} {artifact : Program}

/-- The immediate backend runs a whole program in the shadow of a machine that runs its artifact,
and the value of the script is the result of the machine. -/
theorem shadows_program (checks : config.checkStack = true)
    (tables : config.maxPoolEntries ≤ UInt32.size) (short : node.Short)
    (size : ∀ code, artifact.code? 0 = some code → code.ops.size < 2 ^ 31)
    (files : artifact.Files (.headOf .script mainName 0 0 [])
      ((node.action : Action ε).Lays artifact .script) 0)
    (quiet : Machine.opening.Quiet artifact limits) (onExtra : ε → Work Interpreter Notes Unit)
    (client : Notes) (fuel : Nat) :
    Ends (node.program.run (Interpreter.contract Notes fuel) onExtra)
      (Interpreter.new config limits owner client)
      (fun _ session => ∃ count,
        Ended ε artifact ((Machine.step artifact limits)^[count] Machine.opening) (.ok () session))
      (Echoes artifact limits Machine.opening fuel) := by
  obtain ⟨code, ops, found, head, lays, whole⟩ := files
  obtain ⟨holds, last⟩ := Code.holds_whole whole
  have begins : Ends (startScript : Work Interpreter Notes Unit)
      (Interpreter.new config limits owner client)
      (fun _ session => session = begun config limits owner client)
      (Echoes artifact limits Machine.opening fuel) :=
    ends_startScript.mono (fun _ _ => id) fun _ _ => .inl
  refine begins.bind ?_
  rintro _ _ rfl
  have shadow : Shadow ε artifact limits Machine.opening code 0 0 (begun config limits owner client) :=
    shadow_begun checks tables found head quiet
  refine ((shadowed_action fuel onExtra node short).ends quiet (size code found) holds lays shadow
    (Nat.zero_le _)).bind ?_
  rintro _ session ⟨shadow', scene⟩
  obtain ⟨values, one, stack⟩ := scene.stack
  obtain ⟨value, rfl⟩ := List.length_eq_one_iff.mp one
  refine (ends_endScript_result shadow'.script stack).weaken ?_
  rintro _ ended ⟨result, world', program⟩
  obtain ⟨count, world, reached, alike⟩ := shadow'.returns quiet last stack
  refine ⟨count, ?_⟩
  rw [reached]
  refine .finished result ?_
  rw [world', program]
  exact alike

end Program

/-! ## Runs of any length -/

/-- What running an artifact and issuing its tree come to, within budgets that are given to both.
Either both end, in the same way with every budget that suffices, or neither does. -/
inductive Agree (artifact : Program) (run : Nat → Except (Halt RuntimeError) Value × Vm)
    (issue : Nat → EStateM.Result (Halt CompileError) (Session Interpreter Notes) Unit) : Prop where
  /-- Both finish with the same value after the same output, in worlds that are the same but for the
  positions of code. -/
  | finish (least : Nat) (value : Value) (vm : Vm) (session : Session Interpreter Notes)
      (runs : ∀ fuel ≥ least, run fuel = (.ok value, vm))
      (issues : ∀ fuel ≥ least, issue fuel = .ok () session)
      (result : session.backend.result = some value)
      (output : session.backend.world.output = vm.world.output)
      (alike : vm.world.resetExecution.Alike (artifact.Twins Empty session.bench.program)
        session.backend.world.resetExecution)
  /-- Both fail with the same error after the same output, but for constants without a value. -/
  | fail (least : Nat) (thrown : RuntimeError) (vm : Vm) (error : CompileError)
      (session : Session Interpreter Notes)
      (runs : ∀ fuel ≥ least, run fuel = (.error (.failure thrown), vm))
      (issues : ∀ fuel ≥ least, issue fuel = .error (.failure error) session)
      (tells : error.Tells thrown)
      (output : session.backend.world.output = vm.world.output)
  | diverge (runs : ∀ fuel, (run fuel).1 = .error .outOfFuel)
      (issues : ∀ fuel, ∃ session, issue fuel = .error .outOfFuel session)

/-- If the tree comes to the end of the machine wherever it ends, and runs on as long as the machine,
then the two agree. -/
theorem agree_of_ended {artifact : Program} {limits : Limits} {code : Code}
    (verified : artifact.verify = .ok ()) (found : artifact.code? 0 = some code)
    (head : code.head = .headOf .script mainName 0 0 [])
    {issue : Nat → EStateM.Result (Halt CompileError) (Session Interpreter Notes) Unit}
    (steady : ∀ {fuel fuel' : Nat}, fuel ≤ fuel' →
      (∃ session, issue fuel = .error .outOfFuel session) ∨ issue fuel' = issue fuel)
    (each : ∀ fuel, (∃ count, Ended Empty artifact
        ((Machine.step artifact limits)^[count] Machine.opening) (issue fuel)) ∨
      ∃ session, issue fuel = .error .outOfFuel session ∧
        ¬((Machine.step artifact limits)^[fuel] Machine.opening).Done) :
    Agree artifact (fun fuel => (Vm.new limits).run fuel artifact) issue := by
  simp only [Vm.run_new verified found head]
  by_cases ends : ∃ least, ((Machine.step artifact limits)^[least] Machine.opening).Done
  · obtain ⟨least, done⟩ := ends
    have ended : Ended Empty artifact ((Machine.step artifact limits)^[least] Machine.opening)
        (issue least) := by
      obtain ⟨count, ended⟩ | ⟨session, -, busy⟩ := each least
      · exact done.unique ended.done ▸ ended
      · exact absurd done busy
    have issues (fuel : Nat) (enough : fuel ≥ least) : issue fuel = issue least :=
      (steady enough).resolve_left fun ⟨session, out⟩ => ended.sufficed session out
    have runs (fuel : Nat) (enough : fuel ≥ least) := done.run enough
    generalize (Machine.step artifact limits)^[least] Machine.opening = machine at ended runs
    generalize issue least = issued at ended issues
    cases ended with
    | @finished value world session result alike =>
        exact .finish least value ⟨artifact, limits, world⟩ session
          (fun fuel enough => by rw [runs fuel enough]; rfl) issues result alike.output alike
    | @failed thrown world error session tells output =>
        exact .fail least thrown ⟨artifact, limits, world⟩ error session
          (fun fuel enough => by rw [runs fuel enough]; rfl) issues tells output.symm
  · refine .diverge (fun fuel => ?_) fun fuel => ?_
    · rw [Machine.run_busy fun done => ends ⟨fuel, done⟩]
    · obtain ⟨count, ended⟩ | ⟨session, out, -⟩ := each fuel
      · exact absurd ⟨count, ended.done⟩ ends
      · exact ⟨session, out⟩

variable {config config' : Config} {limits : Limits} {owner owner' : Nat} {node : Node}

/-- Running the artifact of a tree and issuing the tree to the immediate backend come to the same,
if neither runs into a limit and the machine never shows a block. -/
theorem backends_agree (checks : config.checkStack = true) (verifies : config.verifyUnits = true)
    (tables : config.maxPoolEntries ≤ UInt32.size) (short : node.Short)
    (room : node.opCount + 1 < 2 ^ 31) {session : Session Recorder Notes}
    (compiled : (node.program : Action Empty).run (Recorder.contract Notes) Empty.elim
      (Recorder.new config owner {}) = .ok () session)
    {artifact : Program} (finished : Recorder.program session = .ok artifact)
    (quiet : Machine.opening.Quiet artifact limits)
    (checks' : config'.checkStack = true) (tables' : config'.maxPoolEntries ≤ UInt32.size)
    (within : ∀ fuel halt broken, (node.program : Action Empty).run (Interpreter.contract Notes fuel)
      Empty.elim (Interpreter.new config' limits owner' {}) = .error halt broken → ¬halt.Limit) :
    Agree artifact (fun fuel => (Vm.new limits).run fuel artifact) fun fuel =>
      (node.program : Action Empty).run (Interpreter.contract Notes fuel) Empty.elim
        (Interpreter.new config' limits owner' {}) := by
  obtain ⟨⟨code, found, size⟩, files, verified⟩ :=
    files_of_program checks tables short room Empty.elim compiled finished
  have bounded : ∀ code, artifact.code? 0 = some code → code.ops.size < 2 ^ 31 := by
    intro code' found'
    obtain rfl := Option.some.inj (found.symm.trans found')
    omega
  have head : code.head = .headOf .script mainName 0 0 [] := by
    obtain ⟨code', -, found', head, -⟩ := files
    exact Option.some.inj (found.symm.trans found') ▸ head
  refine agree_of_ended (verified verifies) found head
    (fun larger => Action.run_widens larger _ _ _) fun fuel => ?_
  have shadows : Ends ((node.program : Action Empty).run (Interpreter.contract Notes fuel) Empty.elim)
      (Interpreter.new config' limits owner' {}) _ _ :=
    shadows_program checks' tables' short bounded files quiet Empty.elim {} fuel
  cases run : (node.program : Action Empty).run (Interpreter.contract Notes fuel) Empty.elim
    (Interpreter.new config' limits owner' {}) with
  | ok _ session => exact .inl (shadows.ok run)
  | error halt session =>
      have echoes := (shadows.error run).resolve_left (within fuel halt session run)
      cases halt with
      | outOfFuel => exact .inr ⟨session, rfl, echoes⟩
      | failure error =>
          obtain ⟨count, thrown, world, reached, tells, output⟩ := echoes
          exact .inl ⟨count, reached ▸ .failed tells output⟩

/-- A loop that prints, a method, and a call of it with a block that prints. -/
def telling : Node := seq [
  setGlobal "n" (int 0),
  loop ((getGlobal "n").binary "<" (int 2))
    (seq [function "print" [getGlobal "n"], setGlobal "n" ((getGlobal "n").binary "+" (int 1))]) true,
  method "twice" 0 0 (seq [yield none, yield none]),
  callBlock none "twice" [] (.ofBlock []) 0 (function "print" [string "x"]),
  array [getGlobal "n", lambda (.ofBlock []) 0 nil]]

theorem telling_agrees : ∃ session artifact,
    (telling.program : Action Empty).run (Recorder.contract Notes) Empty.elim
      (Recorder.new .strict 0 {}) = .ok () session ∧
    Recorder.program session = .ok artifact ∧
    Agree artifact (fun fuel => (Vm.new {}).run fuel artifact) fun fuel =>
      (telling.program : Action Empty).run (Interpreter.contract Notes fuel) Empty.elim
        (Interpreter.new .strict {} 0 {}) := by
  have records : (Recorder.recorded? ((telling.program : Action Empty).run (Recorder.contract Notes)
      Empty.elim) (Recorder.new .strict 0 {})).map (fun artifact =>
        decide (Machine.Calm artifact {} 100 Machine.opening)) = some true := by decide +kernel
  have issues : (((telling.program : Action Empty).run (Interpreter.contract Notes 30)
      Empty.elim).session? (Interpreter.new .strict {} 0 {})).isSome = true := by decide +kernel
  have short : telling.Short := by
    simp [telling, int, binary, send, function, Short, EachShort, OptionalShort, opCount, opCounts,
      optionalCount, sequenceCount]
  have room : telling.opCount + 1 < 2 ^ 31 := by decide
  generalize telling = node at records issues short room ⊢
  obtain ⟨artifact, recorded, calm⟩ := Option.map_eq_some_iff.mp records
  obtain ⟨value, session, compiled, finished⟩ := Recorder.run_of_recorded? recorded
  have calm := of_decide_eq_true calm
  refine ⟨session, artifact, compiled, finished, ?_⟩
  refine backends_agree rfl rfl (by decide) short room compiled finished calm.quiet rfl
    (by decide) fun fuel halt broken breaks limit => ?_
  obtain ⟨ended, ends⟩ := Option.isSome_iff_exists.mp issues
  obtain ⟨value, issued⟩ := Work.run_of_session? ends
  obtain ⟨out, stopped⟩ | ended := Action.run_finishes issued fuel
  · cases breaks.symm.trans stopped
    obtain ⟨_, _, ⟨⟩⟩ := limit
  · cases breaks.symm.trans ended

end Node

end BlockScript
