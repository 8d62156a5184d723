import BlockScript.Proofs.Backend.Lenient
import BlockScript.Proofs.Node.Agreement

/-!
# Operations in a line that find their operands

Code without branches and loops takes and leaves numbers of values that can be counted along the
way. If it never takes a value from an empty stack, then it does the same whether stacks are checked
or not, once every body in it goes on until it has one value. A unit is closed with one value anyway:
surplus values are dropped from the top of its stack, and nil is pushed if there is none. These
operations could have been issued at the end of the body, one by one, and a machine that runs them
comes to the value at the bottom of the stack.
-/

namespace BlockScript

variable {ε υ : Type}

/-! ## What is left when a unit is closed -/

/-- The operations that bring a unit with that many values to one value. -/
def Action.settle : (height : Nat) → Action ε
  | 0 => primitive .loadNil
  | 1 => skip
  | height + 2 => seq (primitive .consume) (settle (height + 1))

/-- How many they are. -/
def Action.settleCount : (height : Nat) → Nat
  | 0 => 1
  | height + 1 => height

/-! ### Recording -/

namespace Backend

variable {backend : Backend} {height : Nat} {onExtra : ε → Work backend.State Notes Unit}

theorem Draws.settle (site : Site) (height : Nat) :
    backend.Draws height 1 (Action.settleCount height) (.settle height : Action ε) site
      ((Action.settle height).run (backend.contract Notes) onExtra) := by
  induction height with
  | zero => exact .primitive .loadNil
  | succ height ih =>
      cases height with
      | zero => exact Draws.skip.frame (Nat.zero_le 1)
      | succ height =>
          have drops : backend.Draws (height + 2) (height + 1) 1 (.primitive .consume : Action ε) site
              ((backend.contract Notes).primitive .consume) :=
            (Draws.primitive .consume).frame (Nat.le_add_left 1 (height + 1))
          refine (drops.seq ih (Nat.le_refl _)).cast ?_ (Nat.add_comm 1 height)
          omega

/-- There is no nested code to be guarded. -/
theorem settle_guarded (height : Nat) :
    (Action.settle height).run (backend.guarded Notes) onExtra =
      (Action.settle height).run (backend.contract Notes) onExtra := by
  have same : (backend.guarded Notes).primitive = (backend.contract Notes).primitive := by
    cases backend <;> rfl
  induction height with
  | zero => exact congrFun same _
  | succ height ih =>
      cases height with
      | zero => rfl
      | succ height =>
          change ((backend.guarded Notes).primitive .consume >>= fun _ => _) = _
          rw [same, ih]
          rfl

namespace Stands

/-- An operation of the machine is recorded where it finds its operands. -/
theorem primitive_ok {session : Session backend.State υ}
    (stands : backend.Stands height session.checking) {recording : Recording}
    (found : session.bench.recording? = some recording) {p : Primitive} {op : Op}
    (form : p.form = .op op) {builder : Builder}
    (emits : recording.builder.emit p.operation op = .ok builder) :
    (backend.contract υ).primitive p session =
      .ok () { session with bench := session.bench.setBuilder builder } := by
  have appended : (do return ((), ← recording.builder.emit p.operation op)) =
      Except.ok ((), builder) := by
    rw [emits]
    rfl
  have records : (Work.onBench (Bench.emitPrimitive p) : Work backend.State υ Unit) session =
      .ok () { session with bench := session.bench.setBuilder builder } := by
    refine Work.onBench_ok ?_
    unfold Bench.emitPrimitive
    rw [form]
    exact Bench.build_eq found appended
  cases backend with
  | recording => exact Recorder.checked_ok stands.prepared.unpoisoned records
  | immediate fuel => exact (Interpreter.primitive_of_recording found fuel p).trans records

variable {session : Session backend.State Notes}

/-- The same happens where stacks are checked. -/
theorem settle_step (stands : backend.Stands height session.checking) {recording : Recording}
    (found : session.bench.recording? = some recording) {p : Primitive} {op : Op}
    (form : p.form = .op op) (enough : p.taken ≤ height) (room : height + p.count < 2 ^ 63)
    {builder : Builder} (emits : recording.builder.emit p.operation op = .ok builder) :
    ∃ session', session' = { session with bench := session.bench.setBuilder builder } ∧
      (backend.guarded Notes).primitive p session.checking = .ok () session'.checking ∧
      backend.Stands (height - p.taken + p.given) session'.checking ∧
      session'.bench.recording? = some ⟨recording.slot, builder⟩ := by
  have done := stands.primitive_ok found form emits
  have completes : backend.Completes p.taken p.given p.count ((backend.contract Notes).primitive p)
      ((backend.guarded Notes).primitive p) := .primitive p
  have again := completes.repeats stands enough room _ _ done
  obtain ⟨stands', -⟩ := stands.ensures_writes completes.writes enough room _ _ again
  exact ⟨_, rfl, again, stands', Bench.recording?_setBuilder found builder⟩

/-- A unit that can be closed is brought to one value, and is closed as the same code then. -/
theorem settled (stands : backend.Stands height session.checking)
    (onExtra : ε → Work backend.State Notes Unit) (room : height + 1 < 2 ^ 63)
    {recording : Recording} (found : session.bench.recording? = some recording) {code : Code}
    (finished : recording.builder.finish = .ok code) :
    ∃ builder, builder.depth = 1 ∧ builder.finish = .ok code ∧
      (Action.settle height).run (backend.guarded Notes) onExtra session.checking =
        .ok () { session with bench := session.bench.setBuilder builder }.checking := by
  have depth := stands.depth found
  induction height generalizing session recording with
  | zero =>
      obtain ⟨builder, emits, one, -, same⟩ := Builder.finish_empty depth finished "load_nil"
      obtain ⟨_, rfl, again, -⟩ :=
        stands.settle_step found (p := .loadNil) rfl (Nat.zero_le 0) room emits
      exact ⟨builder, one, same, again⟩
  | succ height ih =>
      cases height with
      | zero =>
          refine ⟨recording.builder, depth, finished, ?_⟩
          rw [Bench.setBuilder_same found]
          rfl
      | succ height =>
          obtain ⟨builder, emits, less, -, same⟩ :=
            Builder.finish_surplus depth finished "consume_current_value"
          obtain ⟨session', left, again, stands', found'⟩ := stands.settle_step found
            (p := .consume) rfl (Nat.le_add_left 1 _) room emits
          obtain ⟨builder', one, same', settles⟩ := ih stands' (by omega) found' same less
          refine ⟨builder', one, same', (run_bind_ok again).trans (settles.trans ?_)⟩
          rw [left, Bench.setBuilder_setBuilder]

/-- It is closed as if it had been brought to one value first. -/
theorem repeats_closeUnit (stands : backend.Stands height session.checking)
    (room : height + 1 < 2 ^ 63) (handle : UnitHandle) (kind : UnitKind) :
    Repeats Session.checking (Work.onBench (Bench.closeUnit handle kind)) (do
      (Action.settle height).run (backend.guarded Notes) onExtra
      Work.onBench (Bench.closeUnit handle kind)) session := by
  intro installed session' run
  obtain ⟨recording, found, -⟩ := stands.found
  obtain ⟨bench, closes, rfl⟩ := Work.ensures_runs (fun _ _ run => run) _ _ run
  obtain ⟨_, _, code, -, -, -, -, -, finished, -⟩ := Bench.closeUnit_ok found closes
  obtain ⟨builder, one, same, settles⟩ := stands.settled onExtra room found finished
  exact (run_bind_ok settles).trans
    (Work.onBench_ok (Bench.repeats_closeUnit found finished same one closes))

end Stands

/-- A body that goes on until it has one value completes one that is closed with any number of
values. -/
theorem Completes.finishes {left count : Nat} {work work' : Work backend.State Notes Unit}
    (h : backend.Completes 0 left count work work')
    (short : count + Action.settleCount left + 1 < 2 ^ 31) :
    backend.Finishes work (do
      work'
      (Action.settle left).run (backend.guarded Notes) onExtra) where
  fits := by
    have settles : backend.Writes left 1 (Action.settleCount left)
        ((Action.settle left).run (backend.contract Notes) onExtra) := (Draws.settle .script left).writes
    rw [settle_guarded]
    exact ⟨_, short, (h.writes.seq settles (Nat.le_refl _)).cast (by omega) rfl⟩
  closes {session} stands handle kind := by
    have counts := h.writes.counts
    rw [bind_assoc]
    refine (h.repeats stands (Nat.zero_le _) (by omega)).bind fun _ session₁ _ again => ?_
    obtain ⟨stands₁, -⟩ := stands.ensures_writes h.writes (Nat.zero_le _) (by omega) _ _ again
    rw [Nat.sub_zero, Nat.zero_add] at stands₁
    exact stands₁.repeats_closeUnit (by omega) handle kind

end Backend

/-! ### Running -/

namespace Interpreter.Shadow

variable {artifact : Program} {limits : Limits} {start : Machine} {code : Code} {ip least : Nat}
  {session : Session Interpreter υ} (quiet : start.Quiet artifact limits)

include quiet

/-- The machine pushes nil. -/
theorem step_nil (shadow : Shadow ε artifact limits start code ip least session)
    (here : code.ops[ip]? = some .pushNil) :
    Shadow ε artifact limits start code (ip + 1) (least + 1)
      (withStack session (.nil :: session.backend.top.stack)) := by
  refine shadow.moves quiet fun world still => ⟨0, world.count, ?_, .counted⟩
  rw [Function.iterate_one, still.step_perform here]
  rfl

/-- The machine drops what is on top until there is one value, which was at the bottom. -/
theorem settle {height : Nat} {ops : List Op}
    (shadow : Shadow ε artifact limits start code ip least session)
    (holds : code.Holds ip ops) (lays : (Action.settle height : Action ε).Lays artifact .script ops)
    (length : session.backend.top.stack.length = height) :
    Shadow ε artifact limits start code (ip + ops.length) least
      (withStack session [session.backend.top.stack.getLast?.getD .nil]) := by
  induction height generalizing ip least ops session with
  | zero =>
      obtain rfl : ops = [.pushNil] := lays
      have empty := List.length_eq_zero_iff.mp length
      have pushed := step_nil quiet shadow holds.head
      rw [empty] at pushed ⊢
      exact pushed.mono (Nat.le_succ least)
  | succ height ih =>
      cases stack : session.backend.top.stack with
      | nil => simp [stack] at length
      | cons value rest =>
          cases height with
          | zero =>
              obtain rfl : ops = [] := lays
              obtain rfl : rest = [] := by simpa [stack] using length
              have same : withStack session [value] = session := by
                rw [← stack]
                rfl
              exact same.symm ▸ shadow
          | succ height =>
              obtain ⟨_, rest', rfl, lays, rfl⟩ : ∃ ops₁ ops₂, ops₁ = [Op.pop] ∧
                (Action.settle (height + 1) : Action ε).Lays artifact .script ops₂ ∧
                ops = ops₁ ++ ops₂ := lays
              obtain ⟨next, rest, rfl⟩ := List.exists_cons_of_length_eq_add_one
                (show rest.length = height + 1 by simpa [stack] using length)
              have dropped := step_pop quiet shadow holds.left.head stack
              have settled := ih (dropped.mono (Nat.le_succ least)) holds.right lays
                (by simpa [stack, withStack] using length)
              rw [List.getLast?_cons_cons, List.length_append, ← Nat.add_assoc]
              exact settled

end Interpreter.Shadow

/-! ## Completing what finds its operands -/

namespace Action

/-- Operations in a line that find their operands, by the numbers of values before and after them
and the number of operations that are recorded for them. The elements of an aggregate leave one
value each. A body begins with no value and leaves any number of them, and its code is short enough
for the jumps in it. -/
inductive Supplied : (before after count : Nat) → Action ε → Prop where
  | skip {height : Nat} : Supplied height height 0 skip
  | seq {before middle after count count' : Nat} {first next : Action ε}
      (h₁ : Supplied before middle count first) (h₂ : Supplied middle after count' next) :
      Supplied before after (count + count') (seq first next)
  | primitive {height : Nat} {p : Primitive} (enough : p.taken ≤ height) :
      Supplied height (height - p.taken + p.given) p.count (primitive p)
  | call {height : Nat} {name : String} {shape : Invocation} (few : shape.argc < 2 ^ 31)
      (enough : shape.consumed ≤ height) :
      Supplied height (height - shape.consumed + 1) 1 (call name shape)
  | callBlock {height left count : Nat} {name : String} {shape : Invocation} {scope : StaticScope}
      {arity : Nat} {body : Action ε} (few : shape.argc < 2 ^ 31) (enough : shape.consumed ≤ height)
      (h : Supplied 0 left count body) (short : count + settleCount left + 1 < 2 ^ 31) :
      Supplied height (height - shape.consumed + 1) 1 (callBlock name shape scope arity body)
  | array {height total : Nat} {counts : Nat → Nat} {element : Nat → Action ε}
      (few : total < 2 ^ 31) (h : ∀ index < total, Supplied 0 1 (counts index) (element index)) :
      Supplied height (height + 1) (((List.range total).map counts).sum + 1) (array total element)
  | closure {height left count : Nat} {scope : StaticScope} {arity : Nat} {body : Action ε}
      (h : Supplied 0 left count body) (short : count + settleCount left + 1 < 2 ^ 31) :
      Supplied height (height + 1) 1 (closure scope arity body)
  | method {height left count : Nat} {name : String} {arity localCount : Nat} {body : Action ε}
      (h : Supplied 0 left count body) (short : count + settleCount left + 1 < 2 ^ 31) :
      Supplied height height 1 (method name arity localCount body)

/-- The twin does with checks what the action does without them, wherever it is recorded and
wherever it is executed, and it is recorded as it is laid out. -/
structure Completion (before after count : Nat) (action twin : Action ε) : Prop where
  straight : twin.Straight
  draws (backend : Backend) (onExtra : ε → Work backend.State Notes Unit) (site : Site) :
    backend.Draws before after count twin site (twin.run (backend.contract Notes) onExtra)
  records (backend : Backend) (onExtra : ε → Work backend.State Notes Unit) :
    backend.Completes before after count (action.run (backend.contract Notes) onExtra)
      (twin.run (backend.guarded Notes) onExtra)
  shadowed (fuel : Nat) (onExtra : ε → Work Interpreter Notes Unit) :
    Interpreter.Shadowed fuel before after twin (twin.run (Interpreter.contract Notes fuel) onExtra)
  executes (fuel : Nat) (onExtra : ε → Work Interpreter Notes Unit) :
    Interpreter.Completes before after (action.run (Interpreter.contract Notes fuel) onExtra)
      (twin.run (Interpreter.contract Notes fuel) onExtra)

theorem straight_settle (height : Nat) : (settle height : Action ε).Straight := by
  induction height with
  | zero => trivial
  | succ height ih =>
      cases height with
      | zero => trivial
      | succ height => exact ⟨trivial, ih⟩

namespace Completion

variable {before middle after count count' height left : Nat} {action twin first second first' second' body : Action ε}

theorem frame (h : Completion before after count action twin) {whole : Nat} (enough : before ≤ whole) :
    Completion whole (whole - before + after) count action twin where
  straight := h.straight
  draws backend onExtra site := (h.draws backend onExtra site).frame enough
  records backend onExtra := (h.records backend onExtra).frame enough
  shadowed fuel onExtra := (h.shadowed fuel onExtra).frame enough
  executes fuel onExtra := (h.executes fuel onExtra).frame enough

theorem skip : Completion 0 0 0 (.skip : Action ε) .skip where
  straight := trivial
  draws _ _ _ := .skip
  records _ _ := .skip
  shadowed _ _ := .skip
  executes _ _ := .pure ()

theorem seq (h₁ : Completion before middle count first first')
    (h₂ : Completion middle after count' second second') :
    Completion before after (count + count') (.seq first second) (.seq first' second') where
  straight := ⟨h₁.straight, h₂.straight⟩
  draws backend onExtra site :=
    ((h₁.draws backend onExtra site).seq (h₂.draws backend onExtra site) (Nat.le_refl _)).cast
      (by omega) rfl
  records backend onExtra :=
    ((h₁.records backend onExtra).seq (h₂.records backend onExtra) (Nat.le_refl _)).cast (by omega) rfl
  shadowed fuel onExtra :=
    ((h₁.shadowed fuel onExtra).seq (h₂.shadowed fuel onExtra) (Nat.le_refl _)).cast (by omega)
  executes fuel onExtra :=
    ((h₁.executes fuel onExtra).bind fun _ => h₂.executes fuel onExtra).cast (by omega) (by omega)

theorem primitive (p : Primitive) :
    Completion p.taken p.given p.count (.primitive p : Action ε) (.primitive p) where
  straight := trivial
  draws _ _ _ := .primitive p
  records _ _ := .primitive p
  shadowed _ _ := .primitive p
  executes fuel _ := .primitive fuel p

theorem call (name : String) {shape : Invocation} (few : shape.argc < 2 ^ 31) :
    Completion shape.consumed 1 1 (.call name shape : Action ε) (.call name shape) where
  straight := trivial
  draws _ _ _ := .call name few
  records _ _ := .call name few
  shadowed _ _ := .call few name
  executes _ _ := .call name few

theorem array {total : Nat} {counts : Nat → Nat} {element twins : Nat → Action ε}
    (few : total < 2 ^ 31) (straight : ∀ index, (twins index).Straight)
    (h : ∀ index < total, Completion 0 1 (counts index) (element index) (twins index)) :
    Completion 0 1 (((List.range total).map counts).sum + 1) (.array total element)
      (.array total twins) where
  straight := straight
  draws backend onExtra site :=
    .array (fun index inside => (h index inside).draws backend onExtra site) few
  records backend onExtra := .array (fun index inside => (h index inside).records backend onExtra) few
  shadowed fuel onExtra := .array (fun index inside => (h index inside).shadowed fuel onExtra) few
  executes fuel onExtra :=
    .objectArray fuel (fun index inside => (h index inside).executes fuel onExtra) few

section Bodies

variable (h : Completion 0 left count body twin) (short : count + settleCount left + 1 < 2 ^ 31)

include h

theorem draws_body (backend : Backend) (onExtra : ε → Work backend.State Notes Unit) (site : Site) :
    backend.Draws 0 1 (count + settleCount left) (.seq twin (.settle left)) site
      ((Action.seq twin (.settle left)).run (backend.contract Notes) onExtra) :=
  ((h.draws backend onExtra site).seq (.settle site left) (Nat.le_refl _)).cast (by omega) rfl

include short

theorem finishes (backend : Backend) (onExtra : ε → Work backend.State Notes Unit) :
    backend.Finishes (body.run (backend.contract Notes) onExtra)
      ((Action.seq twin (.settle left)).run (backend.guarded Notes) onExtra) :=
  (h.records backend onExtra).finishes short

theorem callBlock (name : String) {shape : Invocation} (few : shape.argc < 2 ^ 31)
    (scope : StaticScope) (arity : Nat) : Completion shape.consumed 1 1
      (.callBlock name shape scope arity body)
      (.callBlock name shape scope arity (.seq twin (.settle left))) where
  straight := ⟨h.straight, straight_settle left⟩
  draws backend onExtra _ := .callBlock name few (h.draws_body backend onExtra _) short
  records backend onExtra := .callBlock (h.finishes short backend onExtra) name few scope arity
  shadowed fuel onExtra := .callBlock few name (h.draws_body (.immediate fuel) onExtra _) short
  executes fuel onExtra := .callBlock (h.finishes short (.immediate fuel) onExtra) name few scope arity

theorem closure (scope : StaticScope) (arity : Nat) : Completion 0 1 1 (.closure scope arity body)
    (.closure scope arity (.seq twin (.settle left))) where
  straight := ⟨h.straight, straight_settle left⟩
  draws backend onExtra _ := .closure (h.draws_body backend onExtra _) short scope arity
  records backend onExtra := .closure (h.finishes short backend onExtra) scope arity
  shadowed fuel onExtra := .closure (h.draws_body (.immediate fuel) onExtra _) short scope arity
  executes fuel onExtra := .closure (h.finishes short (.immediate fuel) onExtra) scope arity

theorem method (name : String) (arity localCount : Nat) :
    Completion 0 0 1 (.method name arity localCount body)
      (.method name arity localCount (.seq twin (.settle left))) where
  straight := ⟨h.straight, straight_settle left⟩
  draws backend onExtra _ := .method name arity localCount (h.draws_body backend onExtra _) short
  records backend onExtra := .method (h.finishes short backend onExtra) name arity localCount
  shadowed fuel onExtra := .method name arity localCount (h.draws_body (.immediate fuel) onExtra _) short
  executes fuel onExtra :=
    .defineMethod (h.finishes short (.immediate fuel) onExtra) name arity localCount

end Bodies

end Completion

/-- Whatever finds its operands is completed by an action that can be checked. -/
theorem Supplied.completion {before after count : Nat} {action : Action ε}
    (supplied : Supplied before after count action) :
    ∃ twin, Completion before after count action twin := by
  induction supplied with
  | skip => exact ⟨_, Completion.skip.frame (Nat.zero_le _)⟩
  | seq _ _ ih₁ ih₂ =>
      obtain ⟨first, h₁⟩ := ih₁
      obtain ⟨next, h₂⟩ := ih₂
      exact ⟨_, h₁.seq h₂⟩
  | primitive enough => exact ⟨_, (Completion.primitive _).frame enough⟩
  | call few enough => exact ⟨_, (Completion.call _ few).frame enough⟩
  | callBlock few enough _ short ih =>
      obtain ⟨twin, h⟩ := ih
      exact ⟨_, (h.callBlock short _ few _ _).frame enough⟩
  | @array height total counts element few _ ih =>
      have each (index : Nat) : ∃ twin : Action ε, twin.Straight ∧
          (index < total → Completion 0 1 (counts index) (element index) twin) := by
        by_cases inside : index < total
        · obtain ⟨twin, h⟩ := ih index inside
          exact ⟨twin, h.straight, fun _ => h⟩
        · exact ⟨.skip, trivial, fun within => absurd within inside⟩
      choose twins straight complete using each
      exact ⟨_, (Completion.array few straight complete).frame (Nat.zero_le _)⟩
  | closure _ short ih =>
      obtain ⟨twin, h⟩ := ih
      exact ⟨_, (h.closure short _ _).frame (Nat.zero_le _)⟩
  | method _ short ih =>
      obtain ⟨twin, h⟩ := ih
      exact ⟨_, (h.method short _ _ _).frame (Nat.zero_le _)⟩

end Action

end BlockScript
