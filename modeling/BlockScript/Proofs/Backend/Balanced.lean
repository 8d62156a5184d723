import BlockScript.Proofs.Backend.Executed
import BlockScript.Proofs.Backend.Persistent

/-!
# Operations that keep the balance

What an operation takes and leaves does not depend on whether it is recorded or executed.
`Backend.Balanced` says so of a computation, together with the number of operations that it
records; it is the same on both backends. There is one rule for each operation of the contract,
which asks of its nested code that it leaves one value.
-/

namespace BlockScript

variable {υ : Type}

namespace Backend

/-- Wherever the script is executed, the computation takes and leaves that many values. -/
def Runs : (backend : Backend) → (taken given : Nat) → Work backend.State υ Unit → Prop
  | recording, _, _, _ => True
  | immediate _, taken, given, action => Interpreter.Runs taken given action

/-- The computation takes and leaves that many values, and records that many operations where
it is recorded. -/
structure Balanced (backend : Backend) (taken given count : Nat) (action : Work backend.State υ Unit) :
    Prop where
  writes : backend.Writes taken given count action
  runs : backend.Runs taken given action

variable {backend : Backend} {taken given count taken' given' count' : Nat}

section Bodies

variable {body : Work backend.State υ Unit} (fits : backend.Fits body)

include fits

/-- A block is pushed after its body was recorded. -/
theorem Writes.closure (scope : StaticScope) (arity : Nat) :
    backend.Writes 0 1 1 ((backend.contract υ).closure scope arity body) := by
  cases backend with
  | recording =>
      refine Recorder.writes_checked ?_
      exact .after .target (Nat.le_refl 1) fun _ => .after (.recordBlock fits scope arity) (Nat.le_refl 1)
        fun slot => .emitStraight ⟨rfl, rfl, rfl, rfl⟩
  | immediate fuel =>
      exact .after Interpreter.spares_ensureOpen (Nat.le_refl 1) fun _ =>
        .after (.recordBlock fits scope arity) (Nat.le_refl 1)
        fun slot => Interpreter.writes_perform ⟨rfl, rfl, rfl, rfl⟩

/-- A method is bound after its body was recorded. -/
theorem Writes.method (name : String) (arity localCount : Nat) :
    backend.Writes 0 0 1 ((backend.contract υ).defineMethod name arity localCount body) := by
  cases backend with
  | recording =>
      refine Recorder.writes_checked ?_
      exact .after .target (Nat.zero_le 1) fun _ =>
        .after (.recordUnit fits .method name arity localCount []) (Nat.zero_le 1)
        fun slot => .emitPooled fun _ => ⟨rfl, rfl, rfl, rfl⟩
  | immediate fuel =>
      exact .after Interpreter.spares_ensureOpen (Nat.zero_le 1) fun _ =>
        .after (.recordUnit fits .method name arity localCount []) (Nat.zero_le 1)
        fun slot => .after (.intern _) (Nat.zero_le 1)
        fun position => Interpreter.writes_perform ⟨rfl, rfl, rfl, rfl⟩

end Bodies

/-- A body that leaves one value, and is short enough for the jumps in it. -/
def Embeds (backend : Backend) (body : Work backend.State υ Unit) : Prop :=
  ∃ count, count + 1 < 2 ^ 31 ∧ backend.Balanced 0 1 count body

theorem Embeds.fits {body : Work backend.State υ Unit} (embeds : backend.Embeds body) :
    backend.Fits body := by
  obtain ⟨count, short, balanced⟩ := embeds
  exact ⟨count, short, balanced.writes⟩

namespace Balanced

theorem cast {action : Work backend.State υ Unit} (h : backend.Balanced taken given count action)
    (same : given = given') (same' : count = count') : backend.Balanced taken given' count' action :=
  same ▸ same' ▸ h

theorem skip : backend.Balanced 0 0 0 (pure () : Work backend.State υ Unit) := by
  cases backend with
  | recording => exact ⟨.pure, trivial⟩
  | immediate fuel => exact ⟨.pure, .pure ()⟩

/-- One after the other, where the second one takes nothing that the first one has not left. -/
theorem seq {first next : Work backend.State υ Unit}
    (h₁ : backend.Balanced taken given count first)
    (h₂ : backend.Balanced taken' given' count' next) (owned : taken' ≤ given) :
    backend.Balanced taken (given - taken' + given') (count + count') (do first; next) := by
  refine ⟨h₁.writes.seq h₂.writes owned, ?_⟩
  cases backend with
  | recording => trivial
  | immediate fuel => exact (Interpreter.Runs.bind h₁.runs fun _ => h₂.runs).cast (by omega) (by omega)

theorem primitive (p : Primitive) :
    backend.Balanced p.taken p.given p.count ((backend.contract υ).primitive p) := by
  cases backend with
  | recording => exact ⟨Recorder.writes_checked (.emitPrimitive p), trivial⟩
  | immediate fuel => exact ⟨Interpreter.writes_primitive p, .primitive fuel p⟩

theorem invoke (name : String) {shape : Invocation} (few : shape.argc < 2 ^ 31)
    {block : Option (BlockBody (Session backend.State υ))}
    (embeds : ∀ given, block = some given → backend.Embeds given.body) :
    backend.Balanced shape.consumed 1 1 ((backend.contract υ).invoke name shape block) := by
  have fits (given : BlockBody (Session backend.State υ)) (found : block = some given) :
      backend.Fits given.body := (embeds given found).fits
  cases backend with
  | recording => exact ⟨Recorder.writes_checked (.emitCall few name fits), trivial⟩
  | immediate fuel => exact ⟨Interpreter.writes_either (.emitCall few name fits), .invoke name few fits⟩

theorem array {total : Nat} {element : Nat → Work backend.State υ Unit} {counts : Nat → Nat}
    (h : ∀ index < total, backend.Balanced 0 1 (counts index) (element index))
    (short : total < 2 ^ 31) :
    backend.Balanced 0 1 (((List.range total).map counts).sum + 1)
      ((backend.contract υ).objectArray total element) := by
  have writes := Writes.emitArray (fun index inside => (h index inside).writes) short
  cases backend with
  | recording => exact ⟨Recorder.writes_checked writes, trivial⟩
  | immediate fuel =>
      exact ⟨Interpreter.writes_either writes,
        .objectArray fuel (fun index inside => (h index inside).runs) short⟩

theorem branch {onTrue onFalse : Work backend.State υ Unit}
    (h₁ : backend.Balanced 0 1 count onTrue) (h₂ : backend.Balanced 0 1 count' onFalse) :
    backend.Balanced 1 1 (count + count' + 2) ((backend.contract υ).branch onTrue onFalse) := by
  have writes := h₁.writes.emitBranch h₂.writes
  cases backend with
  | recording => exact ⟨Recorder.writes_checked writes, trivial⟩
  | immediate fuel => exact ⟨Interpreter.writes_either writes, .branch h₁.runs h₂.runs⟩

theorem logical (connective : Connective) {right : Work backend.State υ Unit}
    (h : backend.Balanced 0 1 count right) :
    backend.Balanced 1 1 (count + 3) ((backend.contract υ).logical connective right) := by
  have writes := h.writes.emitLogical connective
  cases backend with
  | recording => exact ⟨Recorder.writes_checked writes, trivial⟩
  | immediate fuel => exact ⟨Interpreter.writes_either writes, .logical connective h.runs⟩

theorem loop {condition body : Work backend.State υ Unit}
    (h₁ : backend.Balanced 0 1 count condition) (h₂ : backend.Balanced 0 1 count' body)
    (checkFirst : Bool) :
    backend.Balanced 0 0 (count + count' + Writes.loopCount checkFirst)
      ((backend.contract υ).loop condition body checkFirst) := by
  have writes := h₁.writes.emitLoop h₂.writes checkFirst
  cases backend with
  | recording => exact ⟨Recorder.writes_checked writes, trivial⟩
  | immediate fuel => exact ⟨Interpreter.writes_either writes, .loop fuel h₁.runs h₂.runs checkFirst⟩

section Bodies

variable {body : Work backend.State υ Unit} (embeds : backend.Embeds body)

include embeds

theorem closure (scope : StaticScope) (arity : Nat) :
    backend.Balanced 0 1 1 ((backend.contract υ).closure scope arity body) := by
  have fits := embeds.fits
  refine ⟨.closure fits scope arity, ?_⟩
  cases backend with
  | recording => trivial
  | immediate fuel => exact .closure fits scope arity

theorem method (name : String) (arity localCount : Nat) :
    backend.Balanced 0 0 1 ((backend.contract υ).defineMethod name arity localCount body) := by
  have fits := embeds.fits
  refine ⟨.method fits name arity localCount, ?_⟩
  cases backend with
  | recording => trivial
  | immediate fuel => exact .defineMethod fits name arity localCount

end Bodies

end Balanced

/-! ## What a balanced computation does to a session -/

/-- The values of the script, as far as it is executed. -/
def values : (backend : Backend) → backend.State → List Value
  | recording, _ => []
  | immediate _, interpreter => interpreter.top.stack

/-- The innermost unit takes that many operations: it is recorded and its depth stays a number
of 63 bits, or it is the script of a backend that executes it. -/
def HasRoom (backend : Backend) (count : Nat) (session : Session backend.State υ) : Prop :=
  ∃ unit outer, session.bench.units.units = unit :: outer ∧
    match unit.payload with
    | some ⟨_, builder⟩ => builder.depth + count < 2 ^ 63
    | none => backend.executes = true ∧ unit.kind = .script

/-- The same units are open on the same control-flow level, and the innermost one has one value
more. What a script that is executed had on its stack is still there, below that value. -/
structure OneMore (backend : Backend) (session session' : Session backend.State υ) : Prop where
  owner : session'.bench.units.owner = session.bench.units.owner
  nesting : session'.bench.units.nesting = session.bench.units.nesting
  value :
    match session.bench.recording? with
    | some ⟨_, builder⟩ => session'.backend = session.backend ∧ ∃ builder' : Builder,
        builder'.depth = builder.depth + 1 ∧
        session'.bench.units.units = (session.bench.setBuilder builder').units.units
    | none => session'.bench.units.units = session.bench.units.units ∧
        ∃ value, backend.values session'.backend = value :: backend.values session.backend

/-- A computation that takes nothing and leaves one value does so in every session that may go
on, or fails with an error that does not blame the caller. -/
theorem Balanced.ends_oneMore {action : Work backend.State υ Unit}
    (balanced : backend.Balanced 0 1 count action) {session : Session backend.State υ}
    (prepared : backend.Prepared session) (room : backend.HasRoom count session) :
    Ends action session (fun _ session' => backend.OneMore session session')
      fun halt _ => halt.Permitted backend.executes := by
  obtain ⟨unit, outer, hunits, room⟩ := room
  cases payload : unit.payload with
  | some recording =>
      obtain ⟨slot, builder⟩ := recording
      rw [payload] at room
      refine (balanced.writes.ends prepared hunits payload (Nat.zero_le _) room).weaken ?_
      rintro _ session' ⟨builder', wrote, page⟩
      have found : session.bench.recording? = some ⟨slot, builder⟩ :=
        Bench.recording?_eq_some.mpr ⟨unit, outer, hunits, payload⟩
      refine ⟨page.beside.owner, page.beside.nesting, ?_⟩
      rw [found]
      refine ⟨page.backend, builder', wrote.depth, page.units.trans ?_⟩
      exact (Bench.setBuilder_units hunits payload builder').symm
  | none =>
      rw [payload] at room
      obtain ⟨executes, kind⟩ := room
      cases backend with
      | recording => cases executes
      | immediate fuel =>
          have executed : session.bench.Executes := ⟨unit, outer, hunits, payload, kind⟩
          refine (balanced.runs.ends ⟨prepared.checks, prepared.sharing, executed⟩
            (Nat.zero_le _)).weaken fun _ session' scene => ?_
          obtain ⟨values, one, stack⟩ := scene.stack
          obtain ⟨value, rfl⟩ := List.length_eq_one_iff.mp one
          refine ⟨scene.beside.owner, scene.beside.nesting, ?_⟩
          rw [executed.recording?]
          exact ⟨scene.units, value, stack⟩

/-! ## Sessions that a caller has got to -/

/-- The computation ends in the state, whether it succeeds or fails. -/
def Reaches {ε σ α : Type} (action : EStateM ε σ α) (state state' : σ) : Prop :=
  Ends action state (fun _ reached => reached = state') fun _ reached => reached = state'

theorem Reaches.moves {ε σ α : Type} {action : EStateM ε σ α} {state state' : σ}
    (reached : Reaches action state state') {R : σ → σ → Prop} (h : Moves R action) :
    R state state' := by
  cases run : action state with
  | ok value _ =>
      obtain rfl := reached.ok run
      exact h.ok run
  | error error _ =>
      obtain rfl := reached.error run
      exact h.error run

theorem bench_new (backend : Backend) (config : Config) (limits : Limits) (owner : Nat) (own : υ) :
    (backend.new config limits owner own).bench = .new config owner backend.executes := by
  cases backend <;> rfl

section Reached

variable {config : Config} {limits : Limits} {owner : Nat} {own : υ} {α : Type}
  {manner : Manner backend.State υ} {setup : Work backend.State υ α}
  (client : Client (backend.contract υ) manner setup) {session : Session backend.State υ}
  (reached : Reaches setup (backend.new config limits owner own) session)

include client reached

/-- Unless an operation has failed that the backend remembers, the session may go on. -/
theorem reached_prepared (checks : config.checkStack = true)
    (unpoisoned : backend.Unpoisoned session.backend) : backend.Prepared session := by
  have lasts : Bench.Lasts backend.executes _ session.bench := reached.moves (lasts_client client)
  rw [bench_new] at lasts
  have later := lasts (Bench.proper_new config owner _)
  exact ⟨unpoisoned, later.config ▸ checks, later.sharing⟩

/-- The innermost unit takes operations, unless its stack is too deep. -/
theorem reached_hasRoom (opened : session.bench.units.units ≠ []) {count : Nat}
    (room : ∀ found, session.bench.recording? = some found →
      found.builder.depth + count < 2 ^ 63) : backend.HasRoom count session := by
  have keeps : Bench.KeepsScripts backend.executes _ session.bench :=
    reached.moves (persists_client (Bench.keepsScripts _) client)
  rw [bench_new] at keeps
  obtain ⟨unit, outer, hunits⟩ := List.exists_cons_of_ne_nil opened
  refine ⟨unit, outer, hunits, ?_⟩
  cases payload : unit.payload with
  | none => exact keeps nofun unit (hunits ▸ List.mem_cons_self ..) payload
  | some found => exact room found (Bench.recording?_eq_some.mpr ⟨unit, outer, hunits, payload⟩)

end Reached

end Backend

end BlockScript
