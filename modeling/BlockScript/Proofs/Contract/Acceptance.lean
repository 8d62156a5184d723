import BlockScript.Proofs.Backend.Accepted
import BlockScript.Proofs.Backend.Balanced

/-!
# Method bodies are accepted exactly if they are balanced

The operations that the backends offer are refused where their declared effect leads nowhere.
By induction on a body, so is the body, and a method with that body can be begun and ended
exactly if the body is balanced. This is the same on both backends, so they accept the same
bodies. The declared effect alone decides: neither the order of the checks nor what the values
are matters.
-/

namespace BlockScript

variable {υ : Type}

namespace Backend

variable {backend : Backend} {span around size size' : Nat} {effect effect' : Nat → Nat → Prop}
  {condition : Prop}

namespace Decides

theorem primitive {p : Primitive} (near : p.Reaches around) :
    backend.Decides span around p.count (Trades p.taken p.given) ((backend.contract υ).primitive p) := by
  cases backend with
  | recording => exact Recorder.decides_checked (.emitPrimitive near)
  | immediate fuel => exact Interpreter.decides_primitive near

theorem invoke (name : String) {shape : Invocation} (few : shape.argc < 2 ^ 32)
    {block : Option (BlockBody (Session backend.State υ))}
    (demands : backend.Demands span around condition (Work.recordBlock? block)) :
    backend.Decides span around 1
      (fun depth after => condition ∧ Trades shape.consumed 1 depth after)
      ((backend.contract υ).invoke name shape block) := by
  have emitted := emitCall few name demands
  cases backend with
  | recording => exact Recorder.decides_checked emitted
  | immediate fuel => exact Interpreter.decides_either emitted

theorem array {total : Nat} {element : Nat → Work backend.State υ Unit} {sizes : Nat → Nat}
    {effects : Nat → Nat → Nat → Prop}
    (h : ∀ index < total, backend.Decides span around (sizes index) (effects index) (element index))
    (few : total < 2 ^ 32) :
    backend.Decides span around (((List.range total).map sizes).sum + 1)
      (fun depth after => (∀ index < total, effects index (depth + index) (depth + index + 1)) ∧
        after = depth + 1) ((backend.contract υ).objectArray total element) := by
  have emitted := emitArray h few
  cases backend with
  | recording => exact Recorder.decides_checked emitted
  | immediate fuel => exact Interpreter.decides_either emitted

theorem branch {onTrue onFalse : Work backend.State υ Unit}
    (h₁ : backend.Decides span around size effect onTrue)
    (h₂ : backend.Decides span around size' effect' onFalse) :
    backend.Decides span around (size + size' + 2)
      (fun depth after => ∃ taken, depth = taken + 1 ∧ effect taken after ∧ effect' taken after)
      ((backend.contract υ).branch onTrue onFalse) := by
  have emitted := emitBranch h₁ h₂
  cases backend with
  | recording => exact Recorder.decides_checked emitted
  | immediate fuel => exact Interpreter.decides_either emitted

theorem logical (connective : Connective) {right : Work backend.State υ Unit}
    (h : backend.Decides span around size effect right) :
    backend.Decides span around (size + 3)
      (fun depth after => ∃ taken, depth = taken + 1 ∧ effect taken (taken + 1) ∧ after = depth)
      ((backend.contract υ).logical connective right) := by
  have emitted := emitLogical connective h
  cases backend with
  | recording => exact Recorder.decides_checked emitted
  | immediate fuel => exact Interpreter.decides_either emitted

theorem loop {condition body : Work backend.State υ Unit}
    (h₁ : backend.Decides span around size effect condition)
    (h₂ : backend.Decides span around size' effect' body) (checkFirst : Bool) :
    backend.Decides span around (size + size' + 3)
      (fun depth after => effect depth (depth + 1) ∧
        (∃ left, effect' depth left ∧ (left = depth ∨ left = depth + 1)) ∧ after = depth)
      ((backend.contract υ).loop condition body checkFirst) := by
  have emitted := emitLoop h₁ h₂ checkFirst
  cases backend with
  | recording => exact Recorder.decides_checked emitted
  | immediate fuel => exact Interpreter.decides_either emitted

theorem closure {body : Work backend.State υ Unit}
    (decides : backend.Decides span (around + 1) size effect body) (short : size + 2 < span)
    (scope : StaticScope) (arity : Nat) :
    backend.Decides span around 1 (fun depth after => Fitting effect ∧ Trades 0 1 depth after)
      ((backend.contract υ).closure scope arity body) := by
  have demands := Demands.recordBlock decides short scope arity
  cases backend with
  | recording =>
      exact Recorder.decides_checked (.past .target fun _ => .after demands
        fun slot => .emitStraight ⟨rfl, rfl, rfl, rfl⟩)
  | immediate fuel =>
      exact .past .ensureOpen fun _ => .after demands
        fun slot => Interpreter.decides_perform ⟨rfl, rfl, rfl, rfl⟩

section Methods

variable {body : Work backend.State υ Unit} (decides : backend.Decides span 0 size effect body)
  (short : size + 2 < span) (name : String) (arity localCount : Nat)

include decides short

theorem defineMethod :
    backend.Decides span around 1 (fun depth after => Fitting effect ∧ Trades 0 0 depth after)
      ((backend.contract υ).defineMethod name arity localCount body) := by
  have demands : backend.Demands span around _ (Work.recordUnit .method name arity localCount [] body) :=
    .recordMethod decides short name arity localCount
  cases backend with
  | recording =>
      exact Recorder.decides_checked (.past .target fun _ => .after demands
        fun slot => .emitPooled fun _ => ⟨rfl, rfl, rfl, rfl⟩)
  | immediate fuel =>
      exact .past .ensureOpen fun _ => .after demands fun slot => .past (.intern _)
        fun position => Interpreter.decides_perform ⟨rfl, rfl, rfl, rfl⟩

end Methods

end Decides

/-! ## Methods that are begun and ended -/

/-- A method may be begun: some unit is open, and the backend that only records is recording
it. -/
def Begins : (backend : Backend) → Session backend.State υ → Prop
  | recording, session => ∃ found, session.bench.recording? = some found
  | immediate _, session => session.bench.units.units ≠ []

theorem begins_of_recording {session : Session backend.State υ} {recording : Recording}
    (found : session.bench.recording? = some recording) : backend.Begins session := by
  cases backend with
  | recording => exact ⟨recording, found⟩
  | immediate fuel =>
      obtain ⟨unit, outer, hunits, -⟩ := Bench.recording?_eq_some.mp found
      exact List.ne_nil_of_mem (hunits ▸ List.mem_cons_self ..)

/-- A method is opened as any unit is. -/
theorem ends_beginMethod {session : Session backend.State υ} (begins : backend.Begins session)
    (unpoisoned : backend.Unpoisoned session.backend) (name : String) (arity localCount : Nat)
    {done : UnitHandle → Session backend.State υ → Prop}
    (opens : Ends (Work.onBench (Bench.openUnit .method name arity localCount [])) session done
      fun halt _ => halt.Limit) :
    Ends ((backend.contract υ).beginMethod name arity localCount) session done
      fun halt _ => halt.Limit := by
  cases backend with
  | recording =>
      obtain ⟨found, recorded⟩ := begins
      refine Recorder.ends_checked (fun error poisoned => ?_) fun _ => ?_
      · cases poisoned.symm.trans unpoisoned
      refine @Ends.bind _ _ _ _ _ _ (fun _ session' => session' = session) _ _ _ ?_ ?_
      · refine Work.ends_onBench ?_
        unfold Ends
        rw [Bench.target_eq recorded]
        rfl
      · rintro _ _ rfl
        refine opens.mono (fun _ _ => id) ?_
        rintro (error | _) session' limit <;> exact limit
  | immediate fuel =>
      obtain ⟨unit, outer, hunits⟩ := List.exists_cons_of_ne_nil begins
      refine @Ends.bind _ _ _ _ _ _ (fun _ session' => session' = session) _ _ _ ?_ ?_
      · unfold Ends
        rw [Interpreter.ensureOpen_eq hunits]
      · rintro _ _ rfl
        exact opens

theorem closes_endMethod (backend : Backend) (handle : UnitHandle) :
    backend.Closes handle .method ((backend.contract υ).endMethod handle) := by
  intro session done failed unpoisoned closing
  have dropped : Ends (do let _ ← Work.onBench (Bench.closeUnit handle .method)) session
      (fun _ => done) fun halt _ => failed halt :=
    closing.bind fun _ _ closed => Ends.pure closed
  cases backend with
  | recording =>
      refine Recorder.ends_checked (fun error poisoned => ?_) fun _ => ?_
      · cases poisoned.symm.trans unpoisoned
      refine dropped.mono (fun _ _ => id) ?_
      rintro (error | _) session' refused <;> exact refused
  | immediate fuel => exact dropped

section Methods

variable {body : Work backend.State υ Unit} (decides : backend.Decides span 0 size effect body)
  (short : size + 2 < span) (name : String) (arity localCount : Nat)

include decides short

/-- A method is begun, given its body and ended if the body leaves one value or none. -/
theorem ends_unit {session : Session backend.State υ} (checking : backend.Checking span session)
    (begins : backend.Begins session) :
    Ends (do
        let handle ← (backend.contract υ).beginMethod name arity localCount
        body
        (backend.contract υ).endMethod handle) session
      (fun _ session' => Fitting effect ∧ session.Unharmed session')
      fun halt _ => halt.Limit ∨ ¬Fitting effect := by
  have opens := @Checking.ends_openUnit _ _ _ 0 .method _ checking nofun nofun name arity localCount []
  refine ((ends_beginMethod begins checking.prepared.unpoisoned name arity localCount opens).mono
    (fun _ _ => id) fun _ _ => .inl).bind ?_
  rintro handle session₁ ⟨slot, builder, next, inside, owner, beside, backend₁, client₁, ops, stack,
    hunits, sheltered⟩
  refine (ends_fillUnit decides short sheltered hunits owner ops stack inside
    (closes_endMethod backend handle)).weaken ?_
  rintro _ session₂ ⟨fitting, units, beside', table, backend₂, client₂⟩
  refine ⟨fitting, ⟨units, trans_of Bench.Beside beside beside', backend₂.trans backend₁,
    client₂.trans client₁⟩, ?_⟩
  change session.bench.program.code.size ≤ session₂.bench.program.code.size
  omega

theorem Decides.unit :
    backend.Decides span around 0 (fun depth after => Fitting effect ∧ after = depth) (do
      let handle ← (backend.contract υ).beginMethod name arity localCount
      body
      (backend.contract υ).endMethod handle) where
  unique leads leads' := leads.2.trans leads'.2.symm
  ends sheltered hunits payload tidy _ := by
    have begins := begins_of_recording (Bench.recording?_eq_some.mpr ⟨_, _, hunits, payload⟩)
    refine (ends_unit decides short name arity localCount sheltered.checking begins).mono ?_ ?_
    · rintro _ session' ⟨fitting, unharmed⟩
      exact ⟨_, ⟨fitting, rfl⟩, .refl tidy, unharmed.sheet hunits payload⟩
    · exact fun halt _ => .imp_right fun unfit after leads => unfit leads.1

end Methods

end Backend

namespace Body

variable {backend : Backend} {span around : Nat}

/-- Whatever records a body refuses it exactly if its declared effect leads nowhere. -/
theorem decides (body : Body) (legal : body.Legal span around) :
    backend.Decides span around body.size body.Effect (body.run (backend.contract υ)) := by
  induction body generalizing around with
  | skip => exact Backend.Decides.pure.cast fun _ _ => effect_skip
  | seq first next first_ih next_ih =>
      exact ((first_ih legal.1).seq (next_ih legal.2)).cast fun _ _ => effect_seq
  | primitive p => exact (Backend.Decides.primitive legal).cast fun _ _ => effect_primitive
  | call name shape =>
      refine (Backend.Decides.invoke name legal .recordBlock?_none).cast fun _ _ => ?_
      rw [true_and]
      exact effect_call
  | callBlock name shape scope arity body ih =>
      obtain ⟨few, short, legal⟩ := legal
      exact (Backend.Decides.invoke name few (.recordBlock?_some (ih legal) short scope arity)).cast
        fun _ _ => effect_callBlock
  | array count element ih =>
      exact (Backend.Decides.array (fun index inside => ih index (legal.2 index inside)) legal.1).cast
        fun _ _ => effect_array
  | branch onTrue onFalse true_ih false_ih =>
      exact ((true_ih legal.1).branch (false_ih legal.2)).cast fun _ _ => effect_branch
  | logical connective right ih =>
      exact ((ih legal).logical connective).cast fun _ _ => effect_logical
  | loop condition body checkFirst condition_ih body_ih =>
      exact ((condition_ih legal.1).loop (body_ih legal.2) checkFirst).cast fun _ _ => effect_loop
  | closure scope arity body ih =>
      refine ((ih legal.2).closure legal.1 scope arity).cast fun _ _ => ?_
      exact effect_closure.trans (and_congr_right fun _ => trades_nothing.symm)
  | define name arity localCount body ih =>
      refine ((ih legal.2).defineMethod legal.1 name arity localCount).cast fun _ _ => ?_
      exact effect_define.trans (and_congr_right fun _ => (@trades_nothing 0 _ _).symm)
  | unit name arity localCount body ih =>
      exact ((ih legal.2).unit legal.1 name arity localCount).cast fun _ _ => effect_unit

/-- The operations of the body all succeed. -/
def Accepted {σ : Type} (contract : Contract σ) (state : σ) (body : Body) : Prop :=
  ∃ state', body.run contract state = .ok () state'

/-- No limit is reached. -/
def Unlimited {σ : Type} (contract : Contract σ) (state : σ) (body : Body) : Prop :=
  ∀ halt state', body.run contract state = .error halt state' → ¬halt.Limit

/-- A method is accepted exactly if its body is balanced. -/
theorem accepted_iff {body : Body} (short : body.Short span) (legal : body.Legal span 0)
    (name : String) (arity localCount : Nat) {session : Session backend.State υ}
    (checking : backend.Checking span session) (begins : backend.Begins session)
    (unlimited : (body.unit name arity localCount).Unlimited (backend.contract υ) session) :
    (body.unit name arity localCount).Accepted (backend.contract υ) session ↔ body.Balanced := by
  have ends : Ends ((body.unit name arity localCount).run (backend.contract υ)) session
      (fun _ session' => body.Balanced ∧ session.Unharmed session')
      fun halt _ => halt.Limit ∨ ¬body.Balanced :=
    Backend.ends_unit (body.decides legal) short name arity localCount checking begins
  constructor
  · rintro ⟨session', run⟩
    exact (ends.ok run).1
  · intro balanced
    cases run : (body.unit name arity localCount).run (backend.contract υ) session with
    | ok value session' => exact ⟨session', run⟩
    | error halt session' =>
        exact ((ends.error run).elim (unlimited halt session' run) (absurd balanced)).elim

end Body

/-- Of a configuration that checks the stack and the arguments of yields, every session that a
caller has got to is one that may go on, unless an operation has failed that the backend
remembers. -/
theorem Backend.reached_checking {backend : Backend} {config : Config} {limits : Limits}
    {owner span : Nat} {own : υ} {α : Type} {manner : Manner backend.State υ}
    {setup : Work backend.State υ α} (client : Client (backend.contract υ) manner setup)
    {session : Session backend.State υ}
    (reached : Reaches setup (backend.new config limits owner own) session)
    (unpoisoned : backend.Unpoisoned session.backend) (checks : config.checkStack = true)
    (yields : config.yieldMode = .strict) (pool : config.maxPoolEntries ≤ UInt32.size)
    (depths : span ≤ 2 ^ 63) (jumps : config.verifyUnits = true → span ≤ 2 ^ 31) :
    backend.Checking span session := by
  have lasts : Bench.Lasts backend.executes _ session.bench := reached.moves (lasts_client client)
  rw [bench_new] at lasts
  have same : session.bench.config = config := (lasts (Bench.proper_new config owner _)).config
  exact ⟨reached_prepared client reached checks unpoisoned, same ▸ yields, same ▸ pool, depths,
    same ▸ jumps⟩

namespace Body

/-- Both backends accept a method exactly if its body is balanced. -/
theorem accepted_iff_balanced {υ υ' : Type} {fuel span : Nat} {body : Body}
    (short : body.Short span) (legal : body.Legal span 0) (name : String) (arity localCount : Nat)
    {recorder : Session Recorder υ} {interpreter : Session Interpreter υ'}
    (checking : Backend.recording.Checking span recorder)
    (checking' : (Backend.immediate fuel).Checking span interpreter)
    (begins : Backend.recording.Begins recorder) (begins' : (Backend.immediate fuel).Begins interpreter)
    (unlimited : (body.unit name arity localCount).Unlimited (Recorder.contract υ) recorder)
    (unlimited' : (body.unit name arity localCount).Unlimited (Interpreter.contract υ' fuel)
      interpreter) :
    ((body.unit name arity localCount).Accepted (Recorder.contract υ) recorder ↔
      (body.unit name arity localCount).Accepted (Interpreter.contract υ' fuel) interpreter) ∧
    ((body.unit name arity localCount).Accepted (Interpreter.contract υ' fuel) interpreter ↔
      body.Balanced) := by
  have recorded : (body.unit name arity localCount).Accepted (Recorder.contract υ) recorder ↔
      body.Balanced :=
    @accepted_iff υ .recording span body short legal name arity localCount _ checking begins unlimited
  have executed : (body.unit name arity localCount).Accepted (Interpreter.contract υ' fuel)
      interpreter ↔ body.Balanced :=
    @accepted_iff υ' (.immediate fuel) span body short legal name arity localCount _ checking' begins'
      unlimited'
  exact ⟨recorded.trans executed.symm, executed⟩

/-- A number, or a block that yields nil to the method's own block. -/
def choosing : Body :=
  seq (primitive .loadTrue) (branch (primitive (.fixnum 1))
    (closure (.ofBlock []) 0 (seq (primitive .loadNil) (primitive (.yield true)))))

theorem choosing_balanced : choosing.Balanced := by
  refine ⟨1, effect_seq.mpr ⟨1, effect_primitive.mpr ⟨Nat.zero_le _, rfl⟩, ?_⟩, Nat.le_refl 1⟩
  refine effect_branch.mpr ⟨0, rfl, effect_primitive.mpr ⟨Nat.zero_le _, rfl⟩, ?_⟩
  refine effect_closure.mpr ⟨⟨1, effect_seq.mpr ⟨1, ?_, ?_⟩, Nat.le_refl 1⟩, rfl⟩
  · exact effect_primitive.mpr ⟨Nat.zero_le _, rfl⟩
  · exact effect_primitive.mpr ⟨Nat.le_refl 1, rfl⟩

/-- A session whose script has been opened. -/
def opened (backend : Backend) : Session backend.State Unit :=
  match (backend.contract Unit).startScript (backend.new .strict {} 0 ()) with
  | .ok _ session | .error _ session => session

theorem checking_opened (backend : Backend) (unpoisoned : backend.Unpoisoned (opened backend).backend) :
    backend.Checking (2 ^ 31) (opened backend) := by
  have client : Client (backend.contract Unit) {} (Operation.startScript.issue (backend.contract Unit)) :=
    .issue nofun nofun
  have reached : Backend.Reaches (Operation.startScript.issue (backend.contract Unit))
      (backend.new .strict {} 0 ()) (opened backend) := by
    change Ends (backend.contract Unit).startScript _ _ _
    unfold Ends opened
    cases (backend.contract Unit).startScript (backend.new .strict {} 0 ()) <;> rfl
  exact backend.reached_checking client reached unpoisoned rfl rfl (by decide) (by decide)
    fun _ => Nat.le_refl _

theorem unlimited_of_succeeds {σ : Type} {contract : Contract σ} {state : σ} {body : Body}
    (succeeds : (match body.run contract state with
      | .ok _ _ => true
      | .error _ _ => false) = true) : body.Unlimited contract state := by
  intro halt state' run
  rw [run] at succeeds
  cases succeeds

theorem choosing_accepted :
    (choosing.unit "m" 0 0).Accepted (Recorder.contract Unit) (opened .recording) ∧
    (choosing.unit "m" 0 0).Accepted (Interpreter.contract Unit 9) (opened (.immediate 9)) := by
  have short : choosing.Short (2 ^ 31) := by decide
  have legal : choosing.Legal (2 ^ 31) 0 := ⟨trivial, trivial, by decide, trivial, trivial⟩
  have recorder := checking_opened .recording rfl
  have interpreter := checking_opened (.immediate 9) trivial
  have begins : Backend.recording.Begins (opened .recording) := by
    refine Option.isSome_iff_exists.mp ?_
    decide +kernel
  have begins' : (Backend.immediate 9).Begins (opened (.immediate 9)) :=
    ne_of_apply_ne List.length (by decide +kernel)
  have unlimited : (choosing.unit "m" 0 0).Unlimited (Recorder.contract Unit) (opened .recording) :=
    unlimited_of_succeeds (by decide +kernel)
  have unlimited' : (choosing.unit "m" 0 0).Unlimited (Interpreter.contract Unit 9)
      (opened (.immediate 9)) :=
    unlimited_of_succeeds (by decide +kernel)
  obtain ⟨same, balanced⟩ := accepted_iff_balanced short legal "m" 0 0 recorder interpreter begins
    begins' unlimited unlimited'
  exact ⟨same.mpr (balanced.mpr choosing_balanced), balanced.mpr choosing_balanced⟩

end Body

end BlockScript
