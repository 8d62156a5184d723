import BlockScript.Proofs.Backend.Bracket
import BlockScript.Proofs.Backend.Occupied
import BlockScript.Proofs.Backend.Poison

/-!
# Operations leave the outermost unit as it is

Whatever its nested code does, an operation leaves the outermost unit as it is, apart from the
two that open and close the script: units inside it are opened and closed, and what a failure
discards are units inside it. Where nested code is run or a unit is opened, some unit is open
already; only the block of a call that is issued to the bytecode backend may be the first one.
-/

namespace BlockScript

variable {υ α γ : Type}

namespace Bench

variable {executes : Bool} {bench bench' : Bench}

/-- The outermost unit is the same one of the same stack, and units can still be told apart. -/
structure Anchored (executes : Bool) (bench bench' : Bench) : Prop where
  root : bench.SameRoot bench'
  owner : bench'.units.owner = bench.units.owner
  proper : bench.Proper executes → bench'.Proper executes

instance : IsPreorder Bench (Anchored executes) where
  refl _ := ⟨rfl, rfl, id⟩
  trans _ _ _ h₁ h₂ := ⟨h₂.root.trans h₁.root, h₂.owner.trans h₁.owner, h₂.proper ∘ h₁.proper⟩

theorem anchored (executes : Bool) : Superficial (Anchored executes) where
  setBuilder bench builder := ⟨sameRoot.setBuilder bench builder,
    (bench.units.mapTop_rest _).2.1, fun proper => proper.setBuilder builder⟩
  rest _ _ _ := ⟨rfl, rfl, fun proper => ⟨proper.fresh, proper.distinct, proper.script⟩⟩

theorem anchored_enterRegion (bench : Bench) : bench.Anchored executes bench.enterRegion :=
  ⟨rfl, rfl, fun proper => ⟨proper.fresh, proper.distinct, proper.script⟩⟩

theorem anchored_exitRegion (bench : Bench) : bench.Anchored executes bench.exitRegion :=
  ⟨rfl, rfl, fun proper => ⟨proper.fresh, proper.distinct, proper.script⟩⟩

/-- The units stay told apart in whatever lasts. -/
theorem Lasts.proper (h : bench.Lasts executes bench') (proper : bench.Proper executes) :
    bench'.Proper executes :=
  (h proper).proper

end Bench

namespace Backend

variable {backend : Backend}

/-- A session of a backend whose operations are noted. -/
abbrev Noted (backend : Backend) (υ : Type) := Session backend.State (Journal backend.State υ)

/-- The journal has grown, and the script is where it says. -/
structure Follows (backend : Backend) (session session' : backend.Noted υ) : Prop where
  events : session.client.events <:+ session'.client.events
  brackets : backend.Brackets session → backend.Brackets session'

instance : IsPreorder (backend.Noted υ) backend.Follows where
  refl _ := ⟨List.suffix_rfl, id⟩
  trans _ _ _ h₁ h₂ := ⟨h₁.events.trans h₂.events, h₂.brackets ∘ h₁.brackets⟩

namespace Follows

variable {session : backend.Noted υ}

/-- Only the bench has changed. -/
theorem of_bench {bench' : Bench}
    (proper : session.bench.Proper backend.executes → bench'.Proper backend.executes)
    (rooted : session.bench.Proper backend.executes →
      backend.Rooted session.backend session.bench session.client.events →
      backend.Rooted session.backend bench' session.client.events) :
    backend.Follows session { session with bench := bench' } where
  events := List.suffix_rfl
  brackets h := ⟨h.bracketed, h.ready, proper h.proper, rooted h.proper h.rooted⟩

theorem of_anchored {bench' : Bench} (h : session.bench.Anchored backend.executes bench') :
    backend.Follows session { session with bench := bench' } :=
  of_bench h.proper fun _ rooted => rooted.steady h.root h.owner

/-- Only what has nothing to do with the script has changed. -/
theorem beside {state : backend.State}
    (ready : backend.MayStart state → backend.MayStart session.backend)
    (rooted : ∀ bench events, backend.Rooted session.backend bench events →
      backend.Rooted state bench events) :
    backend.Follows session { session with backend := state } where
  events := List.suffix_rfl
  brackets h := ⟨h.bracketed, h.ready ∘ ready, h.proper, rooted _ _ h.rooted⟩

/-- Units are discarded from the inside. -/
theorem abandon (session : backend.Noted υ) {count : Nat}
    (safe : 0 < count ∨ backend.executes = false) :
    backend.Follows session { session with bench := session.bench.abandon count } := by
  have lasts : session.bench.Lasts backend.executes (session.bench.abandon count) :=
    Bench.lasts_abandon _ _
  refine of_bench lasts.proper fun proper rooted => ?_
  by_cases positive : 0 < count
  · exact rooted.steady (Bench.sameRoot_abandon positive) (lasts proper).units.owner
  · obtain rfl : count = 0 := Nat.eq_zero_of_not_pos positive
    cases backend with
    | immediate fuel => exact Bool.noConfusion (safe.resolve_left positive)
    | recording => exact fun id kind root => by simp [Bench.root?_abandon_zero] at root

end Follows

/-! ## Computations -/

section Computations

variable {session : backend.Noted υ}

theorem follows_onBench (backend : Backend) {action : BenchM α}
    (h : Moves (Bench.Anchored backend.executes) action) :
    Moves backend.Follows (Work.onBench action : Work _ (Journal backend.State υ) α) :=
  fun session => Work.ends_onBench ((h session.bench).mono (fun _ _ => .of_anchored)
    fun _ _ => .of_anchored)

theorem stepwise (backend : Backend) : Stepwise (β := backend.State) (υ := Journal backend.State υ)
    (fun {α} (action : Work backend.State (Journal backend.State υ) α) =>
      Moves backend.Follows action) where
  toSequenced := Moves.sequenced
  target := follows_onBench _ Bench.Appending.moves_target
  emit _ _ _ _ := follows_onBench _ ((Bench.anchored _).emit _ _)
  emitJump _ _ :=
    follows_onBench _ ((Bench.anchored _).build fun builder => builder.checked_emitJump _ _)
  emitJumpBack _ _ _ := follows_onBench _ ((Bench.anchored _).build fun builder =>
    .bind (builder.checked_emit _ _) fun _ => .ok _)
  patchHere _ := Moves.sequenced.patchHere (follows_onBench _ Bench.Appending.moves_target)
    (follows_onBench _ ((Bench.anchored _).modifyBuilder _))
  resetTo _ := follows_onBench _ ((Bench.anchored _).modifyBuilder _)

/-- Nested code discards what it has opened itself. -/
theorem follows_nested {region : Work backend.State (Journal backend.State υ) α}
    (h : Moves backend.Follows region) (safe : session.bench.Occupied ∨ backend.executes = false) :
    Ends (Work.nested region) session (fun _ => backend.Follows session)
      fun _ => backend.Follows session := by
  have entered : backend.Follows session { session with bench := session.bench.enterRegion } :=
    .of_anchored session.bench.anchored_enterRegion
  have exits {session' : backend.Noted υ}
      (reached : backend.Follows { session with bench := session.bench.enterRegion } session') :
      backend.Follows session { session' with bench := session'.bench.exitRegion } :=
    trans_of backend.Follows (trans_of backend.Follows entered reached)
      (.of_anchored session'.bench.anchored_exitRegion)
  refine Work.ends_nested (refl_of backend.Follows session) ((h _).mono (fun _ _ => exits) ?_)
  intro _ session' reached
  exact trans_of backend.Follows (exits reached) (Follows.abandon
    { session' with bench := session'.bench.exitRegion } (safe.imp_left Bench.occupied_iff.mp))

/-- Where a block or a method may be recorded: inside the script, or at a call that is issued
while no unit is open. -/
def Opens (session : backend.Noted υ) (kind : UnitKind) : Prop :=
  session.bench.Occupied ∨ kind = .closure ∧ backend.Stray session.client.events

theorem Opens.safe {kind : UnitKind} (h : Opens session kind) :
    0 < session.bench.units.size ∨ backend.executes = false := by
  refine h.imp Bench.occupied_iff.mp fun ⟨_, stray⟩ => ?_
  cases backend with
  | recording => rfl
  | immediate fuel => exact stray.elim

theorem follows_closeUnit (backend : Backend) {kind : UnitKind} (inner : kind ≠ .script) (handle : UnitHandle) :
    Moves backend.Follows
      (Work.onBench (Bench.closeUnit handle kind) : Work _ (Journal backend.State υ) UInt32) := by
  intro session
  have lasts : Moves (Bench.Lasts backend.executes) (Bench.closeUnit handle kind) :=
    Bench.moves_closeUnit handle kind
  have closes := session.bench.ends_closeUnit_units handle kind
  refine Work.ends_onBench (Ends.intro (fun _ bench' run => ?_) fun _ bench' run => ?_)
  · exact .of_bench (lasts.ok run).proper fun proper rooted =>
      rooted.closing (.inl inner) (closes.ok run) ((lasts.ok run) proper).units.owner
  · rcases closes.error run with rfl | closed
    · exact refl_of backend.Follows session
    · exact .of_bench (lasts.error run).proper fun proper rooted =>
        rooted.closing (.inl inner) closed ((lasts.error run) proper).units.owner

theorem follows_openUnit {kind : UnitKind} (inner : kind ≠ .script) (opens : Opens session kind)
    (name : String) (arity localCount : Nat) (locals : List String) :
    Ends (Work.onBench (Bench.openUnit kind name arity localCount locals)) session
      (fun _ => backend.Follows session) fun _ => backend.Follows session := by
  have lasts : Moves (Bench.Lasts backend.executes)
      (Bench.openUnit kind name arity localCount locals) :=
    Bench.moves_openUnit (absurd · inner) name arity localCount locals
  have units := session.bench.ends_openUnit_units kind name arity localCount locals
  refine Work.ends_onBench (Ends.intro (fun _ bench' run => ?_) fun _ bench' run => ?_)
  · obtain ⟨unit, opened, hkind⟩ := units.ok run
    refine .of_bench (lasts.ok run).proper fun proper rooted => ?_
    by_cases occupied : session.bench.units.units = []
    · obtain ⟨rfl, stray⟩ := opens.resolve_left (fun h => h occupied)
      cases backend with
      | immediate fuel => exact stray.elim
      | recording =>
          intro id kind root
          rw [occupied] at opened
          rw [Bench.root?_of_single opened, hkind] at root
          cases root
          exact .inr ⟨rfl, stray⟩
    · exact rooted.steady (Bench.sameRoot_opened opened occupied)
        ((lasts.ok run) proper).units.owner
  · exact .of_bench (lasts.error run).proper fun proper rooted =>
      rooted.steady (.of_units (units.error run)) ((lasts.error run) proper).units.owner

theorem follows_recordUnit {kind : UnitKind} (inner : kind ≠ .script) (opens : Opens session kind)
    {body : Work backend.State (Journal backend.State υ) Unit} (h : Moves backend.Follows body)
    (name : String) (arity localCount : Nat) (locals : List String) :
    Ends (Work.recordUnit kind name arity localCount locals body) session
      (fun _ => backend.Follows session) fun _ => backend.Follows session := by
  refine Ends.get ((follows_openUnit inner opens name arity localCount locals).bind
    fun handle session₁ reached => Work.ends_cleaning ?_)
  refine ((h.bind fun _ => follows_closeUnit _ inner handle).after reached).mono (fun _ _ => id) ?_
  exact fun _ session₂ reached => trans_of backend.Follows reached (.abandon session₂ opens.safe)

theorem follows_recordBlock (opens : Opens session .closure)
    {body : Work backend.State (Journal backend.State υ) Unit} (h : Moves backend.Follows body)
    (scope : StaticScope) (arity : Nat) :
    Ends (Work.recordBlock scope arity body) session
      (fun _ => backend.Follows session) fun _ => backend.Follows session :=
  Ends.get (follows_recordUnit (by nofun) opens h _ _ _ _)

theorem follows_recordBlock? (opens : Opens session .closure)
    {block : Option (BlockBody (backend.Noted υ))}
    (h : ∀ given, block = some given → Moves backend.Follows given.body) :
    Ends (Work.recordBlock? block) session
      (fun _ => backend.Follows session) fun _ => backend.Follows session := by
  cases block with
  | none => exact Ends.pure (refl_of backend.Follows session)
  | some given =>
      exact (follows_recordBlock opens (h given rfl) _ _).bind fun _ _ reached => Ends.pure reached

theorem follows_emitCall (opens : Opens session .closure)
    {block : Option (BlockBody (backend.Noted υ))}
    (h : ∀ given, block = some given → Moves backend.Follows given.body) (name : String)
    (shape : Invocation) : Ends (Work.emitCall name shape block) session
      (fun _ => backend.Follows session) fun _ => backend.Follows session :=
  (follows_recordBlock? opens h).bind fun _ _ =>
    (follows_onBench _ ((Bench.anchored _).appending.emitSend _ _ _ _)).after

/-- Code of an operation with nested code in the same unit. -/
theorem follows_emit {control : Control (backend.Noted υ)}
    (parts : ∀ part, control.Has part → Moves backend.Follows part)
    (safe : session.bench.Occupied ∨ backend.executes = false) :
    Ends control.emit session (fun _ => backend.Follows session)
      fun _ => backend.Follows session := by
  obtain ⟨region, emits, follows⟩ := (stepwise backend).region control parts
  rw [emits]
  exact follows_nested follows safe

end Computations

/-! ## Replies -/

section Replies

variable {session : backend.Noted υ} {name : String}

/-- The session once it is noted that an operation is issued. -/
def issued (session : backend.Noted υ) (name : String) : backend.Noted υ :=
  session.note (session.event name session.client.events.length .issued)

theorem Brackets.issued (h : backend.Brackets session) (name : String) :
    backend.Brackets (Backend.issued session name) where
  bracketed := h.bracketed.cons nofun nofun
  ready free := (h.ready free).cons nofun
  proper := h.proper
  rooted := h.rooted.mono (List.subset_cons_self ..)

/-- What a reply needs to say when it is not the one that opens the script. -/
theorem Follows.reply {session' : backend.Noted υ} {occasion : Occasion}
    (events : (Backend.issued session name).client.events <:+ session'.client.events)
    (brackets : backend.Brackets session →
      backend.Bracketed session'.client.events ∧ session'.bench.Proper backend.executes ∧
      backend.Rooted session'.backend session'.bench session'.client.events ∧
      (backend.MayStart session'.backend → backend.Ready
        (session'.event name session.client.events.length occasion :: session'.client.events)))
    (other : occasion = .succeeded → name ≠ "start_script")
    (attended : backend.Brackets session → occasion = .succeeded →
      session.bench.Occupied ∧ (name ≠ "end_script" → session'.bench.Occupied)) :
    backend.Follows session
      (session'.note (session'.event name session.client.events.length occasion)) where
  events := (List.suffix_cons _ _).trans (events.trans (List.suffix_cons _ _))
  brackets h := by
    obtain ⟨bracketed, proper, rooted, ready⟩ := brackets h
    refine ⟨bracketed.cons (fun started => absurd started.1 (other started.2)) ?_, ready, proper,
      rooted.mono (List.subset_cons_self ..)⟩
    intro succeeded _
    obtain ⟨occupied, left⟩ := attended h succeeded
    obtain ⟨between, split⟩ := events
    exact ⟨fun goes_on => rooted.admits (left goes_on), between, _, session.client.events, split.symm,
      rfl, rfl, rfl, (h.issued name).rooted.admits occupied⟩

/-- An operation that has failed has followed the script so far. -/
theorem Follows.failed {session' : backend.Noted υ}
    (reached : backend.Follows (Backend.issued session name) session') (halt : Halt CompileError) :
    backend.Follows session
      (session'.note (session'.event name session.client.events.length (.failed halt))) :=
  .reply reached.events (fun brackets =>
    have brackets' := reached.brackets (brackets.issued name)
    ⟨brackets'.bracketed, brackets'.proper, brackets'.rooted,
      fun free => (brackets'.ready free).cons fun started => Occasion.noConfusion started.2⟩)
    (fun succeeded => by cases succeeded) fun _ succeeded => by cases succeeded

/-- An operation that neither opens nor closes the script, with its journal. -/
theorem follows_journaled {operation : Work backend.State (Journal backend.State υ) α}
    (other : name ≠ "start_script")
    (h : Ends operation (Backend.issued session name)
      (fun _ => backend.Follows (Backend.issued session name))
      fun _ => backend.Follows (Backend.issued session name))
    (attended : backend.Brackets session → Ensures operation (Backend.issued session name)
      fun _ session' => session.bench.Occupied ∧ (name ≠ "end_script" → session'.bench.Occupied)) :
    Ends (Work.journaled name operation) session (fun _ => backend.Follows session)
      fun _ => backend.Follows session := by
  refine Work.ends_journaled (Ends.intro (fun value session' run => ?_)
    fun halt _ run => .failed (h.error run) halt)
  have reached := h.ok run
  refine .reply reached.events (fun brackets => ?_) (fun _ => other)
    fun brackets _ => attended brackets value session' run
  have brackets' := reached.brackets (brackets.issued name)
  exact ⟨brackets'.bracketed, brackets'.proper, brackets'.rooted,
    fun free => (brackets'.ready free).cons fun started => other started.1⟩

/-- The script has been opened. -/
theorem Follows.started {session' : backend.Noted υ}
    (client : session'.client = (Backend.issued session "start_script").client)
    (free : backend.MayStart session.backend) (taken : ¬backend.MayStart session'.backend)
    (brackets : backend.Brackets session → session'.bench.Proper backend.executes ∧
      backend.Rooted session'.backend session'.bench session'.client.events) :
    backend.Follows session (session'.note
      (session'.event "start_script" session.client.events.length .succeeded)) where
  events := by
    have grown : session.client.events <:+ session'.client.events :=
      client ▸ List.suffix_cons _ _
    exact grown.trans (List.suffix_cons _ _)
  brackets h := by
    have issued := h.issued "start_script"
    obtain ⟨proper, rooted⟩ := brackets h
    refine ⟨Bracketed.cons (client ▸ issued.bracketed) (fun _ => client ▸ issued.ready free)
      fun _ other => absurd rfl other, fun again => absurd again taken, proper,
      rooted.mono (List.subset_cons_self ..)⟩

end Replies

end Backend

/-! ## The bytecode backend -/

namespace Recorder

open Backend (Follows Noted Opens issued)

variable {session : Noted .recording υ}

theorem follows_poison (error : CompileError) (session : Noted .recording υ) :
    Follows .recording session { session with backend := Recorder.poison error session.backend } :=
  .beside (fun free => (poison_script session.backend error).symm.trans free) fun _ _ => id

/-- A failure may be remembered. -/
theorem follows_checked {operation : Work Recorder (Journal Recorder υ) α}
    (h : Ends operation session (fun _ => Follows .recording session)
      fun _ => Follows .recording session) :
    Ends (checked operation) session (fun _ => Follows .recording session)
      fun _ => Follows .recording session := by
  refine ends_checked (fun _ _ => refl_of (Follows .recording) session) fun _ =>
    h.mono (fun _ _ => id) fun halt session' reached => ?_
  cases halt with
  | failure error => exact trans_of (Follows .recording) reached (follows_poison error session')
  | outOfFuel => exact reached

/-- An operation that needs a unit that is recorded. -/
theorem follows_targeted {next : Work Recorder (Journal Recorder υ) α}
    (h : session.bench.Occupied → Ends next session (fun _ => Follows .recording session)
      fun _ => Follows .recording session) :
    Ends (checked do let _ ← Work.onBench Bench.target; next) session
      (fun _ => Follows .recording session) fun _ => Follows .recording session := by
  have targets : Ends (Work.onBench Bench.target) session
      (fun _ session' => session' = session ∧ session.bench.Occupied)
      fun _ => Follows .recording session := by
    refine Work.ends_onBench (Bench.ends_target.mono ?_ ?_)
    · rintro _ _ ⟨rfl, slot, found⟩
      exact ⟨rfl, .of_recording found⟩
    · rintro _ _ ⟨-, rfl⟩
      exact refl_of (Follows .recording) session
  refine follows_checked (targets.bind ?_)
  rintro _ _ ⟨rfl, occupied⟩
  exact h occupied

/-- An operation that neither opens nor closes the script. -/
theorem follows_issue {operation : Operation (Noted .recording υ) α} (other : ¬operation.SetsScript)
    (parts : ∀ part, operation.Has part → Moves (Follows .recording) part)
    (stray : session.bench.units.units = [] → operation.name = Work.callOperation →
      Backend.Stray .recording session.client.events) :
    Ends (operation.issue (contract (Journal Recorder υ))) session
      (fun _ => Follows .recording session) fun _ => Follows .recording session := by
  have onBench {γ : Type} {action : BenchM γ} (h : Moves (Bench.Anchored false) action) :
      Moves (Follows .recording) (Work.onBench action : Work Recorder (Journal Recorder υ) γ) :=
    Backend.follows_onBench .recording h
  cases operation with
  | startScript => exact (other trivial).elim
  | endScript => exact (other trivial).elim
  | beginMethod name arity localCount =>
      exact follows_targeted fun occupied =>
        Backend.follows_openUnit (by nofun) (.inl occupied) _ _ _ _
  | endMethod handle =>
      exact follows_checked (((Backend.follows_closeUnit .recording (by nofun) handle).bind
        fun _ => .pure _) session)
  | primitive p => exact follows_checked (onBench ((Bench.anchored _).emitPrimitive p) session)
  | control inner =>
      have emits : Ends (checked inner.emit) session (fun _ => Follows .recording session)
          fun _ => Follows .recording session :=
        follows_checked (Backend.follows_emit parts (.inr rfl))
      cases inner <;> exact emits
  | invoke name shape block =>
      have opens : Opens session .closure := by
        by_cases occupied : session.bench.units.units = []
        · exact .inr ⟨rfl, stray occupied rfl⟩
        · exact .inl occupied
      exact follows_checked (Backend.follows_emitCall opens
        (fun given h => parts _ ⟨given, h, rfl⟩) name shape)
  | closure scope arity body =>
      exact follows_targeted fun occupied => (Backend.follows_recordBlock (.inl occupied)
        (parts _ rfl) _ _).bind fun _ _ => (onBench ((Bench.anchored _).emit _ _)).after
  | defineMethod name arity localCount body =>
      exact follows_targeted fun occupied => (Backend.follows_recordUnit (by nofun) (.inl occupied)
        (parts _ rfl) _ _ _ _).bind fun _ _ => (onBench
          ((Bench.anchored _).appending.emitPooled _ _ (fun _ => rfl) fun _ => rfl)).after

end Recorder

/-! ## The immediate backend -/

namespace Interpreter

open Backend (Follows Noted)

variable {fuel : Nat} {session : Noted (.immediate fuel) υ}

theorem follows_setStack (values : List Value) : Moves (Follows (.immediate fuel))
    (setStack values : Work Interpreter (Journal Interpreter υ) Unit) :=
  .modifies fun _ => .beside id fun _ _ => id

theorem follows_stack : Moves (Follows (.immediate fuel))
    (stack : Work Interpreter (Journal Interpreter υ) (List Value)) :=
  fun session => refl_of (Follows (.immediate fuel)) session

theorem follows_pop (operation : String) : Moves (Follows (.immediate fuel))
    (pop operation : Work Interpreter (Journal Interpreter υ) Value) := by
  have steps := Backend.stepwise (υ := υ) (.immediate fuel)
  refine follows_stack.bind fun values => ?_
  cases values with
  | nil => exact steps.violate _
  | cons value rest => exact (follows_setStack rest).bind fun _ => .pure value

/-- An operation that needs an open unit. -/
theorem follows_opened {action : Work Interpreter (Journal Interpreter υ) α}
    (h : session.bench.Occupied → Ends action session (fun _ => Follows (.immediate fuel) session)
      fun _ => Follows (.immediate fuel) session) :
    Ends (do ensureOpen; action) session (fun _ => Follows (.immediate fuel) session)
      fun _ => Follows (.immediate fuel) session := by
  have opens : Ends ensureOpen session
      (fun _ session' => session' = session ∧ session.bench.Occupied)
      fun _ => Follows (.immediate fuel) session :=
    Ends.get (Ends.ite (fun _ => Work.ends_violate (refl_of (Follows (.immediate fuel)) session))
      fun some_open => Ends.pure ⟨rfl, by simpa [Bench.Occupied] using some_open⟩)
  refine opens.bind ?_
  rintro _ _ ⟨rfl, occupied⟩
  exact h occupied

/-- An operation is recorded or carried out. -/
theorem follows_either {recorded live : Work Interpreter (Journal Interpreter υ) α}
    (h₁ : session.bench.Occupied → Ends recorded session
      (fun _ => Follows (.immediate fuel) session) fun _ => Follows (.immediate fuel) session)
    (h₂ : session.bench.Occupied → Ends live session
      (fun _ => Follows (.immediate fuel) session) fun _ => Follows (.immediate fuel) session) :
    Ends (do ensureOpen; if ← recording then recorded else live) session
      (fun _ => Follows (.immediate fuel) session) fun _ => Follows (.immediate fuel) session :=
  follows_opened fun occupied => Ends.get (Ends.ite (fun _ => h₁ occupied) fun _ => h₂ occupied)

theorem follows_perform (budget : Nat) (operation : String) (op : Op) :
    Moves (Follows (.immediate fuel))
      (perform budget operation op : Work Interpreter (Journal Interpreter υ) Unit) := by
  have steps := Backend.stepwise (υ := υ) (.immediate fuel)
  have executes : Moves (Follows (.immediate fuel)) (do
      execute budget op (← Work.bench).currentLine :
      Work Interpreter (Journal Interpreter υ) Unit) :=
    steps.bind steps.bench fun _ session => ends_execute (Ends.intro
      (fun _ _ _ => .beside id fun _ _ => id) fun _ _ _ => .beside id fun _ _ => id)
  refine fun session => follows_either
    (fun _ => Backend.follows_onBench (.immediate fuel) ((Bench.anchored _).emit _ _) session)
    fun _ => ?_
  exact steps.bind follows_stack (fun _ => .ite
    (fun _ => steps.bind (steps.violate _) fun _ => executes) fun _ => executes) session

theorem follows_direct (fuel budget : Nat) : Direct (υ := Journal Interpreter υ) budget
    (fun {α} (action : Work Interpreter (Journal Interpreter υ) α) =>
      Moves (Follows (.immediate fuel)) action) where
  pure := .pure
  bind := .bind
  bench := Work.moves_bench
  fail _ := .throws _
  breakOff := .throws _
  look _ := fun session => refl_of (Follows (.immediate fuel)) session
  pop := follows_pop
  collapse operation _ := follows_perform budget operation _
  perform operation _ _ _ := follows_perform budget operation _
  intern _ := Backend.follows_onBench _ ((Bench.anchored _).appending.intern _)
  checkScopeDepth _ := Backend.follows_onBench _ ((Bench.anchored _).appending.checkScopeDepth _)
  emitYield _ _ := Backend.follows_onBench _ ((Bench.anchored _).appending.emitYield _ _)

theorem follows_primitive (budget : Nat) (p : Primitive) : Moves (Follows (.immediate fuel))
    (primitive budget p : Work Interpreter (Journal Interpreter υ) Unit) := by
  have steps := follows_direct (υ := υ) fuel budget
  refine steps.primitive p ?_
  rintro line rfl
  exact steps.mark (fun _ => Backend.follows_onBench _ ((Bench.anchored _).setLine _))
    (fun _ => .modifies fun session => .of_anchored ((Bench.anchored _).rest session.bench _ _)) line

/-- Nested code is run at script level, inside the script. -/
theorem follows_control {control : Control (Noted (.immediate fuel) υ)}
    (parts : ∀ part, control.Has part → Moves (Follows (.immediate fuel)) part) :
    Ends (control.issue (contract (Journal Interpreter υ) fuel)) session
      (fun _ => Follows (.immediate fuel) session) fun _ => Follows (.immediate fuel) session := by
  have scripted := (follows_direct (υ := υ) fuel fuel).toScripted
  have emits (occupied : session.bench.Occupied) : Ends control.emit session
      (fun _ => Follows (.immediate fuel) session) fun _ => Follows (.immediate fuel) session :=
    Backend.follows_emit parts (.inl occupied)
  -- The value that is taken before nested code runs does not change the open units.
  have takes (operation : String) (occupied : session.bench.Occupied) : Ends (pop operation) session
      (fun _ session' => Follows (.immediate fuel) session session' ∧ session'.bench.Occupied)
      fun _ => Follows (.immediate fuel) session :=
    (follows_pop operation session).ensured fun _ session' run =>
      have keeps : Moves Session.Still (pop operation : Work Interpreter _ Value) :=
        moves_pop operation
      occupied.still (keeps.ok run)
  have nests {region : Work Interpreter (Journal Interpreter υ) Unit}
      (runs : Moves (Follows (.immediate fuel)) region) {session₁ : Noted (.immediate fuel) υ}
      (reached : Follows (.immediate fuel) session session₁) (occupied : session₁.bench.Occupied) :
      Ends (Work.nested region) session₁ (fun _ => Follows (.immediate fuel) session)
        fun _ => Follows (.immediate fuel) session :=
    (Backend.follows_nested runs (.inl occupied)).mono
      (fun _ _ => trans_of (Follows (.immediate fuel)) reached)
      fun _ _ => trans_of (Follows (.immediate fuel)) reached
  cases control with
  | branch onTrue onFalse =>
      refine follows_either emits fun occupied => (takes _ occupied).bind ?_
      rintro condition session₁ ⟨reached, occupied₁⟩
      have arm : Moves (Follows (.immediate fuel)) (if condition.isTruthy then onTrue else onFalse) :=
        .ite (fun _ => parts _ (.inl rfl)) fun _ => parts _ (.inr rfl)
      exact Ends.get ((nests arm reached occupied₁).bind fun _ _ =>
        (scripted.ensureSameUnit _ _).after)
  | logical connective right =>
      refine follows_either emits fun occupied => Ends.get ?_
      cases values : session.backend.top.stack with
      | nil => exact scripted.violate _ session
      | cons left rest =>
          refine Ends.ite (fun _ => (takes _ occupied).bind ?_)
            fun _ => Ends.pure (refl_of (Follows (.immediate fuel)) session)
          rintro _ session₁ ⟨reached, occupied₁⟩
          exact nests (scripted.bind (scripted.runRegion _ _ (parts _ rfl)) fun _ => scripted.pure _)
            reached occupied₁
  | loop condition body checkFirst =>
      exact follows_either emits fun occupied => Backend.follows_nested
        (scripted.passes (parts _ (.inl rfl)) (parts _ (.inr rfl)) fuel checkFirst) (.inl occupied)
  | array count element =>
      have produces := scripted.forEachIndex (fun index => scripted.bind
        (scripted.runRegion (Work.arrayOperation ++ " element") .one (parts _ ⟨index, rfl⟩))
        fun _ => scripted.pure ()) 0 count
      exact follows_either emits fun occupied => (Backend.follows_nested produces
        (.inl occupied)).bind fun _ _ => (follows_perform _ _ _).after

/-- An operation that neither opens nor closes the script. -/
theorem follows_issue {operation : Operation (Noted (.immediate fuel) υ) α}
    (other : ¬operation.SetsScript)
    (parts : ∀ part, operation.Has part → Moves (Follows (.immediate fuel)) part) :
    Ends (operation.issue (contract (Journal Interpreter υ) fuel)) session
      (fun _ => Follows (.immediate fuel) session) fun _ => Follows (.immediate fuel) session := by
  have interns := (follows_direct (υ := υ) fuel fuel).intern
  cases operation with
  | startScript => exact (other trivial).elim
  | endScript => exact (other trivial).elim
  | beginMethod name arity localCount =>
      exact follows_opened fun occupied =>
        Backend.follows_openUnit (by nofun) (.inl occupied) _ _ _ _
  | endMethod handle =>
      exact ((Backend.follows_closeUnit (.immediate fuel) (by nofun) handle).bind
        fun _ => .pure _) session
  | primitive p => exact follows_primitive fuel p session
  | control inner => exact follows_control parts
  | invoke name shape block =>
      have bodies (given : BlockBody (Noted (.immediate fuel) υ)) (h : block = some given) :
          Moves (Follows (.immediate fuel)) given.body := parts _ ⟨given, h, rfl⟩
      have calls (occupied : session.bench.Occupied) :=
        (Backend.follows_recordBlock? (.inl occupied) bodies).bind fun slot _ =>
          ((interns (.name name)).bind fun position => follows_perform fuel Work.callOperation
            (.send position shape.argc.toUInt32 shape.hasReceiver slot)).after
      refine follows_either (fun occupied => Backend.follows_emitCall (.inl occupied) bodies name shape)
        fun occupied => Ends.get (Ends.ite (fun _ => ?_) fun _ => calls occupied)
      exact (Work.ends_violate (refl_of (Follows (.immediate fuel)) session)).halts
  | closure scope arity body =>
      exact follows_opened fun occupied => (Backend.follows_recordBlock (.inl occupied)
        (parts _ rfl) _ _).bind fun _ _ => (follows_perform _ _ _).after
  | defineMethod name arity localCount body =>
      exact follows_opened fun occupied => (Backend.follows_recordUnit (by nofun) (.inl occupied)
        (parts _ rfl) _ _ _ _).bind fun _ _ =>
          ((interns _).bind fun _ => follows_perform _ _ _).after

end Interpreter

end BlockScript
