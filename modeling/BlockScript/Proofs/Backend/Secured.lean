import BlockScript.Backend.Interpreter
import BlockScript.Proofs.Backend.Composed
import BlockScript.Proofs.Backend.Supports
import BlockScript.Proofs.Contract.Journal

/-!
# Sessions of the immediate backend that are sound

A session is sound when its bench is grounded, its world refers to settled code that was
installed before any unit that is open, and the script is the outermost unit. Soundness is lost
when a unit is closed that clashes, and a journal is clean as long as none was: it shows the
state in which such a unit was last seen and the one in which it is gone.

`Secures` is a triple about computations of a session that is journaled: what holds before and
what holds after, both if the journal is clean by then, and that a failure is no error of the
machine itself. A journal that is clean now was clean before, so triples compose like those
without a proviso; only a step that closes a unit has to look at the journal.
-/

namespace BlockScript

variable {υ α γ : Type}

/-- A failure that is no error of the machine itself. -/
def Halt.Harmless (halt : Halt CompileError) : Prop :=
  ∀ error line, halt = .failure (.runtime error line) → error.kind ≠ .internal

theorem CompileError.Static.harmless {error : CompileError} (h : error.Static) :
    (Halt.failure error).Harmless := by
  rintro error line ⟨⟩
  exact h.elim

/-- The position holds a finished code object that lies before the slots of these units. -/
def Bench.Holds (bench : Bench) (inner : List (Nat × Option Nat)) (position : UInt32) : Prop :=
  ∃ code, bench.seen inner position = some code ∧ code.ops ≠ #[]

namespace Interpreter

/-! ## Sound states -/

/-- The code table, the world and the activation of the script refer to nothing that is not
there. -/
structure Sound (bench : Bench) (backend : Interpreter) : Prop where
  grounded : bench.Grounded
  staged : bench.units.Staged backend.script
  anchored : backend.world.Anchored (bench.seen bench.places)
  alive : backend.top.Alive backend.world.heap

section Sound

variable {bench bench' : Bench} {backend : Interpreter} (h : Sound bench backend)

include h

theorem Sound.follow (sustained : bench.Sustained bench') : Sound bench' backend where
  grounded := sustained.grounded
  staged := sustained.staged _ h.staged
  anchored := h.anchored.mono
    (sustained.keeps.stands.retains (List.append_nil _).symm (List.append_nil _).symm)
  alive := h.alive

/-- At script level the script is the only open unit. -/
theorem Sound.script_only (idle : bench.recording? = none) (opened : bench.units.units ≠ []) :
    ∃ unit, bench.units.units = [unit] ∧ unit.payload = none ∧ unit.kind = .script := by
  obtain ⟨unit, outer, hunits⟩ := List.exists_cons_of_ne_nil opened
  have executed : unit.payload = none := by
    cases payload : unit.payload with
    | none => rfl
    | some recording =>
        rw [Bench.recording?_eq_some.mpr ⟨unit, outer, hunits, payload⟩] at idle
        cases idle
  obtain rfl := (h.staged.executed unit outer (hunits ▸ List.suffix_rfl)).mp executed
  obtain ⟨handle, -, -, -, kind⟩ := h.staged.outermost unit (hunits ▸ List.suffix_rfl)
  exact ⟨unit, hunits, executed, kind⟩

/-- Without the script no unit is open. -/
theorem Sound.none_open (ended : backend.script = none) : bench.units.units = [] := by
  rcases List.eq_nil_or_concat bench.units.units with empty | ⟨inner, unit, hunits⟩
  · exact empty
  · obtain ⟨handle, known, -⟩ := h.staged.outermost unit
      ⟨inner, (hunits.trans List.concat_eq_append).symm⟩
    rw [ended] at known
    cases known

end Sound

end Interpreter

/-- Without open recordings every code object is finished. -/
theorem Bench.Grounded.complete {bench : Bench} (h : bench.Grounded)
    (idle : Bench.slots bench.places = []) : bench.program.Complete where
  settled position code found := by
    have recorded : code.ops ≠ #[] := by
      rw [Ne, h.tabled.empty _ _ found, idle]
      exact List.not_mem_nil
    obtain ⟨around, settled⟩ := h.installed [] _ rfl position code
      (Bench.seen_nil bench ▸ found) recorded
    exact ⟨around, Bench.seen_nil bench ▸ settled⟩
  verified position code found := by
    refine h.verified position code found ?_
    rw [Ne, h.tabled.empty _ _ found, idle]
    exact List.not_mem_nil
  pooled := h.pooled

/-! ## What is noted -/

/-- The code object at the position is referred to by something that is left when the units at the
innermost places are discarded. -/
inductive Event.Refers (event : Event Interpreter) : List (Nat × Option Nat) → UInt32 → Prop
  | method {name : String} {position : UInt32} {arity : Nat}
      (found : event.backend.world.methods.get? name = some (.compiled position arity)) :
      Refers event event.bench.places position
  | block {proc : Proc} (member : proc ∈ event.backend.world.heap.procs) :
      Refers event event.bench.places proc.code
  | installed {inner outer : List (Nat × Option Nat)} {position target : UInt32} {code : Code}
      {op : Op} (places : event.bench.places = inner ++ outer)
      (found : event.bench.seen inner position = some code) (member : op ∈ code.ops)
      (names : op.codeRef? = some target) : Refers event inner target
  | recorded {inner outer : List (OpenUnit (Option Recording))}
      {unit : OpenUnit (Option Recording)} {slot target : UInt32} {builder : Builder} {op : Op}
      (units : event.bench.units.units = inner ++ unit :: outer)
      (payload : unit.payload = some ⟨slot, builder⟩) (member : op ∈ builder.code.ops)
      (names : op.codeRef? = some target) : Refers event (inner.map Bench.place) target

/-- The code table is as it should be. -/
structure Event.Integral (event : Event Interpreter) : Prop where
  /-- The slots that are not filled are those of the units that are recording. -/
  claimed : ∀ position ∈ Bench.slots event.bench.places, position < event.bench.program.code.size
  unfilled : ∀ (position : Nat) code, event.bench.program.code[position]? = some code →
    (code.ops = #[] ↔ position ∈ Bench.slots event.bench.places)
  /-- What may be shared is in its slot. -/
  recorded : ∀ entry ∈ event.bench.recorded, event.bench.program.code? entry.2 = some entry.1
  /-- What is referred to is there, and it stays at least as long as what refers to it. -/
  referred : ∀ inner target, event.Refers inner target → event.bench.Holds inner target
  /-- If the innermost unit is closed, the position that stands for it holds what it was finished
  as. -/
  filed : ∀ handle kind installed bench', Bench.closeUnit handle kind event.bench =
    .ok installed bench' → event.bench.Spares bench' → ∃ recording code,
      event.bench.recording? = some recording ∧ recording.builder.finish = .ok code ∧
        bench'.program.code? installed = some code

/-- What is known of an event, given those before it. -/
structure Event.Vouched (earlier : List (Event Interpreter)) (event : Event Interpreter) :
    Prop where
  integral : event.Integral
  /-- What was referred to is the same as long as the units are open that the reference depends
  on. -/
  unchanged : ∀ past ∈ earlier, ∀ inner inner' outer target, past.bench.places = inner ++ outer →
    event.bench.places = inner' ++ outer → past.Refers inner target →
      event.bench.Holds inner' target ∧
        event.bench.program.code? target = past.bench.program.code? target
  /-- No operation fails with an error of the machine itself. -/
  harmless : ∀ halt, event.occasion = .failed halt → halt.Harmless

/-- Up to this bench, no unit was closed or discarded in a state in which it clashed. -/
def Clean : List (Event Interpreter) → Bench → Prop
  | [], _ => True
  | event :: earlier, bench => event.bench.Spares bench ∧ Clean earlier event.bench

instance Clean.decidable : (events : List (Event Interpreter)) → (bench : Bench) →
    Decidable (Clean events bench)
  | [], _ => .isTrue trivial
  | event :: earlier, bench =>
    have := decidable earlier event.bench
    inferInstanceAs (Decidable (event.bench.Spares bench ∧ Clean earlier event.bench))

/-- Every event is vouched for if the journal was clean up to then. -/
def Trusted (events : List (Event Interpreter)) : Prop :=
  ∀ event earlier, (event :: earlier) <:+ events → Clean earlier event.bench →
    event.Vouched earlier

theorem Trusted.cons {events : List (Event Interpreter)} (h : Trusted events)
    {event : Event Interpreter} (vouched : Clean events event.bench → event.Vouched events) :
    Trusted (event :: events) := by
  intro found earlier suffix clean
  rcases List.suffix_cons_iff.mp suffix with heq | suffix
  · cases heq
    exact vouched clean
  · exact h found earlier suffix clean

/-- What was noted in a clean journal is vouched for. -/
theorem Trusted.past {events : List (Event Interpreter)} (h : Trusted events) {bench : Bench}
    (clean : Clean events bench) : ∀ past ∈ events, ∃ earlier, past.Vouched earlier := by
  induction events generalizing bench with
  | nil => exact fun past member => absurd member List.not_mem_nil
  | cons event events ih =>
      intro past member
      rcases List.mem_cons.mp member with rfl | member
      · exact ⟨events, h _ _ List.suffix_rfl clean.2⟩
      · exact ih (fun found earlier suffix => h found earlier (suffix.trans (List.suffix_cons ..)))
          clean.2 past member

theorem Settled.holds {bench : Bench} {inner : List (Nat × Option Nat)} {position : UInt32}
    {around : Nat} (h : Settled (bench.seen inner) position around) :
    bench.Holds inner position := by
  obtain ⟨code, found, recorded, -⟩ := h.finds
  exact ⟨code, found, recorded⟩

/-- What is noted of a sound state is as it should be. -/
theorem Interpreter.Sound.integral {event : Event Interpreter}
    (h : Sound event.bench event.backend) : event.Integral where
  claimed := h.grounded.tabled.claimed
  unfilled := h.grounded.tabled.empty
  recorded entry member := (h.grounded.tabled.recorded entry member).1
  referred inner target refers := by
    cases refers with
    | method found => exact (h.anchored.methods _ _ _ found).holds
    | block member =>
        obtain ⟨around, settled, -⟩ := h.anchored.procs _ member
        exact settled.holds
    | @installed _ outer position _ code op places found member names =>
        have recorded : code.ops ≠ #[] := fun empty => by simp [empty] at member
        obtain ⟨around, settled⟩ := h.grounded.installed inner outer places position code found recorded
        obtain ⟨code', found', -, finds⟩ := settled.finds
        cases found.symm.trans found'
        exact ((finds op member).refers target names).holds
    | @recorded inner outer unit slot _ builder op units payload member names =>
        have finds := (h.grounded.opened inner unit outer slot builder units payload op member).2
        exact (finds.refers target names).holds
  filed _ _ _ _ run spares :=
    Bench.InOrder.filed ⟨h.grounded.proper, h.grounded.tabled⟩ run spares

/-- What is referred to in a bench that was kept is referred to still. -/
theorem Event.Integral.unchanged {past : Event Interpreter} (h : past.Integral) {bench : Bench}
    (keeps : past.bench.Keeps bench) {inner inner' outer : List (Nat × Option Nat)} {target : UInt32}
    (before : past.bench.places = inner ++ outer) (after : bench.places = inner' ++ outer)
    (refers : past.Refers inner target) :
    bench.Holds inner' target ∧ bench.program.code? target = past.bench.program.code? target := by
  obtain ⟨code, found, recorded⟩ := h.referred inner target refers
  have found' := keeps.stands.retains before after target code found recorded
  refine ⟨⟨code, found', recorded⟩, ?_⟩
  rw [(Bench.seen_eq_some.mp found).2, (Bench.seen_eq_some.mp found').2]

/-! ## Triples -/

namespace Interpreter

/-- A session with a journal. -/
abbrev Watched (υ : Type) := Session Interpreter (Journal Interpreter υ)

/-- The journal can be trusted, and if it is clean, then the session is sound and the assertion
holds. -/
structure Asserts (assertion : Watched υ → Prop) (session : Watched υ) : Prop where
  order : session.bench.InOrder
  past : ∀ event ∈ session.client.events, event.bench.Keeps session.bench
  trusted : Trusted session.client.events
  holds : Clean session.client.events session.bench →
    Sound session.bench session.backend ∧ assertion session

/-- From a state that satisfies the first assertion the computation leads to one that satisfies
the second one, or it fails without harm. -/
def Secures (before : Watched υ → Prop) (action : Work Interpreter (Journal Interpreter υ) α)
    (after : α → Watched υ → Prop) : Prop :=
  ∀ session, Ends action session
    (fun value session' => Asserts before session → Asserts (after value) session')
    fun halt session' => Asserts before session → Asserts (fun _ => halt.Harmless) session'

/-- A computation that keeps sessions sound. -/
abbrev Secure (action : Work Interpreter (Journal Interpreter υ) α) : Prop :=
  Secures (fun _ => True) action fun _ _ => True

/-- A step that does not touch the journal. -/
structure Steps (before : Watched υ → Prop) (session : Watched υ) (assertion : Watched υ → Prop)
    (session' : Watched υ) : Prop where
  client : session'.client = session.client
  upholds : session.bench.Upholds session'.bench
  holds : Clean session.client.events session'.bench → Sound session.bench session.backend →
    before session → Sound session'.bench session'.backend ∧ assertion session'

variable {before before' : Watched υ → Prop} {session session' : Watched υ}
  {assertion : Watched υ → Prop} {action : Work Interpreter (Journal Interpreter υ) α}
  {after after' : α → Watched υ → Prop}

theorem Asserts.imp (h : Asserts before session) (implies : before session → before' session) :
    Asserts before' session :=
  ⟨h.order, h.past, h.trusted, fun clean => (h.holds clean).imp id implies⟩

/-- If no unit went away that clashed, then none had before. -/
theorem Asserts.cleaner (h : Asserts before session) {bench : Bench}
    (keeps : session.bench.Keeps bench) (clean : Clean session.client.events bench) :
    Clean session.client.events session.bench := by
  cases hevents : session.client.events with
  | nil => trivial
  | cons event earlier =>
      rw [hevents] at clean
      exact ⟨clean.1.earlier (h.past event (hevents ▸ List.mem_cons_self ..)) keeps, clean.2⟩

theorem Steps.asserts (step : Steps before session assertion session')
    (h : Asserts before session) : Asserts assertion session' := by
  obtain ⟨order, keeps⟩ := step.upholds h.order
  have client := step.client
  refine ⟨order, ?_, ?_, ?_⟩ <;> rw [client]
  · exact fun event member => (h.past event member).trans keeps
  · exact h.trusted
  · intro clean
    obtain ⟨sound, holds⟩ := h.holds (h.cleaner keeps clean)
    exact step.holds clean sound holds

/-- A step that does not touch the bench. -/
theorem Steps.beside (client : session'.client = session.client)
    (bench : session'.bench = session.bench)
    (holds : Sound session.bench session.backend → before session →
      Sound session.bench session'.backend ∧ assertion session') :
    Steps before session assertion session' where
  client := client
  upholds := bench ▸ refl_of Bench.Upholds session.bench
  holds _ sound start := bench ▸ holds sound start

namespace Secures

theorem mono (h : Secures before action after) (pre : ∀ session, before' session → before session)
    (post : ∀ value session, after value session → after' value session) :
    Secures before' action after' :=
  fun session => (h session).mono
    (fun value session' reached start => (reached (start.imp (pre session))).imp (post value session'))
    fun _ _ reached start => reached (start.imp (pre session))

theorem strengthen (h : Secures (fun _ => True) action after) : Secures before action after :=
  h.mono (fun _ _ => trivial) fun _ _ => id

theorem bind {next : α → Work Interpreter (Journal Interpreter υ) γ} {last : γ → Watched υ → Prop}
    (first : Secures before action after) (rest : ∀ value, Secures (after value) (next value) last) :
    Secures before (action >>= next) last :=
  fun session => (first session).bind fun value session₁ reached =>
    (rest value session₁).mono (fun _ _ reached' start => reached' (reached start))
      fun _ _ reached' start => reached' (reached start)

theorem pure {value : α} (h : ∀ session, before session → after value session) :
    Secures before (Pure.pure value) after :=
  fun session start => start.imp (h session)

theorem ite {c : Prop} [Decidable c] {yes no : Work Interpreter (Journal Interpreter υ) α}
    (h₁ : c → Secures before yes after) (h₂ : ¬c → Secures before no after) :
    Secures before (if c then yes else no) after :=
  fun session => Ends.ite (fun h => h₁ h session) fun h => h₂ h session

/-- What is looked at is the state as it is. -/
theorem get {next : Watched υ → Work Interpreter (Journal Interpreter υ) α}
    (h : ∀ seen, Secures (fun session => session = seen ∧ before session) (next seen) after) :
    Secures before (MonadStateOf.get >>= next) after := by
  refine fun session => Ends.get ((h session session).mono ?_ ?_) <;>
  · intro _ _ reached start
    exact reached (start.imp fun holds => ⟨rfl, holds⟩)

/-- A step that does not touch the journal. -/
theorem step (h : ∀ session, Ends action session
    (fun value session' => Steps before session (after value) session')
    fun halt session' => Steps before session (fun _ => halt.Harmless) session') :
    Secures before action after :=
  fun session => (h session).mono (fun _ _ => Steps.asserts) fun _ _ => Steps.asserts

theorem fail {error : CompileError} (static : error.Static) :
    Secures before (Work.fail error : Work Interpreter (Journal Interpreter υ) α) after :=
  .step fun _ => Work.ends_fail (.beside rfl rfl fun sound _ => ⟨sound, static.harmless⟩)

theorem violate (kind : Violation) :
    Secures before (Work.violate kind : Work Interpreter (Journal Interpreter υ) α) after :=
  .step fun _ => Work.ends_violate (.beside rfl rfl fun sound _ =>
    ⟨sound, CompileError.Static.harmless trivial⟩)

/-- A step on the bench. -/
theorem onBench {action : BenchM α} (upholds : Moves Bench.Upholds action)
    (h : ∀ session : Watched υ, Sound session.bench session.backend → before session →
      Ends action session.bench
        (fun value bench => Clean session.client.events bench →
          session.bench.Sustained bench ∧ after value { session with bench })
        fun error bench => session.bench.Sustained bench ∧ error.Static) :
    Secures before (Work.onBench action) after := by
  refine .step fun session => Work.ends_onBench (Ends.intro ?_ ?_)
  · refine fun value bench run => ⟨rfl, upholds.ok run, fun clean sound start => ?_⟩
    obtain ⟨sustained, holds⟩ := (h session sound start).ok run clean
    exact ⟨sound.follow sustained, holds⟩
  · refine fun error bench run => ⟨rfl, upholds.error run, fun _ sound start => ?_⟩
    obtain ⟨sustained, static⟩ := (h session sound start).error run
    exact ⟨sound.follow sustained, static.harmless⟩

/-- A step on the bench that grounded benches support. -/
theorem supported {action : BenchM α} (upholds : Moves Bench.Upholds action)
    (h : ∀ session : Watched υ, Sound session.bench session.backend → before session →
      session.bench.Supports action fun value bench => after value { session with bench }) :
    Secures before (Work.onBench action) after :=
  .onBench upholds fun session sound start =>
    Ends.mono (h session sound start) (fun _ _ reached _ => reached) fun _ _ => id

/-- A change of the bench. -/
theorem modifyBench {f : Bench → Bench} (upholds : ∀ bench : Bench, bench.Upholds (f bench))
    (h : ∀ bench : Bench, bench.Grounded → bench.Sustained (f bench)) :
    Secure (Work.modifyBench f : Work Interpreter (Journal Interpreter υ) Unit) :=
  .step fun _ => Ends.modifies ⟨rfl, upholds _, fun _ sound _ =>
    ⟨sound.follow (h _ sound.grounded), trivial⟩⟩

/-- The bench is cleaned up after a failure. -/
theorem cleaning {f : Bench → Bench} (h : Secures before action after)
    (upholds : ∀ bench : Bench, bench.Upholds (f bench))
    (cleans : ∀ bench : Bench, bench.Grounded → bench.Sustained (f bench)) :
    Secures before (action.cleaning f) after := by
  refine fun session => Work.ends_cleaning ((h session).mono (fun _ _ => id) ?_)
  intro halt session' reached start
  have cleaned : Steps (fun _ => halt.Harmless) session' (fun _ => halt.Harmless)
      { session' with bench := f session'.bench } :=
    ⟨rfl, upholds _, fun _ sound harmless => ⟨sound.follow (cleans _ sound.grounded), harmless⟩⟩
  exact cleaned.asserts (reached start)

theorem nested {region : Work Interpreter (Journal Interpreter υ) α} (h : Secure region) :
    Secure (Work.nested region) := by
  have enters : Secures (fun _ => True)
      (Work.onBench Bench.enter : Work Interpreter (Journal Interpreter υ) Unit) fun _ _ => True :=
    .supported Bench.upholds_enter fun _ sound _ => sound.grounded.supports_enter
  refine enters.bind fun _ => ?_
  have looks : Secures (fun _ => True) (Work.bench : Work Interpreter (Journal Interpreter υ) Bench)
      fun _ _ => True := .get fun _ => .pure fun _ _ => trivial
  refine looks.bind fun bench => ?_
  have exits (bench : Bench) : bench.Upholds bench.exitRegion := bench.upholds_nesting _
  have leaves (bench' : Bench) : bench'.Upholds (bench'.exitRegion.abandon bench.units.size) :=
    trans_of Bench.Upholds (exits bench') (Bench.lasts_abandon _ _).upholds
  have cleans (bench' : Bench) (grounded : bench'.Grounded) :
      bench'.Sustained (bench'.exitRegion.abandon bench.units.size) :=
    grounded.exitRegion.trans (grounded.exitRegion.grounded.abandon _)
  exact (h.cleaning leaves cleans).bind fun _ =>
    .bind (.modifyBench exits fun _ grounded => grounded.exitRegion) fun _ => .pure fun _ _ => trivial

theorem breakOff : Secures before (Work.breakOff : Work Interpreter (Journal Interpreter υ) α) after :=
  .step fun _ => Ends.throws (.beside rfl rfl fun sound _ => ⟨sound, nofun⟩)

theorem sequenced :
    Sequenced (fun {α} (action : Work Interpreter (Journal Interpreter υ) α) => Secure action) where
  pure _ := .pure fun _ _ => trivial
  bind := .bind
  bench := fun _ => id
  fail := .fail
  breakOff := breakOff

theorem target :
    Secure (Work.onBench Bench.target : Work Interpreter (Journal Interpreter υ) Builder) :=
  .supported (Bench.moves_upholds Bench.Appending.moves_target)
    fun _ sound _ => sound.grounded.supports_target.mono fun _ _ _ => trivial

theorem patchHere (patch : JumpPatch) :
    Secure (Work.patchHere patch : Work Interpreter (Journal Interpreter υ) Unit) :=
  sequenced.patchHere target (.supported (Bench.upholds_modifyBuilder _) fun session sound _ =>
    sound.grounded.supports_modifyBuilder fun _ all => all.patchHere fun offset =>
      Bench.admits_plain (Op.plain_jump patch.kind offset) session.bench)

/-- Whatever is emitted keeps sessions sound if its nested code does. -/
theorem compositional :
    Compositional (fun {α} (action : Work Interpreter (Journal Interpreter υ) α) => Secure action) where
  toSequenced := sequenced
  target := target
  emit operation op plain _ := .supported (Bench.moves_upholds (Bench.moves_emit operation op))
    fun session sound _ =>
      sound.grounded.supports_emit operation (Bench.admits_plain plain session.bench)
  emitJump operation kind :=
    .supported (Bench.upholds_build fun builder => builder.checked_emitJump _ _)
      fun _ sound _ => sound.grounded.supports_emitJump operation kind
  emitJumpBack operation kind label :=
    .supported (Bench.upholds_build fun builder => .bind (builder.checked_emit _ _) fun _ => .ok _)
      fun _ sound _ => sound.grounded.supports_emitJumpBack operation kind label
  patchHere := patchHere
  resetTo _ := .supported (Bench.upholds_modifyBuilder _)
    fun _ sound _ => sound.grounded.supports_modifyBuilder fun _ all => all
  nested := nested

end Secures

end Interpreter

end BlockScript
