import BlockScript.Proofs.Backend.Around
import BlockScript.Proofs.Backend.Inscribed
import BlockScript.Proofs.Backend.Restored

/-!
# The stretch of code that is recorded for an operation

The bytecode backend records every piece of nested code once, in its place. So the code that is
recorded for one operation of a script is one stretch of the code of the script, wherever the
operation stands. The recording that breaks off before the operation tells where the stretch
begins, and the one that breaks off after it tells where it ends. All of it is on the line that is
known where the operation begins.
-/

namespace BlockScript

variable {β υ α γ : Type} {unit : OpenUnit (Option Recording)}
  {outer : List (OpenUnit (Option Recording))} {slot : UInt32} {builder : Builder}
  {line : Option UInt32} {known known' middle entry exit : Known}

/-- This is known of the line that what is recorded next will be on. -/
def Builder.Knows (known : Known) (builder : Builder) : Prop :=
  builder.label < 2 ^ 32 → known (builder.code.lineFor builder.label)

theorem Builder.Knows.weaken {weaker : Known} (h : builder.Knows known)
    (implies : known.Implies weaker) : builder.Knows weaker :=
  fun small => implies _ (h small)

/-- What comes second ends in the same way when what comes first has succeeded. -/
theorem Ends.after {ε σ : Type} {first : EStateM ε σ α} {next : α → EStateM ε σ γ} {state state' : σ}
    {value : α} {done : γ → σ → Prop} {failed : ε → σ → Prop}
    (run : first state = .ok value state') (h : Ends (next value) state' done failed) :
    Ends (first >>= next) state done failed := by
  unfold Ends
  rwa [run_bind_ok run]

/-- A recording goes on from a builder to a later one, and all that is recorded between the two states
in the middle is on one line. -/
structure Builder.Stretch (line : Option UInt32) (builder first last builder' : Builder) : Prop where
  begins : builder.Retains first
  onLine : first.Knows (.exactly line)
  unmarked : first.Unmarked last
  goesOn : last.Retains builder'

namespace Builder.Stretch

variable {earlier first last builder' later : Builder}
  (stretch : builder.Stretch line first last builder')

include stretch

theorem after (h : earlier.Retains builder) : earlier.Stretch line first last builder' :=
  { stretch with begins := trans_of Retains h stretch.begins }

theorem before (h : builder'.Retains later) : builder.Stretch line first last later :=
  { stretch with goesOn := trans_of Retains stretch.goesOn h }

theorem listed (listed : builder.Listed) : builder'.Listed :=
  stretch.goesOn.listed (stretch.unmarked.listed (stretch.begins.listed listed))

theorem name : builder'.code.name = builder.code.name :=
  stretch.goesOn.name.trans (stretch.unmarked.name.trans stretch.begins.name)

/-- The positions of the stretch have its line ever after. -/
theorem lineFor (listed : builder.Listed) (small : builder'.label < 2 ^ 32) {ip : Nat}
    (above : first.label ≤ ip) (below : ip < last.label) : builder'.code.lineFor ip = line := by
  have listed₁ := stretch.begins.listed listed
  have small₂ : last.label < 2 ^ 32 := Nat.lt_of_le_of_lt stretch.goesOn.label small
  calc builder'.code.lineFor ip
      = last.code.lineFor ip := stretch.goesOn.lines (stretch.unmarked.listed listed₁) small ip below
    _ = first.code.lineFor first.label :=
      stretch.unmarked.lineFor listed₁ above (Nat.lt_trans below small₂)
    _ = line := stretch.onLine (Nat.lt_of_le_of_lt above (Nat.lt_trans below small₂))

end Builder.Stretch

namespace Work

/-! ## What is known while recording -/

/-- Whenever it succeeds, the computation has only gone on with the innermost recording. What was
recorded before keeps its lines, and from what is known of the line follows what is known after it. -/
def Brings (known known' : Known) (action : Work β υ α) : Prop :=
  ∀ (session : Session β υ) {unit outer slot builder}, session.bench.Shows unit outer slot builder →
    builder.Listed → builder.Knows known → Ensures action session fun _ session' =>
      ∃ builder', session'.bench.Shows unit outer slot builder' ∧ builder.Retains builder' ∧
        builder'.Knows known'

theorem tracks_brings : Tracks (β := β) (υ := υ)
    (fun {α} (action : Work β υ α) => Inscribes Builder.Unmarked action)
    (fun known known' {α} (action : Work β υ α) => Brings known known' action) where
  steps := (Inscribes.compositional Builder.inscribes_unmarked).toStepwise
  still h known := by
    refine fun session unit outer slot builder shows listed knows => (h session shows).mono ?_
    rintro _ session' ⟨builder', shows', unmarked⟩
    refine ⟨builder', shows', unmarked.retains, fun small => ?_⟩
    rw [unmarked.lineFor listed unmarked.label small]
    exact knows (Nat.lt_of_le_of_lt unmarked.label small)
  bind h₁ h₂ := by
    refine fun session unit outer slot builder shows listed knows =>
      (h₁ session shows listed knows).bind ?_
    rintro value session₁ ⟨builder₁, shows₁, retains₁, knows₁⟩
    refine (h₂ value session₁ shows₁ (retains₁.listed listed) knows₁).mono ?_
    rintro _ session₂ ⟨builder₂, shows₂, retains₂, knows₂⟩
    exact ⟨builder₂, shows₂, trans_of Builder.Retains retains₁ retains₂, knows₂⟩
  nested h := fun session _ _ _ _ shows listed knows => ensures_nested (h _ shows listed knows)
  consequence h implies follows := by
    refine fun session unit outer slot builder shows listed knows =>
      (h session shows listed (knows.weaken implies)).mono ?_
    rintro _ session' ⟨builder', shows', retains, knows'⟩
    exact ⟨builder', shows', retains, knows'.weaken follows⟩

/-! ## Where recording breaks off -/

/-- The computation breaks off with this builder in the innermost unit. -/
def Stops (action : Work β υ α) (session : Session β υ) (unit : OpenUnit (Option Recording))
    (outer : List (OpenUnit (Option Recording))) (slot : UInt32) (builder : Builder) : Prop :=
  Ends action session (fun _ _ => False) fun _ session' =>
    session'.bench.Shows unit outer slot builder

/-- A region that breaks off leaves no other units open. -/
theorem Stops.nested {whole region : Work β υ α} {session session' : Session β υ} {value : α}
    (opens : Work.nested whole session = .ok value session') {builder' : Builder}
    (shows : session.bench.Shows unit outer slot builder')
    (h : region.Stops { session with bench := session.bench.enterRegion } unit outer slot builder) :
    (Work.nested region).Stops session unit outer slot builder := by
  have room : session.bench.units.size + session.bench.units.nesting + 1 ≤
      session.bench.units.maxNesting := by
    have inside : Ends (Work.nested whole) session (fun _ _ => session.bench.units.size +
        session.bench.units.nesting + 1 ≤ session.bench.units.maxNesting) fun _ _ => True :=
      ends_nested_within (fun _ => trivial) fun room =>
        Ends.intro (fun _ _ _ => room) fun _ _ _ => trivial
    exact inside.ok opens
  refine ends_nested_within (fun full => absurd room (Nat.not_le.mpr full)) fun _ =>
    h.mono (fun _ _ => False.elim) fun _ broken shows' => ?_
  have level : broken.bench.units.size - session.bench.units.size = 0 := by
    rw [UnitStack.size, UnitStack.size, shows', shows, List.length_cons, List.length_cons]
    exact Nat.sub_self _
  show (broken.bench.exitRegion.abandon session.bench.units.size).units.units = _
  rw [Bench.abandon_units]
  show broken.bench.units.units.drop (broken.bench.units.size - session.bench.units.size) = _
  rw [level]
  exact shows'

/-! ## Stretches -/

/-- What the whole computation records holds a stretch that is all on one line: the second
computation breaks off where it begins, the third one where it ends. -/
def Stretches (known known' : Known) (line : Option UInt32) (whole before behind : Work β υ α) :
    Prop :=
  ∀ (session : Session β υ) {unit outer slot builder}, session.bench.Shows unit outer slot builder →
    builder.Listed → builder.Knows known → Ensures whole session fun _ session' =>
      ∃ first last builder', session'.bench.Shows unit outer slot builder' ∧
        builder'.Knows known' ∧ builder.Stretch line first last builder' ∧
        before.Stops session unit outer slot first ∧ behind.Stops session unit outer slot last

namespace Stretches

theorem weaken {weaker : Known} {whole before behind : Work β υ α}
    (h : Stretches weaker known' line whole before behind) (implies : known.Implies weaker) :
    Stretches known known' line whole before behind :=
  fun session _ _ _ _ shows listed knows => h session shows listed (knows.weaken implies)

/-- Something is recorded before it. -/
theorem after {first : Work β υ α} {whole before behind : α → Work β υ γ}
    (h₁ : Brings known middle first)
    (h₂ : ∀ value, Stretches middle known' line (whole value) (before value) (behind value)) :
    Stretches known known' line (first >>= whole) (first >>= before) (first >>= behind) := by
  intro session unit outer slot builder shows listed knows result session' run
  obtain ⟨value, session₁, run₁, run₂⟩ := run_of_bind run
  obtain ⟨builder₁, shows₁, retains₁, knows₁⟩ := h₁ session shows listed knows _ _ run₁
  obtain ⟨low, high, builder₂, shows₂, knows₂, stretch, stops, stops'⟩ :=
    h₂ value session₁ shows₁ (retains₁.listed listed) knows₁ _ _ run₂
  exact ⟨low, high, builder₂, shows₂, knows₂, stretch.after retains₁, Ends.after run₁ stops,
    Ends.after run₁ stops'⟩

/-- Something is recorded after it. -/
theorem before {whole before behind : Work β υ α} {next : α → Work β υ γ}
    (h₁ : Stretches known middle line whole before behind)
    (h₂ : ∀ value, Brings middle known' (next value)) :
    Stretches known known' line (whole >>= next) (before >>= next) (behind >>= next) := by
  intro session unit outer slot builder shows listed knows result session' run
  obtain ⟨value, session₁, run₁, run₂⟩ := run_of_bind run
  obtain ⟨low, high, builder₁, shows₁, knows₁, stretch, stops, stops'⟩ :=
    h₁ session shows listed knows _ _ run₁
  obtain ⟨builder₂, shows₂, retains₂, knows₂⟩ :=
    h₂ value session₁ shows₁ (stretch.listed listed) knows₁ _ _ run₂
  exact ⟨low, high, builder₂, shows₂, knows₂, stretch.before retains₂, stops.halts, stops'.halts⟩

theorem nested {whole before behind : Work β υ α}
    (h : Stretches known known' line whole before behind) :
    Stretches known known' line (Work.nested whole) (Work.nested before) (Work.nested behind) := by
  intro session unit outer slot builder shows listed knows value session' run
  have inside : Ensures (Work.nested whole) session fun _ session' =>
      ∃ first last builder', session'.bench.Shows unit outer slot builder' ∧
        builder'.Knows known' ∧ builder.Stretch line first last builder' ∧
        before.Stops { session with bench := session.bench.enterRegion } unit outer slot first ∧
        behind.Stops { session with bench := session.bench.enterRegion } unit outer slot last :=
    ensures_nested (h _ shows listed knows)
  obtain ⟨first, last, builder', shows', knows', stretch, stops, stops'⟩ := inside _ _ run
  exact ⟨first, last, builder', shows', knows', stretch, stops.nested run shows,
    stops'.nested run shows⟩

/-- What is around a part that records a stretch records it, too. -/
theorem around {emits : Work β υ Unit → Work β υ γ}
    (around : Around (fun known known' {α} (action : Work β υ α) => Brings known known' action)
      known entry exit known' emits) {whole before behind : Work β υ Unit}
    (h : Stretches entry exit line whole before behind) :
    Stretches known known' line (emits whole) (emits before) (emits behind) := by
  induction around with
  | hole implies _ => exact h.weaken implies
  | after h₁ _ ih => exact .after h₁ fun value => ih value h
  | before _ h₂ ih => exact .before (ih h) h₂
  | nested _ ih => exact .nested (ih h)

end Stretches

end Work

namespace Recorder

open Work (Brings Inscribes Stretches Stops)

/-- Nothing has failed before an operation that succeeds. -/
theorem checked_of_ok {operation : Work Recorder υ α} {session session' : Session Recorder υ}
    {value : α} (run : checked operation session = .ok value session') :
    session.backend.poisoned = none ∧ operation session = .ok value session' := by
  unfold checked at run
  cases poisoned : session.backend.poisoned with
  | some error => simp only [poisoned] at run; cases run
  | none =>
      simp only [poisoned] at run
      cases result : operation session with
      | error halt state => cases halt <;> simp only [result] at run <;> cases run
      | ok value' state =>
          simp only [result] at run
          cases run
          exact ⟨rfl, rfl⟩

theorem stops_checked {operation : Work Recorder υ α} {session : Session Recorder υ}
    (clean : session.backend.poisoned = none) (h : operation.Stops session unit outer slot builder) :
    (checked operation).Stops session unit outer slot builder := by
  refine ends_checked (fun error poisoned => ?_) fun _ => h.mono (fun _ _ => id) ?_
  · cases poisoned.symm.trans clean
  · rintro (error | _) session' shows <;> exact shows

theorem stretches_checked {whole before behind : Work Recorder υ α}
    (h : Stretches known known' line whole before behind) :
    Stretches known known' line (checked whole) (checked before) (checked behind) := by
  intro session unit outer slot builder shows listed knows value session' run
  obtain ⟨clean, run⟩ := checked_of_ok run
  obtain ⟨first, last, builder', shows', knows', stretch, stops, stops'⟩ :=
    h session shows listed knows _ _ run
  exact ⟨first, last, builder', shows', knows', stretch, stops_checked clean stops,
    stops_checked clean stops'⟩

/-- A layer around a part that records a stretch records it, too. -/
theorem stretches_layer {layer : Layer (Work Recorder υ Unit)}
    {whole before behind : Work Recorder υ Unit}
    (enters : layer.Enters (fun part known known' => Brings known known' part) whole known entry)
    (others : ∀ other, layer.Has other → Brings .any .any other)
    (h : Stretches entry .any line whole before behind) :
    Stretches known .any line (layer.wrap (contract υ) whole) (layer.wrap (contract υ) before)
      (layer.wrap (contract υ) behind) := by
  cases layer with
  | first next =>
      obtain rfl : entry = known := enters
      exact h.before fun _ => others _ rfl
  | next first => exact .after enters fun _ => h
  | nested place =>
      have emits := Stretches.around (Work.tracks_brings.around enters others) h
      cases place <;> exact stretches_checked emits

section Actions

variable {ε : Type} {onExtra : ε → Work Recorder Notes Unit} {action operation : Action ε}
  {session : Session Recorder Notes}

theorem brings_mark (mark : UInt32) (known : Known) : Brings known (.exactly (some mark))
    ((contract Notes).primitive (.line mark)) := by
  intro session unit outer slot builder shows listed knows
  have sets : Ensures (Bench.emitPrimitive (.line mark)) session.bench fun _ bench' =>
      bench'.Shows unit outer slot (builder.setLine mark) := by
    refine Ensures.bind (Bench.ensures_target.bind ?_) fun _ _ shows' => Ensures.modifies shows'
    rintro _ _ ⟨rfl, -⟩
    refine (Bench.ensures_modifyBuilder shows.recording? _).mono ?_
    rintro _ _ rfl
    exact shows.setBuilder _
  refine ensures_checked (Work.ensures_onBench (sets.mono fun _ bench' shows' => ?_))
  exact ⟨_, shows', builder.retains_setLine mark, fun small => builder.lineFor_setLine listed small mark⟩

/-- By the rules for what is known: all nested code is recorded once, in the order in which it is
written down, and bodies are recorded in units of their own. -/
theorem brings_settles (settles : action.Settles known known') (plain : action.Plain) :
    Brings known known' (action.run (contract Notes) onExtra) := by
  have tracks := Work.tracks_brings (β := Recorder) (υ := Notes)
  have checks {known known' : Known} {operation : Work Recorder Notes Unit}
      (h : Brings known known' operation) : Brings known known' (checked operation) :=
    fun session _ _ _ _ shows listed knows => ensures_checked (h session shows listed knows)
  induction settles with
  | silent silent known => exact tracks.still (unmarked_silent plain silent) known
  | mark mark known => exact brings_mark mark known
  | seq _ _ ih₁ ih₂ => exact tracks.bind (ih₁ plain.1) fun _ => ih₂ plain.2
  | branch _ _ _ ih₁ _ ih₃ => exact checks (tracks.emitBranch (ih₁ plain.1) (ih₃ plain.2))
  | logical connective _ ih => exact checks (tracks.emitLogical connective (ih plain))
  | loopFirst _ _ _ ih₁ ih₂ => exact checks (tracks.emitLoopFirst (ih₁ plain.1) (ih₂ plain.2))
  | loopLast _ _ _ ih₁ ih₂ => exact checks (tracks.emitLoopLast (ih₁ plain.2) (ih₂ plain.1))
  | array knows _ ih => exact checks (tracks.emitArray fun index inside => ih index inside (plain index))
  | @callBlock name shape scope arity body known _ ih =>
      have kept : ∀ given, some ⟨scope, arity, body.run (contract Notes) onExtra⟩ = some given →
          Inscribes Builder.Retains (BlockBody.body given) := by
        rintro _ ⟨⟩
        exact retains_plain plain
      exact tracks.still (inscribes_invoke Builder.inscribes_unmarked name shape kept) known
  | @closure scope arity body known _ ih =>
      have kept : Inscribes Builder.Retains (body.run (contract Notes) onExtra) := retains_plain plain
      exact tracks.still (inscribes_closure Builder.inscribes_unmarked scope arity kept) known
  | @method name arity localCount body known _ ih =>
      have kept : Inscribes Builder.Retains (body.run (contract Notes) onExtra) := retains_plain plain
      exact tracks.still
        (inscribes_defineMethod Builder.inscribes_unmarked name arity localCount kept) known
  | any action known =>
      exact fun session _ _ _ _ shows _ _ => (retains_plain plain session shows).mono
        fun _ _ ⟨builder', shows', retains⟩ => ⟨builder', shows', retains, fun _ => trivial⟩
  | consequence _ implies follows ih => exact tracks.consequence (ih plain) implies follows

/-- What is recorded for an operation that sets no line is on the line from before. -/
theorem stretches_silent (plain : operation.Plain) (silent : operation.Silent)
    (line : Option UInt32) (error : CompileError) :
    Stretches (.exactly line) .any line (operation.run (contract Notes) onExtra)
      ((Action.seq (.fail error) operation).run (contract Notes) onExtra)
      ((Action.seq operation (.fail error)).run (contract Notes) onExtra) := by
  intro session unit outer slot builder shows listed knows value session' run
  obtain ⟨builder', shows', unmarked⟩ := unmarked_silent plain silent session shows _ _ run
  have stretch : builder.Stretch line builder builder' builder' :=
    ⟨refl_of Builder.Retains builder, knows, unmarked, refl_of Builder.Retains builder'⟩
  exact ⟨builder, builder', builder', shows', fun _ => trivial, stretch, Ends.stops shows,
    Ends.after run (Work.ends_fail shows')⟩

/-- What is recorded for an operation is on the line that is known where the operation begins. -/
theorem stretches_context {context : List (Layer (Action ε))}
    (leads : Action.Leads operation context known (.exactly line))
    (plain : (Action.inContext context operation).Plain) (silent : operation.Silent)
    (error : CompileError) :
    Stretches known .any line ((Action.inContext context operation).run (contract Notes) onExtra)
      ((Action.inContext context (.seq (.fail error) operation)).run (contract Notes) onExtra)
      ((Action.inContext context (.seq operation (.fail error))).run (contract Notes) onExtra) := by
  generalize where_ : Known.exactly line = entry at leads
  induction leads with
  | here known =>
      subst where_
      exact stretches_silent plain silent line error
  | @inside layer context known middle entry enters leads ih =>
      obtain ⟨inner, others⟩ := Action.plain_of_within plain
      simp only [Action.inContext, List.foldr_cons, Action.run_within]
      refine stretches_layer (enters.map (fun other has _ _ settles =>
        brings_settles settles (others other has)) fun settles => brings_settles settles inner) ?_
        (ih inner where_)
      rintro _ has
      obtain ⟨other, here, rfl⟩ := Layer.has_map has
      exact brings_settles (.any other .any) (others other here)
  | weaken leads implies ih => exact (ih plain where_).weaken implies

end Actions

end Recorder

end BlockScript
