import BlockScript.Proofs.Backend.Conserved
import BlockScript.Proofs.Backend.Restored
import BlockScript.Proofs.Contract.Journal

/-!
# Jumps that failures leave behind

When an operation that jumps fails in a unit that is recorded, the jumps that it has appended
stay there without a target. A journal tells which jumps these can be. Nothing else spoils a
recording: `Session.Conserves` says of two sessions, the second one later, that what is recorded
and installed in the second one is whole apart from jumps that its journal says were torn off.
-/

namespace BlockScript

variable {β υ α : Type}

/-- The operations with nested code that append jumps. -/
def Control.jumping : List String :=
  ["perform_boolean_branch", Connective.conjunction.operation, Connective.disjunction.operation,
    Work.loopOperation]

theorem Control.jumps_or_array {σ : Type} (operation : Control σ) :
    operation.name ∈ jumping ∨ ∃ count element, operation = .array count element := by
  cases operation with
  | array count element => exact .inr ⟨count, element, rfl⟩
  | logical connective right => left; cases connective <;> simp [name, jumping]
  | branch | loop => left; simp [name, jumping]

/-- An operation that jumps has failed, and this jump was appended meanwhile to the unit that it
was issued in, and has no target. -/
structure Event.Tears (issued failed : Event β) (patch : JumpPatch) : Prop where
  jumps : failed.operation ∈ Control.jumping
  fails : ∃ halt, failed.occasion = .failed halt
  unit : failed.bench.units.ids = issued.bench.units.ids
  appended : ∃ first, issued.bench.recording? = some first ∧ first.builder.label ≤ patch.ip
  left : ∃ last, failed.bench.recording? = some last ∧ last.builder.Waits patch

/-- The jump was torn off according to the events, the latest one first. -/
def Torn (events : List (Event β)) (patch : JumpPatch) : Prop :=
  ∃ after failed between issued before,
    events = after ++ failed :: (between ++ issued :: before) ∧
      before.length = failed.since ∧ issued.Tears failed patch

theorem Torn.mono {events events' : List (Event β)} (noted : events <:+ events')
    {patch : JumpPatch} (h : Torn events patch) : Torn events' patch := by
  obtain ⟨later, rfl⟩ := noted
  obtain ⟨after, failed, between, issued, before, rfl, h⟩ := h
  exact ⟨later ++ after, failed, between, issued, before, (List.append_assoc ..).symm, h⟩

namespace Session

variable {torn : JumpPatch → Prop} {held : List Nat} {session session' : Session β (Journal β υ)}

/-- Recordings are whole, apart from those of units that are held, and what is installed now or
was installed when something was noted passes. -/
structure Unspoilt (torn : JumpPatch → Prop) (held : List Nat) (session : Session β (Journal β υ)) :
    Prop where
  bench : session.bench.Unspoilt torn held
  tables : ∀ event ∈ session.client.events, ∀ code ∈ event.bench.program.code, code.Passes torn

theorem Unspoilt.hold (h : session.Unspoilt torn held) {held' : List Nat} (more : held ⊆ held') :
    session.Unspoilt torn held' :=
  ⟨⟨h.bench.checks, fun unit member free => h.bench.units unit member fun held => free (more held),
    h.bench.table⟩, h.tables⟩

/-- A session after some steps. What is held has to be held until then. -/
structure Conserved (session session' : Session β (Journal β υ)) : Prop where
  noted : session.client.events <:+ session'.client.events
  numbered : session'.bench.units.Numbered
  units : session.bench.units.Evolves (Recording.Carries (Torn session'.client.events))
    session'.bench.units
  unspoilt : ∀ torn : JumpPatch → Prop, (∀ patch, Torn session'.client.events patch → torn patch) →
    ∀ held ⊆ session.bench.units.ids, held ⊆ session'.bench.units.ids →
      session.Unspoilt torn held → session'.Unspoilt torn held

/-- A session whose units are numbered, after some steps. -/
def Conserves (session session' : Session β (Journal β υ)) : Prop :=
  session.bench.units.Numbered → session.Conserved session'

instance : IsPreorder (Session β (Journal β υ)) Conserves where
  refl _ numbered := ⟨List.suffix_rfl, numbered, .refl Recording.Carries.refl _, fun _ _ _ _ _ => id⟩
  trans session session' session'' h₁ h₂ := by
    intro numbered
    have h₁ := h₁ numbered
    have h₂ := h₂ h₁.numbered
    have earlier (patch : JumpPatch) (h : Torn session'.client.events patch) :
        Torn session''.client.events patch := h.mono h₂.noted
    refine ⟨h₁.noted.trans h₂.noted, h₂.numbered, ?_, ?_⟩
    · exact (h₁.units.mono (Recording.Carries.mono earlier)).trans Recording.Carries.trans h₂.units
    · intro torn known held early late unspoilt
      have between := h₁.units.between numbered.fresh h₂.units early late
      exact h₂.unspoilt torn known held between late
        (h₁.unspoilt torn (fun patch h => known patch (earlier patch h)) held early between unspoilt)

/-- A step on the bench. -/
theorem conserves_setBench {bench : Bench} (steps : ∀ torn, session.bench.Conserves torn bench) :
    session.Conserves { session with bench } :=
  fun numbered => ⟨List.suffix_rfl, (steps fun _ => False).numbered numbered, (steps _).units,
    fun torn _ held early late unspoilt =>
      ⟨(steps torn).unspoilt numbered held early late unspoilt.bench, unspoilt.tables⟩⟩

instance : IgnoresBackend (Conserves (β := β) (υ := υ)) where
  backend _ _ numbered := ⟨List.suffix_rfl, numbered, .refl Recording.Carries.refl _,
    fun _ _ _ _ _ unspoilt => ⟨unspoilt.bench, unspoilt.tables⟩⟩

/-- What is noted is the bench as it is. -/
theorem conserves_note (session : Session β (Journal β υ)) {event : Event β}
    (current : event.bench = session.bench) : session.Conserves (session.note event) := by
  refine fun numbered => ⟨List.suffix_cons .., numbered, .refl Recording.Carries.refl _,
    fun torn _ held _ _ unspoilt => ⟨unspoilt.bench, fun noted member => ?_⟩⟩
  rcases List.mem_cons.mp member with rfl | member
  · exact current ▸ unspoilt.bench.table
  · exact unspoilt.tables noted member

end Session

/-! ## The steps of a session -/

namespace Work

theorem conserves_onBench {action : BenchM α} (steps : ∀ torn, Moves (Bench.Conserves torn) action) :
    Moves Session.Conserves (onBench action : Work β (Journal β υ) α) :=
  fun _ => ends_onBench (Ends.intro
    (fun _ _ run => Session.conserves_setBench fun torn => (steps torn).ok run)
    fun _ _ run => Session.conserves_setBench fun torn => (steps torn).error run)

theorem conserves_journaled {operation : Work β (Journal β υ) α}
    (h : Moves Session.Conserves operation) (name : String) :
    Moves Session.Conserves (journaled name operation) := by
  intro session
  have issued : session.Conserves
      (session.note (session.event name session.client.events.length .issued)) :=
    session.conserves_note rfl
  refine ends_journaled ((h.after issued).mono ?_ ?_) <;>
  exact fun _ session' reached => trans_of Session.Conserves reached (session'.conserves_note rfl)

theorem conserves_nested {region : Work β (Journal β υ) α} (h : Moves Session.Conserves region) :
    Moves Session.Conserves (nested region) := by
  intro session
  have entered : session.Conserves { session with bench := session.bench.enterRegion } :=
    Session.conserves_setBench fun _ => session.bench.conserves_enterRegion
  refine ends_nested (refl_of Session.Conserves session) ((h.after entered).mono ?_ ?_) <;>
  refine fun _ session' reached => trans_of Session.Conserves reached
    (Session.conserves_setBench fun torn => ?_)
  · exact session'.bench.conserves_exitRegion
  · exact trans_of (Bench.Conserves torn) session'.bench.conserves_exitRegion
      (Bench.conserves_abandon _ _)

theorem conserves_enclosing : Enclosing (β := β) (υ := Journal β υ)
    (fun {α} (action : Work β (Journal β υ) α) => Moves Session.Conserves action) where
  toSequenced := Moves.sequenced
  openUnit _ _ _ _ _ := conserves_onBench fun _ => Bench.conserves_openUnit _ _ _ _ _
  closeUnit _ _ := conserves_onBench fun _ => Bench.conserves_closeUnit _ _
  discards _ h := fun session => ends_cleaning ((h session).mono (fun _ _ => id)
    fun _ session' reached => trans_of Session.Conserves reached
      (Session.conserves_setBench fun _ => session'.bench.conserves_abandon _))
  emitSend _ _ _ _ := conserves_onBench fun _ => Bench.conserves_appending.emitSend _ _ _ _

end Work

/-! ## The immediate backend -/

namespace Interpreter

theorem conserves_immediate (fuel : Nat) : Immediate (υ := Journal Interpreter υ) fuel
    (fun {α} (action : Work Interpreter (Journal Interpreter υ) α) =>
      Moves Session.Conserves action) where
  toEnclosing := Work.conserves_enclosing
  look _ := fun session => refl_of Session.Conserves session
  pop := moves_pop
  collapse _ _ := moves_perform
    (Work.conserves_onBench fun _ => Bench.conserves_emit _ rfl rfl) fuel
  perform _ _ falls straight := moves_perform
    (Work.conserves_onBench fun _ => Bench.conserves_emit _ falls straight) fuel
  intern _ := Work.conserves_onBench fun _ => Bench.conserves_appending.intern _
  checkScopeDepth _ := Work.conserves_onBench fun _ => Bench.conserves_appending.checkScopeDepth _
  emitYield _ _ := Work.conserves_onBench fun _ => Bench.conserves_appending.emitYield _ _
  nested := Work.conserves_nested
  startScript := moves_startScript fun hopen => Session.conserves_setBench
    fun _ => .opened hopen (fun _ _ holds => nomatch holds) fun _ => .inl
  endScript := moves_endScript fun closed => Session.conserves_setBench
    fun _ => .fewer (.of_close closed) rfl fun _ => .inl

theorem conserves_mark (fuel : Nat) (line : UInt32) : Moves Session.Conserves
    (primitive fuel (.line line) : Work Interpreter (Journal Interpreter υ) Unit) :=
  (conserves_immediate fuel).mark
    (fun _ => Work.conserves_onBench fun _ => Bench.conserves_setLine _)
    (fun line => .modifies fun session => Session.conserves_setBench
      fun _ => session.bench.conserves_rest session.bench.program.constants (some line)) line

end Interpreter

end BlockScript
