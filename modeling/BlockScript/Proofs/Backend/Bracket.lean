import BlockScript.Proofs.Backend.Composed
import BlockScript.Proofs.Backend.Rooted
import BlockScript.Proofs.Backend.SameUnit
import BlockScript.Proofs.Contract.Journal

/-!
# The script is opened once, and nothing happens outside it

A backend opens its script once, and carries out other operations only while the script is open.
There are two ways around this. The immediate backend has closed the script unit by the time
that it finds that the script has left more than one value; it then forgets the script, but has
no result either, so the script may be opened again (`Backend.GaveUp`). The bytecode backend
records the block of a call before it looks for the unit that the call goes into, so the block
of a call that is issued outside the script is recorded all the same (`Backend.Stray`).
-/

namespace BlockScript

variable {β υ α : Type}

/-! ## What a journal says about the script -/

/-- The script unit is open. -/
def Bench.Scripting (bench : Bench) : Prop := ∃ unit ∈ bench.units.units, unit.kind = .script

instance : (occasion : Occasion) → Decidable (occasion = .succeeded)
  | .succeeded => isTrue rfl
  | .issued => isFalse nofun
  | .failed _ => isFalse nofun

/-- The script was opened. -/
def Event.Started (event : Event β) : Prop :=
  event.operation = "start_script" ∧ event.occasion = .succeeded

instance (event : Event β) : Decidable event.Started := inferInstanceAs (Decidable (_ ∧ _))

namespace Backend

/-- The script was closed, but left too many values to have a result. -/
def GaveUp : (backend : Backend) → Event backend.State → Prop
  | recording, _ => False
  | immediate _, event => event.operation = "end_script" ∧ event.bench.config.checkStack = true ∧
    ∃ values line, 1 < values ∧
      event.occasion = .failed (.failure (.violation (.unbalancedUnit describeMain values) line))

/-- A call was issued while no unit was open. -/
def Stray : (backend : Backend) → List (Event backend.State) → Prop
  | recording, events => ∃ event ∈ events, event.operation = Work.callOperation ∧
    event.occasion = .issued ∧ event.bench.units.units = []
  | immediate _, _ => False

/-- The script is open, or the block of a call that was issued while no unit was open. -/
def Admits (backend : Backend) (bench : Bench) (events : List (Event backend.State)) : Prop :=
  bench.Scripting ∨ backend.Stray events ∧ ∃ id, bench.root? = some (id, .closure)

/-- The script is opened once, and other operations are carried out while it is open. -/
structure Bracketed (backend : Backend) (events : List (Event backend.State)) : Prop where
  /-- Before the script is opened again, it must have been given up. -/
  once : ∀ after second between first before,
    events = after ++ second :: (between ++ first :: before) → second.Started → first.Started →
    ∃ event ∈ between, backend.GaveUp event
  /-- The script was open when an operation was issued that succeeded, and still is. -/
  within : ∀ after event before, events = after ++ event :: before →
    event.occasion = .succeeded → event.operation ≠ "start_script" →
    (event.operation ≠ "end_script" → backend.Admits event.bench before) ∧
    ∃ between issued earlier, before = between ++ issued :: earlier ∧
      earlier.length = event.since ∧ issued.operation = event.operation ∧
      issued.occasion = .issued ∧ backend.Admits issued.bench (issued :: earlier)

variable {backend : Backend}

/-! ## What backends keep to -/

/-- Wherever the script was opened, it was given up later. -/
def Ready (backend : Backend) (events : List (Event backend.State)) : Prop :=
  ∀ later first before, events = later ++ first :: before → first.Started →
    ∃ event ∈ later, backend.GaveUp event

/-- The backend would open a script. -/
def MayStart : (backend : Backend) → backend.State → Prop
  | recording, recorder => recorder.script = .notStarted
  | immediate _, interpreter => interpreter.script = none ∧ interpreter.result = none

/-- The outermost unit is the script, if there is one. -/
def Rooted : (backend : Backend) → backend.State → Bench → List (Event backend.State) → Prop
  | recording, _, bench, events => ∀ id kind, bench.root? = some (id, kind) →
    kind = .script ∨ kind = .closure ∧ Stray recording events
  | immediate _, interpreter, bench, _ =>
    bench.root? = interpreter.script.map (fun handle => (handle.id, .script)) ∧
      ∀ handle, interpreter.script = some handle → handle.owner = bench.units.owner

/-- The script of a session is where the journal says that it is. -/
structure Brackets (backend : Backend) (session : Session backend.State (Journal backend.State υ)) :
    Prop where
  bracketed : backend.Bracketed session.client.events
  ready : backend.MayStart session.backend → backend.Ready session.client.events
  proper : session.bench.Proper backend.executes
  rooted : backend.Rooted session.backend session.bench session.client.events

theorem Stray.mono {events events' : List (Event backend.State)} (h : backend.Stray events)
    (grows : events ⊆ events') : backend.Stray events' := by
  cases backend with
  | recording =>
      obtain ⟨event, mem, found⟩ := h
      exact ⟨event, grows mem, found⟩
  | immediate fuel => exact h

namespace Rooted

variable {state : backend.State} {bench bench' : Bench} {events events' : List (Event backend.State)}
  (rooted : backend.Rooted state bench events)
include rooted

theorem mono (grows : events ⊆ events') : backend.Rooted state bench events' := by
  cases backend with
  | recording =>
      intro id kind root
      exact (rooted id kind root).imp_right fun ⟨closure, stray⟩ => ⟨closure, stray.mono grows⟩
  | immediate fuel => exact rooted

theorem steady (same : bench.SameRoot bench') (owner : bench'.units.owner = bench.units.owner) :
    backend.Rooted state bench' events := by
  cases backend with
  | recording => exact fun id kind root => rooted id kind (same.symm.trans root)
  | immediate fuel =>
      exact ⟨same.trans rooted.1, fun handle found => (rooted.2 handle found).trans owner.symm⟩

/-- Units of blocks and methods may be closed, and the recorded script as well. -/
theorem closing {kind : UnitKind} (inner : kind ≠ .script ∨ backend.executes = false)
    (closes : bench.Closes kind bench') (owner : bench'.units.owner = bench.units.owner) :
    backend.Rooted state bench' events := by
  obtain ⟨unit, hunits, rfl⟩ := closes
  have occupied : bench.units.units ≠ [] := by simp [hunits]
  cases backend with
  | immediate fuel =>
      cases found : (state : Interpreter).script with
      | none =>
          have idle : bench.root? = none := by simpa [found] using rooted.1
          exact absurd (Bench.root?_eq_none.mp idle) occupied
      | some handle =>
          have root : bench.root? = some (handle.id, .script) := by simpa [found] using rooted.1
          have inner := inner.resolve_right (Bool.noConfusion ·)
          exact rooted.steady (Bench.sameRoot_closed hunits root inner) owner
  | recording =>
      obtain ⟨id, kind, root, -⟩ := Bench.exists_root occupied
      by_cases other : unit.kind = kind
      -- The outermost unit itself may be the block of a call.
      · cases rest : bench'.units.units with
        | nil => exact fun id kind root => by simp [Bench.root?_eq_none.mpr rest] at root
        | cons next outer =>
            refine rooted.steady ?_ owner
            simp [Bench.SameRoot, Bench.root?, hunits, rest]
      · exact rooted.steady (Bench.sameRoot_closed hunits root other) owner

/-- What is open is the script, or follows a stray call. -/
theorem admits (occupied : bench.units.units ≠ []) : backend.Admits bench events := by
  obtain ⟨id, kind, root, unit, member, -, hkind⟩ := Bench.exists_root occupied
  cases backend with
  | recording =>
      rcases rooted id kind root with rfl | ⟨rfl, stray⟩
      · exact .inl ⟨unit, member, hkind⟩
      · exact .inr ⟨stray, id, root⟩
  | immediate fuel =>
      have found := rooted.1.symm.trans root
      obtain ⟨handle, -, same⟩ := Option.map_eq_some_iff.mp found
      cases same
      exact .inl ⟨unit, member, hkind⟩

end Rooted

/-! ## Journals that grow -/

section Growing

variable {events : List (Event backend.State)} {event : Event backend.State}

theorem Bracketed.cons (h : backend.Bracketed events)
    (once : event.Started → backend.Ready events)
    (within : event.occasion = .succeeded → event.operation ≠ "start_script" →
      (event.operation ≠ "end_script" → backend.Admits event.bench events) ∧
      ∃ between issued earlier, events = between ++ issued :: earlier ∧
        earlier.length = event.since ∧ issued.operation = event.operation ∧
        issued.occasion = .issued ∧ backend.Admits issued.bench (issued :: earlier)) :
    backend.Bracketed (event :: events) where
  once := by
    rintro (_ | ⟨_, after⟩) second between first before split started
    · obtain ⟨rfl, rest⟩ := List.cons.inj split
      exact once started between first before rest
    · exact h.once after second between first before (List.cons.inj split).2 started
  within := by
    rintro (_ | ⟨_, after⟩) earlier before split
    · obtain ⟨rfl, rfl⟩ := List.cons.inj split
      exact within
    · exact h.within after earlier before (List.cons.inj split).2

theorem Ready.cons (h : backend.Ready events) (fresh : ¬event.Started) :
    backend.Ready (event :: events) := by
  rintro (_ | ⟨_, later⟩) first before split started
  · exact absurd ((List.cons.inj split).1 ▸ started) fresh
  · obtain ⟨same, rest⟩ := List.cons.inj split
    obtain ⟨found, mem, gaveUp⟩ := h later first before rest started
    exact ⟨found, .tail _ mem, gaveUp⟩

theorem Ready.of_gaveUp (gaveUp : backend.GaveUp event) (fresh : ¬event.Started) :
    backend.Ready (event :: events) := by
  rintro (_ | ⟨_, later⟩) first before split started
  · exact absurd ((List.cons.inj split).1 ▸ started) fresh
  · exact ⟨event, (List.cons.inj split).1 ▸ List.mem_cons_self .., gaveUp⟩

end Growing

end Backend

end BlockScript
