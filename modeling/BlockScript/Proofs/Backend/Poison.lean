import BlockScript.Backend.Recorder
import BlockScript.Proofs.Backend.Composed
import BlockScript.Proofs.Contract.Journal

/-!
# Failures are not forgotten

The bytecode backend remembers the first failure of an operation. From then on every operation
is refused, however deep in nested code it is issued and whatever its caller made of the
failure, and no program is handed over.

It does not remember a failure that looks like such a refusal. Its own refusals follow a
failure that is remembered already; but a caller may also come with the refusal of another
backend, and that leaves no trace. `Recorder.Foreign` is this exception.
-/

namespace BlockScript

variable {υ α : Type}

namespace Recorder

/-- A refusal that the caller has come with. -/
def Foreign (raises : CompileError → Prop) (error : CompileError) : Prop :=
  error.isAborted = true ∧ raises error

/-- The event is not the reply of an operation that was carried out in spite of a failure. -/
def Refused (cause : CompileError) (event : Event Recorder) : Prop :=
  event.occasion = .issued ∨ event.occasion = .failed (.failure (.aborted cause))

/-- A failure is remembered, or the caller has come with it. -/
def Noticed (raises : CompileError → Prop) (recorder : Recorder) (halt : Halt CompileError) : Prop :=
  ∀ error, halt = .failure error → recorder.poisoned ≠ none ∨ Foreign raises error

/-- What has happened agrees with the failure that is remembered. -/
structure Honest (raises : CompileError → Prop) (poisoned : Option CompileError)
    (events : List (Event Recorder)) : Prop where
  kept : ∀ event ∈ events, ∀ cause, event.backend.poisoned = some cause → poisoned = some cause
  noticed : ∀ event ∈ events, ∀ halt, event.occasion = .failed halt →
    Noticed raises event.backend halt
  /-- Operations that are issued while a failure is remembered are refused. -/
  refused : ∀ after event before, events = after ++ event :: before →
    ∀ cause, event.backend.poisoned = some cause →
      ∀ later ∈ after, before.length < later.since → Refused cause later

variable {raises : CompileError → Prop} {poisoned poisoned' : Option CompileError}
  {events : List (Event Recorder)}

namespace Honest

theorem nil : Honest raises poisoned [] :=
  ⟨fun _ h => (List.not_mem_nil h).elim, fun _ h => (List.not_mem_nil h).elim,
    fun _ _ _ h => (List.append_ne_nil_of_right_ne_nil _ (List.cons_ne_nil _ _) h.symm).elim⟩

theorem mono (honest : Honest raises poisoned events)
    (keeps : ∀ cause, poisoned = some cause → poisoned' = some cause) :
    Honest raises poisoned' events :=
  ⟨fun event h cause found => keeps _ (honest.kept event h cause found), honest.noticed,
    honest.refused⟩

theorem cons (event : Event Recorder) (honest : Honest raises event.backend.poisoned events)
    (noticed : ∀ halt, event.occasion = .failed halt → Noticed raises event.backend halt)
    (refused : ∀ after earlier before, events = after ++ earlier :: before →
      before.length < event.since → ∀ cause, earlier.backend.poisoned = some cause →
        Refused cause event) :
    Honest raises event.backend.poisoned (event :: events) where
  kept := by
    rintro earlier (_ | ⟨_, h⟩) cause found
    · exact found
    · exact honest.kept earlier h cause found
  noticed := by
    rintro earlier (_ | ⟨_, h⟩) halt failed
    · exact noticed halt failed
    · exact honest.noticed earlier h halt failed
  refused := by
    rintro (_ | ⟨_, after⟩) earlier before split cause found later h since
    · cases h
    · obtain ⟨rfl, rest⟩ := List.cons.inj split
      rcases List.mem_cons.mp h with rfl | h
      · exact refused after earlier before rest since cause found
      · exact honest.refused after earlier before rest cause found later h since

end Honest

/-! ## Computations -/

/-- What is remembered stays, and the journal goes on to agree with it. -/
structure Leads (raises : CompileError → Prop) (session session' : Session Recorder (Journal Recorder υ)) :
    Prop where
  events : session.client.events <:+ session'.client.events
  kept : ∀ cause, session.backend.poisoned = some cause → session'.backend.poisoned = some cause
  honest : Honest raises session.backend.poisoned session.client.events →
    Honest raises session'.backend.poisoned session'.client.events

instance : IsPreorder (Session Recorder (Journal Recorder υ)) (Leads raises) where
  refl _ := ⟨List.suffix_rfl, fun _ => id, id⟩
  trans _ _ _ h₁ h₂ := ⟨h₁.events.trans h₂.events, fun cause => h₂.kept cause ∘ h₁.kept cause,
    h₂.honest ∘ h₁.honest⟩

/-- A failure before it is remembered. -/
def Reported (raises : CompileError → Prop) (halt : Halt CompileError)
    (session : Session Recorder υ) : Prop :=
  ∀ error, halt = .failure error →
    error.isAborted = false ∨ session.backend.poisoned ≠ none ∨ Foreign raises error

theorem Noticed.reported {halt : Halt CompileError} {session : Session Recorder υ}
    (noticed : Noticed raises session.backend halt) : Reported raises halt session :=
  fun error same => .inr (noticed error same)

theorem poison_kept {recorder : Recorder} {error cause : CompileError}
    (h : recorder.poisoned = some cause) : (recorder.poison error).poisoned = some cause := by
  simp [poison, h]

theorem poison_noticed {session : Session Recorder υ} {error : CompileError}
    (h : Reported raises (.failure error) session) :
    Noticed raises (session.backend.poison error) (.failure error) := by
  rintro _ ⟨⟩
  obtain fresh | remembered | foreign := h error rfl
  · left
    cases h : session.backend.poisoned with
    | some cause => simp [poison_kept h]
    | none => simp [poison, h, fresh]
  · obtain ⟨cause, h⟩ := Option.ne_none_iff_exists'.mp remembered
    left
    simp [poison_kept h]
  · exact .inr foreign

theorem leads_poison (error : CompileError) (session : Session Recorder (Journal Recorder υ)) :
    Leads raises session { session with backend := session.backend.poison error } :=
  ⟨List.suffix_rfl, fun _ => poison_kept, fun honest => honest.mono fun _ => poison_kept⟩

/-- Issuing an operation and replying to it are noted. If a failure is remembered when it is
issued, it must be refused. -/
theorem leads_reply {name : String} {session session' : Session Recorder (Journal Recorder υ)}
    (leads : Leads raises (session.note (session.event name session.client.events.length .issued))
      session') {occasion : Occasion}
    (noticed : ∀ halt, occasion = .failed halt → Noticed raises session'.backend halt)
    (refused : ∀ cause, session.backend.poisoned = some cause →
      occasion = .failed (.failure (.aborted cause))) :
    Leads raises session
      (session'.note (session'.event name session.client.events.length occasion)) where
  events := (List.suffix_cons _ _).trans (leads.events.trans (List.suffix_cons _ _))
  kept := leads.kept
  honest honest := by
    have issued := Honest.cons (session.event name session.client.events.length .issued) honest
      nofun fun _ _ _ _ _ _ _ => .inl rfl
    refine Honest.cons (session'.event name session.client.events.length occasion)
      (leads.honest issued) noticed ?_
    -- What is older than the operation was there when it was issued.
    intro after earlier before split older cause found
    have suffix : earlier :: before <:+ session.client.events :=
      List.suffix_of_suffix_length_le ⟨after, split.symm⟩
        ((List.suffix_cons _ _).trans leads.events) older
    exact .inr (refused cause
      (honest.kept earlier (suffix.subset (List.mem_cons_self ..)) cause found))

/-! ## Operations -/

/-- What an operation does unless it is refused has every property that is kept when
computations are put together. -/
theorem issue_checked {P : ∀ {α : Type}, Work Recorder υ α → Prop}
    (lax : Lax (β := Recorder) (υ := υ) P)
    (look : P (get : Work Recorder υ (Session Recorder υ)))
    (operation : Operation (Session Recorder υ) α)
    (parts : ∀ part, operation.Has part → P part)
    (stages : operation.SetsScript → ∀ script, P (setScript script : Work Recorder υ Unit)) :
    ∃ body : Work Recorder υ α, P body ∧ operation.issue (contract υ) = checked body := by
  have composes := lax.compositional
  have onBench {γ : Type} {action : BenchM γ} (plain : Bench.Plain action) :
      P (Work.onBench action : Work Recorder υ γ) := lax.onBench plain
  cases operation with
  | startScript =>
      have opens : P (do
          setScript (.opened (← Work.onBench (Bench.openUnit .script mainName 0 0 []))) :
            Work Recorder υ Unit) :=
        composes.bind (onBench (Bench.plain_openUnit _ _ _ _ _)) fun _ => stages trivial _
      exact ⟨_, composes.bind composes.bench fun _ => composes.bind look fun _ =>
        Sequenced.ite (composes.bind (lax.fail rfl) fun _ => opens) opens, rfl⟩
  | endScript =>
      have closes (bench : Bench) : P (closeScript bench : Work Recorder υ Unit) := by
        refine composes.bind look fun session => ?_
        split
        · exact composes.bind (stages trivial _) fun _ =>
            composes.bind (onBench (Bench.plain_closeUnit _ _)) fun _ => composes.pure ()
        · exact composes.fail trivial
      exact ⟨_, composes.bind composes.bench fun bench => Sequenced.ite
        (composes.bind (composes.violate _) fun _ => closes bench) (closes bench), rfl⟩
  | beginMethod name arity localCount =>
      exact ⟨_, composes.bind composes.target fun _ => onBench (Bench.plain_openUnit _ _ _ _ _), rfl⟩
  | endMethod handle =>
      exact ⟨_, composes.bind (onBench (Bench.plain_closeUnit _ _)) fun _ => composes.pure (), rfl⟩
  | primitive p => exact ⟨_, onBench (Bench.plain_emitPrimitive p), rfl⟩
  | invoke name shape block =>
      exact ⟨_, lax.enclosing.emitCall name shape fun given h => parts _ ⟨given, h, rfl⟩, rfl⟩
  | control inner =>
      have emits : P inner.emit := composes.control inner fun part has => parts part has
      exact ⟨inner.emit, emits, by cases inner <;> rfl⟩
  | closure scope arity body =>
      exact ⟨_, composes.bind composes.target fun _ =>
        composes.bind (lax.enclosing.recordBlock scope arity (parts _ rfl)) fun _ =>
          onBench (Bench.plain_appending.emit _ rfl rfl), rfl⟩
  | defineMethod name arity localCount body =>
      exact ⟨_, composes.bind composes.target fun _ =>
        composes.bind (lax.enclosing.recordUnit (by nofun) _ _ _ _ (parts _ rfl)) fun _ =>
          onBench (Bench.plain_appending.emitPooled _ _ (fun _ => rfl) fun _ => rfl), rfl⟩

/-- An operation that is refused after a failure, and remembers its own, with its journal. -/
theorem runs_noted {name : String} {body : Work Recorder (Journal Recorder υ) α}
    (h : Runs (Leads raises) (Reported raises) body) :
    Runs (Leads raises) (Reported raises) (Work.journaled name (checked body)) := by
  intro session
  refine Work.ends_journaled (ends_checked (fun cause found => ?_) fun clean => ?_)
  · have remembered : session.backend.poisoned = some cause := found
    have noticed : Noticed raises session.backend (.failure (.aborted cause)) :=
      fun _ _ => .inl (by simp [remembered])
    refine ⟨leads_reply (refl_of (Leads raises) _) ?_ ?_, noticed.reported⟩
    · rintro _ ⟨⟩
      exact noticed
    · intro cause' found'
      rw [Option.some.inj (remembered.symm.trans found')]
  · have unpoisoned : session.backend.poisoned = none := clean
    have refused (occasion : Occasion) (cause : CompileError)
        (found : session.backend.poisoned = some cause) :
        occasion = .failed (.failure (.aborted cause)) := by simp [unpoisoned] at found
    refine (h _).mono (fun _ session' leads => leads_reply leads nofun (refused _)) ?_
    rintro halt session' ⟨leads, reported⟩
    cases halt with
    | failure error =>
        have noticed := poison_noticed reported
        refine ⟨leads_reply (trans_of (Leads raises) leads (leads_poison error session')) ?_
          (refused _), noticed.reported⟩
        rintro _ ⟨⟩
        exact noticed
    | outOfFuel => exact ⟨leads_reply leads nofun (refused _), nofun⟩

/-- Every caller leaves a journal that agrees with the failure that is remembered. -/
theorem runs_client {manner : Manner Recorder (Journal Recorder υ)}
    {action : Work Recorder (Journal Recorder υ) α}
    (client : Client (contract (Journal Recorder υ)).journaled manner.journaled action) :
    Runs (Leads manner.raises) (Reported manner.raises) action := by
  have lax := Runs.lax (R := Leads (υ := υ) manner.raises)
    (T := Reported manner.raises) (fun _ _ => ⟨List.suffix_rfl, fun _ => id, id⟩)
    (fun _ _ fresh => by rintro _ ⟨⟩; exact .inl fresh) (fun _ => nofun) fun _ _ _ => id
  refine Runs.client (fun operation parts => ?_) ?_ ?_ client
  · obtain ⟨body, runs, issue⟩ := issue_checked lax (Runs.look _) operation parts
      fun _ script session => ⟨List.suffix_rfl, fun _ => id, id⟩
    rw [Operation.issue_journaled, issue]
    exact runs_noted runs
  · rintro _ ⟨change, rfl⟩ session
    exact ⟨List.suffix_rfl, fun _ => id, id⟩
  · rintro error raised session _ ⟨⟩
    cases aborted : error.isAborted with
    | false => exact .inl rfl
    | true => exact .inr (.inr ⟨aborted, raised⟩)

/-! ## The script -/

/-- The operation has replied that it was carried out. -/
def Succeeded (operation : String) (events : List (Event Recorder)) : Prop :=
  ∃ event ∈ events, event.operation = operation ∧ event.occasion = .succeeded

theorem Succeeded.mono {operation : String} {events' : List (Event Recorder)}
    (h : Succeeded operation events) (grows : events ⊆ events') : Succeeded operation events' :=
  let ⟨event, mem, found⟩ := h
  ⟨event, grows mem, found⟩

/-- The journal agrees with how far the script has come. -/
structure Scripted (recorder : Recorder) (events : List (Event Recorder)) : Prop where
  started : recorder.script ≠ .notStarted → Succeeded "start_script" events
  ended : recorder.script = .ended → recorder.poisoned = none → Succeeded "end_script" events

/-- The journal goes on to agree with how far the script has come. -/
def Advances (session session' : Session Recorder (Journal Recorder υ)) : Prop :=
  Scripted session.backend session.client.events → Scripted session'.backend session'.client.events

instance : IsPreorder (Session Recorder (Journal Recorder υ)) Advances where
  refl _ := id
  trans _ _ _ h₁ h₂ := h₂ ∘ h₁

theorem poison_clean {recorder : Recorder} {error : CompileError}
    (h : (recorder.poison error).poisoned = none) :
    recorder.poisoned = none ∧ error.isAborted = true := by
  cases found : recorder.poisoned with
  | some cause => simp [poison_kept found] at h
  | none =>
      refine ⟨rfl, ?_⟩
      cases aborted : error.isAborted with
      | true => rfl
      | false => simp [poison, found, aborted] at h

theorem poison_script (recorder : Recorder) (error : CompileError) :
    (recorder.poison error).script = recorder.script := by
  unfold poison
  split <;> rfl

namespace Scripted

variable {recorder : Recorder} (scripted : Scripted recorder events)
include scripted

theorem cons (event : Event Recorder) : Scripted recorder (event :: events) :=
  ⟨fun h => (scripted.started h).mono (List.subset_cons_self ..),
    fun h clean => (scripted.ended h clean).mono (List.subset_cons_self ..)⟩

theorem poison (error : CompileError) : Scripted (recorder.poison error) events :=
  ⟨fun h => scripted.started (poison_script recorder error ▸ h),
    fun h clean => scripted.ended (poison_script recorder error ▸ h) (poison_clean clean).1⟩

end Scripted

/-- An operation that leaves the script as it is, with its journal. -/
theorem advances_noted {name : String} {body : Work Recorder (Journal Recorder υ) α}
    (h : Moves Advances body) : Moves Advances (Work.journaled name (checked body)) := by
  refine fun session => Work.ends_journaled (ends_checked (fun cause _ scripted => ?_) fun _ => ?_)
  · exact (scripted.cons _).cons _
  · refine (h _).mono (fun _ session' advances scripted => ?_) fun halt session' advances => ?_
    · exact (advances (scripted.cons _)).cons _
    · cases halt with
      | failure error => exact fun scripted => ((advances (scripted.cons _)).poison error).cons _
      | outOfFuel => exact fun scripted => (advances (scripted.cons _)).cons _

theorem advances_startScript : Moves Advances (Work.journaled "start_script" startScript :
    Work Recorder (Journal Recorder υ) Unit) := by
  refine fun session => Work.ends_journaled (ends_checked
    (fun cause _ scripted => (scripted.cons _).cons _) fun _ => Ends.get ?_)
  refine Ends.ite (fun _ => Ends.stops fun scripted => ((scripted.cons _).poison _).cons _)
    fun _ => ?_
  refine (Work.ends_onBench ?_).bind fun handle session' (_ : True) => ?_
  · exact (Bench.plain_openUnit _ _ _ _ _ _).mono (fun _ _ => id) fun _ _ _ scripted =>
      ((scripted.cons _).poison _).cons _
  · exact Ends.modifies fun _ => ⟨fun _ => ⟨_, List.mem_cons_self .., rfl, rfl⟩, nofun⟩

theorem advances_endScript : Moves Advances (Work.journaled "end_script" endScript :
    Work Recorder (Journal Recorder υ) Unit) := by
  refine fun session => Work.ends_journaled (ends_checked
    (fun cause _ scripted => (scripted.cons _).cons _) fun _ => ?_)
  refine Ends.ite (fun _ => Ends.halts (Work.ends_violate fun scripted =>
    ((scripted.cons _).poison _).cons _)) fun _ => Ends.get ?_
  split
  · rename_i handle opened
    have started (scripted : Scripted session.backend session.client.events) :
        Succeeded "start_script" session.client.events :=
      scripted.started fun fresh => ScriptState.noConfusion (fresh.symm.trans opened)
    refine Ends.changes ((Work.ends_onBench ?_).bind fun _ _ h => Ends.pure h)
    refine Ends.intro (fun installed bench _ scripted => ?_) fun error bench failed scripted => ?_
    · exact ⟨fun _ => (started scripted).mono fun _ h => .tail _ (.tail _ h),
        fun _ _ => ⟨_, List.mem_cons_self .., rfl, rfl⟩⟩
    -- A script that cannot be closed has ended all the same, but the failure is remembered.
    · have fresh : error.isAborted = false :=
        ((Bench.plain_closeUnit handle .script _).error failed).not_aborted
      refine ⟨fun _ => (started scripted).mono fun _ h => .tail _ (.tail _ h), fun _ clean => ?_⟩
      rw [(poison_clean clean).2] at fresh
      cases fresh
  · exact Work.ends_fail fun scripted => ((scripted.cons _).poison _).cons _

/-- Every caller leaves a journal that agrees with how far the script has come. -/
theorem advances_client {manner : Manner Recorder (Journal Recorder υ)}
    {action : Work Recorder (Journal Recorder υ) α}
    (client : Client (contract (Journal Recorder υ)).journaled manner.journaled action) :
    Moves Advances action := by
  have lax := Runs.lax (R := Advances (υ := υ)) (T := fun _ _ => True)
    (fun _ _ => id) (fun _ _ _ => trivial) (fun _ => trivial) fun _ _ _ => id
  refine client.moves (fun operation parts => ?_) ?_
  · rw [Operation.issue_journaled]
    by_cases script : operation.SetsScript
    · cases operation with
      | startScript => exact advances_startScript
      | endScript => exact advances_endScript
      | _ => exact script.elim
    · obtain ⟨body, runs, issue⟩ := issue_checked lax (Runs.look _) operation
        (fun part has => .of_moves (parts part has).2 fun _ _ => trivial) fun h => absurd h script
      rw [issue]
      exact advances_noted runs.moves
  · rintro _ ⟨change, rfl⟩ session
    exact id

/-! ## Breaking off -/

/-- No operation has broken off. -/
def Answered (events : List (Event Recorder)) : Prop :=
  ∀ event ∈ events, event.occasion ≠ .failed .outOfFuel

theorem Answered.cons {event : Event Recorder} (answered : Answered events)
    (h : event.occasion ≠ .failed .outOfFuel) : Answered (event :: events) := by
  rintro earlier (_ | ⟨_, mem⟩)
  · exact h
  · exact answered earlier mem

/-- An operation that breaks off ends everything around it. -/
def Unbroken (action : Work Recorder (Journal Recorder υ) α) : Prop :=
  ∀ session, Answered session.client.events → Ends action session
    (fun _ session' => Answered session'.client.events)
    fun halt session' => halt ≠ .outOfFuel → Answered session'.client.events

namespace Unbroken

theorem lax : Lax (β := Recorder) (υ := Journal Recorder υ) (fun {α} => Unbroken (α := α)) where
  pure _ := fun _ answered => answered
  bind h₁ h₂ := fun session answered =>
    (h₁ session answered).bind fun value session' => h₂ value session'
  bench := fun _ answered => answered
  fail _ := fun _ answered _ => answered
  breakOff := fun _ _ broken => absurd rfl broken
  onBench plain := fun session answered => Work.ends_onBench ((plain session.bench).mono
    (fun _ _ _ => answered) fun _ _ _ _ => answered)
  modifyBench _ := fun _ answered => answered
  cleaning _ h := fun session answered => Work.ends_cleaning (h session answered)

/-- An operation that is refused after a failure, and remembers its own, with its journal. -/
theorem noted {name : String} {body : Work Recorder (Journal Recorder υ) α} (h : Unbroken body) :
    Unbroken (Work.journaled name (checked body)) := by
  intro session answered
  have issued : Answered (session.event name session.client.events.length .issued ::
      session.client.events) := answered.cons nofun
  refine Work.ends_journaled (ends_checked (fun _ _ _ => issued.cons nofun) fun _ => ?_)
  refine (h _ issued).mono (fun _ _ answered' => answered'.cons nofun) fun halt _ answered' => ?_
  cases halt with
  | failure error => exact fun _ => (answered' nofun).cons nofun
  | outOfFuel => exact fun broken => absurd rfl broken

theorem client {manner : Manner Recorder (Journal Recorder υ)}
    {action : Work Recorder (Journal Recorder υ) α}
    (client : Client (contract (Journal Recorder υ)).journaled manner.journaled action) :
    Unbroken action := by
  induction client with
  | pure value => exact lax.pure value
  | bind _ _ first next => exact lax.bind first next
  | look => exact fun _ answered => answered
  | keep allowed =>
      obtain ⟨change, rfl⟩ := allowed
      exact fun _ answered => answered
  | raise _ => exact fun _ answered _ => answered
  | rescue _ _ body handler =>
      refine fun session answered => Work.ends_rescue ((body session answered).mono
        (fun _ _ => id) fun halt session' answered' => ?_)
      cases halt with
      | failure error => exact handler error session' (answered' nofun)
      | outOfFuel => exact fun broken => absurd rfl broken
  | @issue _ operation _ _ parts =>
      obtain ⟨body, unbroken, issue⟩ := issue_checked lax (fun _ answered => answered) operation
        parts fun _ _ _ answered => answered
      rw [Operation.issue_journaled, issue]
      exact unbroken.noted

end Unbroken

/-! ## Programs are whole -/

/-- What the backend promises about the past. -/
structure Reliable (raises : CompileError → Prop) (session : Session Recorder (Journal Recorder υ)) :
    Prop where
  /-- A program is only handed over if the script was opened and closed and nothing failed. -/
  whole : ∀ finished, program session = .ok finished →
    Succeeded "start_script" session.client.events ∧ Succeeded "end_script" session.client.events ∧
    ∀ event ∈ session.client.events, ∀ error, event.occasion = .failed (.failure error) →
      Foreign raises error
  /-- Once an operation has failed, every operation that is issued later fails. -/
  lasting : ∀ after event before, session.client.events = after ++ event :: before →
    ∀ error, event.occasion = .failed (.failure error) → Foreign raises error ∨
      ∃ cause, ∀ later ∈ after, before.length < later.since → Refused cause later

theorem Honest.reliable {session : Session Recorder (Journal Recorder υ)}
    (honest : Honest raises session.backend.poisoned session.client.events)
    (scripted : Scripted session.backend session.client.events) : Reliable raises session where
  whole finished h := by
    obtain ⟨clean, ended, -⟩ := program_ok h
    refine ⟨scripted.started (by simp [ended]), scripted.ended ended clean,
      fun event mem error failed => ?_⟩
    obtain remembered | foreign := honest.noticed event mem _ failed error rfl
    · obtain ⟨cause, found⟩ := Option.ne_none_iff_exists'.mp remembered
      exact absurd (honest.kept event mem cause found) (by simp [clean])
    · exact foreign
  lasting after event before split error failed := by
    have mem : event ∈ session.client.events := by simp [split]
    obtain remembered | foreign := honest.noticed event mem _ failed error rfl
    · obtain ⟨cause, found⟩ := Option.ne_none_iff_exists'.mp remembered
      exact .inr ⟨cause, honest.refused after event before split cause found⟩
    · exact .inl foreign

/-- Whatever a caller does, also with failures of operations and in nested code: a program is
only handed over if the script was opened and closed and no operation has failed, and after an
operation has failed all later ones fail. Failures are excepted that are refusals which the
caller has come with. An operation that breaks off ends the caller too. -/
theorem no_partial_program {manner : Manner Recorder (Journal Recorder υ)}
    {action : Work Recorder (Journal Recorder υ) α}
    (client : Client (contract (Journal Recorder υ)).journaled manner.journaled action)
    (config : Config) (owner : Nat) (own : υ) :
    Ends action (new config owner ⟨[], own⟩)
      (fun _ session => Reliable manner.raises session ∧ Answered session.client.events)
      fun halt session => Reliable manner.raises session ∧
        (halt ≠ .outOfFuel → Answered session.client.events) := by
  have fresh : Scripted {} [] := ⟨fun h => absurd rfl h, nofun⟩
  have unbroken := Unbroken.client client (new config owner ⟨[], own⟩) nofun
  refine Ends.intro (fun _ session run => ⟨?_, unbroken.ok run⟩)
    fun _ session run => ⟨?_, unbroken.error run⟩
  · exact (((runs_client client _).ok run).honest .nil).reliable ((advances_client client).ok run fresh)
  · exact (((runs_client client _).error run).1.honest .nil).reliable
      ((advances_client client).error run fresh)

/-- A script whose caller goes on as if nothing had failed. -/
def shrugging : Work Recorder (Journal Recorder Unit) Unit := do
  let backend := (contract (Journal Recorder Unit)).journaled
  Operation.startScript.issue backend
  Work.rescue ((Operation.endMethod ⟨0, 7⟩).issue backend) fun _ => pure ()
  Work.rescue (Operation.endScript.issue backend) fun _ => pure ()

/-- The failures of a session so far by name, the latest one first. -/
def failures (session : Session Recorder (Journal Recorder υ)) : List (String × String) :=
  session.client.events.filterMap fun event =>
    match event.occasion with
    | .failed (.failure error) => some (event.operation, error.label)
    | _ => none

theorem shrugging_gets_nothing : ∃ session, shrugging (new .strict 0 ⟨[], ()⟩) = .ok () session ∧
    failures session = [("end_script", "Aborted"), ("end_method", "ContractViolation")] ∧
    ∀ finished, program session ≠ .ok finished := by
  have outcome : (match shrugging (new .strict 0 ⟨[], ()⟩) with
      | .ok _ session => some (failures session)
      | .error _ _ => none) =
      some [("end_script", "Aborted"), ("end_method", "ContractViolation")] := by decide +kernel
  cases run : shrugging (new .strict 0 ⟨[], ()⟩) with
  | error halt session => simp [run] at outcome
  | ok value session =>
      simp only [run, Option.some.injEq] at outcome
      have issues (operation : Operation (Session Recorder (Journal Recorder Unit)) Unit)
          (flat : ∀ part, ¬operation.Has part) :
          Client (contract (Journal Recorder Unit)).journaled
            (Manner.journaled { raises := fun _ => False }) (operation.issue _) :=
        .issue (fun part has => absurd has (flat part)) fun part has => absurd has (flat part)
      have client : Client (contract (Journal Recorder Unit)).journaled
          (Manner.journaled { raises := fun _ => False }) shrugging :=
        .bind (issues .startScript fun _ => id) fun _ =>
          .bind (.rescue (issues (.endMethod ⟨0, 7⟩) fun _ => id) fun _ => .pure ()) fun _ =>
            .rescue (issues .endScript fun _ => id) fun _ => .pure ()
      obtain ⟨reliable, answered⟩ := (no_partial_program client .strict 0 ()).ok run
      refine ⟨session, rfl, outcome, fun finished handed => ?_⟩
      have listed : ("end_script", "Aborted") ∈ failures session := by simp [outcome]
      obtain ⟨event, mem, named⟩ := List.mem_filterMap.mp listed
      cases occasion : event.occasion with
      | issued => simp [occasion] at named
      | succeeded => simp [occasion] at named
      | failed halt =>
          cases halt with
          | failure error => exact ((reliable.whole finished handed).2.2 event mem error occasion).2
          | outOfFuel => exact answered event mem occasion

/-- Whether a program is handed over although the caller has left the mark of a failure. -/
def marked (mishap : Action BenchAction) : Option (Array String × Bool) :=
  let script : Action BenchAction :=
    .all [.startScript, .rescue mishap fun _ => .mark "failed", .endScript]
  match script.run (contract Notes) BenchAction.run (new .strict 0 {}) with
  | .ok _ session => some (session.client.trace, (program session).toOption.isSome)
  | .error _ _ => none

/-- Neither a refusal that nested code comes with is remembered, nor a failure of code that is
emitted directly. -/
theorem failures_overlooked :
    marked (.closure (.ofBlock []) 0 (.fail (.aborted (.artifact "elsewhere")))) =
      some (#["failed"], true) ∧
    marked (.extra (.emit .pop)) = some (#["failed"], true) := by
  decide +kernel

end Recorder

end BlockScript
