import BlockScript.Proofs.Backend.Intact
import BlockScript.Proofs.Backend.Lexical
import BlockScript.Proofs.Backend.Nested

/-!
# Recorded programs are forests

Whatever operations of the contract are issued, in nested code or in explicit units, and whether
they succeed or fail: if a program is handed over in the end, its bodies form a forest, the script
comes first and every slot is filled.

Unless a failure is remembered, the bench is intact between any two operations. A call with a block
outside the script may leave it otherwise, but it fails after the block was recorded, so the failure
is remembered and no program is handed over.
-/

namespace BlockScript

/-- An operation that refers to nothing refers to no body. -/
theorem Op.Plain.inner? {op : Op} (h : op.Plain) : op.inner? = none := by
  obtain ⟨-, -, links⟩ := h .empty (fun _ => 0) 0
  have absent (position : UInt32) : ¬Program.empty.Has position := by
    rintro ⟨code, found⟩
    simp [Program.code?, Program.empty] at found
  cases op with
  | makeClosure code => exact absurd links.1 (absent _)
  | send name argc receiver block =>
      cases block with
      | none => rfl
      | some target => exact absurd (links target rfl).1 (absent _)
  | defineMethod name code => exact absurd links.1 (absent _)
  | _ => rfl

namespace Recorder

variable {υ α : Type}

/-- Unless a failure is remembered, the bench is as it should be. -/
def Formed (session : Session Recorder υ) : Prop :=
  session.backend.poisoned = none → session.bench.Intact session.backend.script

/-- If a session was as it should be, it is so again. -/
def Forms (session session' : Session Recorder υ) : Prop := Formed session → Formed session'

instance : IsPreorder (Session Recorder υ) Forms where
  refl _ := id
  trans _ _ _ h₁ h₂ := h₂ ∘ h₁

/-- The failure will be remembered. -/
def Fresh (halt : Halt CompileError) : Prop := ∃ error, halt = .failure error ∧ error.isAborted = false

/-- What an operation does on the bench only matters if no failure is remembered. -/
theorem ends_onBench_clean {action : BenchM α} {session : Session Recorder υ}
    {done : α → Bench → Prop} {failed : CompileError → Bench → Prop}
    (h : session.backend.poisoned = none → Ends action session.bench done failed) :
    Ends (Work.onBench action) session
      (fun value session' => session'.backend = session.backend ∧
        (session.backend.poisoned = none → done value session'.bench))
      fun halt session' => session'.backend = session.backend ∧ ∃ error, halt = .failure error ∧
        (session.backend.poisoned = none → failed error session'.bench) := by
  refine Work.ends_onBench (Ends.intro (fun value bench run => ⟨rfl, fun clean => ?_⟩)
    fun error bench run => ⟨rfl, error, rfl, fun clean => ?_⟩)
  · exact (h clean).ok run
  · exact (h clean).error run

theorem moves_onBench {action : BenchM α} (h : Moves Bench.Sustains action) :
    Moves Forms (Work.onBench action : Work Recorder υ α) :=
  fun session => Work.ends_onBench ((h session.bench).mono
    (fun _ _ sustains formed clean => sustains _ (formed clean))
    fun _ _ sustains formed clean => sustains _ (formed clean))

theorem moves_cleaning {action : Work Recorder υ α} {cleanUp : Bench → Bench}
    (h : Moves Forms action) (cleans : ∀ bench : Bench, bench.Sustains (cleanUp bench)) :
    Moves Forms (action.cleaning cleanUp) :=
  fun session => Work.ends_cleaning ((h session).mono (fun _ _ => id)
    fun _ _ forms formed clean => cleans _ _ (forms formed clean))

theorem forms_compositional : Compositional (β := Recorder) (υ := υ)
    (fun {α} (action : Work Recorder υ α) => Moves Forms action) where
  toSequenced := Moves.sequenced
  target := moves_onBench Bench.Appending.moves_target
  emit operation _ plain _ := moves_onBench (Bench.moves_appends operation plain.inner?)
  emitJump operation kind := moves_onBench (Bench.moves_building
    (fun builder => builder.checked_emitJump operation kind) fun builder patch builder' run => by
      have emits := (Builder.emitJump_ok run).2
      refine ⟨Builder.kind_emit emits, ?_⟩
      rw [Builder.inner_emit emits]
      cases kind <;> exact List.append_nil _ ▸ List.Sublist.refl _)
  emitJumpBack operation kind label := moves_onBench (Bench.moves_building
    (fun builder => .bind (builder.checked_emit _ _) fun _ => .ok _) fun builder _ builder' run => by
      obtain ⟨_, emits, same⟩ := Verifier.bind_ok run
      cases same
      refine ⟨Builder.kind_emit emits, ?_⟩
      rw [Builder.inner_emit emits]
      cases kind <;> exact List.append_nil _ ▸ List.Sublist.refl _)
  patchHere patch := Moves.sequenced.patchHere (moves_onBench Bench.Appending.moves_target)
    (moves_onBench (Bench.moves_changes fun builder =>
      ⟨by rw [Builder.patchHere_eq],
        builder.inner_patchHere patch⟩))
  resetTo depth := moves_onBench (Bench.moves_changes fun _ => ⟨rfl, List.Sublist.refl _⟩)
  nested h := by
    refine Moves.bind (moves_onBench fun bench => ?_) fun _ => ?_
    · unfold Ends
      dsimp only
      rw [UnitStack.enter_eq]
      by_cases room : bench.units.size + bench.units.nesting + 1 ≤ bench.units.maxNesting
      · rw [if_pos room]
        exact bench.sustains_nesting _
      · rw [if_neg room]
        exact refl_of Bench.Sustains bench
    · exact Work.moves_bench.bind fun before =>
        (moves_cleaning h fun bench script intact =>
          (bench.sustains_nesting _ script intact).abandon _).bind fun value =>
        (Moves.modifies fun session formed clean =>
          session.bench.sustains_nesting _ _ (formed clean)).bind fun _ => .pure value

/-! ## Operations of the contract -/

/-- A session in which a body has to be referred to next, unless a failure is remembered. -/
def Owes (kind : UnitKind) (slot : UInt32) (session : Session Recorder υ) : Prop :=
  session.backend.poisoned = none →
    session.bench.Pending session.backend.script slot kind

/-- A body that is not the script's is recorded in a unit of its own. -/
theorem ends_recordUnit_owes {session : Session Recorder υ}
    (clean : session.backend.poisoned = none) (intact : session.bench.Intact session.backend.script)
    {kind : UnitKind} (other : kind ≠ .script) (name : String) (arity localCount : Nat)
    (locals : List String) (around : kind = .method → session.bench.units.units ≠ [])
    {body : Work Recorder υ Unit} (moves : Moves Forms body) :
    Ends (Work.recordUnit kind name arity localCount locals body) session
      (fun slot => Owes kind slot) fun _ => Formed := by
  have opens : Ends (Work.onBench (Bench.openUnit kind name arity localCount locals)) session
      (fun _ => Formed) fun _ => Formed := by
    refine (ends_onBench_clean fun _ =>
      Bench.ends_openUnit_intact intact kind name arity localCount locals around).mono ?_ ?_
    · rintro _ session' ⟨same, opened⟩ -
      exact same ▸ opened clean
    · rintro _ session' ⟨same, _, -, failed⟩ -
      exact same ▸ (failed clean).1
  refine Ends.get (opens.bind fun handle opened formed => Work.ends_cleaning ?_)
  have abandons {session' : Session Recorder υ} (formed : Formed session') (count : Nat) :
      Formed { session' with bench := session'.bench.abandon count } :=
    fun clean => (formed clean).abandon count
  refine ((moves opened).mono (fun _ _ forms => forms formed) fun _ _ forms =>
    abandons (forms formed) _).bind fun _ recorded formed => ?_
  refine (ends_onBench_clean fun clean =>
    Bench.ends_closeUnit_pending (formed clean) handle other).mono ?_ ?_
  · rintro slot session' ⟨same, closed⟩ clean
    rw [same] at clean ⊢
    exact (closed clean).2
  · rintro _ session' ⟨same, _, -, failed⟩
    refine abandons (fun clean => ?_) _
    rw [same] at clean ⊢
    exact (failed clean).1

/-- The body that was recorded is referred to, or the failure will be remembered. -/
theorem ends_onBench_owes {session : Session Recorder υ} {kind : UnitKind} {slot : UInt32}
    (owes : Owes kind slot session) {action : BenchM Unit}
    (h : session.bench.Pending session.backend.script slot kind →
      Ends action session.bench (fun _ => Bench.Intact session.backend.script)
        fun error _ => error.isAborted = false) :
    Ends (Work.onBench action) session (fun _ => Formed)
      fun halt session' => Fresh halt ∨ Formed session' := by
  refine (ends_onBench_clean fun clean => h (owes clean)).mono ?_ ?_
  · rintro _ session' ⟨same, intact⟩ clean
    rw [same] at clean ⊢
    exact intact clean
  · rintro _ session' ⟨same, error, rfl, fresh⟩
    cases found : session.backend.poisoned with
    | none => exact .inl ⟨error, rfl, fresh found⟩
    | some cause => exact .inr fun clean => by simp [same, found] at clean

/-- An operation is refused after a failure, and a failure of its own is remembered. -/
theorem forms_checked {operation : Work Recorder υ α}
    (h : ∀ session : Session Recorder υ, session.backend.poisoned = none →
      session.bench.Intact session.backend.script → Ends operation session (fun _ => Formed)
        fun halt session' => Fresh halt ∨ Formed session') : Moves Forms (checked operation) := by
  refine fun session => ends_checked (fun _ _ => id) fun clean => ?_
  by_cases intact : session.bench.Intact session.backend.script
  · refine (h session clean intact).mono (fun _ _ formed _ => formed) ?_
    rintro (error | _) session' failed
    · intro _ unremembered
      obtain ⟨unpoisoned, aborted⟩ := poison_clean unremembered
      rw [poison_script]
      rcases failed with ⟨_, same, fresh⟩ | formed
      · cases same
        rw [fresh] at aborted
        cases aborted
      · exact formed unpoisoned
    · rcases failed with ⟨_, same, -⟩ | formed
      · cases same
      · exact fun _ => formed
  · exact Ends.intro (fun _ _ _ formed => absurd (formed clean) intact) fun halt session' _ => by
      cases halt <;> exact fun formed => absurd (formed clean) intact

/-- An operation whose every step leaves the session as it should be. -/
theorem forms_checked_of_moves {operation : Work Recorder υ α} (h : Moves Forms operation) :
    Moves Forms (checked operation) :=
  forms_checked fun session _ intact => (h session).mono (fun _ _ forms => forms fun _ => intact)
    fun _ _ forms => .inr (forms fun _ => intact)

/-- The script is opened. Until it ends, the same is said of it as before. -/
theorem forms_startScript : Moves Forms (startScript : Work Recorder υ Unit) := by
  refine forms_checked fun session clean intact => Ends.get ?_
  refine Ends.ite (fun _ => Ends.stops (.inl ⟨_, rfl, rfl⟩)) fun fresh => ?_
  have fresh : session.backend.script = .notStarted := not_not.mp fresh
  have opens := Bench.ends_openUnit_intact intact .script mainName 0 0 [] nofun
  refine ((ends_onBench_clean fun _ => opens).mono (fun _ _ => id) ?_).bind ?_
  · rintro _ session' ⟨-, error, rfl, failed⟩
    exact .inl ⟨error, rfl, (failed clean).2⟩
  · rintro handle session' ⟨same, opened⟩
    refine Ends.modifies fun _ => ?_
    have intact' := opened clean
    rw [fresh] at intact'
    exact ⟨intact'.shaped, intact'.staged⟩

/-- The script is closed when no other unit is open. If that fails, the failure is remembered. -/
theorem forms_endScript : Moves Forms (endScript : Work Recorder υ Unit) := by
  refine forms_checked fun session clean intact => ?_
  refine Ends.ite (fun _ => (Work.ends_violate (.inl ⟨_, rfl, rfl⟩)).halts) fun single => Ends.get ?_
  split
  · rename_i handle opened
    rw [opened] at intact
    have closes := Bench.ends_closeUnit_ended intact handle (Nat.le_of_not_lt single)
    have ended : Ends (Work.onBench (Bench.closeUnit handle .script))
        { session with backend := { session.backend with script := .ended } }
        (fun _ => Formed) fun halt session' => Fresh halt ∨ Formed session' := by
      refine Ends.mono (ends_onBench_clean fun _ => closes) ?_ ?_
      · rintro _ session' ⟨same, ended⟩ -
        rw [same]
        exact ended clean
      · rintro _ session' ⟨-, error, rfl, failed⟩
        exact .inl ⟨error, rfl, failed clean⟩
    exact Ends.changes (ended.bind fun _ _ formed => Ends.pure formed)
  · exact Work.ends_fail (.inl ⟨_, rfl, rfl⟩)

/-- An operation that is only carried out inside a unit. -/
theorem forms_checked_inside {operation : Work Recorder υ α}
    (h : ∀ session : Session Recorder υ, session.backend.poisoned = none →
      session.bench.Intact session.backend.script → session.bench.units.units ≠ [] →
        Ends operation session (fun _ => Formed) fun halt session' => Fresh halt ∨ Formed session') :
    Moves Forms (checked do
      let _ ← Work.onBench Bench.target
      operation) := by
  refine forms_checked fun session clean intact => ?_
  have inside : Ends (Work.onBench Bench.target) session
      (fun _ session' => session' = session ∧ session.bench.units.units ≠ [])
      fun halt session' => Fresh halt ∨ Formed session' := by
    refine Work.ends_onBench (Bench.ends_target.mono ?_ fun error _ failed => ?_)
    · rintro _ _ ⟨rfl, slot, found⟩
      obtain ⟨unit, outer, hunits, -⟩ := Bench.recording?_eq_some.mp found
      exact ⟨rfl, hunits ▸ List.cons_ne_nil unit outer⟩
    · exact .inl ⟨error, rfl, failed.1.not_aborted⟩
  refine inside.bind ?_
  rintro _ _ ⟨rfl, around⟩
  exact h _ clean intact around

theorem forms_beginMethod (name : String) (arity localCount : Nat) :
    Moves Forms (beginMethod name arity localCount : Work Recorder υ UnitHandle) := by
  refine forms_checked_inside fun session clean intact around => ?_
  have opens := Bench.ends_openUnit_intact intact .method name arity localCount [] fun _ => around
  refine (ends_onBench_clean fun _ => opens).mono ?_ ?_
  · rintro _ session' ⟨same, opened⟩ -
    exact same ▸ opened clean
  · rintro _ session' ⟨-, error, rfl, failed⟩
    exact .inl ⟨error, rfl, (failed clean).2⟩

/-- A method that is closed has a unit around it, and need not be referred to. -/
theorem forms_endMethod (handle : UnitHandle) :
    Moves Forms (endMethod handle : Work Recorder υ Unit) := by
  refine forms_checked fun session clean intact => ?_
  have closes := Bench.ends_closeUnit_pending intact handle (show UnitKind.method ≠ .script by nofun)
  have closed : Ends (Work.onBench (Bench.closeUnit handle .method)) session (fun _ => Formed)
      fun halt session' => Fresh halt ∨ Formed session' := by
    refine (ends_onBench_clean fun _ => closes).mono ?_ ?_
    · rintro slot session' ⟨same, closed⟩ -
      obtain ⟨⟨unit, hunits, kind⟩, pending⟩ := closed clean
      rw [same]
      refine ⟨pending.shaped, pending.staged.resolve_right fun empty => ?_⟩
      rw [empty] at hunits
      exact intact.shaped.outermost unit (by rw [hunits]; rfl) kind
    · rintro _ session' ⟨-, error, rfl, failed⟩
      exact .inl ⟨error, rfl, (failed clean).2⟩
  exact closed.bind fun _ _ formed => Ends.pure formed

/-- A block is recorded in a unit of its own. -/
theorem ends_recordBlock_owes {session : Session Recorder υ}
    (clean : session.backend.poisoned = none) (intact : session.bench.Intact session.backend.script)
    (scope : StaticScope) (arity : Nat) {body : Work Recorder υ Unit} (moves : Moves Forms body) :
    Ends (Work.recordBlock scope arity body) session (fun slot => Owes .closure slot)
      fun halt session' => Fresh halt ∨ Formed session' :=
  Ends.get ((ends_recordUnit_owes clean intact (by nofun) _ _ _ _ (by nofun) moves).mono
    (fun _ _ => id) fun _ _ => .inr)

/-- The block of a call is recorded first. Outside the script, the call itself fails then. -/
theorem forms_invoke (name : String) (shape : Invocation)
    {block : Option (BlockBody (Session Recorder υ))}
    (moves : ∀ given, block = some given → Moves Forms given.body) :
    Moves Forms (checked (Work.emitCall name shape block)) := by
  cases block with
  | none => exact forms_checked_of_moves (moves_onBench (Bench.moves_appendsPooled _ _ fun _ => rfl))
  | some given =>
      refine forms_checked fun session clean intact => ?_
      have records : Ends (Work.recordBlock? (some given)) session
          (fun slot session' => ∃ target, slot = some target ∧ Owes .closure target session')
          fun halt session' => Fresh halt ∨ Formed session' :=
        (ends_recordBlock_owes clean intact given.scope given.arity (moves given rfl)).bind
          fun target _ owes => Ends.pure ⟨target, rfl, owes⟩
      refine records.bind ?_
      rintro _ session' ⟨target, rfl, owes⟩
      exact ends_onBench_owes owes fun pending =>
        Bench.ends_emitPooled_pending pending _ _ fun _ => rfl

theorem forms_closure (scope : StaticScope) (arity : Nat) {body : Work Recorder υ Unit}
    (moves : Moves Forms body) : Moves Forms (closure scope arity body) := by
  refine forms_checked_inside fun session clean intact _ => ?_
  refine (ends_recordBlock_owes clean intact scope arity moves).bind fun slot session' owes => ?_
  exact ends_onBench_owes owes fun pending => Bench.ends_emit_pending pending _ rfl

theorem forms_defineMethod (name : String) (arity localCount : Nat) {body : Work Recorder υ Unit}
    (moves : Moves Forms body) : Moves Forms (defineMethod name arity localCount body) := by
  refine forms_checked_inside fun session clean intact around => ?_
  have records := ends_recordUnit_owes clean intact (show UnitKind.method ≠ .script by nofun) name
    arity localCount [] (fun _ => around) moves
  refine (records.mono (fun _ _ => id) fun _ _ => .inr).bind fun slot session' owes => ?_
  exact ends_onBench_owes owes fun pending =>
    Bench.ends_emitPooled_pending pending _ _ fun _ => rfl

/-- Every operation leaves the session as it should be, if its nested code does. -/
theorem forms_contract (nests : Work Recorder υ Unit → Prop) : (contract υ).Keeps nests Forms := by
  intro α operation parts
  cases operation with
  | startScript => exact forms_startScript
  | endScript => exact forms_endScript
  | beginMethod name arity localCount => exact forms_beginMethod name arity localCount
  | endMethod handle => exact forms_endMethod handle
  | primitive p => exact forms_checked_of_moves (moves_onBench (Bench.sustains_emitPrimitive p))
  | invoke name shape block =>
      exact forms_invoke name shape fun given same => (parts _ ⟨given, same, rfl⟩).2
  | control inner =>
      have emits : Moves Forms inner.emit :=
        forms_compositional.control inner fun part has => (parts part has).2
      have checks := forms_checked_of_moves emits
      cases inner <;> exact checks
  | closure scope arity body => exact forms_closure scope arity (parts body rfl).2
  | defineMethod name arity localCount body =>
      exact forms_defineMethod name arity localCount (parts body rfl).2

/-! ## Programs -/

/-- Nothing has been recorded yet. -/
theorem formed_new (owner : Nat) (own : υ) : Formed (new .strict owner own) := by
  refine fun _ => ⟨⟨rfl, Bench.proper_new .strict owner false,
    Bench.tabled_new (by decide) owner false, nofun, nofun, ?_, List.nodup_nil, List.nodup_nil⟩,
    nofun, nofun⟩
  intro position code draft
  cases draft with
  | installed found => cases found
  | recorded opened => cases opened

/-- If a program is handed over, its bodies form a forest. -/
def HandsOver (session : Session Recorder υ) : Prop :=
  ∀ program, Recorder.program session = .ok program → program.Shaped ∧ program.Forest

theorem Formed.handsOver {session : Session Recorder υ} (formed : Formed session)
    (strict : session.bench.config = .strict) : HandsOver session := by
  intro program finished
  obtain ⟨clean, ended, rfl, verify⟩ := program_ok finished
  have intact := formed clean
  rw [ended] at intact
  obtain ⟨⟨body, found, kind, -⟩, single⟩ := intact.staged
  have verified := verify (strict ▸ rfl)
  have shaped : session.bench.program.Shaped := by
    refine ⟨⟨body, found, kind⟩, single, fun code => Program.not_placeholder_of_verify verified, ?_, ?_,
      intact.shaped.pool⟩
    · intro position code found target kind member
      have inside := intact.shaped.inner position code (.installed found) target kind member
      obtain ⟨body, found, kind, -⟩ := inside.filled
      exact ⟨inside.later, body, found, kind⟩
    · have once := intact.shaped.once
      rw [Bench.references, List.flatMap_append] at once
      exact once.of_append_left
  exact ⟨shaped, shaped.forest⟩

/-- Whatever a caller does with the bytecode backend under the strict configuration: if a program is
handed over, the script is its first body, every slot is filled, each operation refers to a later
body of its own and of the right kind, and no constant is pooled twice. -/
theorem recorded_forest {manner : Manner Recorder υ} {action : Work Recorder υ α}
    (client : Client (contract υ) manner action) (owner : Nat) (own : υ) :
    Ends action (new .strict owner own) (fun _ => HandsOver) fun _ => HandsOver := by
  have forms := client.moves (forms_contract manner.nests) fun _ _ _ formed => formed
  have lasts := client.moves (lasts_contract manner.nests) fun _ _ session =>
    refl_of (Bench.Lasts false) session.bench
  have proper : (Bench.new .strict owner false).Proper false := Bench.proper_new .strict owner false
  refine Ends.intro (fun _ session run => ?_) fun _ session run => ?_
  · exact ((forms _).ok run (formed_new owner own)).handsOver ((lasts _).ok run proper).config
  · exact ((forms _).error run (formed_new owner own)).handsOver ((lasts _).error run proper).config

/-- A script that makes a block with a block inside, and defines a method that calls with a block. -/
def nestling : Action Empty := .all [
  .startScript,
  .closure (.ofBlock []) 0 (.closure (.ofBlock []) 0 .skip),
  .primitive .consume,
  .method "helper" 0 0 (.callBlock "each" .name (.ofBlock []) 0 .skip),
  .endScript]

theorem nestling_forest : ∃ program, program.references = [1, 3, 2, 4] ∧ program.Shaped ∧
    program.Forest ∧ ∃ session, Recorder.program session = .ok program ∧
      nestling.run (contract Notes) Empty.elim (new .strict 0 {}) = .ok () session := by
  have outcome : (recorded? (nestling.run (contract Notes) Empty.elim) (new .strict 0 {})).map
      Program.references = some [1, 3, 2, 4] := by decide +kernel
  have client : Client (contract Notes) {} (nestling.run (contract Notes) Empty.elim) :=
    nestling.client fun operation => operation.elim
  -- what the action does has been evaluated, and matters no more
  generalize nestling.run (contract Notes) Empty.elim = action at outcome client ⊢
  obtain ⟨program, recorded, references⟩ := Option.map_eq_some_iff.mp outcome
  obtain ⟨value, session, run, finished⟩ := run_of_recorded? recorded
  obtain ⟨shaped, forest⟩ := (recorded_forest client 0 {}).ok run program finished
  exact ⟨program, references, shaped, forest, session, finished, run⟩

end Recorder

end BlockScript
