import BlockScript.Proofs.Backend.Torn

/-!
# Operations that may break off in the unit that is recorded

A fragment says how far an operation with nested code has come with the innermost recording, in
terms of the session that it began with. The unit is held meanwhile, so nothing is said about
what has been appended to it until the operation is over. Then there are two ways to go on: what
was appended carries the recording on, or the operation fails and its jumps are torn off.
-/

namespace BlockScript

variable {β υ α : Type} {start session session' : Session β (Journal β υ)}
  {unit : OpenUnit (Option Recording)} {outer inner inner' : List (OpenUnit (Option Recording))}
  {slot : UInt32} {first builder builder' : Builder}

/-- Only the recording of the innermost unit is incomplete, with this builder. Nested code has
opened some units more and has not closed them yet. -/
structure Fragment (start : Session β (Journal β υ)) (unit : OpenUnit (Option Recording))
    (outer : List (OpenUnit (Option Recording))) (slot : UInt32)
    (inner : List (OpenUnit (Option Recording))) (builder : Builder)
    (session : Session β (Journal β υ)) : Prop where
  began : start.bench.units.units = unit :: outer
  units : session.bench.units.units =
    inner ++ { unit with payload := some ⟨slot, builder⟩ } :: outer
  nextId : start.bench.units.nextId ≤ session.bench.units.nextId
  owner : session.bench.units.owner = start.bench.units.owner
  noted : start.client.events <:+ session.client.events
  numbered : session.bench.units.Numbered
  unspoilt : ∀ torn : JumpPatch → Prop, (∀ patch, Torn session.client.events patch → torn patch) →
    ∀ held ⊆ start.bench.units.ids, unit.id ∈ held →
      start.Unspoilt torn held → session.Unspoilt torn held

namespace Fragment

/-- The innermost recording as an operation finds it. -/
theorem begin (numbered : start.bench.units.Numbered)
    (began : start.bench.units.units = unit :: outer)
    (payload : unit.payload = some ⟨slot, builder⟩) :
    Fragment start unit outer slot [] builder start where
  began := began
  units := by rw [began, ← payload]; rfl
  nextId := Nat.le_refl _
  owner := rfl
  noted := List.suffix_rfl
  numbered := numbered
  unspoilt _ _ _ _ _ := id

theorem ids (fragment : Fragment start unit outer slot inner builder session) :
    session.bench.units.ids = inner.map (·.id) ++ start.bench.units.ids := by
  rw [UnitStack.ids, UnitStack.ids, fragment.units, fragment.began, List.map_append]
  rfl

/-- Steps that keep recordings whole, and that may carry on the recording in question. -/
theorem conserve (fragment : Fragment start unit outer slot inner builder session)
    (conserved : session.Conserved session') (units : session'.bench.units.units =
      inner' ++ { unit with payload := some ⟨slot, builder'⟩ } :: outer) :
    Fragment start unit outer slot inner' builder' session' where
  began := fragment.began
  units := units
  nextId := Nat.le_trans fragment.nextId conserved.units.nextId
  owner := conserved.units.owner.trans fragment.owner
  noted := fragment.noted.trans conserved.noted
  numbered := conserved.numbered
  unspoilt torn known held early member unspoilt := by
    have open_ : start.bench.units.ids ⊆ session'.bench.units.ids := by
      rw [UnitStack.ids, UnitStack.ids, units, fragment.began, List.map_append]
      exact List.subset_append_right ..
    refine conserved.unspoilt torn known held ?_ (List.Subset.trans early open_)
      (fragment.unspoilt torn (fun patch h => known patch (h.mono conserved.noted)) held early
        member unspoilt)
    rw [fragment.ids]
    exact List.Subset.trans early (List.subset_append_right ..)

/-- The bench changes in a way that does not concern the units. -/
theorem setBench (fragment : Fragment start unit outer slot inner builder session) {bench : Bench}
    (steps : ∀ torn, session.bench.Conserves torn bench)
    (same : bench.units.units = session.bench.units.units) :
    Fragment start unit outer slot inner builder { session with bench } :=
  fragment.conserve (Session.conserves_setBench steps fragment.numbered)
    (same.trans fragment.units)

variable (fragment : Fragment start unit outer slot [] builder session)

include fragment

theorem found : session.bench.recording? = some ⟨slot, builder⟩ :=
  Bench.recording?_eq_some.mpr ⟨_, outer, fragment.units, rfl⟩

theorem size : session.bench.units.size = outer.length + 1 := by
  rw [UnitStack.size, fragment.units]
  rfl

/-- Another builder in the recording, which is held. -/
theorem setBuilder (builder' : Builder) : Fragment start unit outer slot [] builder'
    { session with bench := session.bench.setBuilder builder' } := by
  have units := Bench.setBuilder_units fragment.units rfl builder'
  obtain ⟨nextId, owner, -, -⟩ := session.bench.setBuilder_rest builder'
  refine ⟨fragment.began, units, nextId ▸ fragment.nextId, owner ▸ fragment.owner,
    fragment.noted, fragment.numbered.mapTop _, fun torn known held early member unspoilt => ?_⟩
  have before := fragment.unspoilt torn known held early member unspoilt
  refine ⟨⟨before.bench.checks, fun other among free => ?_, before.bench.table⟩, before.tables⟩
  rw [units] at among
  rcases List.mem_cons.mp among with rfl | among
  · exact absurd member free
  · exact before.bench.units other (fragment.units ▸ List.mem_cons_of_mem _ among) free

/-- The operation is over, and what it has appended carries the recording on. -/
theorem completes (payload : unit.payload = some ⟨slot, first⟩)
    (carries : first.Carries (Torn session.client.events) builder) : start.Conserved session := by
  refine ⟨fragment.noted, fragment.numbered, ⟨fragment.nextId, fragment.owner, ?_⟩, ?_⟩
  · intro found rest suffix _
    rw [fragment.units] at suffix
    rcases List.suffix_cons_iff.mp suffix with heq | suffix
    · cases heq
      exact ⟨unit, fragment.began ▸ List.suffix_rfl, rfl, rfl, rfl, payload ▸ ⟨rfl, carries⟩⟩
    · exact ⟨found, fragment.began ▸ suffix.trans (List.suffix_cons ..), rfl, rfl, rfl,
        Recording.Carries.refl _⟩
  · intro torn known held early _ unspoilt
    by_cases member : unit.id ∈ held
    · exact fragment.unspoilt torn known held early member unspoilt
    -- it is held in addition while the operation is under way
    have top : unit.id ∈ start.bench.units.ids := by
      rw [UnitStack.ids, fragment.began]
      exact List.mem_cons_self ..
    have after := fragment.unspoilt torn known (unit.id :: held)
      (List.cons_subset.mpr ⟨top, early⟩) (List.mem_cons_self ..)
      (unspoilt.hold (List.subset_cons_self ..))
    refine ⟨⟨after.bench.checks, fun other among free => ?_, after.bench.table⟩, after.tables⟩
    have distinct := fragment.numbered.distinct
    rw [UnitStack.ids, fragment.units, List.nil_append, List.map_cons, List.nodup_cons] at distinct
    have units := fragment.units
    rw [List.nil_append] at units
    rcases List.mem_cons.mp (units ▸ among) with rfl | inside
    · rintro recording ⟨⟩
      have whole := unspoilt.bench.units unit (fragment.began ▸ List.mem_cons_self ..) member _
        payload
      exact whole.carries (carries.mono known)
    · have other_id : other.id ≠ unit.id := fun same =>
        distinct.1 (same ▸ List.mem_map_of_mem inside)
      exact after.bench.units other among fun held =>
        (List.mem_cons.mp held).elim other_id free

omit fragment in
/-- The operation fails, and the jumps that it has appended are torn off. -/
theorem breaks {name : String} (jumps : name ∈ Control.jumping) {before : Session β (Journal β υ)}
    {halt : Halt CompileError}
    (fragment : Fragment (before.note (before.event name before.client.events.length .issued)) unit
      outer slot [] builder session)
    (payload : unit.payload = some ⟨slot, first⟩) (carries : first.Carries (fun _ => True) builder) :
    before.Conserves
      (session.note (session.event name before.client.events.length (.failed halt))) := by
  let issued := before.event name before.client.events.length .issued
  let failed := session.event name before.client.events.length (.failed halt)
  have noted : Fragment (before.note issued) unit outer slot [] builder (session.note failed) :=
    fragment.conserve (session.conserves_note rfl fragment.numbered) fragment.units
  obtain ⟨between, events⟩ := fragment.noted
  have tears (patch : JumpPatch) (h : first.label ≤ patch.ip ∧ builder.Waits patch) :
      Torn (session.note failed).client.events patch := by
    refine ⟨[], failed, between, issued, before.client.events, ?_, rfl, jumps, ⟨halt, rfl⟩,
      fragment.ids, ⟨⟨slot, first⟩, ?_, h.1⟩, ⟨slot, builder⟩, fragment.found, h.2⟩
    · exact congrArg (failed :: ·) events.symm
    · exact Bench.recording?_eq_some.mpr ⟨unit, outer, fragment.began, payload⟩
  exact trans_of Session.Conserves (before.conserves_note rfl)
    fun _ => noted.completes payload (carries.waits.mono tears)

end Fragment

/-- An operation has broken off with the recording that was there first. -/
def Broken (start : Session β (Journal β υ)) (unit : OpenUnit (Option Recording))
    (outer : List (OpenUnit (Option Recording))) (slot : UInt32) (first : Builder)
    (session : Session β (Journal β υ)) : Prop :=
  ∃ inner builder, first.Carries (fun _ => True) builder ∧
    Fragment start unit outer slot inner builder session

/-- An operation has carried on the recording that was there first. -/
def Carried (start : Session β (Journal β υ)) (unit : OpenUnit (Option Recording))
    (outer : List (OpenUnit (Option Recording))) (slot : UInt32) (first : Builder)
    (session : Session β (Journal β υ)) : Prop :=
  ∃ builder, first.Carries (Torn session.client.events) builder ∧
    Fragment start unit outer slot [] builder session

/-! ## The steps of an operation -/

namespace Fragment

section Steps

variable (fragment : Fragment start unit outer slot [] builder session)

include fragment

theorem ends_target {failed : Halt CompileError → Session β (Journal β υ) → Prop} :
    Ends (Work.onBench Bench.target) session
      (fun builder' session' => builder = builder' ∧ session = session') failed := by
  refine Work.ends_onBench ((Bench.ends_target_found fragment.found).weaken ?_)
  rintro _ _ ⟨rfl, rfl⟩
  exact ⟨rfl, rfl⟩

theorem ends_depth {failed : Halt CompileError → Session β (Journal β υ) → Prop} :
    Ends Work.depth session
      (fun depth session' => builder.depth = depth ∧ session = session') failed := by
  refine fragment.ends_target.bind ?_
  rintro _ _ ⟨rfl, rfl⟩
  exact Ends.pure ⟨rfl, rfl⟩

theorem ends_modifyBuilder (f : Builder → Builder)
    {failed : Halt CompileError → Session β (Journal β υ) → Prop} :
    Ends (Work.onBench (Bench.modifyBuilder f)) session (fun _ session' =>
      session'.client = session.client ∧ Fragment start unit outer slot [] (f builder) session')
      failed := by
  refine Work.ends_onBench ((Bench.ends_modifyBuilder fragment.found f).weaken ?_)
  rintro _ _ rfl
  exact ⟨rfl, fragment.setBuilder _⟩

/-- A jump that was appended to the code is aimed. -/
theorem ends_patchHere {patch : JumpPatch} (inside : patch.ip < builder.label)
    {failed : Halt CompileError → Session β (Journal β υ) → Prop} :
    Ends (Work.patchHere patch) session (fun _ session' => session'.client = session.client ∧
      Fragment start unit outer slot [] (builder.patchHere patch) session') failed := by
  unfold Ends
  rw [Work.patchHere_eq fragment.found inside]
  exact ⟨rfl, fragment.setBuilder _⟩

variable (soFar : first.Carries (fun _ => True) builder)

include soFar

theorem broken : Broken start unit outer slot first session := ⟨[], builder, soFar, fragment⟩

/-- Letting the builder do something. -/
theorem ends_build {action : Builder → Except CompileError (α × Builder)}
    (checked : ∀ builder, Checked (action builder)) :
    Ends (Work.onBench (Bench.build action)) session (fun value session' => ∃ builder',
      action builder = .ok (value, builder') ∧ session'.client = session.client ∧
        Fragment start unit outer slot [] builder' session')
      fun _ => Broken start unit outer slot first := by
  refine Work.ends_onBench ((Bench.ends_build checked).mono ?_ ?_)
  · rintro value _ ⟨_, _, builder', found, run, rfl⟩
    cases fragment.found.symm.trans found
    exact ⟨builder', run, rfl, fragment.setBuilder _⟩
  · rintro _ _ ⟨-, rfl⟩
    exact fragment.broken soFar

/-- Letting the builder append something. -/
theorem ends_append {append : Builder → Except CompileError Builder}
    (checked : ∀ builder, Checked (append builder)) :
    Ends (Work.onBench (Bench.build fun builder => return ((), ← append builder))) session
      (fun _ session' => ∃ builder', append builder = .ok builder' ∧
        session'.client = session.client ∧ Fragment start unit outer slot [] builder' session')
      fun _ => Broken start unit outer slot first := by
  refine (fragment.ends_build soFar fun builder => .bind (checked builder) fun _ => .ok _).weaken ?_
  rintro _ session' ⟨builder', run, same, fragment'⟩
  obtain ⟨appended, happend, heq⟩ := Verifier.bind_ok run
  cases heq
  exact ⟨builder', happend, same, fragment'⟩

theorem ends_emit (operation : String) (op : Op) :
    Ends (Work.onBench (Bench.emit operation op)) session (fun _ session' => ∃ builder',
      builder.emit operation op = .ok builder' ∧ session'.client = session.client ∧
        Fragment start unit outer slot [] builder' session')
      fun _ => Broken start unit outer slot first :=
  fragment.ends_append soFar fun builder => builder.checked_emit _ _

theorem ends_emitJump (operation : String) (kind : JumpKind) :
    Ends (Work.emitJump operation kind) session (fun patch session' => ∃ builder',
      builder.emitJump operation kind = .ok (patch, builder') ∧
        session'.client = session.client ∧ Fragment start unit outer slot [] builder' session')
      fun _ => Broken start unit outer slot first :=
  fragment.ends_build soFar fun builder => builder.checked_emitJump _ _

theorem ends_emitJumpBack (operation : String) (kind : JumpKind) (label : Nat) :
    Ends (Work.emitJumpBack operation kind label) session (fun _ session' => ∃ builder',
      builder.emitJumpBack operation kind label = .ok builder' ∧
        session'.client = session.client ∧ Fragment start unit outer slot [] builder' session')
      fun _ => Broken start unit outer slot first :=
  fragment.ends_append soFar fun builder => builder.checked_emit _ _

/-- Nested code that is followed by a check. It carries the recording on. -/
theorem ends_part {part : Work β (Journal β υ) Unit} (conserves : Moves Session.Conserves part)
    (inside : Moves Session.Inside part) (construct : String)
    {next : Work β (Journal β υ) α} {done : α → Session β (Journal β υ) → Prop}
    (rest : ∀ {session' builder'}, session.client.events <:+ session'.client.events →
      builder.Carries (Torn session'.client.events) builder' →
      Fragment start unit outer slot [] builder' session' →
      Ends next session' done fun _ => Broken start unit outer slot first) :
    Ends (do part; Work.ensureSameUnit construct (outer.length + 1); next) session done
      fun _ => Broken start unit outer slot first := by
  have carried {session' : Session β (Journal β υ)} (conserved : session.Conserves session')
      (kept : session.Inside session') : ∃ inner builder',
        session.client.events <:+ session'.client.events ∧
        builder.Carries (Torn session'.client.events) builder' ∧
        Fragment start unit outer slot inner builder' session' := by
    have conserved := conserved fragment.numbered
    have top : unit.id ∈ session'.bench.units.ids := by
      refine kept.subset ?_
      rw [UnitStack.ids, fragment.units]
      exact List.mem_cons_self ..
    obtain ⟨inner, ⟨id, kind, name, payload⟩, units, rfl, rfl, rfl, carries⟩ :=
      conserved.units.innermost fragment.numbered.fresh fragment.numbered.distinct fragment.units top
    cases payload with
    | none => exact carries.elim
    | some recording =>
        obtain ⟨slot', builder'⟩ := recording
        obtain ⟨rfl, carries⟩ := carries
        exact ⟨inner, builder', conserved.noted, carries, fragment.conserve conserved units⟩
  have breaks {session' : Session β (Journal β υ)} {inner : List (OpenUnit (Option Recording))}
      {builder' : Builder} (carries : builder.Carries (Torn session'.client.events) builder')
      (fragment' : Fragment start unit outer slot inner builder' session') :
      Broken start unit outer slot first session' :=
    ⟨inner, builder', soFar.trans (carries.mono fun _ _ => trivial), fragment'⟩
  have ends : Ends part session
      (fun _ session' => session.Conserves session' ∧ session.Inside session')
      fun _ => Broken start unit outer slot first := by
    refine Ends.intro (fun _ _ run => ⟨(conserves session).ok run, (inside session).ok run⟩) ?_
    intro _ _ run
    obtain ⟨inner, builder', -, carries, fragment'⟩ :=
      carried ((conserves session).error run) ((inside session).error run)
    exact breaks carries fragment'
  refine ends.bind ?_
  rintro _ session' ⟨conserved, kept⟩
  obtain ⟨inner, builder', noted, carries, fragment'⟩ := carried conserved kept
  have level : session'.bench.units.size = inner.length + (outer.length + 1) := by
    rw [UnitStack.size, fragment'.units, List.length_append]
    rfl
  have checked : Ends (Work.ensureSameUnit construct (outer.length + 1)) session'
      (fun _ session'' => session' = session'' ∧ inner = [])
      fun _ => Broken start unit outer slot first :=
    Work.ends_ensureSameUnit
      (fun same => ⟨rfl, List.eq_nil_of_length_eq_zero (by omega)⟩)
      fun _ => breaks carries fragment'
  refine checked.bind ?_
  rintro _ _ ⟨rfl, rfl⟩
  exact rest noted carries fragment'

/-- Nested code that owes some values. -/
theorem ends_runRegion {region : Work β (Journal β υ) Unit}
    (conserves : Moves Session.Conserves region) (inside : Moves Session.Inside region)
    (construct : String) {allowed : DepthTracker.Allowance} (least : 0 ≤ allowed.least) :
    Ends (Work.runRegion construct allowed region) session (fun produced session' => ∃ builder',
      session.client.events <:+ session'.client.events ∧
        builder.Carries (Torn session'.client.events) builder' ∧
        builder.Produces builder' allowed produced ∧
        Fragment start unit outer slot [] builder' session')
      fun _ => Broken start unit outer slot first := by
  refine Ends.get (fragment.ends_target.bind ?_)
  rintro _ _ ⟨rfl, rfl⟩
  rw [fragment.size]
  refine fragment.ends_part soFar conserves inside construct fun {session' builder'} noted carries
    fragment' => Ends.get (fragment'.ends_target.bind ?_)
  rintro _ _ ⟨rfl, rfl⟩
  cases passed : builder'.stack.expectDelta construct builder.depth allowed
      session'.bench.currentLine with
  | error error =>
      simp only [passed]
      exact Work.ends_fail
        (fragment'.broken (soFar.trans (carries.mono fun _ _ => trivial)))
  | ok _ =>
      simp only [passed]
      exact Ends.pure ⟨builder', noted, carries, .of_check least passed, fragment'⟩

/-- Dropping values one by one. -/
theorem ends_emitTimes_pop (operation : String) (count : Nat) :
    Ends (Work.emitTimes operation .pop count) session (fun _ session' => ∃ builder',
      builder.Drops builder' count ∧ session'.client = session.client ∧
        Fragment start unit outer slot [] builder' session')
      fun _ => Broken start unit outer slot first := by
  induction count generalizing builder session with
  | zero => exact Ends.pure ⟨builder, .none _, rfl, fragment⟩
  | succ count ih =>
      refine (fragment.ends_emit soFar operation .pop).bind ?_
      rintro _ session' ⟨popped, run, same, fragment'⟩
      refine (ih fragment' (soFar.trans (.of_grows (.emit run rfl rfl)))).weaken ?_
      rintro _ session'' ⟨builder', drops, same', fragment''⟩
      exact ⟨builder', .pop run drops, same'.trans same, fragment''⟩

/-- The condition of a loop leaves the value that is tested. -/
theorem ends_condition {condition : Work β (Journal β υ) Unit}
    (conserves : Moves Session.Conserves condition) (inside : Moves Session.Inside condition) :
    Ends (Work.emitCondition condition) session (fun _ session' => ∃ builder',
      session.client.events <:+ session'.client.events ∧
        builder.Carries (Torn session'.client.events) builder' ∧ builder.Leaves builder' 1 ∧
        Fragment start unit outer slot [] builder' session')
      fun _ => Broken start unit outer slot first := by
  refine (fragment.ends_runRegion soFar conserves inside _ (by decide)).bind ?_
  rintro produced session' ⟨builder', noted, carries, produces, fragment'⟩
  exact Ends.pure ⟨builder', noted, carries, produces.leaves_one, fragment'⟩

/-- Whatever the body of a loop leaves is dropped. -/
theorem ends_loopBody {body : Work β (Journal β υ) Unit}
    (conserves : Moves Session.Conserves body) (inside : Moves Session.Inside body) :
    Ends (Work.emitLoopBody body) session (fun _ session' => ∃ builder',
      session.client.events <:+ session'.client.events ∧
        builder.Carries (Torn session'.client.events) builder' ∧ builder.Leaves builder' 0 ∧
        Fragment start unit outer slot [] builder' session')
      fun _ => Broken start unit outer slot first := by
  refine (fragment.ends_runRegion soFar conserves inside _ (by decide)).bind ?_
  rintro produced session₁ ⟨builder₁, noted, carries, produces, fragment₁⟩
  refine (fragment₁.ends_emitTimes_pop (soFar.trans (carries.mono fun _ _ => trivial)) _ _).weaken ?_
  rintro _ session₂ ⟨builder₂, drops, same, fragment₂⟩
  rw [← same] at noted carries
  exact ⟨builder₂, noted, carries.trans (.of_grows drops.grows), produces.leaves_none drops,
    fragment₂⟩

end Steps

/-! ## Operations that jump -/

section Jumping

variable (fragment : Fragment start unit outer slot [] first session)

include fragment

/-- A region is left however it ends, and what it leaves open when it breaks off is discarded. -/
theorem ends_nested {region : Work β (Journal β υ) Unit}
    (h : ∀ {entered}, Fragment start unit outer slot [] first entered →
      Ends region entered (fun _ => Carried start unit outer slot first)
        fun _ => Broken start unit outer slot first) :
    Ends (Work.nested region) session (fun _ => Carried start unit outer slot first)
      fun _ session' => ∃ builder, first.Carries (fun _ => True) builder ∧
        Fragment start unit outer slot [] builder session' := by
  have entered := fragment.setBench (fun _ => session.bench.conserves_enterRegion) rfl
  refine Work.ends_nested ⟨first, .refl _, fragment⟩ ((h entered).mono ?_ ?_)
  · rintro _ session' ⟨builder, carries, fragment'⟩
    exact ⟨builder, carries, fragment'.setBench (fun _ => session'.bench.conserves_exitRegion) rfl⟩
  · rintro _ session' ⟨inner, builder, carries, fragment'⟩
    have steps (torn : JumpPatch → Prop) : session'.bench.Conserves torn
        (session'.bench.exitRegion.abandon session.bench.units.size) :=
      trans_of (Bench.Conserves torn) session'.bench.conserves_exitRegion
        (Bench.conserves_abandon _ _)
    refine ⟨builder, carries, fragment'.conserve
      (Session.conserves_setBench steps fragment'.numbered) ?_⟩
    have level : session'.bench.units.size - (outer.length + 1) = inner.length := by
      rw [UnitStack.size, fragment'.units, List.length_append]
      simp
    show (session'.bench.exitRegion.abandon session.bench.units.size).units.units = _
    rw [Bench.abandon_units, fragment.size]
    show session'.bench.units.units.drop (session'.bench.units.size - (outer.length + 1)) = _
    rw [level, fragment'.units, List.drop_left, List.nil_append]

/-- The arms of a branch. -/
theorem ends_branch {onTrue onFalse : Work β (Journal β υ) Unit}
    (conserves₁ : Moves Session.Conserves onTrue) (inside₁ : Moves Session.Inside onTrue)
    (conserves₂ : Moves Session.Conserves onFalse) (inside₂ : Moves Session.Inside onFalse) :
    Ends (Work.emitBranch onTrue onFalse) session (fun _ => Carried start unit outer slot first)
      fun _ session' => ∃ builder, first.Carries (fun _ => True) builder ∧
        Fragment start unit outer slot [] builder session' := by
  refine fragment.ends_nested fun {session} fragment => Ends.get ?_
  rw [fragment.size]
  refine (fragment.ends_emitJump (.refl _) _ .ifFalse).bind ?_
  rintro toElse session₁ ⟨taken, test, -, fragment₁⟩
  refine fragment₁.ends_depth.bind ?_
  rintro _ _ ⟨rfl, rfl⟩
  have tested : first.Carries (fun _ => True) taken :=
    (Builder.Carries.emitJump test rfl).mono fun _ _ => trivial
  refine fragment₁.ends_part tested conserves₁ inside₁ _
    fun {session₂ trueEnd} _ carries₁ fragment₂ => ?_
  refine fragment₂.ends_depth.bind ?_
  rintro _ _ ⟨rfl, rfl⟩
  have onTrue : taken.Carries (fun _ => True) trueEnd := carries₁.mono fun _ _ => trivial
  refine (fragment₂.ends_emitJump (tested.trans onTrue) _ .always).bind ?_
  rintro toEnd session₃ ⟨away, leave, same₁, fragment₃⟩
  have label₁ := carries₁.label
  have label₃ := Builder.label_emit (Builder.emitJump_ok leave).2
  refine (fragment₃.ends_patchHere (Builder.emitJump_inside test (by omega))).bind ?_
  rintro _ session₄ ⟨same₂, fragment₄⟩
  refine (fragment₄.ends_modifyBuilder (·.resetTo taken.depth)).bind ?_
  rintro _ session₅ ⟨same₃, fragment₅⟩
  have other : first.Carries (fun _ => True) ((away.patchHere toElse).resetTo taken.depth) :=
    (Builder.Carries.otherwise test onTrue leave).mono fun _ _ => trivial
  refine fragment₅.ends_part other conserves₂ inside₂ _
    fun {session₆ falseEnd} noted₂ carries₂ fragment₆ => ?_
  refine fragment₆.ends_target.bind ?_
  rintro _ _ ⟨rfl, rfl⟩
  refine Ends.ite (fun _ => ?_) fun balanced => ?_
  · have both := other.trans (carries₂.mono fun _ _ => trivial)
    exact (Work.ends_violate (fragment₆.broken both)).halts
  · have label₅ : ((away.patchHere toElse).resetTo taken.depth).label = away.label :=
      Builder.label_patchHere toElse
    have label₆ := label₅ ▸ carries₂.label
    refine (fragment₆.ends_patchHere (Builder.emitJump_inside leave label₆)).weaken ?_
    rintro _ session₇ ⟨same₄, fragment₇⟩
    have level (strict : falseEnd.stack.strict = true) : trueEnd.depth = falseEnd.depth := by
      by_contra different
      exact balanced ⟨different, strict⟩
    rw [← same₁, ← same₂, ← same₃] at carries₁
    rw [← same₄] at carries₂ noted₂
    exact ⟨_, .branch test (carries₁.mono fun _ torn => torn.mono noted₂) leave carries₂ level,
      fragment₇⟩

/-- The right-hand side of an operator. -/
theorem ends_logical (connective : Connective) {right : Work β (Journal β υ) Unit}
    (conserves : Moves Session.Conserves right) (inside : Moves Session.Inside right) :
    Ends (Work.emitLogical connective right) session
      (fun _ => Carried start unit outer slot first) fun _ session' =>
        ∃ builder, first.Carries (fun _ => True) builder ∧
          Fragment start unit outer slot [] builder session' := by
  have conditional : ((Work.skipWhen connective).op 0).falls = true := by cases connective <;> rfl
  refine fragment.ends_nested fun {session} fragment => ?_
  refine (fragment.ends_emit (.refl _) _ .dup).bind ?_
  rintro _ session₁ ⟨doubled, double, -, fragment₁⟩
  have soFar₁ : first.Carries (fun _ => True) doubled := .of_grows (.emit double rfl rfl)
  refine (fragment₁.ends_emitJump soFar₁ _ _).bind ?_
  rintro toEnd session₂ ⟨tested, test, -, fragment₂⟩
  have soFar₂ := soFar₁.trans ((Builder.Carries.emitJump test conditional).mono fun _ _ => trivial)
  refine (fragment₂.ends_emit soFar₂ _ .pop).bind ?_
  rintro _ session₃ ⟨dropped, drop, -, fragment₃⟩
  have soFar₃ := soFar₂.trans (.of_grows (.emit drop rfl rfl))
  refine (fragment₃.ends_runRegion soFar₃ conserves inside _ (by decide)).bind ?_
  rintro produced session₄ ⟨done, -, carries, produces, fragment₄⟩
  have label₃ := Builder.label_emit drop
  have label₄ := carries.label
  refine (fragment₄.ends_patchHere (Builder.emitJump_inside test (by omega))).weaken ?_
  rintro _ session₅ ⟨same, fragment₅⟩
  rw [← same] at carries
  exact ⟨_, .logical double test conditional drop carries produces.leaves_one, fragment₅⟩

/-- The parts of a loop. -/
theorem ends_loop {condition body : Work β (Journal β υ) Unit}
    (conserves₁ : Moves Session.Conserves condition) (inside₁ : Moves Session.Inside condition)
    (conserves₂ : Moves Session.Conserves body) (inside₂ : Moves Session.Inside body)
    (checkFirst : Bool) :
    Ends (Work.emitLoop condition body checkFirst) session
      (fun _ => Carried start unit outer slot first) fun _ session' =>
        ∃ builder, first.Carries (fun _ => True) builder ∧
          Fragment start unit outer slot [] builder session' := by
  refine fragment.ends_nested fun {session} fragment => fragment.ends_target.bind ?_
  rintro _ _ ⟨rfl, rfl⟩
  refine Ends.ite (fun _ => ?_) fun _ => ?_
  · refine (fragment.ends_condition (.refl _) conserves₁ inside₁).bind ?_
    rintro _ session₁ ⟨tested, -, carries₁, leaves₁, fragment₁⟩
    have soFar₁ : first.Carries (fun _ => True) tested := carries₁.mono fun _ _ => trivial
    refine (fragment₁.ends_emitJump soFar₁ _ .ifFalse).bind ?_
    rintro toEnd session₂ ⟨entered, test, same₂, fragment₂⟩
    have soFar₂ := soFar₁.trans ((Builder.Carries.emitJump test rfl).mono fun _ _ => trivial)
    refine (fragment₂.ends_loopBody soFar₂ conserves₂ inside₂).bind ?_
    rintro _ session₃ ⟨repeated, noted, carries₃, leaves₃, fragment₃⟩
    have soFar₃ := soFar₂.trans (carries₃.mono fun _ _ => trivial)
    refine (fragment₃.ends_emitJumpBack soFar₃ _ _ _).bind ?_
    rintro _ session₄ ⟨back, jump, same₄, fragment₄⟩
    have label₃ := carries₃.label
    have label₄ := Builder.label_emit jump
    refine (fragment₄.ends_patchHere (Builder.emitJump_inside test (by omega))).weaken ?_
    rintro _ session₅ ⟨same₅, fragment₅⟩
    rw [← same₂] at carries₁
    rw [← same₄, ← same₅] at carries₃ noted
    exact ⟨_, .loopFirst (carries₁.mono fun _ torn => torn.mono noted) leaves₁ test carries₃ leaves₃
      jump, fragment₅⟩
  · refine (fragment.ends_loopBody (.refl _) conserves₂ inside₂).bind ?_
    rintro _ session₁ ⟨repeated, -, carries₁, leaves₁, fragment₁⟩
    have soFar₁ : first.Carries (fun _ => True) repeated := carries₁.mono fun _ _ => trivial
    refine (fragment₁.ends_condition soFar₁ conserves₁ inside₁).bind ?_
    rintro _ session₂ ⟨tested, noted, carries₂, leaves₂, fragment₂⟩
    have soFar₂ := soFar₁.trans (carries₂.mono fun _ _ => trivial)
    refine (fragment₂.ends_emitJumpBack soFar₂ _ _ _).weaken ?_
    rintro _ session₃ ⟨back, jump, same, fragment₃⟩
    rw [← same] at carries₂ noted
    exact ⟨_, .loopLast (carries₁.mono fun _ torn => torn.mono noted) leaves₁ carries₂ leaves₂ jump,
      fragment₃⟩

/-- An operation that jumps, in the unit that is recorded. -/
theorem ends_control {operation : Control (Session β (Journal β υ))}
    (jumps : operation.name ∈ Control.jumping)
    (conserves : ∀ part, operation.Has part → Moves Session.Conserves part)
    (inside : ∀ part, operation.Has part → Moves Session.Inside part) :
    Ends operation.emit session (fun _ => Carried start unit outer slot first) fun _ session' =>
      ∃ builder, first.Carries (fun _ => True) builder ∧
        Fragment start unit outer slot [] builder session' := by
  cases operation with
  | branch onTrue onFalse =>
      exact fragment.ends_branch (conserves _ (.inl rfl)) (inside _ (.inl rfl))
        (conserves _ (.inr rfl)) (inside _ (.inr rfl))
  | logical connective right =>
      exact fragment.ends_logical connective (conserves _ rfl) (inside _ rfl)
  | loop condition body checkFirst =>
      exact fragment.ends_loop (conserves _ (.inl rfl)) (inside _ (.inl rfl))
        (conserves _ (.inr rfl)) (inside _ (.inr rfl)) checkFirst
  | array count element =>
      exact absurd (show Work.arrayOperation ∈ Control.jumping from jumps) (by decide)

end Jumping

end Fragment

end BlockScript
