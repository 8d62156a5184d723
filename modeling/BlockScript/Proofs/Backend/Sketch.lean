import BlockScript.Proofs.Backend.Lasting

/-!
# Control flow in the unit that is being recorded

An operation with nested code in the same unit records some jumps of its own around the code
of its parts, and patches them later. Nested code may open and close units, even the one that
the operation began in; the operation only notices that when another number of units is open
afterwards.

A sketch says how far such an operation has come: if the unit that it began in is still open,
it is the innermost one, and its code is what it was, followed by what was added since. If
not, some unit that was opened later has taken its place, and it is that unit's code that the
operation goes on with. Either way the units that were open before lose nothing.
-/

namespace BlockScript

variable {executes : Bool} {β υ α : Type}

/-- The bench of a session lasts. -/
abbrev Session.Lasts (executes : Bool) : Session β υ → Session β υ → Prop :=
  Session.Related (Bench.Lasts executes)

/-- A region is entered. -/
def Bench.enterRegion (bench : Bench) : Bench :=
  { bench with units := { bench.units with nesting := bench.units.nesting + 1 } }

/-- What happens inside a region lasts after it. -/
theorem Bench.Lasts.exitRegion {bench bench' : Bench} (h : bench.enterRegion.Lasts executes bench') :
    bench.Lasts executes bench'.exitRegion := by
  intro proper
  have later := h ⟨proper.fresh, proper.distinct, proper.script⟩
  refine ⟨⟨later.proper.fresh, later.proper.distinct, later.proper.script⟩, later.config, later.sharing, ?_,
    ⟨later.units.nextId, later.units.owner, later.units.kept⟩, fun tabled => ?_⟩
  · show bench'.units.nesting - 1 = _
    rw [later.nesting]
    rfl
  · obtain ⟨tabled', stands⟩ := later.table (tabled.congr rfl rfl rfl rfl)
    exact ⟨tabled'.congr rfl rfl rfl rfl, stands⟩

namespace Work

/-- A region is entered unless too many are open. However it ends, the level is given back,
and when it breaks off, the units that it leaves open are discarded. -/
theorem ends_nested_within {region : Work β υ α} {session : Session β υ}
    {done : α → Session β υ → Prop} {failed : Halt CompileError → Session β υ → Prop}
    (full : session.bench.units.maxNesting <
        session.bench.units.size + session.bench.units.nesting + 1 →
      failed (.failure (.exhausted .nestingDepth session.bench.units.maxNesting)) session)
    (h : session.bench.units.size + session.bench.units.nesting + 1 ≤
        session.bench.units.maxNesting →
      Ends region { session with bench := session.bench.enterRegion }
        (fun value session' => done value { session' with bench := session'.bench.exitRegion })
        fun halt session' => failed halt { session' with
          bench := session'.bench.exitRegion.abandon session.bench.units.size }) :
    Ends (nested region) session done failed := by
  obtain ⟨bench, backend, client⟩ := session
  have entered : Ends (onBench Bench.enter) ⟨bench, backend, client⟩
      (fun _ session' => session' = ⟨bench.enterRegion, backend, client⟩ ∧
        bench.units.size + bench.units.nesting + 1 ≤ bench.units.maxNesting) failed := by
    refine ends_onBench ?_
    unfold Ends Bench.enter
    by_cases room : bench.units.size + bench.units.nesting + 1 ≤ bench.units.maxNesting
    · simp only [UnitStack.enter_eq, if_pos room]
      exact ⟨rfl, room⟩
    · simp only [UnitStack.enter_eq, if_neg room]
      exact full (Nat.lt_of_not_le room)
  refine entered.bind ?_
  rintro _ _ ⟨rfl, room⟩
  exact Ends.get ((ends_cleaning (h room)).bind fun _ _ finished => finished)

/-- The same where it does not matter how many are open. -/
theorem ends_nested {region : Work β υ α} {session : Session β υ}
    {done : α → Session β υ → Prop} {failed : Halt CompileError → Session β υ → Prop}
    (full : failed (.failure (.exhausted .nestingDepth session.bench.units.maxNesting)) session)
    (h : Ends region { session with bench := session.bench.enterRegion }
      (fun value session' => done value { session' with bench := session'.bench.exitRegion })
      fun halt session' => failed halt { session' with
        bench := session'.bench.exitRegion.abandon session.bench.units.size }) :
    Ends (nested region) session done failed :=
  ends_nested_within (fun _ => full) fun _ => h

/-- A region is left with the units that are open at its end. -/
theorem ensures_nested {region : Work β υ α} {session : Session β υ}
    {post : α → Session β υ → Prop}
    (h : Ensures region { session with bench := session.bench.enterRegion }
      fun value session' => post value { session' with bench := session'.bench.exitRegion }) :
    Ensures (nested region) session post :=
  (@ends_nested _ _ _ region session post (fun _ _ => True) trivial
    (Ends.intro h fun _ _ _ => trivial)).ensures

theorem lasts_nested {region : Work β υ α} (h : Moves (Session.Lasts executes) region) :
    Moves (Session.Lasts executes) (nested region) := by
  refine fun session => ends_nested (refl_of (Session.Lasts executes) session) ((h _).mono ?_ ?_)
  · exact fun _ _ lasts => Bench.Lasts.exitRegion lasts
  · exact fun _ _ lasts => trans_of (Bench.Lasts executes) (Bench.Lasts.exitRegion lasts)
      (Bench.lasts_abandon _ _)

end Work

/-! ## Sketches -/

/-- How far an operation has come with the unit that it began in: the operations that it has
added, and the jumps that wait for their targets, with their positions among those. -/
structure Bench.Sketch (executes : Bool) (start : Bench) (unit : OpenUnit (Option Recording)) (builder : Builder)
    (added : List Op) (waiting : List (JumpPatch × Nat)) (bench : Bench) : Prop where
  later : start.Later executes bench
  level : bench.units.size = start.units.size
  drawn : unit.id ∈ bench.units.ids → ∃ recording, bench.recording? = some recording ∧
    recording.builder.code.ops.toList = builder.code.ops.toList ++ added
  waits : unit.id ∈ bench.units.ids → ∀ jump ∈ waiting, jump.1.ip = builder.label + jump.2

namespace Bench.Sketch

variable {start : Bench} {unit : OpenUnit (Option Recording)}
  {outer : List (OpenUnit (Option Recording))} {slot : UInt32} {builder : Builder}
  {added : List Op} {waiting : List (JumpPatch × Nat)} {bench : Bench}

theorem begin (proper : start.Proper executes) (hunits : start.units.units = unit :: outer)
    (payload : unit.payload = some ⟨slot, builder⟩) : start.Sketch executes unit builder [] [] start where
  later := refl_of (Lasts executes) start proper
  level := rfl
  drawn _ := ⟨⟨slot, builder⟩, recording?_eq_some.mpr ⟨unit, outer, hunits, payload⟩,
    (List.append_nil _).symm⟩
  waits _ := by simp

/-- A jump that no longer matters. -/
theorem forget (sketch : start.Sketch executes unit builder added waiting bench)
    {fewer : List (JumpPatch × Nat)} (sub : fewer ⊆ waiting) :
    start.Sketch executes unit builder added fewer bench :=
  ⟨sketch.later, sketch.level, sketch.drawn, fun alive jump member =>
    sketch.waits alive jump (sub member)⟩

/-- As long as the unit is open, only its own code has changed. -/
theorem units_eq (sketch : start.Sketch executes unit builder added waiting bench)
    (proper : start.Proper executes) (hunits : start.units.units = unit :: outer)
    (payload : unit.payload = some ⟨slot, builder⟩) (alive : unit.id ∈ bench.units.ids) :
    ∃ builder', bench.units.units = { unit with payload := some ⟨slot, builder'⟩ } :: outer ∧
      builder'.code.ops.toList = builder.code.ops.toList ++ added := by
  obtain ⟨⟨id, kind, name, payload'⟩, heq, rfl, rfl, rfl, extends_⟩ :=
    sketch.later.units.level proper.fresh proper.distinct hunits alive sketch.level
  obtain ⟨recording, found, ops⟩ := sketch.drawn alive
  obtain ⟨_, _, heq', hpayload⟩ := recording?_eq_some.mp found
  rw [heq] at heq'
  cases heq'
  cases hpayload
  rw [payload] at extends_
  obtain ⟨rfl, -⟩ := extends_
  exact ⟨recording.builder, heq, ops⟩

/-- The innermost recording is changed: what the operation has added, if it is still in the
unit that it began in, and anything otherwise. -/
theorem setBuilder (sketch : start.Sketch executes unit builder added waiting bench)
    (hunits : start.units.units = unit :: outer)
    (payload : unit.payload = some ⟨slot, builder⟩) {recording : Recording}
    (found : bench.recording? = some recording) {builder' : Builder} {added' : List Op}
    (drawn : unit.id ∈ bench.units.ids →
      recording.builder.code.ops.toList = builder.code.ops.toList ++ added →
      builder'.code.ops.toList = builder.code.ops.toList ++ added') :
    start.Sketch executes unit builder added' waiting (bench.setBuilder builder') := by
  obtain ⟨top, rest, htop, hpayload⟩ := recording?_eq_some.mp found
  have ids : (bench.setBuilder builder').units.ids = bench.units.ids := UnitStack.ids_mapTop ..
  obtain ⟨nextId, owner, nesting, -⟩ := bench.setBuilder_rest builder'
  have drawn' : unit.id ∈ bench.units.ids →
      builder'.code.ops.toList = builder.code.ops.toList ++ added' := by
    intro alive
    obtain ⟨recording', found', ops⟩ := sketch.drawn alive
    cases found.symm.trans found'
    exact drawn alive ops
  obtain ⟨proper, config, sharing, level, evolves, table⟩ := sketch.later
  refine ⟨⟨proper.setBuilder builder', config, sharing, nesting.trans level, ?_, ?_⟩, ?_, ?_, ?_⟩
  · refine ⟨nextId ▸ evolves.nextId, owner.trans evolves.owner, ?_⟩
    intro unit' outer' suffix old
    rw [setBuilder_units htop hpayload] at suffix
    rcases List.suffix_cons_iff.mp suffix with heq | suffix
    · obtain ⟨rfl, rfl⟩ := List.cons.inj heq
      obtain ⟨early, suffix', id, kind, name, extends_⟩ :=
        evolves.kept top outer' (htop ▸ List.suffix_rfl) old
      -- as many units are open as at the start, so it is the unit that the operation began in
      have whole := suffix'.eq_of_length (by
        have level := sketch.level
        rw [UnitStack.size, htop] at level
        exact level)
      rw [hunits] at whole
      obtain ⟨rfl, rfl⟩ := List.cons.inj whole
      have alive : early.id ∈ bench.units.ids := by
        rw [UnitStack.ids, htop, id]
        exact List.mem_cons_self ..
      refine ⟨early, suffix', id, kind, name, ?_⟩
      rw [payload, hpayload] at extends_
      rw [payload]
      exact ⟨extends_.1, drawn' alive ▸ List.prefix_append ..⟩
    · exact evolves.kept unit' outer' (htop ▸ suffix.trans (List.suffix_cons ..)) old
  · intro tabled
    obtain ⟨tabled', stands⟩ := table tabled
    refine ⟨tabled'.congr rfl (places_setBuilder ..) rfl rfl, ?_⟩
    intro inner inner' outer' before after
    rw [places_setBuilder] at after
    exact stands inner inner' outer' before after
  · rw [← sketch.level, UnitStack.size, UnitStack.size, setBuilder_units htop hpayload, htop]
    rfl
  · intro alive
    exact ⟨_, recording?_setBuilder found builder', drawn' (ids ▸ alive)⟩
  · exact fun alive => sketch.waits (ids ▸ alive)

/-- The length of the code so far. -/
theorem label_eq {before : Builder}
    (ops : before.code.ops.toList = builder.code.ops.toList ++ added) :
    before.label = builder.label + added.length := by
  rw [Builder.label, Builder.label, ← Array.length_toList, ← Array.length_toList, ops,
    List.length_append]

end Bench.Sketch

/-- Only the distance matters. -/
theorem Builder.offset_add (base source target : Nat) :
    offset (base + source) (base + target) = offset source target := by
  unfold offset
  congr 1
  omega

/-- Nested code that keeps what is open. Where it ends without an answer, the state of the backend
and the state of the client are such that `quits` holds. -/
structure Work.Nests (executes : Bool) (quits : β → υ → Prop) (part : Work β υ Unit) : Prop where
  lasts : Moves (Session.Lasts executes) part
  quitting : ∀ before after, part before = .error .outOfFuel after →
    quits after.backend after.client

/-- How an operation breaks off: what was open lasts, and while the unit that it began in is open
there only is no answer where nested code ended without one. -/
structure Bench.Breaks (executes : Bool) (start : Bench) (unit : OpenUnit (Option Recording))
    (quits : β → υ → Prop) (halt : Halt CompileError) (session : Session β υ) : Prop where
  later : start.Later executes session.bench
  cause : halt = .outOfFuel → unit.id ∈ session.bench.units.ids →
    quits session.backend session.client

namespace Bench.Sketch

variable {start : Bench} {unit : OpenUnit (Option Recording)}
  {outer : List (OpenUnit (Option Recording))} {slot : UInt32} {builder : Builder}
  {added : List Op} {waiting : List (JumpPatch × Nat)} {session : Session β υ}
  {quits : β → υ → Prop}
  (sketch : start.Sketch executes unit builder added waiting session.bench)
  (hunits : start.units.units = unit :: outer) (payload : unit.payload = some ⟨slot, builder⟩)

include sketch

/-- A failure with an error. -/
theorem breaks (error : CompileError) :
    start.Breaks executes unit quits (.failure error) session :=
  ⟨sketch.later, nofun⟩

theorem ends_target : Ends (Work.onBench target) session
    (fun builder session' => session' = session ∧
      ∃ slot, session.bench.recording? = some ⟨slot, builder⟩)
    (start.Breaks executes unit quits) := by
  refine Work.ends_onBench (Bench.ends_target.mono ?_ ?_)
  · rintro builder _ ⟨rfl, found⟩
    exact ⟨rfl, found⟩
  · rintro error _ ⟨-, rfl⟩
    exact sketch.breaks _

theorem ends_depth : Ends Work.depth session (fun _ session' => session' = session)
    (start.Breaks executes unit quits) := by
  refine sketch.ends_target.bind ?_
  rintro builder _ ⟨rfl, -⟩
  exact Ends.pure rfl

include hunits payload

/-- The builder of the innermost recording does something. -/
theorem ends_build {action : Builder → Except CompileError (α × Builder)}
    (checked : ∀ builder, Checked (action builder)) {post : α → Builder → List Op → Prop}
    (appends : ∀ before value after, action before = .ok (value, after) →
      ∃ more, post value before more ∧ after.code.ops.toList = before.code.ops.toList ++ more) :
    Ends (Work.onBench (build action)) session
      (fun value session' => ∃ recording more, session.bench.recording? = some recording ∧
        post value recording.builder more ∧
        start.Sketch executes unit builder (added ++ more) waiting session'.bench)
      (start.Breaks executes unit quits) := by
  refine Work.ends_onBench ((Bench.ends_build checked).mono ?_ ?_)
  · rintro value _ ⟨slot', before, after, found, run, rfl⟩
    obtain ⟨more, hpost, heq⟩ := appends before value after run
    refine ⟨_, more, found, hpost, sketch.setBuilder hunits payload found fun _ ops => ?_⟩
    rw [heq, ops, List.append_assoc]
  · rintro error _ ⟨-, rfl⟩
    exact sketch.breaks _

theorem ends_emit (operation : String) (op : Op) :
    Ends (Work.onBench (emit operation op)) session
      (fun _ session' => start.Sketch executes unit builder (added ++ [op]) waiting session'.bench)
      (start.Breaks executes unit quits) := by
  have appends (before : Builder) (value : Unit) (after : Builder)
      (run : (do return ((), ← before.emit operation op)) = .ok (value, after)) :
      ∃ more, more = [op] ∧ after.code.ops.toList = before.code.ops.toList ++ more := by
    obtain ⟨_, hemit, heq⟩ := Verifier.bind_ok run
    cases heq
    exact ⟨_, rfl, Builder.toList_of_emit hemit⟩
  refine (sketch.ends_build hunits payload
    (fun builder => .bind (builder.checked_emit _ _) fun _ => .ok _) appends).weaken ?_
  rintro _ session' ⟨_, _, -, rfl, sketch'⟩
  exact sketch'

/-- A jump is added that waits for its target. -/
theorem ends_emitJump (operation : String) (kind : JumpKind) :
    Ends (Work.emitJump operation kind) session
      (fun jump session' => jump.kind = kind ∧ start.Sketch executes unit builder (added ++ [kind.op 0])
        ((jump, added.length) :: waiting) session'.bench)
      (start.Breaks executes unit quits) := by
  refine Work.ends_onBench ((Bench.ends_build (fun builder => builder.checked_emitJump _ _)).mono
    ?_ ?_)
  · rintro jump _ ⟨slot', before, after, found, run, rfl⟩
    obtain ⟨rfl, hemit⟩ := Builder.emitJump_ok run
    have drawn : before.code.ops.toList = builder.code.ops.toList ++ added →
        after.code.ops.toList = builder.code.ops.toList ++ (added ++ [kind.op 0]) := by
      intro ops
      rw [Builder.toList_of_emit hemit, ops, List.append_assoc]
    have sketch' := sketch.setBuilder hunits payload found fun _ => drawn
    refine ⟨rfl, sketch'.later, sketch'.level, sketch'.drawn, fun alive jump member => ?_⟩
    have alive' : unit.id ∈ session.bench.units.ids := by
      rwa [show (Bench.setBuilder session.bench after).units.ids = _ from
        UnitStack.ids_mapTop ..] at alive
    rcases List.mem_cons.mp member with rfl | member
    · obtain ⟨recording, found', ops⟩ := sketch.drawn alive'
      cases found.symm.trans found'
      exact label_eq ops
    · exact sketch.waits alive' jump member
  · rintro error _ ⟨-, rfl⟩
    exact sketch.breaks _

/-- A jump back to where the operation began. -/
theorem ends_emitJumpBack (operation : String) (kind : JumpKind) :
    Ends (Work.emitJumpBack operation kind builder.label) session
      (fun _ session' => start.Sketch executes unit builder
        (added ++ [kind.op (Builder.offset added.length 0)]) waiting session'.bench)
      (start.Breaks executes unit quits) := by
  refine Work.ends_onBench ((Bench.ends_build
    (fun builder => .bind (builder.checked_emit _ _) fun _ => .ok _)).mono ?_ ?_)
  · rintro _ _ ⟨slot', before, after, found, run, rfl⟩
    obtain ⟨_, hemit, heq⟩ := Verifier.bind_ok run
    cases heq
    refine sketch.setBuilder hunits payload found fun _ ops => ?_
    have label : before.label = builder.label + added.length :=
      label_eq ops
    rw [Builder.toList_of_emit hemit, ops, List.append_assoc, label]
    exact congrArg (fun offset => _ ++ (added ++ [kind.op offset]))
      (Builder.offset_add builder.label added.length 0)
  · rintro error _ ⟨-, rfl⟩
    exact sketch.breaks _

/-- A jump that waits is aimed at the next operation. It lies in the code as long as the unit is
open. -/
theorem ends_patchHere {jump : JumpPatch} {position : Nat} (waits : (jump, position) ∈ waiting)
    (inside : position < added.length) :
    Ends (Work.patchHere jump) session
      (fun _ session' => start.Sketch executes unit builder
        (added.set position (jump.kind.op (Builder.offset position added.length))) waiting
        session'.bench)
      (start.Breaks executes unit quits) := by
  refine Work.ends_patchHere (fun error _ => sketch.breaks error) ?aimed ?missed
  case aimed =>
    intro recording found _
    refine sketch.setBuilder hunits payload found fun alive ops => ?_
    have label := label_eq ops
    have ip : jump.ip = builder.label + position := sketch.waits alive _ waits
    have length : builder.code.ops.toList.length = builder.label := Array.length_toList
    rw [Builder.patchHere_eq]
    show (Array.setIfInBounds _ jump.ip _).toList = _
    rw [Array.toList_setIfInBounds, ops, label, ip, Builder.offset_add,
      List.set_append_right _ _ (by omega), length, Nat.add_sub_cancel_left]
  case missed =>
    intro recording found outside
    refine ⟨sketch.later, fun _ alive => ?_⟩
    obtain ⟨recording', found', ops⟩ := sketch.drawn alive
    cases found.symm.trans found'
    have label := label_eq ops
    have ip : jump.ip = builder.label + position := sketch.waits alive _ waits
    omega

/-- A change of the builder that leaves the operations as they are. -/
theorem ends_modifyBuilder {f : Builder → Builder}
    (same : ∀ builder, (f builder).code.ops = builder.code.ops) :
    Ends (Work.onBench (modifyBuilder f)) session
      (fun _ session' => start.Sketch executes unit builder added waiting session'.bench)
      (start.Breaks executes unit quits) := by
  refine Work.ends_onBench ?_
  cases found : session.bench.recording? with
  | some recording =>
      refine (Bench.ends_modifyBuilder found f).weaken ?_
      rintro _ _ rfl
      exact sketch.setBuilder hunits payload found fun _ ops => (same _).symm ▸ ops
  | none =>
      unfold Ends
      rw [modifyBuilder_of_none found]
      exact sketch

/-- Nested code that leaves as many units open as there were has added some code of its own. -/
theorem ends_part (proper : start.Proper executes) {part : Work β υ Unit}
    (nests : part.Nests executes quits) (construct : String) {next : Work β υ α}
    {done : α → Session β υ → Prop}
    (h : ∀ more session', start.Sketch executes unit builder (added ++ more) waiting session'.bench →
      Ends next session' done (start.Breaks executes unit quits)) :
    Ends (do part; Work.ensureSameUnit construct start.units.size; next) session done
      (start.Breaks executes unit quits) := by
  have ends : Ends part session (fun _ session' => session.bench.Lasts executes session'.bench)
      (start.Breaks executes unit quits) :=
    Ends.intro (fun _ _ run => nests.lasts.ok run) fun halt session' run =>
      ⟨trans_of (Lasts executes) (fun _ => sketch.later) (nests.lasts.error run) proper,
        fun silent _ => nests.quitting session session' (silent ▸ run)⟩
  refine ends.bind ?_
  rintro _ session' moved
  have later : start.Later executes session'.bench := trans_of (Lasts executes) (fun _ => sketch.later) moved proper
  have checked : Ends (Work.ensureSameUnit construct start.units.size) session'
      (fun _ session'' => session'' = session' ∧ session'.bench.units.size = start.units.size)
      (start.Breaks executes unit quits) :=
    Work.ends_ensureSameUnit (fun level => ⟨rfl, level⟩) fun _ => ⟨later, nofun⟩
  refine checked.bind ?_
  rintro _ session' ⟨rfl, level⟩
  have moved := moved sketch.later.proper
  by_cases alive : unit.id ∈ session'.bench.units.ids
  · have issued : unit.id < session.bench.units.nextId :=
      Nat.lt_of_lt_of_le (proper.fresh unit (hunits ▸ List.mem_cons_self ..))
        sketch.later.units.nextId
    have alive' := moved.units.mem_ids issued alive
    obtain ⟨before, hbefore, ops⟩ := sketch.units_eq proper hunits payload alive'
    obtain ⟨⟨id, kind, name, payload'⟩, heq, -, -, -, extends_⟩ :=
      moved.units.level sketch.later.proper.fresh sketch.later.proper.distinct hbefore alive
        (level.trans sketch.level.symm)
    cases payload' with
    | none => exact extends_.elim
    | some recording =>
        obtain ⟨-, more, appended⟩ := extends_
        refine h more session' ⟨later, level, fun _ => ?_, fun _ => sketch.waits alive'⟩
        refine ⟨recording, recording?_eq_some.mpr ⟨_, _, heq, rfl⟩, ?_⟩
        rw [← appended, ops, List.append_assoc]
  · exact h [] session' ⟨later, level, fun h => absurd h alive, fun h => absurd h alive⟩

/-- A region that owes some values. -/
theorem ends_runRegion (proper : start.Proper executes) {part : Work β υ Unit}
    (nests : part.Nests executes quits) (construct : String) (allowed : DepthTracker.Allowance) :
    Ends (Work.runRegion construct allowed part) session
      (fun _ session' => ∃ more,
        start.Sketch executes unit builder (added ++ more) waiting session'.bench)
      (start.Breaks executes unit quits) := by
  unfold Work.runRegion
  refine Ends.get (sketch.ends_target.bind ?_)
  rintro before session ⟨rfl, -⟩
  show Ends (do part; Work.ensureSameUnit construct session.bench.units.size; _) _ _ _
  rw [sketch.level]
  refine sketch.ends_part hunits payload proper nests construct fun more session' sketch' => ?_
  refine Ends.get (sketch'.ends_target.bind ?_)
  rintro after session' ⟨rfl, -⟩
  cases hdelta : after.stack.expectDelta construct before.depth allowed
      session'.bench.currentLine with
  | error error =>
      simp only [hdelta]
      exact Work.ends_fail (sketch'.breaks error)
  | ok _ =>
      simp only [hdelta]
      exact Ends.pure ⟨more, sketch'⟩

/-- Values are dropped one by one. -/
theorem ends_emitTimes (operation : String) (op : Op) (count : Nat) :
    Ends (Work.emitTimes operation op count) session
      (fun _ session' => start.Sketch executes unit builder (added ++ List.replicate count op) waiting
        session'.bench)
      (start.Breaks executes unit quits) := by
  induction count generalizing added session with
  | zero => exact Ends.pure (by simpa using sketch)
  | succ count ih =>
      refine (sketch.ends_emit hunits payload operation op).bind fun _ session' sketch' => ?_
      refine (ih sketch').weaken fun _ session'' sketch'' => ?_
      rwa [List.append_assoc] at sketch''

end Bench.Sketch

/-! ## Operations with nested code in the same unit -/

namespace Work

variable {session : Session β υ} {unit : OpenUnit (Option Recording)}
  {outer : List (OpenUnit (Option Recording))} {slot : UInt32} {builder : Builder}

/-- What a region adds to the unit that it began in. -/
theorem ends_nested_sketch {region : Work β υ α} {post : List Op → Prop} {quits : β → υ → Prop}
    (proper : session.bench.Proper executes)
    (h : ∀ session' : Session β υ, session'.bench.Proper executes →
      session'.bench.units.units = session.bench.units.units → Ends region session'
        (fun _ session'' => ∃ added, post added ∧
          session'.bench.Sketch executes unit builder added [] session''.bench)
        (session'.bench.Breaks executes unit quits)) :
    Ends (nested region) session
      (fun _ session' => ∃ added, post added ∧
        session.bench.Sketch executes unit builder added [] session'.bench)
      (session.bench.Breaks executes unit quits) := by
  refine ends_nested ⟨refl_of (Bench.Lasts executes) session.bench proper, nofun⟩
    ((h { session with bench := session.bench.enterRegion }
      ⟨proper.fresh, proper.distinct, proper.script⟩ rfl).mono ?_ ?_)
  · rintro _ session' ⟨added, hpost, sketch⟩
    exact ⟨added, hpost, Bench.Lasts.exitRegion (fun _ => sketch.later) proper, sketch.level,
      sketch.drawn, sketch.waits⟩
  · intro halt session' broke
    refine ⟨trans_of (Bench.Lasts executes) (Bench.Lasts.exitRegion fun _ => broke.later)
      (Bench.lasts_abandon _ _) proper, fun silent alive => broke.cause silent ?_⟩
    rw [UnitStack.ids, Bench.units_abandon] at alive
    exact (List.drop_sublist ..).map _ |>.subset alive

end Work

end BlockScript
