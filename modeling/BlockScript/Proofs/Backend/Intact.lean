import BlockScript.Proofs.Backend.Poison
import BlockScript.Proofs.Backend.Rooted
import BlockScript.Proofs.Backend.Shaped

/-!
# The bench between two operations

Until the script has ended, the first slot belongs to the outermost unit if there is one, and the
table is empty if there is none. Afterwards the body of the script has the first slot. Each step on
the bench keeps this up, also if it fails. When a block or a method has been recorded, its body has
to be referred to next; only a call with a block outside the script may leave a body behind without
a unit around it, and that call fails.
-/

namespace BlockScript

namespace Bench

variable {bench bench' : Bench} {script : ScriptState}

/-- How far the script has come shows in the code table: its body has the first slot in the end,
and before that the first slot is empty and no body is a script. -/
def Staged (bench : Bench) : ScriptState → Prop
  | .ended => bench.Filled 0 .script ∧ ∀ position code,
      bench.program.code[position]? = some code → code.kind = .script → position = 0
  | _ => (0 < bench.program.code.size → 0 ∈ slots bench.places) ∧
      ∀ code ∈ bench.program.code, code.kind ≠ .script

/-- The bench is as it should be between two operations. -/
structure Intact (script : ScriptState) (bench : Bench) : Prop where
  shaped : bench.Shaped
  staged : bench.Staged script

/-- A body was recorded that has to be referred to next. -/
structure Pending (script : ScriptState) (slot : UInt32) (kind : UnitKind) (bench : Bench) :
    Prop where
  shaped : bench.Shaped
  loose : bench.Loose slot kind
  staged : bench.Staged script ∨ bench.units.units = []

/-- If the bench was as it should be, it is so again. -/
def Sustains (bench bench' : Bench) : Prop := ∀ script, bench.Intact script → bench'.Intact script

instance : IsPreorder Bench Sustains where
  refl _ _ := id
  trans _ _ _ h₁ h₂ script := h₂ script ∘ h₁ script

theorem Staged.congr (h : bench.Staged script) (places : bench'.places = bench.places)
    (code : bench'.program.code = bench.program.code) : bench'.Staged script := by
  cases script with
  | ended =>
      refine ⟨h.1.congr (by rw [code]), ?_⟩
      rw [code]
      exact h.2
  | notStarted | opened =>
      refine ⟨?_, ?_⟩
      · rw [code, places]
        exact h.1
      · rw [code]
        exact h.2

/-! ## Recording -/

theorem staged_setBuilder (h : bench.Staged script) (builder : Builder) :
    (bench.setBuilder builder).Staged script :=
  h.congr (places_setBuilder ..) rfl

/-- The innermost recording goes on without referring to anything new. -/
theorem sustains_setBuilder {slot : UInt32} {builder builder' : Builder}
    (found : bench.recording? = some ⟨slot, builder⟩)
    (kind : builder'.code.kind = builder.code.kind)
    (inner : builder'.code.inner.Sublist builder.code.inner) :
    bench.Sustains (bench.setBuilder builder') := fun _ h =>
  ⟨h.shaped.setBuilder found kind (inner.trans (List.sublist_append_left _ [])) (by simp) List.nodup_nil,
    staged_setBuilder h.staged builder'⟩

theorem sustains_rest (bench : Bench) (line : Option UInt32) {constants : Pool}
    (pool : bench.program.constants.entries.toList.Nodup → constants.entries.toList.Nodup) :
    bench.Sustains { bench with program := { bench.program with constants }, line } := fun _ h =>
  ⟨h.shaped.rest bench.units.nesting line (pool h.shaped.pool), h.staged.congr rfl rfl⟩

theorem sustains_nesting (bench : Bench) (nesting : Nat) :
    bench.Sustains { bench with units := { bench.units with nesting } } := fun _ h =>
  ⟨h.shaped.rest nesting bench.line h.shaped.pool, h.staged.congr rfl rfl⟩

theorem moves_intern (constant : Constant) : Moves Sustains (intern constant) := by
  refine fun bench => ends_intern.mono ?_ fun _ _ => Appending.unmoved
  rintro position _ ⟨constants, run, rfl⟩
  exact bench.sustains_rest bench.line (Pool.nodup_intern run)

theorem moves_building {α : Type} {action : Builder → Except CompileError (α × Builder)}
    (checked : ∀ builder, Checked (action builder))
    (keeps : ∀ builder value builder', action builder = .ok (value, builder') →
      builder'.code.kind = builder.code.kind ∧ builder'.code.inner.Sublist builder.code.inner) :
    Moves Sustains (build action) := by
  refine fun bench => (ends_build checked).mono ?_ fun _ _ => Appending.unmoved
  rintro value _ ⟨slot, builder, builder', found, run, rfl⟩
  obtain ⟨kind, inner⟩ := keeps builder value builder' run
  exact sustains_setBuilder found kind inner

/-- An operation that refers to no body is appended. -/
theorem moves_appends (operation : String) {op : Op} (plain : op.inner? = none) :
    Moves Sustains (emit operation op) := by
  refine fun bench => ends_emit.mono ?_ fun _ _ => Appending.unmoved
  rintro _ _ ⟨slot, builder, builder', found, run, rfl⟩
  refine sustains_setBuilder found (Builder.kind_emit run) ?_
  rw [Builder.inner_emit run, plain, Option.toList_none, List.append_nil]

theorem moves_changes {f : Builder → Builder}
    (keeps : ∀ builder, (f builder).code.kind = builder.code.kind ∧
      (f builder).code.inner.Sublist builder.code.inner) : Moves Sustains (modifyBuilder f) := by
  intro bench
  cases found : bench.recording? with
  | some recording =>
      refine (ends_modifyBuilder found f).weaken ?_
      rintro _ _ rfl
      exact sustains_setBuilder found (keeps _).1 (keeps _).2
  | none =>
      unfold Ends
      rw [modifyBuilder_of_none found]
      exact refl_of Sustains bench

theorem moves_appendsPooled (operation : String) (constant : Constant) {op : UInt32 → Op}
    (plain : ∀ position, (op position).inner? = none) :
    Moves Sustains (emitPooled operation constant op) :=
  Appending.moves_target.bind fun _ => (moves_intern constant).bind fun position =>
    moves_appends operation (plain position)

theorem moves_appendsYield (operation : String) (hasArgs : Bool) :
    Moves Sustains (emitYield operation hasArgs) := by
  have emits (lenient : Bool) : Moves Sustains (do
      let builder ← target
      let drop := hasArgs && builder.depth == 0 && lenient
      emit operation (.yield (if hasArgs && !drop then 1 else 0))) :=
    Appending.moves_target.bind fun _ => moves_appends operation rfl
  exact .get fun _ => .ite (fun _ => (Moves.throws _).bind fun _ => emits _) fun _ => emits _

theorem moves_appendsLocal (operation : String) (index depth : Nat) (assign : Bool) :
    Moves Sustains (emitLocal operation index depth assign) := by
  have checks : Moves Sustains (checkScopeDepth depth) :=
    .get fun _ => .ite (fun _ => .throws _) fun _ => .pure ()
  refine checks.bind fun _ => moves_appends operation ?_
  cases assign <;>
  · unfold localOp
    dsimp only
    split <;> rfl

theorem moves_appendsAlias (operation newName oldName : String) :
    Moves Sustains (emitAlias operation newName oldName) :=
  Appending.moves_target.bind fun _ => (moves_intern _).bind fun _ =>
    (moves_intern _).bind fun _ => moves_appends operation rfl

theorem moves_marks (line : UInt32) : Moves Sustains (setLine line) :=
  Appending.moves_target.bind fun _ => moves_changes fun _ => ⟨rfl, List.Sublist.refl _⟩

/-- Operations without nested code refer to no body. -/
theorem sustains_emitPrimitive (p : Primitive) : Moves Sustains (emitPrimitive p) := by
  cases p with
  | consume | retrieveSelf | fixnum | toArray | loadFalse | loadTrue | loadNil | negate =>
      exact moves_appends _ rfl
  | line line => exact (moves_marks line).bind fun _ => .modifies fun bench => bench.sustains_rest _ id
  | yield hasArgs => exact moves_appendsYield _ hasArgs
  | assignLocal index depth => exact moves_appendsLocal _ index depth true
  | retrieveLocal index depth => exact moves_appendsLocal _ index depth false
  | aliasMethod newName oldName => exact moves_appendsAlias _ newName oldName
  | bignum | string | symbol | retrieveConstant | assignConstant | retrieveIvar | assignIvar
  | assignGlobal | retrieveGlobal => exact moves_appendsPooled _ _ fun _ => rfl

/-! ## Units that open, close or are discarded -/

theorem Staged.open (h : bench.Staged script) {kind : UnitKind} {name : String}
    {handle : UnitHandle} {units : UnitStack (Option Recording)} {builder : Builder}
    (room : bench.program.code.size < bench.config.maxPoolEntries)
    (limit : bench.config.maxPoolEntries ≤ UInt32.size)
    (hopen : bench.units.open kind name (some ⟨bench.program.code.size.toUInt32, builder⟩) =
      .ok (handle, units)) :
    Staged { bench with units, program := bench.program.reserve.2 } script := by
  obtain ⟨-, rfl⟩ := UnitStack.open_ok hopen
  have next : bench.program.code.size.toUInt32.toNat = bench.program.code.size :=
    Program.toNat_toUInt32 (Nat.lt_of_lt_of_le room limit)
  have plain {position : Nat} {code : Code}
      (found : (bench.program.code.push .placeholder)[position]? = some code)
      (kind : code.kind = .script) : bench.program.code[position]? = some code := by
    rw [Array.getElem?_push] at found
    split at found
    · cases found
      cases kind
    · exact found
  cases script with
  | ended =>
      refine ⟨h.1.congr ?_, fun position code found kind => h.2 position code (plain found kind) kind⟩
      have lt := h.1.lt
      exact Array.getElem?_push_lt lt ▸ (Array.getElem?_eq_getElem lt).symm
  | notStarted | opened =>
      refine ⟨fun _ => ?_, fun code member kind => ?_⟩
      · refine mem_slots_cons.mpr ?_
        rcases Nat.eq_zero_or_pos bench.program.code.size with empty | filled
        · exact .inl (congrArg some (next.trans empty))
        · exact .inr (h.1 filled)
      · obtain ⟨position, found⟩ := Array.mem_iff_getElem?.mp member
        exact h.2 code (Array.mem_of_getElem? (plain found kind)) kind

/-- The unit is discarded in which the first slot was claimed, or it is not. -/
theorem Staged.release (h : bench.Staged script) (tabled : bench.Tabled)
    (dropped : List (OpenUnit (Option Recording))) {rest : List (OpenUnit (Option Recording))}
    (hunits : bench.units.units = dropped ++ rest) {slot : UInt32}
    (claimed : slot.toNat ∈ slots (dropped.map place))
    (least : ∀ position ∈ slots (dropped.map place), slot.toNat ≤ position) :
    (release { bench with units := { bench.units with units := rest } } slot).Staged script := by
  have split : slots bench.places = slots (dropped.map place) ++ slots (rest.map place) := by
    rw [places, hunits, List.map_append, slots_append]
  have kept {position : Nat} {code : Code}
      (found : (bench.program.release slot).code[position]? = some code) :
      bench.program.code[position]? = some code := by
    rw [Program.getElem?_release] at found
    split at found
    · exact found
    · cases found
  cases script with
  | ended =>
      refine ⟨h.1.congr ?_, fun position code found => h.2 position code (kept found)⟩
      refine (Program.getElem?_release ..).trans (if_pos (Nat.pos_of_ne_zero fun zero => ?_))
      have first : slot = 0 := UInt32.toNat_inj.mp zero
      exact tabled.not_filled (split ▸ List.mem_append_left _ (first ▸ claimed)) h.1
  | notStarted | opened =>
      refine ⟨fun filled => ?_, fun code member => ?_⟩
      · have filled : 0 < (bench.program.release slot).code.size := filled
        rw [Program.size_release, Nat.lt_min] at filled
        have first := h.1 filled.2
        rw [split, List.mem_append] at first
        exact first.resolve_left fun member =>
          absurd (least 0 member) (Nat.not_le_of_lt filled.1)
      · obtain ⟨position, found⟩ := Array.mem_iff_getElem?.mp member
        exact h.2 code (Array.mem_of_getElem? (kept found))

/-- No unit is left if the first slot was filled before the script has ended. -/
theorem Staged.fill (h : bench.Staged script) (tabled : bench.Tabled)
    (recorded : ∀ unit ∈ bench.units.units, ∃ recording, unit.payload = some recording)
    {unit : OpenUnit (Option Recording)} {rest : List (OpenUnit (Option Recording))}
    {slot : UInt32} {builder : Builder} (hunits : bench.units.units = unit :: rest)
    (payload : unit.payload = some ⟨slot, builder⟩) {code : Code} (other : code.kind ≠ .script)
    (units : bench'.units.units = rest) (table : bench'.program = bench.program.fill slot code) :
    bench'.Staged script ∨ bench'.units.units = [] := by
  obtain ⟨split, before⟩ := tabled.innermost hunits payload
  have claimed : slot.toNat ∈ slots bench.places := split ▸ List.mem_cons_self ..
  have looked {position : Nat} {found : Code}
      (at_position : bench'.program.code[position]? = some found) (kind : found.kind = .script) :
      bench.program.code[position]? = some found := by
    rw [table] at at_position
    rcases Program.fill_cases at_position with ⟨-, rfl⟩ | ⟨-, at_position⟩
    · exact absurd kind other
    · exact at_position
  cases script with
  | ended =>
      refine .inl ⟨h.1.congr ?_, fun position found at_position kind =>
        h.2 position found (looked at_position kind) kind⟩
      rw [table]
      refine (Program.getElem?_fill (tabled.claimed _ claimed) code _).trans (if_neg fun zero => ?_)
      have first : slot = 0 := UInt32.toNat_inj.mp zero
      exact tabled.not_filled (first ▸ claimed) h.1
  | notStarted | opened =>
      by_cases left : rest = []
      · exact .inr (units.trans left)
      · refine .inl ⟨fun filled => ?_, fun found member kind => ?_⟩
        · have first := h.1 (by rwa [table, Program.size_fill] at filled)
          rw [split, List.mem_cons] at first
          obtain ⟨next, outer, rfl⟩ := List.exists_cons_of_ne_nil left
          obtain ⟨recording, payload'⟩ := recorded next (hunits ▸ List.mem_cons_of_mem _ (List.mem_cons_self ..))
          have lt := before _ (mem_slots.mpr ⟨next, List.mem_cons_self .., recording, payload', rfl⟩)
          rw [Bench.places, units]
          exact first.resolve_left (Nat.ne_of_lt (Nat.lt_of_le_of_lt (Nat.zero_le _) lt))
        · obtain ⟨position, at_position⟩ := Array.mem_iff_getElem?.mp member
          exact h.2 found (Array.mem_of_getElem? (looked at_position kind)) kind

/-- A method is opened inside some unit. -/
theorem ends_openUnit_intact (h : bench.Intact script) (kind : UnitKind) (name : String)
    (arity localCount : Nat) (locals : List String)
    (around : kind = .method → bench.units.units ≠ []) :
    Ends (openUnit kind name arity localCount locals) bench (fun _ => Intact script)
      fun error bench' => bench'.Intact script ∧ error.isAborted = false := by
  refine (ends_openUnit.ensured ensures_opens).mono ?_ ?_
  · rintro handle _ ⟨-, units, room, hopen, rfl⟩
    exact ⟨h.shaped.open room hopen (opening_empty ..).1 (opening_kind ..) around,
      h.staged.open room h.shaped.tabled.limit hopen⟩
  · rintro error _ ⟨static, rfl | ⟨room, rfl⟩⟩
    · exact ⟨h, static.not_aborted⟩
    · exact ⟨(h.shaped.tabled.giveBack room).symm ▸ h, static.not_aborted⟩

theorem Intact.release (h : bench.Intact script) (dropped : List (OpenUnit (Option Recording)))
    {rest : List (OpenUnit (Option Recording))} (hunits : bench.units.units = dropped ++ rest)
    {slot : UInt32} (claimed : slot.toNat ∈ slots (dropped.map place))
    (least : ∀ position ∈ slots (dropped.map place), slot.toNat ≤ position) :
    (release { bench with units := { bench.units with units := rest } } slot).Intact script :=
  ⟨h.shaped.release dropped hunits claimed least,
    h.staged.release h.shaped.tabled dropped hunits claimed least⟩

theorem Intact.abandon (h : bench.Intact script) (count : Nat) :
    (bench.abandon count).Intact script := by
  obtain ⟨dropped, rest, hunits, ⟨nothing, same⟩ | ⟨slot, claimed, least, same⟩⟩ :=
    bench.abandon_cases count
  · -- all units are recorded, so none was discarded
    cases dropped with
    | nil =>
        rw [same, ← show bench.units.units = rest from hunits]
        exact h
    | cons unit dropped =>
        obtain ⟨recording, payload, -⟩ := h.shaped.recorded unit (hunits ▸ List.mem_cons_self ..)
        have claimed : recording.slot.toNat ∈ slots ((unit :: dropped).map place) :=
          mem_slots.mpr ⟨unit, List.mem_cons_self .., recording, payload, rfl⟩
        rw [nothing] at claimed
        cases claimed
  · exact same ▸ h.release dropped hunits claimed least

/-- The innermost unit is closed, and nothing refers to its body yet. -/
theorem ensures_closeUnit_loose (h : bench.Shaped) {handle : UnitHandle} {kind : UnitKind} :
    Ensures (closeUnit handle kind) bench fun slot bench' => bench'.Shaped ∧ bench'.Loose slot kind ∧
      ∃ unit builder code, bench.units.units = unit :: bench'.units.units ∧ unit.kind = kind ∧
        unit.payload = some ⟨slot, builder⟩ ∧ code.kind = kind ∧
        bench'.program = bench.program.fill slot code := by
  refine (ensures_closeUnit h.sharing).mono ?_
  rintro slot _ ⟨unit, units, _, builder, code, closed, payload, finished, -, -, rfl, rfl⟩
  obtain ⟨-, -, rfl, hunits, heq⟩ := UnitStack.close_ok closed
  have same : ({ bench with units, program := bench.program.fill slot code } : Bench) =
      { bench with
        units := { bench.units with units := units.units }
        program := bench.program.fill slot code } := by rw [← heq]
  obtain ⟨shaped, loose⟩ := h.fill hunits payload finished same
  obtain ⟨_, payload', kind⟩ := h.recorded unit (hunits ▸ List.mem_cons_self ..)
  cases payload.symm.trans payload'
  exact ⟨shaped, loose, unit, builder, code, hunits, rfl, payload,
    (Builder.kind_finish finished).trans kind, rfl⟩

/-- A unit that is not the script's is closed, and its body has to be referred to. -/
theorem ends_closeUnit_pending (h : bench.Intact script) (handle : UnitHandle) {kind : UnitKind}
    (other : kind ≠ .script) : Ends (closeUnit handle kind) bench
      (fun slot bench' => bench.Closes kind bench' ∧ bench'.Pending script slot kind)
      fun error bench' => bench'.Intact script ∧ error.isAborted = false := by
  refine ((ends_closeUnit handle kind).ensured (ensures_closeUnit_loose h.shaped)).mono ?_ ?_
  · rintro slot bench' ⟨-, shaped, loose, unit, builder, code, hunits, same, payload, kind, table⟩
    refine ⟨⟨unit, hunits, same⟩, shaped, loose, h.staged.fill h.shaped.tabled (fun unit member => ?_)
      hunits payload (kind ▸ other) rfl table⟩
    obtain ⟨recording, payload, -⟩ := h.shaped.recorded unit member
    exact ⟨recording, payload⟩
  · intro error bench' failed
    cases failed with
    | refused static => exact ⟨h, static.not_aborted⟩
    | executed static closed payload =>
        obtain ⟨-, -, -, hunits, -⟩ := UnitStack.close_ok closed
        obtain ⟨recording, payload', -⟩ := h.shaped.recorded _ (hunits ▸ List.mem_cons_self ..)
        cases payload.symm.trans payload'
    | @discarded unit units slot builder generated static closed payload =>
        obtain ⟨-, -, -, hunits, heq⟩ := UnitStack.close_ok closed
        rw [heq]
        refine ⟨h.release [unit] hunits ?_ ?_, generated.not_aborted⟩ <;> simp [slots, place, payload]

/-- The script is closed, which was the only unit. Its slot is the first one. -/
theorem ends_closeUnit_ended {opened : UnitHandle} (h : bench.Intact (.opened opened))
    (handle : UnitHandle) (single : bench.units.size ≤ 1) : Ends (closeUnit handle .script) bench
      (fun _ => Intact .ended) fun error _ => error.isAborted = false := by
  refine ((ends_closeUnit handle .script).ensured (ensures_closeUnit_loose h.shaped)).mono ?_ ?_
  · rintro slot bench' ⟨-, shaped, loose, unit, builder, code, hunits, -, payload, -, table⟩
    have alone : bench'.units.units = [] := by
      rw [UnitStack.size, hunits, List.length_cons] at single
      exact List.eq_nil_of_length_eq_zero (Nat.le_zero.mp (Nat.le_of_succ_le_succ single))
    have places := (h.shaped.tabled.innermost hunits payload).1
    rw [alone] at places
    have inside := h.shaped.tabled.claimed slot.toNat (places ▸ List.mem_cons_self ..)
    have first := h.staged.1 (Nat.zero_lt_of_lt inside)
    rw [places] at first
    have zero : slot = 0 := UInt32.toNat_inj.mp (List.mem_singleton.mp first).symm
    refine ⟨shaped, zero ▸ loose.filled, fun position found at_position script => ?_⟩
    by_contra later
    rw [table, zero] at at_position
    rcases Program.fill_cases at_position with ⟨here, -⟩ | ⟨-, at_position⟩
    · exact later here.symm
    · exact h.staged.2 found (Array.mem_of_getElem? at_position) script
  · intro error bench' failed
    cases failed with
    | refused static | executed static => exact static.not_aborted
    | discarded generated => exact generated.not_aborted

/-! ## References to what was recorded -/

/-- The body is referred to by the unit around it, if there is one. -/
theorem ends_emit_pending {slot : UInt32} {kind : UnitKind} (h : bench.Pending script slot kind)
    (operation : String) {op : Op} (refers : op.inner? = some (slot, kind)) :
    Ends (emit operation op) bench (fun _ => Intact script)
      fun error _ => error.isAborted = false := by
  refine ends_emit.mono ?_ fun _ _ failed => failed.1.not_aborted
  rintro _ _ ⟨here, builder, builder', found, run, rfl⟩
  obtain ⟨unit, outer, hunits, -⟩ := recording?_eq_some.mp found
  have staged : bench.Staged script := h.staged.resolve_right (hunits ▸ List.cons_ne_nil _ _)
  have inner : builder'.code.inner.Sublist (builder.code.inner ++ [(slot, kind)]) := by
    rw [Builder.inner_emit run, refers]
    exact List.Sublist.refl _
  refine ⟨h.shaped.setBuilder found (Builder.kind_emit run) inner ?_ (List.nodup_singleton _),
    staged_setBuilder staged builder'⟩
  intro entry member
  cases List.mem_singleton.mp member
  exact h.loose

theorem ends_emitPooled_pending {slot : UInt32} {kind : UnitKind}
    (h : bench.Pending script slot kind) (operation : String) (constant : Constant)
    {op : UInt32 → Op} (refers : ∀ position, (op position).inner? = some (slot, kind)) :
    Ends (emitPooled operation constant op) bench (fun _ => Intact script)
      fun error _ => error.isAborted = false := by
  refine (ends_target.mono (fun _ _ => And.left) fun _ _ failed => failed.1.not_aborted).bind ?_
  rintro _ _ rfl
  refine (ends_intern.mono (fun _ _ => id) fun _ _ failed => failed.1.not_aborted).bind ?_
  rintro position _ ⟨constants, run, rfl⟩
  refine ends_emit_pending ⟨?_, ?_, ?_⟩ operation (refers position)
  · exact h.shaped.rest _ _ (Pool.nodup_intern run h.shaped.pool)
  · exact ⟨h.loose.filled, h.loose.behind, h.loose.free⟩
  · exact h.staged.imp_left fun staged => staged.congr rfl rfl

end Bench

end BlockScript
