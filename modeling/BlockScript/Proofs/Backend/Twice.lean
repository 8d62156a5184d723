import BlockScript.Proofs.Backend.Replayed

/-!
# Units that are recorded twice

A unit is recorded a second time. If it begins on the same line, it begins alike. When it is
finished, its code object is the one of the first time, and if that is still shared, then the
second one gives its own slot back. So the table is as long as before.

The first code object is recognised by the slot that it was given: no other one can be there,
since the slot of an open unit is empty.
-/

namespace BlockScript

variable {υ : Type}

namespace Bench

variable {bench bench' : Bench} {code other : Code} {slot existing installed : UInt32}

/-! ## What is shared -/

/-- What is shared before a slot is still shared when that is given back. -/
theorem shared?_release (known : bench.shared? code = some existing) (before : existing < slot) :
    (bench.release slot).shared? code = some existing := by
  obtain ⟨entry, found, rfl⟩ := Option.map_eq_some_iff.mp known
  obtain ⟨same, earlier, later, split, others⟩ := List.find?_eq_some_iff_append.mp found
  refine Option.map_eq_some_iff.mpr ⟨entry, ?_, rfl⟩
  show (bench.recorded.filter (·.2 < slot)).find? (·.1 = code) = some entry
  rw [List.find?_filter]
  refine List.find?_eq_some_iff_append.mpr ⟨by simpa using ⟨before, of_decide_eq_true same⟩,
    earlier, later, split, fun first member => ?_⟩
  have differs : decide (first.1 = code) = false := by simpa using others first member
  simp [differs]

/-- What is recorded anew is shared from its own slot. -/
theorem shared?_cons (bench : Bench) (program : Program) (code other : Code) (slot : UInt32) :
    shared? { bench with program, recorded := (code, slot) :: bench.recorded } other =
      if code = other then some slot else bench.shared? other := by
  unfold shared?
  rw [List.find?_cons]
  by_cases same : code = other
  · simp [same]
  · simp [same]

/-- What is shared is in a slot of the table. -/
theorem Tabled.shared?_lt (h : bench.Tabled) (known : bench.shared? code = some slot) :
    slot.toNat < bench.program.code.size :=
  (Array.getElem?_eq_some_iff.mp (h.recorded _ (mem_of_shared? known)).1).1

/-- A slot is shared by one code object. -/
theorem Tabled.shared_unique (h : bench.Tabled) (one : (code, slot) ∈ bench.recorded)
    (two : (other, slot) ∈ bench.recorded) : other = code :=
  Option.some.inj ((h.recorded _ two).1.symm.trans (h.recorded _ one).1)

/-- An equal code object is given the slot that is shared. -/
theorem install_shared (sharing : bench.sharing = true)
    (known : bench.shared? code = some existing) : install slot code bench = .ok existing (bench.release slot) := by
  obtain ⟨entry, found, rfl⟩ := Option.map_eq_some_iff.mp known
  unfold install
  simp only [sharing, if_true, found]

/-- A code object that is not shared fills its own slot. -/
theorem install_fresh (sharing : bench.sharing = true) (unknown : bench.shared? code = none)
    (run : install slot code bench = .ok installed bench') : installed = slot ∧
      bench' = { bench with
        program := bench.program.fill slot code
        recorded := (code, slot) :: bench.recorded } := by
  unfold install at run
  simp only [sharing, if_true, Option.map_eq_none_iff.mp unknown, Program.install?] at run
  by_cases inside : slot.toNat < bench.program.code.size
  · simp only [if_pos inside] at run
    cases run
    exact ⟨rfl, by rw [← sharing]; rfl⟩
  · simp only [if_neg inside] at run
    cases run

/-- Apart from the code table, nothing changes. -/
theorem install_beside (run : install slot code bench = .ok installed bench') :
    bench'.config = bench.config ∧ bench'.units = bench.units ∧ bench'.line = bench.line ∧
      bench'.sharing = bench.sharing ∧ bench'.program.constants = bench.program.constants := by
  cases (bench.ends_install slot code).ok run with
  | shared | fills => exact ⟨rfl, rfl, rfl, rfl, rfl⟩

theorem install_of_installUnit {builder : Builder}
    (run : installUnit slot builder bench = .ok installed bench') :
    ∃ code, builder.finish = .ok code ∧ install slot code bench = .ok installed bench' := by
  unfold installUnit at run
  cases finished : builder.finish with
  | error error =>
      simp only [finished] at run
      cases run
  | ok code =>
      simp only [finished] at run
      obtain ⟨looked, _, same, run⟩ := run_of_bind run
      cases same
      by_cases verifies : bench.config.verifyUnits = true
      · rw [if_pos verifies] at run
        cases verified : code.verify with
        | error error =>
            simp only [verified] at run
            cases run
        | ok most =>
            simp only [verified] at run
            exact ⟨code, rfl, run⟩
      · rw [if_neg verifies] at run
        exact ⟨code, rfl, run⟩

end Bench

namespace Interpreter

section Sheet

variable {sheet : Sheet} {builder : Builder} {bench bench' : Bench}

/-- The bench without the innermost unit. -/
def Sheet.leave (sheet : Sheet) (bench : Bench) : Bench :=
  { bench with units := { bench.units with units := sheet.outer } }

/-- The innermost unit is finished and installed in its slot. -/
theorem Sheet.Shows.closed (h : sheet.Shows builder bench) {handle : UnitHandle} {kind : UnitKind}
    {installed : UInt32} (run : Bench.closeUnit handle kind bench = .ok installed bench') :
    ∃ code, builder.finish = .ok code ∧
      Bench.install sheet.slot code (sheet.leave bench) = .ok installed bench' := by
  unfold Bench.closeUnit at run
  cases closed : bench.units.close handle kind bench.currentLine with
  | error error =>
      simp only [closed] at run
      cases run
  | ok result =>
      obtain ⟨unit, units⟩ := result
      obtain ⟨-, -, -, hunits, heq⟩ := UnitStack.close_ok closed
      obtain ⟨rfl, same⟩ := List.cons.inj (hunits.symm.trans h)
      rw [same] at heq
      simp only [closed] at run
      cases ran : Bench.installUnit sheet.slot builder { bench with units } with
      | error error _ =>
          simp only [ran] at run
          cases run
      | ok value _ =>
          simp only [ran] at run
          cases run
          rw [heq] at ran
          exact Bench.install_of_installUnit ran

/-- The slot of the innermost unit is one of those that are claimed. -/
theorem Sheet.Shows.claims (h : sheet.Shows builder bench) :
    sheet.slot.toNat ∈ Bench.slots bench.places := by
  rw [Bench.places, h]
  exact Bench.mem_slots_cons.mpr (.inl rfl)

end Sheet

namespace Rerun

variable {rerun : Rerun} {sheet sheet' : Sheet} {builder : Builder}
  {first second first' second' : Bench} {session again after after' : Watched υ}

/-! ## Units that are opened twice -/

/-- Units that are opened alike begin alike, each in the slot after all others. -/
theorem Beside.opens (h : rerun.Beside first second) (tabled : second.Tabled)
    (line : second.currentLine = first.currentLine)
    (lined : rerun.lined → first.currentLine.isSome) {kind : UnitKind} {name : String}
    {arity localCount : Nat} {locals : List String} {handle handle' : UnitHandle}
    (run : Bench.openUnit kind name arity localCount locals first = .ok handle first')
    (run' : Bench.openUnit kind name arity localCount locals second = .ok handle' second') :
    ∃ sheet sheet' builder, rerun.Copies sheet sheet' builder first' second' ∧
      sheet.outer = first.units.units ∧ sheet'.outer = second.units.units ∧
      sheet'.slot.toNat = second.program.code.size := by
  obtain ⟨units, room, opened, rfl⟩ := Bench.ensures_opens _ _ run
  obtain ⟨units', room', opened', rfl⟩ := Bench.ensures_opens _ _ run'
  obtain ⟨rfl, rfl⟩ := UnitStack.open_ok opened
  obtain ⟨rfl, rfl⟩ := UnitStack.open_ok opened'
  have alike : second.opening kind name arity localCount locals =
      first.opening kind name arity localCount locals := by
    unfold Bench.opening
    rw [line, h.config]
  refine ⟨⟨first.units.nextId, kind, name, first.program.code.size.toUInt32, first.units.units⟩,
    ⟨second.units.nextId, kind, name, second.program.code.size.toUInt32, second.units.units⟩,
    first.opening kind name arity localCount locals, ?_, rfl, rfl,
    Program.toNat_toUInt32 (Nat.lt_of_lt_of_le room' tabled.limit)⟩
  constructor
  · constructor
    · exact h.config
    · exact h.shares
    · exact h.shares'
    · exact h.pool
    · exact h.shared
    · exact h.size.trans ((Nat.le_succ _).trans (Nat.le_of_eq (Array.size_push _).symm))
    · exact h.line
  · rfl
  · rw [Sheet.Shows, ← alike]
  · rfl
  · intro was
    obtain ⟨current, known⟩ := Option.isSome_iff_exists.mp (lined was)
    simp [Bench.opening, known, Builder.setLine]

/-! ## Units that are closed twice -/

/-- An equal code object is installed in both recordings. The second one fills or gives back a
slot that is not older than itself. -/
theorem Beside.installs (h : rerun.Beside first second) {slot slot' installed installed' : UInt32}
    (late : rerun.start.program.code.size ≤ slot'.toNat) {code : Code}
    (run : Bench.install slot code first = .ok installed first')
    (run' : Bench.install slot' code second = .ok installed' second') :
    rerun.Beside first' second' := by
  obtain ⟨config, -, line, sharing, -⟩ := Bench.install_beside run
  obtain ⟨config', -, line', sharing', constants'⟩ := Bench.install_beside run'
  have table : rerun.start.program.code.size ≤ second'.program.code.size ∧
      ∀ code slot, rerun.start.shared? code = some slot → second'.shared? code = some slot := by
    cases found : second.shared? code with
    | some existing =>
        cases (Bench.install_shared h.shares' found).symm.trans run'
        refine ⟨?_, fun other kept known => ?_⟩
        · exact (Nat.le_min.mpr ⟨late, h.size⟩).trans
            (Nat.le_of_eq (Program.size_release second.program slot').symm)
        · refine Bench.shared?_release (h.shared _ _ known) (UInt32.lt_iff_toNat_lt.mpr ?_)
          exact Nat.lt_of_lt_of_le (rerun.tabled.shared?_lt known) late
    | none =>
        obtain ⟨rfl, rfl⟩ := Bench.install_fresh h.shares' found run'
        refine ⟨h.size.trans (Nat.le_of_eq (Program.size_fill ..).symm), fun other kept known => ?_⟩
        have there := h.shared _ _ known
        rw [Bench.shared?_cons, if_neg, there]
        rintro rfl
        cases found.symm.trans there
  constructor
  · exact config'.trans (h.config.trans config.symm)
  · exact sharing.trans h.shares
  · exact sharing'.trans h.shares'
  · exact constants'.trans h.pool
  · exact table.2
  · exact table.1
  · rw [line, line']
    exact h.line

/-- What is in the slot that the first unit was given is its own code object. -/
theorem installed_unique {code other : Code} {installed : UInt32} (tabled : first.Tabled)
    (sharing : first.sharing = true) (shows : sheet.Shows builder first)
    (run : Bench.install sheet.slot code (sheet.leave first) = .ok installed first')
    (known : first'.shared? other = some installed) : other = code := by
  have member := Bench.mem_of_shared? known
  have shares : (sheet.leave first).sharing = true := sharing
  cases found : (sheet.leave first).shared? code with
  | some existing =>
      cases (Bench.install_shared shares found).symm.trans run
      exact tabled.shared_unique (Bench.mem_of_shared? found) (List.mem_of_mem_filter member)
  | none =>
      obtain ⟨rfl, rfl⟩ := Bench.install_fresh shares found run
      rcases List.mem_cons.mp member with same | member
      · exact congrArg Prod.fst same
      · -- The slot was claimed by the unit, so nothing was in it before.
        obtain ⟨held, filled⟩ := tabled.recorded _ member
        exact absurd ((tabled.empty _ _ held).mpr shows.claims) filled

/-- The units that were opened are closed. If the code object of the first one is still there,
then the second one is given its slot and gives back its own. -/
theorem Copies.closes (h : rerun.Copies sheet sheet' builder first second) (tabled : first.Tabled)
    (tabled' : second.Tabled) (late : rerun.start.program.code.size ≤ sheet'.slot.toNat)
    {kind kind' : UnitKind} {handle handle' : UnitHandle} {installed installed' : UInt32}
    (run : Bench.closeUnit handle kind first = .ok installed first')
    (run' : Bench.closeUnit handle' kind' second = .ok installed' second') :
    rerun.Beside first' second' ∧ first'.units.units = sheet.outer ∧
      second'.units.units = sheet'.outer ∧ (first'.Survives rerun.start installed →
        installed' = installed ∧ second'.program.code.size = sheet'.slot.toNat) := by
  obtain ⟨code, finished, installs⟩ := h.first.closed run
  obtain ⟨same, finished', installs'⟩ := h.second.closed run'
  cases finished.symm.trans finished'
  have left : rerun.Beside (sheet.leave first) (sheet'.leave second) :=
    h.toBeside.follow rfl rfl rfl rfl rfl rfl rfl h.line
  refine ⟨left.installs late installs installs', ?_, ?_, fun survives => ?_⟩
  · rw [(Bench.install_beside installs).2.1]
    rfl
  · rw [(Bench.install_beside installs').2.1]
    rfl
  · obtain ⟨other, known, still⟩ := Bench.survives_iff.mp survives
    cases installed_unique tabled h.shares h.first installs known
    have recognised : (sheet'.leave second).shared? code = some installed := h.shared _ _ still
    cases (Bench.install_shared left.shares' recognised).symm.trans installs'
    refine ⟨rfl, ?_⟩
    exact (Program.size_release second.program sheet'.slot).trans
      (Nat.min_eq_left (Nat.le_of_lt (tabled'.claimed _ h.second.claims)))

/-! ## Units that are recorded twice -/

/-- Both recordings may open units that begin alike. -/
structure Ready (rerun : Rerun) (session again : Watched υ) : Prop where
  since : rerun.since ≤ session.client.events.length
  order : session.bench.InOrder
  order' : again.bench.InOrder
  beside : rerun.Beside session.bench again.bench
  line : again.bench.currentLine = session.bench.currentLine
  lined : rerun.lined → session.bench.currentLine.isSome

theorem Sheet.Shows.currentLine (h : sheet.Shows builder first) :
    first.currentLine = builder.line.or first.line := by
  unfold Bench.currentLine
  rw [h.found]
  rfl

/-- A unit inside begins on the line of the unit around it. -/
theorem Level.ready (h : rerun.Level sheet sheet' builder session again) :
    rerun.Ready session again where
  since := h.since
  order := h.order
  order' := h.order'
  beside := h.copies.toBeside
  line := by
    rw [Sheet.Shows.currentLine h.copies.first, Sheet.Shows.currentLine h.copies.second]
    cases known : builder.line with
    | some line => rfl
    | none =>
        obtain lined | same := h.copies.line
        · exact absurd (h.copies.lined lined) (by simp [known])
        · exact same
  lined was := by
    rw [Sheet.Shows.currentLine h.copies.first, Option.isSome_or, h.copies.lined was, Bool.true_or]

/-- Notes are taken of both. -/
theorem Ready.note (h : rerun.Ready session again) (event event' : Event Interpreter) :
    rerun.Ready (session.note event) (again.note event') where
  since := Nat.le_succ_of_le h.since
  order := h.order
  order' := h.order'
  beside := h.beside
  line := h.line
  lined := h.lined

section Unit

variable {kind : UnitKind} (inner : kind ≠ .script) {name : String} {arity localCount : Nat}
  {locals : List String} {opened opened' : Watched υ} {handle handle' : UnitHandle}

include inner

theorem Ready.opens (h : rerun.Ready session again)
    (run : Work.onBench (Bench.openUnit kind name arity localCount locals) session =
      .ok handle opened)
    (run' : Work.onBench (Bench.openUnit kind name arity localCount locals) again =
      .ok handle' opened') :
    ∃ sheet sheet' builder, rerun.Level sheet sheet' builder opened opened' ∧
      sheet.outer = session.bench.units.units ∧ sheet'.outer = again.bench.units.units ∧
      sheet'.slot.toNat = again.bench.program.code.size := by
  have opens : Moves Leads (Work.onBench (Bench.openUnit kind name arity localCount locals) :
      Work Interpreter (Journal Interpreter υ) UnitHandle) :=
    leads_onBench (Bench.reaches_openUnit inner name arity localCount locals)
  obtain ⟨sheet, sheet', builder, copies, outer, outer', slot⟩ :=
    h.beside.opens h.order'.tabled h.line h.lined (Work.run_of_onBench run)
      (Work.run_of_onBench run')
  refine ⟨sheet, sheet', builder, ⟨?_, ?_, ?_, copies⟩, outer, outer', slot⟩
  · exact h.since.trans (Leads.length_le (opens.ok run))
  · exact ((opens.ok run).reaches.regards h.order).1
  · exact ((opens.ok run').reaches.regards h.order').1

/-- The second recording of a unit. If the code object of the first one is still there, then the
second one results in the same slot, and the table is as long as it was before. -/
theorem Ready.records (h : rerun.Ready session again)
    {body : Work Interpreter (Journal Interpreter υ) Unit} (replays : rerun.Replays body body)
    {slot slot' : UInt32}
    (run : Work.recordUnit kind name arity localCount locals body session = .ok slot after)
    (run' : Work.recordUnit kind name arity localCount locals body again = .ok slot' after')
    (kept : rerun.Kept after) :
    rerun.Beside after.bench after'.bench ∧
      after.bench.units.units = session.bench.units.units ∧
      after'.bench.units.units = again.bench.units.units ∧
      (after.bench.Survives rerun.start slot → slot' = slot ∧
        after'.bench.program.code.size = again.bench.program.code.size) := by
  have parts {session after : Watched υ} {slot : UInt32}
      (run : Work.recordUnit kind name arity localCount locals body session = .ok slot after) :
      ∃ handle opened recorded,
        Work.onBench (Bench.openUnit kind name arity localCount locals) session =
          .ok handle opened ∧ body opened = .ok () recorded ∧
        Work.onBench (Bench.closeUnit handle kind) recorded = .ok slot after := by
    obtain ⟨_, _, looked, run⟩ := run_of_bind run
    cases looked
    obtain ⟨handle, opened, opens, run⟩ := run_of_bind run
    have cleaned : Ensures ((do
        body
        Work.onBench (Bench.closeUnit handle kind) : Work Interpreter (Journal Interpreter υ)
          UInt32).cleaning (·.abandon session.bench.units.size)) opened
        fun slot after => ∃ recorded, body opened = .ok () recorded ∧
          Work.onBench (Bench.closeUnit handle kind) recorded = .ok slot after :=
      Work.ensures_cleaning fun slot after run => by
        obtain ⟨_, recorded, records, closes⟩ := run_of_bind run
        exact ⟨recorded, records, closes⟩
    obtain ⟨recorded, records, closes⟩ := cleaned _ _ run
    exact ⟨handle, opened, recorded, opens, records, closes⟩
  obtain ⟨handle, opened, recorded, opens, records, closes⟩ := parts run
  obtain ⟨handle', opened', recorded', opens', records', closes'⟩ := parts run'
  have ended : Moves Leads (Work.onBench (Bench.closeUnit handle kind) :
      Work Interpreter (Journal Interpreter υ) UInt32) :=
    leads_onBench (Bench.reaches_closeUnit handle kind)
  obtain ⟨sheet, sheet', builder, level, outer, outer', size⟩ := h.opens inner opens opens'
  obtain ⟨-, builder', copies⟩ :=
    replays.replays level records records' (kept.earlier (ended.ok closes))
  have level := level.onward (replays.leads.ok records) (replays.leads'.ok records') copies
  have late : rerun.start.program.code.size ≤ sheet'.slot.toNat := size ▸ h.beside.size
  obtain ⟨beside, units, units', same⟩ := level.copies.closes level.order.tabled
    level.order'.tabled late (Work.run_of_onBench closes) (Work.run_of_onBench closes')
  exact ⟨beside, units.trans outer, units'.trans outer', fun survives =>
    ⟨(same survives).1, (same survives).2.trans size⟩⟩

end Unit

end Rerun

end Interpreter

end BlockScript
