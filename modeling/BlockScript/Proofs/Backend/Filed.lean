import BlockScript.Proofs.Backend.Writes
import BlockScript.Proofs.Contract.Layout

/-!
# Units are installed as laid out

A unit claims a slot when it opens, and other units may be installed in later slots before
it closes. If the bench does not share code objects, or none is equal to the unit's, the
unit fills its slot. Otherwise it takes the slot of the equal code object, and its own slot
is given back with all later ones. That code object is older than the unit: one that was
recorded inside the unit does not refer to all that the unit refers to, as its slot was still
to be filled when it was recorded. So nothing that is still needed is given back.
-/

namespace BlockScript

/-- What the code objects refer to is installed, and positions of the tables fit into operands. -/
structure Bench.Tidy (bench : Bench) : Prop where
  tables : bench.config.maxPoolEntries ≤ UInt32.size
  constants : bench.program.constants.size ≤ bench.config.maxPoolEntries
  installed : ∀ slot code, bench.program.code? slot = some code →
    ∀ ref, Op.Refer code.ops.toList ref → bench.program.Installed ref
  recorded : ∀ code slot, (code, slot) ∈ bench.recorded →
    code.ops ≠ #[] ∧ bench.program.code? slot = some code

/-- The pool and the code table grew while the operations were recorded. Code objects that
became available for sharing differ from any one with these operations: such a code object
does not refer to all that these operations refer to. -/
structure Bench.Grew (bench bench' : Bench) (ops : List Op) : Prop where
  config : bench'.config = bench.config
  constants : ∀ position constant, bench.program.constants.get? position = some constant →
    bench'.program.constants.get? position = some constant
  size : bench.program.code.size ≤ bench'.program.code.size
  code : ∀ slot : UInt32, slot.toNat < bench.program.code.size →
    bench'.program.code? slot = bench.program.code? slot
  old : ∀ code slot, (code, slot) ∈ bench'.recorded →
    slot.toNat < bench.program.code.size → (code, slot) ∈ bench.recorded
  fresh : ∀ code slot, (code, slot) ∈ bench'.recorded →
    bench.program.code.size ≤ slot.toNat →
    ∃ ref, Op.Refer ops ref ∧ ¬Op.Refer code.ops.toList ref
  tidy : bench'.Tidy

/-! ## Code tables -/

namespace Program

variable {program : Program} {slot slot' : UInt32} {code : Code}

theorem code?_lt (h : program.code? slot = some code) : slot.toNat < program.code.size :=
  (Array.getElem?_eq_some_iff.mp h).1

theorem Installed.lt (h : program.Installed slot) : slot.toNat < program.code.size := by
  obtain ⟨code, found, -⟩ := h
  exact code?_lt found

theorem code?_reserve (h : slot.toNat < program.code.size) :
    program.reserve.2.code? slot = program.code? slot := by
  simp only [code?, reserve]
  rw [Array.getElem?_push_lt h, Array.getElem?_eq_getElem h]

theorem code?_reserve_self (h : slot.toNat = program.code.size) :
    program.reserve.2.code? slot = some .placeholder := by
  simp only [code?, reserve, h, Array.getElem?_push_size]

theorem code?_fill_self (h : slot.toNat < program.code.size) :
    (program.fill slot code).code? slot = some code := by
  rw [code?, getElem?_fill h, if_pos rfl]

theorem code?_fill_ne (h : slot' ≠ slot) :
    (program.fill slot code).code? slot' = program.code? slot' := by
  have differ : slot.toNat ≠ slot'.toNat := fun same => h (UInt32.toNat.inj same.symm)
  simp only [code?, fill]
  rw [Array.getElem?_setIfInBounds_ne differ]

theorem code?_release (h : slot'.toNat < slot.toNat) :
    (program.release slot).code? slot' = program.code? slot' :=
  (getElem?_release ..).trans (if_pos h)

theorem code?_release_lt (h : (program.release slot).code? slot' = some code) :
    slot'.toNat < slot.toNat := by
  have := code?_lt h
  rw [size_release] at this
  omega

end Program

/-! ## Benches that grow -/

namespace Bench

variable {bench bench' bench'' : Bench} {ops ops' : List Op}

theorem Grew.refl (tidy : bench.Tidy) (ops : List Op) : bench.Grew bench ops where
  config := rfl
  constants _ _ h := h
  size := Nat.le_refl _
  code _ _ := rfl
  old _ _ h _ := h
  fresh code slot member outside := by
    have := Program.code?_lt (tidy.recorded code slot member).2
    omega
  tidy := tidy

theorem Grew.mono (h : bench.Grew bench' ops) (sub : ∀ ref, Op.Refer ops ref → Op.Refer ops' ref) :
    bench.Grew bench' ops' :=
  { h with
    fresh := fun code slot member outside => by
      obtain ⟨ref, refers, lacks⟩ := h.fresh code slot member outside
      exact ⟨ref, sub ref refers, lacks⟩ }

theorem Grew.trans (h₁ : bench.Grew bench' ops) (h₂ : bench'.Grew bench'' ops) :
    bench.Grew bench'' ops where
  config := h₂.config.trans h₁.config
  constants position constant h := h₂.constants _ _ (h₁.constants _ _ h)
  size := Nat.le_trans h₁.size h₂.size
  code slot inside := (h₂.code slot (Nat.lt_of_lt_of_le inside h₁.size)).trans (h₁.code slot inside)
  old code slot member inside :=
    h₁.old code slot (h₂.old code slot member (Nat.lt_of_lt_of_le inside h₁.size)) inside
  fresh code slot member outside := by
    by_cases between : slot.toNat < bench'.program.code.size
    · exact h₁.fresh code slot (h₂.old code slot member between) outside
    · exact h₂.fresh code slot member (Nat.le_of_not_lt between)
  tidy := h₂.tidy

/-- Two pieces of code, one after the other. -/
theorem Grew.append (h₁ : bench.Grew bench' ops) (h₂ : bench'.Grew bench'' ops') :
    bench.Grew bench'' (ops ++ ops') :=
  (h₁.mono fun _ => (·.mono (List.subset_append_left ..))).trans
    (h₂.mono fun _ => (·.mono (List.subset_append_right ..)))

/-- Everything that was installed is still there. -/
theorem Grew.carries (h : bench.Grew bench' ops) :
    bench.program.Carries bench'.program fun _ => True where
  constants := h.constants
  code slot code _ found _ := by
    rw [h.code slot (Program.code?_lt found)]
    exact found
  closed _ _ _ _ _ _ := trivial

/-- What was laid out still is. -/
theorem Grew.lays (h : bench.Grew bench' ops) {ε : Type} {action : Action ε} {site : Site}
    (lays : action.Lays bench.program site ops') : action.Lays bench'.program site ops' :=
  lays.carry h.carries fun _ _ => trivial

theorem Grew.files (h : bench.Grew bench' ops) {ε : Type} {head : Code} {body : Action ε}
    {site : Site} {slot : UInt32}
    (files : bench.program.Files head (body.Lays bench.program site) slot) :
    bench'.program.Files head (body.Lays bench'.program site) slot :=
  files.carry h.carries (fun _ lays _ => h.lays lays) trivial

/-- Neither the tables nor the configuration have changed. -/
theorem Tidy.congr (h : bench.Tidy) (config : bench'.config = bench.config)
    (program : bench'.program = bench.program) (recorded : bench'.recorded = bench.recorded) :
    bench'.Tidy := by
  refine ⟨?_, ?_, ?_, ?_⟩
  · rw [config]
    exact h.tables
  · rw [config, program]
    exact h.constants
  · rw [program]
    exact h.installed
  · rw [program, recorded]
    exact h.recorded

theorem Grew.congr (h : bench.Grew bench' ops) (config : bench''.config = bench'.config)
    (program : bench''.program = bench'.program) (recorded : bench''.recorded = bench'.recorded) :
    bench.Grew bench'' ops := by
  refine {
    config := config.trans h.config, constants := ?constants, size := ?size, code := ?table
    old := ?old, fresh := ?fresh, tidy := h.tidy.congr config program recorded }
  case constants =>
    rw [program]
    exact h.constants
  case size =>
    rw [program]
    exact h.size
  case table =>
    rw [program]
    exact h.code
  case old =>
    rw [recorded]
    exact h.old
  case fresh =>
    rw [recorded]
    exact h.fresh

/-- A constant joins the pool. -/
theorem grew_intern (tidy : bench.Tidy) {constant : Constant} {position : UInt32}
    (run : intern constant bench = .ok position bench') :
    bench.Grew bench' [] ∧ bench'.units = bench.units ∧
      bench'.program.constants.get? position = some constant := by
  obtain ⟨constants, interned, rfl⟩ := ensures_intern _ _ run
  obtain ⟨room, pooled, kept⟩ := Pool.intern_ok interned tidy.tables tidy.constants
  have grew := Grew.refl tidy []
  exact ⟨{ grew with
    constants := kept
    tidy := ⟨tidy.tables, room, tidy.installed, tidy.recorded⟩ }, rfl, pooled⟩

/-! ## A unit that is open -/

variable {opened recorded : Bench} {slot : UInt32}

/-- The bench after a unit has claimed its slot and opened. -/
structure Opened (bench opened : Bench) (slot : UInt32) : Prop where
  slot : slot.toNat = bench.program.code.size
  config : opened.config = bench.config
  program : opened.program = bench.program.reserve.2
  recorded : opened.recorded = bench.recorded

namespace Opened

theorem size (h : bench.Opened opened slot) :
    opened.program.code.size = bench.program.code.size + 1 := by
  rw [h.program, Program.size_reserve]

theorem tidy (h : bench.Opened opened slot) (tidy : bench.Tidy) : opened.Tidy where
  tables := h.config ▸ tidy.tables
  constants := by
    rw [h.program, h.config]
    exact tidy.constants
  installed := by
    intro found code there ref refers
    rw [h.program] at there ⊢
    by_cases inside : found.toNat < bench.program.code.size
    · rw [Program.code?_reserve inside] at there
      obtain ⟨target, there', nonempty⟩ := tidy.installed found code there ref refers
      exact ⟨target, Program.code?_reserve (Program.code?_lt there') ▸ there', nonempty⟩
    · have last := Program.code?_lt there
      rw [Program.size_reserve] at last
      rw [Program.code?_reserve_self (by omega)] at there
      cases there
      exact absurd refers Op.not_refer_nil
  recorded := by
    intro code found member
    rw [h.recorded] at member
    obtain ⟨nonempty, there⟩ := tidy.recorded code found member
    rw [h.program, Program.code?_reserve (Program.code?_lt there)]
    exact ⟨nonempty, there⟩

variable (h : bench.Opened opened slot) (grew : opened.Grew recorded ops)

include h grew

/-- Nothing that was recorded meanwhile is in the slot of the unit itself. -/
theorem waits : recorded.program.code? slot = some .placeholder := by
  rw [grew.code slot (by rw [h.size, h.slot]; omega), h.program]
  exact Program.code?_reserve_self h.slot

theorem not_installed : ¬recorded.program.Installed slot := by
  rintro ⟨code, there, nonempty⟩
  rw [h.waits grew] at there
  cases there
  exact nonempty rfl

theorem ne_slot {found : UInt32} {code : Code} (there : recorded.program.code? found = some code)
    (nonempty : code.ops ≠ #[]) : found ≠ slot := by
  rintro rfl
  exact h.not_installed grew ⟨code, there, nonempty⟩

/-- What was there when the unit opened is still there. -/
theorem code? {found : UInt32} (inside : found.toNat < bench.program.code.size) :
    recorded.program.code? found = bench.program.code? found := by
  rw [grew.code found (by rw [h.size]; omega), h.program]
  exact Program.code?_reserve inside

/-- It refers to nothing that came later. -/
theorem old_refs (tidy : bench.Tidy) {found : UInt32} {code : Code} (inside : found.toNat < slot.toNat)
    (there : recorded.program.code? found = some code) {ref : UInt32}
    (refers : Op.Refer code.ops.toList ref) : ref.toNat < slot.toNat := by
  rw [h.slot] at inside ⊢
  rw [h.code? grew inside] at there
  exact (tidy.installed found code there ref refers).lt

end Opened

/-! ## A unit that is closed -/

section Close

variable {ε : Type} {head code : Code} {body : Action ε} {site : Site}
  (opens : bench.Opened opened slot) (grew : opened.Grew recorded ops) (same : code.head = head)
  (whole : code.ops.toList = ops ++ [.ret]) (lays : body.Lays recorded.program site ops)

include opens grew same whole lays

/-- The slot is filled. -/
theorem grew_fill (closed : Bench) (config : closed.config = recorded.config)
    (program : closed.program = recorded.program.fill slot code)
    (shared : ∀ entry ∈ closed.recorded, entry = (code, slot) ∨ entry ∈ recorded.recorded) :
    closed.program.code? slot = some code ∧
      closed.program.Files head (body.Lays closed.program site) slot ∧
      ∀ all, Op.Refer all slot → bench.Grew closed all := by
  have refer {ref : UInt32} : Op.Refer code.ops.toList ref ↔ Op.Refer ops ref := by
    rw [whole, Op.refer_append, Op.refer_single]
    exact or_iff_left nofun
  have inside : slot.toNat < recorded.program.code.size := Program.code?_lt (opens.waits grew)
  have here : closed.program.code? slot = some code := program ▸ Program.code?_fill_self inside
  have nonempty : code.ops ≠ #[] := fun empty => by simp [empty] at whole
  have kept {found : UInt32} {other : Code} (there : recorded.program.code? found = some other)
      (nonempty : other.ops ≠ #[]) : closed.program.code? found = some other := by
    rw [program, Program.code?_fill_ne (opens.ne_slot grew there nonempty)]
    exact there
  have carries : recorded.program.Carries closed.program fun _ => True :=
    ⟨fun _ _ h => program ▸ h, fun _ _ _ there nonempty => kept there nonempty,
      fun _ _ _ _ _ _ => trivial⟩
  have installed {ref : UInt32} (h : recorded.program.Installed ref) :
      closed.program.Installed ref := by
    obtain ⟨other, there, nonempty⟩ := h
    exact ⟨other, kept there nonempty, nonempty⟩
  refine ⟨here, ⟨code, ops, here, same, lays.carry carries fun _ _ => trivial, whole⟩, fun all refers => ?_⟩
  have size : closed.program.code.size = recorded.program.code.size := by
    rw [program, Program.size_fill]
  have opened_size := opens.size
  refine {
    config := config.trans (grew.config.trans opens.config), constants := ?constants
    size := ?size, code := ?table, old := ?old, fresh := ?fresh, tidy := ?tidy }
  case constants =>
    intro position constant pooled
    rw [program]
    refine grew.constants position constant ?_
    rw [opens.program]
    exact pooled
  case size =>
    have := grew.size
    omega
  case table =>
    intro found older
    rw [program, Program.code?_fill_ne, opens.code? grew older]
    rintro rfl
    exact absurd older (by rw [opens.slot]; exact Nat.lt_irrefl _)
  case old =>
    intro other found member older
    rcases shared _ member with heq | member
    · cases heq
      exact absurd older (by rw [opens.slot]; exact Nat.lt_irrefl _)
    · exact opens.recorded ▸ grew.old other found member (by omega)
  case fresh =>
    intro other found member _
    refine ⟨slot, refers, fun refers' => opens.not_installed grew ?_⟩
    rcases shared _ member with heq | member
    · cases heq
      exact lays.installed (refer.mp refers')
    · exact grew.tidy.installed found other (grew.tidy.recorded other found member).2 slot refers'
  case tidy =>
    refine ⟨config ▸ grew.tidy.tables, ?_, ?_, ?_⟩
    · rw [program, config]
      exact grew.tidy.constants
    · intro found other there ref refers'
      by_cases own : found = slot
      · subst own
        rw [here] at there
        cases there
        exact installed (lays.installed (refer.mp refers'))
      · rw [program, Program.code?_fill_ne own] at there
        exact installed (grew.tidy.installed found other there ref refers')
    · intro other found member
      rcases shared _ member with heq | member
      · cases heq
        exact ⟨nonempty, here⟩
      · obtain ⟨nonempty, there⟩ := grew.tidy.recorded other found member
        exact ⟨nonempty, kept there nonempty⟩

/-- The slot is given back because an equal code object is there already. -/
theorem grew_release (tidy : bench.Tidy) {existing : UInt32}
    (member : (code, existing) ∈ recorded.recorded) :
    (recorded.release slot).program.code? existing = some code ∧
      (recorded.release slot).program.Files head (body.Lays (recorded.release slot).program site)
        existing ∧
      ∀ all, bench.Grew (recorded.release slot) all := by
  have refer {ref : UInt32} (h : Op.Refer ops ref) : Op.Refer code.ops.toList ref := by
    rw [whole]
    exact h.mono (List.subset_append_left ..)
  have opened_size := opens.size
  have nonempty : code.ops ≠ #[] := fun empty => by simp [empty] at whole
  have there := (grew.tidy.recorded code existing member).2
  have older : existing.toNat < slot.toNat := by
    rw [opens.slot]
    by_cases inside : existing.toNat < opened.program.code.size
    · have differ : existing.toNat ≠ slot.toNat := fun heq =>
        opens.ne_slot grew there nonempty (UInt32.toNat.inj heq)
      rw [opens.slot] at differ
      omega
    · -- a unit inside this one lacks a reference that this one has
      obtain ⟨ref, refers, lacks⟩ := grew.fresh code existing member (Nat.le_of_not_lt inside)
      exact absurd (refer refers) lacks
  have program : (recorded.release slot).program = recorded.program.release slot := rfl
  have kept {found : UInt32} (inside : found.toNat < slot.toNat) :
      (recorded.release slot).program.code? found = recorded.program.code? found :=
    Program.code?_release inside
  have carries : recorded.program.Carries (recorded.release slot).program
      fun found => found.toNat < slot.toNat :=
    ⟨fun _ _ h => h, fun _ _ inside found _ => (kept inside).trans found,
      fun _ _ inside found _ refers => opens.old_refs grew tidy inside found refers⟩
  have laid := lays.carry carries fun ref refers =>
    opens.old_refs grew tidy older there (refer refers)
  refine ⟨(kept older).trans there, ⟨code, ops, (kept older).trans there, same, laid, whole⟩, fun all => ?_⟩
  have size : (recorded.release slot).program.code.size = bench.program.code.size := by
    have := grew.size
    rw [program, Program.size_release, opens.slot]
    omega
  have filtered {other : Code} {found : UInt32}
      (member : (other, found) ∈ (recorded.release slot).recorded) :
      found.toNat < slot.toNat ∧ (other, found) ∈ recorded.recorded := by
    obtain ⟨member, less⟩ := List.mem_filter.mp member
    exact ⟨by simpa [UInt32.lt_iff_toNat_lt] using less, member⟩
  refine {
    config := grew.config.trans opens.config, constants := ?constants
    size := Nat.le_of_eq size.symm, code := ?table, old := ?old, fresh := ?fresh, tidy := ?tidy }
  case constants =>
    intro position constant pooled
    refine grew.constants position constant ?_
    rw [opens.program]
    exact pooled
  case table =>
    intro found inside
    rw [kept (opens.slot ▸ inside), opens.code? grew inside]
  case old =>
    intro other found member inside
    exact opens.recorded ▸ grew.old other found (filtered member).2 (by omega)
  case fresh =>
    intro other found member outside
    have := (filtered member).1
    rw [opens.slot] at this
    omega
  case tidy =>
    refine ⟨grew.tidy.tables, grew.tidy.constants, ?_, ?_⟩
    · intro found other there ref refers
      have inside := Program.code?_release_lt there
      rw [kept inside] at there
      have before := opens.old_refs grew tidy inside there refers
      obtain ⟨target, there', nonempty⟩ := grew.tidy.installed found other there ref refers
      exact ⟨target, (kept before).trans there', nonempty⟩
    · intro other found member
      obtain ⟨inside, member⟩ := filtered member
      obtain ⟨nonempty, there⟩ := grew.tidy.recorded other found member
      exact ⟨nonempty, (kept inside).trans there⟩

/-- The code object of a closed unit gets its own slot or that of an equal one. -/
theorem ends_install_filed (tidy : bench.Tidy) (units : UnitStack (Option Recording))
    {failed : CompileError → Bench → Prop} :
    Ends (install slot code) { recorded with units }
      (fun installed closed => closed.program.code? installed = some code ∧
        closed.program.Files head (body.Lays closed.program site) installed ∧
        (recorded.sharing = false → installed = slot) ∧
        ∀ all, Op.Refer all installed → bench.Grew closed all) failed := by
  have inside : slot.toNat < recorded.program.code.size := Program.code?_lt (opens.waits grew)
  unfold Ends install
  cases sharing : recorded.sharing with
  | false =>
      simp only [Bool.false_eq_true, if_false, Program.install?, if_pos inside]
      obtain ⟨found, files, grown⟩ := grew_fill opens grew same whole lays
        { recorded with units, program := recorded.program.fill slot code } rfl rfl fun _ => .inr
      exact ⟨found, files, fun _ => trivial, fun all refers => (grown all refers).congr rfl rfl rfl⟩
  | true =>
      simp only [if_true]
      cases found : recorded.recorded.find? (·.1 = code) with
      | some entry =>
          obtain ⟨other, existing⟩ := entry
          obtain rfl : other = code := by simpa using List.find?_some found
          obtain ⟨found, files, grown⟩ := grew_release opens grew same whole lays tidy
            (List.mem_of_find?_eq_some found)
          exact ⟨found, files, (by cases ·), fun all _ => (grown all).congr rfl rfl rfl⟩
      | none =>
          simp only [Program.install?, if_pos inside]
          obtain ⟨found, files, grown⟩ := grew_fill opens grew same whole lays
            { recorded with
              units
              program := recorded.program.fill slot code
              recorded := (code, slot) :: recorded.recorded }
            rfl rfl fun _ => List.mem_cons.mp
          exact ⟨found, files, (by cases ·), fun all refers => (grown all refers).congr rfl rfl rfl⟩

end Close

end Bench

end BlockScript
