import Mathlib.Logic.Function.Basic
import BlockScript.Proofs.Backend.Scoped
import BlockScript.Proofs.Code.Lineage

/-!
# Lineages of bodies that are being recorded

A body gets its lineage when its unit opens: it goes outward over the open units to the first
that is not a block. What is recorded agrees with it, since the units around a body do not change
while it is open, and a yield is refused unless that unit is a method.
-/

namespace BlockScript

/-- The lineage of the innermost unit. -/
def lineageOf : List (OpenUnit (Option Recording)) → Lineage
  | [] => []
  | unit :: outer =>
    match unit.payload with
    | some ⟨slot, _⟩ => (slot, unit.kind) :: if unit.kind = .closure then lineageOf outer else []
    | none => []

/-- The bodies on a bench agree with the lineages of their slots. -/
structure Bench.Nested (lineage : UInt32 → Lineage) (bench : Bench) : Prop where
  sharing : bench.sharing = false
  limit : bench.config.maxPoolEntries ≤ UInt32.size
  fresh : bench.units.Fresh
  opened : ∀ unit outer, (unit :: outer) <:+ bench.units.units → ∃ slot builder,
    unit.payload = some ⟨slot, builder⟩ ∧ bench.program.Has slot ∧
      lineage slot = lineageOf (unit :: outer) ∧ builder.code.kind = unit.kind ∧
      builder.All (·.Nests bench.program lineage slot)
  installed : ∀ position code, bench.program.code? position = some code → code ≠ .placeholder →
    (∃ outer, lineage position = (position, code.kind) :: outer ∧
      (code.kind ≠ .closure → outer = [])) ∧
    ∀ op ∈ code.ops, op.Nests bench.program lineage position

/-- A bench after successful operations. Slots keep their lineages, and the first is the
script's. -/
structure Bench.Continues (lineage lineage' : UInt32 → Lineage) (bench bench' : Bench) : Prop where
  nested : bench'.Nested lineage'
  has : ∀ position, bench.program.Has position →
    bench'.program.Has position ∧ lineage' position = lineage position
  config : bench'.config = bench.config
  units : bench.units.Evolves (fun _ _ => True) bench'.units
  first : bench.program.code.size = 0 → bench'.program.code.size = 0 ∨ lineage' 0 = [(0, .script)]

namespace Builder

variable {builder builder' : Builder}

theorem kind_emit {operation : String} {op : Op} (run : builder.emit operation op = .ok builder') :
    builder'.code.kind = builder.code.kind := by
  obtain ⟨stack, -, rfl⟩ := emit_ok run
  rfl

theorem kind_emitTimes {operation : String} {op : Op} {count : Nat}
    (run : emitTimes operation op count builder = .ok builder') :
    builder'.code.kind = builder.code.kind := by
  induction count generalizing builder with
  | zero =>
      cases run
      rfl
  | succ count ih =>
      obtain ⟨middle, first, rest⟩ := Verifier.bind_ok run
      exact (ih rest).trans (kind_emit first)

theorem kind_finish {code : Code} (run : builder.finish = .ok code) :
    code.kind = builder.code.kind := by
  obtain ⟨surplus, popped, valued, closed, -, pops, pushes, closes, rfl⟩ := finish_ok run
  have kept : valued.code.kind = popped.code.kind := by
    rcases pushes with ⟨-, pushes⟩ | ⟨-, rfl⟩
    · exact kind_emit pushes
    · rfl
  exact (kind_emit closes).trans (kept.trans (kind_emitTimes pops))

end Builder

namespace Bench

variable {bench bench' bench'' : Bench} {lineage lineage' lineage'' : UInt32 → Lineage}
  {slot : UInt32} {builder builder' : Builder}

/-- A method is around the innermost unit exactly if its lineage ends with one. -/
theorem lineageOf_method (recorded : ∀ unit ∈ bench.units.units, ∃ recording,
      unit.payload = some recording) (inside : bench.units.insideMethod = true) :
    ∃ root, (lineageOf bench.units.units).getLast? = some (root, .method) := by
  unfold UnitStack.insideMethod at inside
  generalize bench.units.units = units at recorded inside
  induction units with
  | nil => cases inside
  | cons unit outer ih =>
      obtain ⟨⟨slot, builder⟩, payload⟩ := recorded unit (List.mem_cons_self ..)
      cases kind : unit.kind with
      | script => simp [kind] at inside
      | method => exact ⟨slot, by simp [lineageOf, payload, kind]⟩
      | closure =>
          have rest : (outer.takeWhile (·.kind ≠ .script)).any (·.kind = .method) = true := by
            simpa [kind] using inside
          obtain ⟨root, last⟩ := ih (fun unit member => recorded unit (List.mem_cons_of_mem _ member)) rest
          refine ⟨root, ?_⟩
          simp only [lineageOf, payload, kind, if_pos]
          rw [List.getLast?_cons, last]
          rfl

/-- A unit opens with a builder of its kind. -/
theorem opening_kind (bench : Bench) (kind : UnitKind) (name : String) (arity localCount : Nat)
    (locals : List String) :
    (bench.opening kind name arity localCount locals).code.kind = kind := by
  unfold opening
  dsimp only
  split <;> rfl

theorem Continues.refl (h : bench.Nested lineage) : bench.Continues lineage lineage bench :=
  ⟨h, fun _ has => ⟨has, rfl⟩, rfl, .refl (fun _ => trivial) _, .inl⟩

theorem Continues.trans (h₁ : bench.Continues lineage lineage' bench')
    (h₂ : bench'.Continues lineage' lineage'' bench'') :
    bench.Continues lineage lineage'' bench'' where
  nested := h₂.nested
  has position has := by
    obtain ⟨has', same⟩ := h₁.has position has
    obtain ⟨has'', same'⟩ := h₂.has position has'
    exact ⟨has'', same'.trans same⟩
  config := h₂.config.trans h₁.config
  units := h₁.units.trans (fun _ _ _ _ _ => trivial) h₂.units
  first empty := by
    rcases Nat.eq_zero_or_pos bench'.program.code.size with zero | positive
    · exact h₂.first zero
    · have script := (h₁.first empty).resolve_left (Nat.ne_of_gt positive)
      exact .inr ((h₂.has 0 (Program.has_iff.mpr positive)).2.trans script)

namespace Nested

variable (h : bench.Nested lineage)

include h

/-- What is known of the innermost recording. -/
theorem recording (found : bench.recording? = some ⟨slot, builder⟩) :
    bench.program.Has slot ∧ lineage slot = lineageOf bench.units.units ∧
      builder.All (·.Nests bench.program lineage slot) := by
  obtain ⟨unit, outer, hunits, hpayload⟩ := recording?_eq_some.mp found
  obtain ⟨slot', builder', hpayload', has, line, -, ops⟩ :=
    h.opened unit outer (hunits ▸ List.suffix_rfl)
  cases hpayload.symm.trans hpayload'
  exact ⟨has, hunits ▸ line, ops⟩

/-- Replacing the builder of the innermost recording by one that agrees. -/
theorem setBuilder (found : bench.recording? = some ⟨slot, builder⟩)
    (kind : builder'.code.kind = builder.code.kind)
    (ops : builder'.All (·.Nests bench.program lineage slot)) :
    bench.Continues lineage lineage (bench.setBuilder builder') := by
  obtain ⟨unit, outer, hunits, hpayload⟩ := recording?_eq_some.mp found
  have hset := setBuilder_units hunits hpayload builder'
  refine ⟨⟨h.sharing, h.limit, h.fresh.mapTop _, ?_, h.installed⟩, fun _ has => ⟨has, rfl⟩, rfl,
    UnitStack.evolves_mapTop (fun _ => trivial) hunits trivial, .inl⟩
  intro unit' outer' suffix
  rw [hset] at suffix
  rcases List.suffix_cons_iff.mp suffix with heq | suffix
  · cases heq
    obtain ⟨slot', builder'', hpayload', has, line, same, -⟩ :=
      h.opened unit outer (hunits ▸ List.suffix_rfl)
    cases hpayload.symm.trans hpayload'
    refine ⟨slot, builder', rfl, has, line.trans ?_, kind.trans same, ops⟩
    simp only [lineageOf, hpayload]
  · exact h.opened unit' outer' (hunits ▸ suffix.trans (List.suffix_cons ..))

/-- The pool says nothing about bodies. -/
theorem intern {constant : Constant} : Ensures (Bench.intern constant) bench fun _ bench' =>
    bench.Continues lineage lineage bench' ∧ bench'.units = bench.units ∧
      bench'.program.code = bench.program.code := by
  refine ensures_intern.mono ?_
  rintro position _ ⟨constants, -, rfl⟩
  have has : ∀ position, bench.program.Has position →
      Program.Has { bench.program with constants } position ∧ lineage position = lineage position :=
    fun position has => ⟨has, rfl⟩
  refine ⟨⟨⟨h.sharing, h.limit, h.fresh, ?_, ?_⟩, has, rfl, .refl (fun _ => trivial) _, .inl⟩,
    rfl, rfl⟩
  · intro unit outer suffix
    obtain ⟨slot, builder, payload, here, line, kind, ops⟩ := h.opened unit outer suffix
    exact ⟨slot, builder, payload, here, line, kind, fun op member => (ops op member).mono has here⟩
  · intro position code found filled
    obtain ⟨begins, ops⟩ := h.installed position code found filled
    exact ⟨begins, fun op member => (ops op member).mono has ⟨code, found⟩⟩

/-- A unit that opens gives its slot the lineage of the units, itself among them. -/
theorem openUnit {kind : UnitKind} {name : String} {arity localCount : Nat}
    {locals : List String} :
    Ensures (Bench.openUnit kind name arity localCount locals) bench fun handle bench' =>
      ∃ lineage' payload, bench'.Nested lineage' ∧
        ((bench.program.code.size = 0 → kind = .script) →
          bench.Continues lineage lineage' bench') ∧
        bench.units.open kind name payload = .ok (handle, bench'.units) := by
  refine ensures_opens.mono ?_
  rintro handle _ ⟨units, room, hopen, rfl⟩
  have limit := h.limit
  let slot := bench.program.code.size.toUInt32
  have hslot : slot.toNat = bench.program.code.size := Program.toNat_toUInt32 (by omega)
  have apart : ∀ position, bench.program.Has position → position ≠ slot := by
    rintro position has rfl
    rw [Program.has_iff, hslot] at has
    exact absurd has (Nat.lt_irrefl _)
  let inner : Lineage :=
    (slot, kind) :: if kind = .closure then lineageOf bench.units.units else []
  let lineage' := Function.update lineage slot inner
  have kept : ∀ position, bench.program.Has position →
      bench.program.reserve.2.Has position ∧ lineage' position = lineage position := by
    intro position has
    refine ⟨?_, Function.update_of_ne (apart position has) _ _⟩
    rw [Program.has_iff] at has ⊢
    rw [Program.size_reserve]
    omega
  have opened : Bench.Nested lineage' { bench with units, program := bench.program.reserve.2 } := by
    refine ⟨h.sharing, h.limit, h.fresh.open hopen, ?_, ?_⟩
    · intro unit outer suffix
      obtain ⟨-, rfl⟩ := UnitStack.open_ok hopen
      rcases List.suffix_cons_iff.mp suffix with heq | suffix
      · cases heq
        obtain ⟨ops, -⟩ := bench.opening_empty kind name arity localCount locals
        refine ⟨slot, _, rfl, ?_, Function.update_self .., opening_kind .., by simp [Builder.All, ops]⟩
        rw [Program.has_iff, hslot, Program.size_reserve]
        exact Nat.lt_succ_self _
      · obtain ⟨slot', builder', payload, has, line, same, ops⟩ := h.opened unit outer suffix
        exact ⟨slot', builder', payload, (kept slot' has).1, (kept slot' has).2.trans line, same,
          fun op member => (ops op member).mono kept has⟩
    · intro position code found filled
      have found : (bench.program.code.push .placeholder)[position.toNat]? = some code := found
      rw [Array.getElem?_push] at found
      split at found
      · exact absurd (Option.some.inj found).symm filled
      · obtain ⟨begins, ops⟩ := h.installed position code found filled
        rw [(kept position ⟨code, found⟩).2]
        exact ⟨begins, fun op member => (ops op member).mono kept ⟨code, found⟩⟩
  refine ⟨lineage', _, opened, fun script => ⟨opened, kept, rfl,
    UnitStack.evolves_open (fun _ => trivial) hopen, fun empty => .inr ?_⟩, hopen⟩
  have zero : slot = 0 := by
    apply UInt32.toNat_inj.mp
    rw [hslot, empty]
    rfl
  rw [← zero]
  refine (Function.update_self ..).trans ?_
  simp only [inner, script empty]
  rfl

/-- Closing a unit fills its slot with the body that was recorded. -/
theorem closeUnit {handle : UnitHandle} {kind : UnitKind} :
    Ensures (Bench.closeUnit handle kind) bench fun installed bench' =>
      bench.Continues lineage lineage bench' ∧ ∃ unit line, bench.program.Has installed ∧
        bench.units.close handle kind line = .ok (unit, bench'.units) ∧
        lineage installed =
          (installed, kind) :: if kind = .closure then lineageOf bench'.units.units else [] := by
  refine (ensures_closeUnit h.sharing).mono ?_
  rintro installed _
    ⟨unit, units, slot, builder, code, hclose, hpayload, hfinish, -, inside, heq, rfl⟩
  subst heq
  obtain ⟨-, -, hkind, hunits, -⟩ := UnitStack.close_ok hclose
  obtain ⟨slot', builder', hpayload', has, line, same, ops⟩ :=
    h.opened unit units.units (hunits ▸ List.suffix_rfl)
  cases hpayload.symm.trans hpayload'
  have all : ∀ op ∈ code.ops, op.Nests bench.program lineage installed :=
    Builder.All.finish ops (Op.Free.pop.nests ..) (Op.Free.pushNil.nests ..) (Op.Free.ret.nests ..)
      hfinish
  have kept : ∀ position, bench.program.Has position →
      (bench.program.fill installed code).Has position ∧ lineage position = lineage position := by
    intro position has
    refine ⟨?_, rfl⟩
    rw [Program.has_iff] at has ⊢
    rwa [Program.size_fill]
  have begins : ∃ outer, lineage installed = (installed, code.kind) :: outer ∧
      (code.kind ≠ .closure → outer = []) := by
    rw [line, Builder.kind_finish hfinish, same]
    simp only [lineageOf, hpayload]
    exact ⟨_, rfl, fun other => if_neg other⟩
  refine ⟨⟨⟨h.sharing, h.limit, h.fresh.close hclose, ?_, ?_⟩, kept, rfl,
    UnitStack.evolves_close (fun _ => trivial) hclose, ?_⟩, unit, _, has, hclose, ?_⟩
  · intro unit' outer suffix
    obtain ⟨slot', builder', payload, has, line, same, ops⟩ :=
      h.opened unit' outer (hunits ▸ suffix.trans (List.suffix_cons ..))
    exact ⟨slot', builder', payload, (kept slot' has).1, line, same,
      fun op member => (ops op member).mono kept has⟩
  · intro position found hfound filled
    rcases Program.fill_cases hfound with ⟨heq, rfl⟩ | ⟨-, hfound⟩
    · have heq : installed = position := UInt32.toNat_inj.mp heq
      rw [← heq]
      exact ⟨begins, fun op member => (all op member).mono kept has⟩
    · obtain ⟨begins, ops⟩ := h.installed position found hfound filled
      exact ⟨begins, fun op member => (ops op member).mono kept ⟨found, hfound⟩⟩
  · intro empty
    refine .inl ?_
    dsimp only
    rw [Program.size_fill, empty]
  · rw [line]
    simp only [lineageOf, hpayload, hkind]

/-- Appending an operation that agrees with the lineages. -/
theorem emit {operation : String} {op : Op}
    (nests : ∀ slot builder, bench.recording? = some ⟨slot, builder⟩ →
      op.Nests bench.program lineage slot) :
    Ensures (Bench.emit operation op) bench fun _ bench' =>
      bench.Continues lineage lineage bench' := by
  refine ensures_emit.mono ?_
  rintro _ _ ⟨slot, builder, builder', found, run, rfl⟩
  exact h.setBuilder found (Builder.kind_emit run)
    ((h.recording found).2.2.emit (nests slot builder found) run)

/-- Appending an operation on a constant, which is pooled first. -/
theorem emitPooled {operation : String} {constant : Constant} {op : UInt32 → Op}
    (nests : ∀ bench' position slot builder, bench.Continues lineage lineage bench' →
      bench'.units = bench.units → bench.recording? = some ⟨slot, builder⟩ →
        (op position).Nests bench'.program lineage slot) :
    Ensures (Bench.emitPooled operation constant op) bench fun _ bench' =>
      bench.Continues lineage lineage bench' := by
  refine ensures_target.bind ?_
  rintro builder bench ⟨rfl, slot, found⟩
  refine h.intern.bind ?_
  rintro position bench' ⟨continues, units, -⟩
  refine (continues.nested.emit fun slot builder found => ?_).mono fun _ _ => continues.trans
  exact nests bench' position slot builder continues units (by rwa [recording?, ← units])

theorem emitAlias {operation newName oldName : String} :
    Ensures (Bench.emitAlias operation newName oldName) bench fun _ bench' =>
      bench.Continues lineage lineage bench' := by
  refine ensures_target.bind ?_
  rintro builder bench ⟨rfl, slot, found⟩
  refine h.intern.bind ?_
  rintro new bench₁ ⟨first, -⟩
  refine first.nested.intern.bind ?_
  rintro old bench₂ ⟨second, -⟩
  have free : (Op.aliasMethod new old).Free := ⟨rfl, nofun⟩
  exact (second.nested.emit fun _ _ _ => free.nests ..).mono
    fun _ _ third => (first.trans second).trans third

/-- A yield is only recorded where a method is around. -/
theorem emitYield {operation : String} {hasArgs : Bool} :
    Ensures (Bench.emitYield operation hasArgs) bench fun _ bench' =>
      bench.Continues lineage lineage bench' := by
  refine Ensures.get (Ensures.ite (fun _ => ?_) fun inside => ?_)
  · exact Ensures.stop Ensures.throws
  · have recorded : ∀ unit ∈ bench.units.units, ∃ recording, unit.payload = some recording := by
      intro unit member
      obtain ⟨inner, outer, units⟩ := List.append_of_mem member
      obtain ⟨slot, builder, payload, -⟩ := h.opened unit outer ⟨inner, units.symm⟩
      exact ⟨_, payload⟩
    obtain ⟨root, last⟩ := lineageOf_method recorded (by simpa using inside)
    refine ensures_target.bind ?_
    rintro builder bench ⟨rfl, slot, found⟩
    refine h.emit fun slot builder found => ⟨nofun, nofun, nofun, fun argc _ => ⟨root, ?_⟩⟩
    rwa [(h.recording found).2.1]

theorem emitLocal {operation : String} {index depth : Nat} {assign : Bool} :
    Ensures (Bench.emitLocal operation index depth assign) bench fun _ bench' =>
      bench.Continues lineage lineage bench' := by
  refine ensures_checkScopeDepth.bind ?_
  rintro _ bench ⟨rfl, -⟩
  have free : (localOp index depth assign).Free := by
    refine ⟨codeRef?_localOp .., ?_⟩
    cases assign <;> simp only [localOp] <;> split <;> rintro _ ⟨⟩
  exact h.emit fun _ _ _ => free.nests ..

theorem setLine {line : UInt32} : Ensures (Bench.setLine line) bench fun _ bench' =>
    bench.Continues lineage lineage bench' := by
  refine ensures_target.bind ?_
  rintro builder bench ⟨rfl, slot, found⟩
  refine (ensures_modifyBuilder found _).mono ?_
  rintro _ _ rfl
  exact h.setBuilder found rfl (h.recording found).2.2

theorem line (line : Option UInt32) : bench.Continues lineage lineage { bench with line } :=
  ⟨⟨h.sharing, h.limit, h.fresh, h.opened, h.installed⟩, fun _ has => ⟨has, rfl⟩, rfl,
    .refl (fun _ => trivial) _, .inl⟩

/-- Operations without nested code refer to no body, and yield where they may. -/
theorem emitPrimitive (p : Primitive) : Ensures (Bench.emitPrimitive p) bench fun _ bench' =>
    bench.Continues lineage lineage bench' := by
  have plain {operation : String} {op : Op} (free : op.Free) :
      Ensures (Bench.emit operation op) bench fun _ bench' =>
        bench.Continues lineage lineage bench' := h.emit fun _ _ _ => free.nests ..
  have pooled {operation : String} {constant : Constant} {op : UInt32 → Op}
      (free : ∀ position, (op position).Free) :
      Ensures (Bench.emitPooled operation constant op) bench fun _ bench' =>
        bench.Continues lineage lineage bench' :=
    h.emitPooled fun _ position _ _ _ _ _ => (free position).nests ..
  cases p with
  | consume | retrieveSelf | fixnum | toArray | loadFalse | loadTrue | loadNil | negate =>
      exact plain ⟨rfl, nofun⟩
  | line line =>
      refine h.setLine.bind ?_
      rintro _ bench' continues
      exact Ensures.modifies (continues.trans (continues.nested.line _))
  | yield hasArgs => exact h.emitYield
  | assignLocal | retrieveLocal => exact h.emitLocal
  | aliasMethod newName oldName => exact h.emitAlias
  | bignum | string | symbol | retrieveConstant | assignConstant | retrieveIvar | assignIvar
  | assignGlobal | retrieveGlobal => exact pooled fun _ => ⟨rfl, nofun⟩

/-- Appending a call, with a block that lies directly inside the unit. -/
theorem emitSend {operation name : String} {shape : Invocation} {block : Option UInt32}
    (inside : ∀ code, block = some code → bench.program.Has code ∧
      lineage code = (code, .closure) :: lineageOf bench.units.units) :
    Ensures (Bench.emitSend operation name shape block) bench fun _ bench' =>
      bench.Continues lineage lineage bench' ∧ bench.recording?.isSome := by
  refine ensures_target.bind ?_
  rintro builder bench ⟨rfl, slot, found⟩
  refine h.intern.bind ?_
  rintro position bench₁ ⟨first, units, -⟩
  refine (first.nested.emit fun slot builder found => ?_).mono
    fun _ _ second => ⟨first.trans second, by rw [found]; rfl⟩
  refine ⟨fun code same => (first.has code (inside code same).1).1, fun code same => ?_, nofun, nofun⟩
  rw [(first.nested.recording found).2.1, units]
  exact (inside code same).2

end Nested

end Bench

end BlockScript
