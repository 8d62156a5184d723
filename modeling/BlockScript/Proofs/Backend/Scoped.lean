import Mathlib.Logic.Function.Basic
import BlockScript.Proofs.Backend.BenchSteps
import BlockScript.Proofs.Machine.StackSafety

/-!
# Benches whose operations find what they refer to

While a program is recorded, every slot of the code table has a reach: the number of closure
units in a row that ended in its unit when that was opened. On a scoped bench every recorded
operation fits the reach of its unit: its constants are pooled with the kind it needs, it
looks no further outward than the reach, and the code it refers to is content with it. The
operations of a bench keep it scoped, since a unit's surroundings do not change while it is
open and the pool and the table only grow.
-/

namespace BlockScript

/-- The operation finds what it refers to when `around` frames lie around its own. -/
structure Op.Fits (program : Program) (reach : UInt32 → Nat) (around : Nat) (op : Op) :
    Prop where
  pooled : op.Pooled program.constants
  outward : op.outward ≤ around
  links : op.Links program reach around

/-- An operation that refers to nothing. -/
def Op.Plain (op : Op) : Prop := ∀ program reach around, op.Fits program reach around

/-- The reach of slots that were claimed and the constants that were pooled stay. -/
structure Program.Extends (reach reach' : UInt32 → Nat) (program program' : Program) : Prop where
  has : ∀ position, program.Has position → program'.Has position ∧ reach' position = reach position
  pool : ∀ position constant, program.constants.get? position = some constant →
    program'.constants.get? position = some constant

/-- The number of closures in a row that end with the innermost of these units. -/
def enclosing {α : Type} (units : List (OpenUnit α)) : Nat :=
  (units.takeWhile (·.kind = .closure)).length

/-- Every recorded operation finds what it refers to. -/
structure Bench.Scoped (reach : UInt32 → Nat) (bench : Bench) : Prop where
  sharing : bench.sharing = false
  limit : bench.config.maxPoolEntries ≤ UInt32.size
  constants : bench.program.constants.size ≤ bench.config.maxPoolEntries
  fresh : bench.units.Fresh
  opened : ∀ unit outer, (unit :: outer) <:+ bench.units.units → ∃ slot builder,
    unit.payload = some ⟨slot, builder⟩ ∧ bench.program.Has slot ∧
      reach slot = enclosing (unit :: outer) ∧
      ∀ op ∈ builder.code.ops, op.Fits bench.program reach (reach slot)
  installed : ∀ position code, bench.program.code? position = some code →
    ∀ op ∈ code.ops, op.Fits bench.program reach (reach position)

/-- A bench after successful operations. -/
structure Bench.Extends (reach reach' : UInt32 → Nat) (bench bench' : Bench) : Prop where
  fits : bench'.Scoped reach'
  program : bench.program.Extends reach reach' bench'.program
  config : bench'.config = bench.config
  units : bench.units.Evolves (fun _ _ => True) bench'.units

/-! ## Programs that grow -/

namespace Program

variable {program program' program'' : Program} {reach reach' reach'' : UInt32 → Nat}

theorem has_iff {position : UInt32} : program.Has position ↔ position.toNat < program.code.size :=
  ⟨fun ⟨_, h⟩ => (Array.getElem?_eq_some_iff.mp h).1, has_of_lt⟩

theorem Extends.refl : program.Extends reach reach program :=
  ⟨fun _ h => ⟨h, rfl⟩, fun _ _ h => h⟩

theorem Extends.trans (h₁ : program.Extends reach reach' program')
    (h₂ : program'.Extends reach' reach'' program'') : program.Extends reach reach'' program'' where
  has position h := by
    obtain ⟨h', heq⟩ := h₁.has position h
    obtain ⟨h'', heq'⟩ := h₂.has position h'
    exact ⟨h'', heq'.trans heq⟩
  pool position constant h := h₂.pool position constant (h₁.pool position constant h)

theorem Extends.size_pos (h : program.Extends reach reach' program')
    (positive : 0 < program.code.size) : 0 < program'.code.size := by
  have := has_iff.mp (h.has 0 (has_iff.mpr positive)).1
  simpa using this

end Program

/-- Constants that are pooled stay of the kind that an operation needs. -/
theorem Op.Pooled.mono {pool pool' : Pool} {op : Op} (h : op.Pooled pool)
    (kept : ∀ position constant, pool.get? position = some constant →
      pool'.get? position = some constant) : op.Pooled pool' := by
  have text (position : UInt32) (found : ∃ text, pool.text? position = some text) :
      ∃ text, pool'.text? position = some text := by
    obtain ⟨text, found⟩ := found
    refine ⟨text, ?_⟩
    unfold Pool.text? at found ⊢
    cases hget : pool.get? position with
    | none => simp [hget] at found
    | some constant => rw [kept position constant hget, ← hget, found]
  cases op with
  | pushBignum constant =>
      obtain ⟨n, hn⟩ := h
      exact ⟨n, kept constant _ hn⟩
  | aliasMethod new old => exact ⟨text new h.1, text old h.2⟩
  | pushString | pushSymbol | getIvar | setIvar | getGlobal | setGlobal | getConst | setConst
  | send | defineMethod => exact text _ h
  | _ => trivial

/-- What an operation refers to is still there in a program that grew. -/
theorem Op.Fits.mono {program program' : Program} {reach reach' : UInt32 → Nat} {around : Nat}
    {op : Op} (h : op.Fits program reach around)
    (grows : program.Extends reach reach' program') : op.Fits program' reach' around where
  pooled := h.pooled.mono grows.pool
  outward := h.outward
  links := by
    have block : ∀ code, program.Has code ∧ reach code ≤ around + 1 →
        program'.Has code ∧ reach' code ≤ around + 1 := by
      rintro code ⟨has, le⟩
      obtain ⟨has', heq⟩ := grows.has code has
      exact ⟨has', heq ▸ le⟩
    have links := h.links
    cases op with
    | makeClosure code => exact block code links
    | send name argc receiver target => exact fun code hcode => block code (links code hcode)
    | defineMethod name code =>
        obtain ⟨has', heq⟩ := grows.has code links.1
        exact ⟨has', heq.trans links.2⟩
    | _ => trivial

/-! ## Interning -/

namespace Pool

variable {pool pool' : Pool} {constant : Constant}

theorem lastBelow_some {entries : Array Constant} {bound position : Nat}
    (h : lastBelow entries constant bound = some position) :
    entries[position]? = some constant := by
  induction bound with
  | zero => cases h
  | succ bound ih =>
      unfold lastBelow at h
      split at h
      · cases h
        assumption
      · exact ih h

/-- Interning keeps the constants that were pooled, and pools this one. -/
theorem intern_ok {limit : Nat} {position : UInt32}
    (h : pool.intern constant limit = .ok (position, pool')) (limit_le : limit ≤ UInt32.size)
    (size_le : pool.size ≤ limit) :
    pool'.size ≤ limit ∧ pool'.get? position = some constant ∧
      ∀ p c, pool.get? p = some c → pool'.get? p = some c := by
  unfold intern at h
  split at h
  · rename_i found hfind
    cases h
    have hfound := lastBelow_some hfind
    have inside : found < UInt32.size :=
      Nat.lt_of_lt_of_le (Array.getElem?_eq_some_iff.mp hfound).1 (Nat.le_trans size_le limit_le)
    refine ⟨size_le, ?_, fun _ _ h => h⟩
    rw [get?, Program.toNat_toUInt32 inside]
    exact hfound
  · split at h
    · rename_i room
      cases h
      have inside : pool.entries.size < UInt32.size := Nat.lt_of_lt_of_le room limit_le
      refine ⟨by simpa [size] using Nat.succ_le_of_lt room, ?_, ?_⟩
      · rw [get?, size, Program.toNat_toUInt32 inside]
        simp
      · intro p c hp
        have := (Array.getElem?_eq_some_iff.mp hp).1
        rw [get?, Array.getElem?_push_lt this]
        exact (Array.getElem?_eq_some_iff.mp hp).2 ▸ rfl
    · cases h

end Pool

/-! ## Builders -/

namespace Builder

/-- All recorded operations have a property. -/
def All (p : Op → Prop) (builder : Builder) : Prop := ∀ op ∈ builder.code.ops, p op

variable {p : Op → Prop} {builder builder' : Builder}

theorem All.emit (h : builder.All p) {operation : String} {op : Op} (new : p op)
    (run : builder.emit operation op = .ok builder') : builder'.All p := by
  obtain ⟨stack, -, rfl⟩ := emit_ok run
  intro other member
  rcases Array.mem_push.mp member with member | rfl
  · exact h other member
  · exact new

theorem All.emitJump (h : builder.All p) {operation : String} {kind : JumpKind}
    (jumps : ∀ offset, p (kind.op offset)) {patch : JumpPatch}
    (run : builder.emitJump operation kind = .ok (patch, builder')) : builder'.All p :=
  h.emit (jumps 0) (emitJump_ok run).2

theorem All.patchHere (h : builder.All p) {patch : JumpPatch}
    (jumps : ∀ offset, p (patch.kind.op offset)) : (builder.patchHere patch).All p := by
  rw [patchHere_eq]
  intro other member
  rcases Array.mem_or_eq_of_mem_setIfInBounds member with member | rfl
  · exact h other member
  · exact jumps _

theorem All.emitTimes (h : builder.All p) {operation : String} {op : Op} (new : p op)
    {count : Nat} (run : emitTimes operation op count builder = .ok builder') :
    builder'.All p := by
  induction count generalizing builder with
  | zero =>
      cases run
      exact h
  | succ count ih =>
      obtain ⟨middle, first, rest⟩ := Verifier.bind_ok run
      exact ih (h.emit new first) rest

/-- A finished unit ends with a return of one value. -/
theorem All.finish (h : builder.All p) (pop : p .pop) (pushNil : p .pushNil) (ret : p .ret)
    {code : Code} (run : builder.finish = .ok code) : ∀ op ∈ code.ops, p op := by
  obtain ⟨surplus, popped, valued, closed, -, hpopped, hvalued, hclosed, rfl⟩ := finish_ok run
  have all := h.emitTimes pop hpopped
  refine All.emit ?_ ret hclosed
  rcases hvalued with ⟨-, hvalued⟩ | ⟨-, rfl⟩
  · exact all.emit pushNil hvalued
  · exact all

end Builder

theorem Op.Plain.dup : Op.dup.Plain := fun _ _ _ => ⟨trivial, Nat.zero_le _, trivial⟩

theorem Op.Plain.pop : Op.pop.Plain := fun _ _ _ => ⟨trivial, Nat.zero_le _, trivial⟩

theorem Op.Plain.pushNil : Op.pushNil.Plain := fun _ _ _ => ⟨trivial, Nat.zero_le _, trivial⟩

theorem Op.Plain.ret : Op.ret.Plain := fun _ _ _ => ⟨trivial, Nat.zero_le _, trivial⟩

theorem Op.Plain.yield (argc : UInt32) : (Op.yield argc).Plain :=
  fun _ _ _ => ⟨trivial, Nat.zero_le _, trivial⟩

theorem Op.Plain.makeArray (count : UInt32) : (Op.makeArray count).Plain :=
  fun _ _ _ => ⟨trivial, Nat.zero_le _, trivial⟩

theorem Op.plain_jump (kind : JumpKind) (offset : Int32) : (kind.op offset).Plain := by
  intro program reach around
  cases kind <;> exact ⟨trivial, Nat.zero_le _, trivial⟩

/-! ## Benches -/

theorem enclosing_cons {α : Type} (unit : OpenUnit α) (outer : List (OpenUnit α)) :
    enclosing (unit :: outer) = if unit.kind = .closure then enclosing outer + 1 else 0 := by
  by_cases h : unit.kind = .closure <;> simp [enclosing, h]

namespace Bench

variable {bench bench' bench'' : Bench} {reach reach' reach'' : UInt32 → Nat}
  {slot : UInt32} {builder builder' : Builder}

theorem Extends.refl (h : bench.Scoped reach) : bench.Extends reach reach bench :=
  ⟨h, .refl, rfl, .refl (fun _ => trivial) _⟩

theorem Extends.trans (h₁ : bench.Extends reach reach' bench')
    (h₂ : bench'.Extends reach' reach'' bench'') : bench.Extends reach reach'' bench'' :=
  ⟨h₂.fits, h₁.program.trans h₂.program, h₂.config.trans h₁.config,
    h₁.units.trans (fun _ _ _ _ _ => trivial) h₂.units⟩

/-- An access to a local looks no further outward than it says. -/
theorem outward_localOp (index depth : Nat) (assign : Bool) :
    (localOp index depth assign).outward ≤ depth := by
  have cut : depth.toUInt32.toNat ≤ depth := by
    rw [Nat.toUInt32_eq, UInt32.toNat_ofNat']
    exact Nat.mod_le _ _
  cases assign <;> simp only [localOp] <;> split
  · exact Nat.zero_le _
  · exact cut
  · exact Nat.zero_le _
  · exact cut

theorem pooled_localOp (index depth : Nat) (assign : Bool) (pool : Pool) :
    (localOp index depth assign).Pooled pool := by
  cases assign <;> simp only [localOp] <;> split <;> trivial

theorem codeRef?_localOp (index depth : Nat) (assign : Bool) :
    (localOp index depth assign).codeRef? = none := by
  cases assign <;> simp only [localOp] <;> split <;> rfl

namespace Scoped

variable (h : bench.Scoped reach)

include h

/-- What is known of the innermost recording. -/
theorem recording (found : bench.recording? = some ⟨slot, builder⟩) :
    bench.program.Has slot ∧ reach slot = bench.units.reachableDepth ∧
      builder.All fun op => op.Fits bench.program reach (reach slot) := by
  obtain ⟨unit, outer, hunits, hpayload⟩ := recording?_eq_some.mp found
  obtain ⟨slot', builder', hpayload', has, hreach, ops⟩ :=
    h.opened unit outer (hunits ▸ List.suffix_rfl)
  cases hpayload.symm.trans hpayload'
  refine ⟨has, hreach.trans ?_, ops⟩
  rw [UnitStack.reachableDepth, hunits]
  rfl

/-- Replacing the builder of the innermost recording by one that fits. -/
theorem setBuilder (found : bench.recording? = some ⟨slot, builder⟩)
    (ops : builder'.All fun op => op.Fits bench.program reach (reach slot)) :
    bench.Extends reach reach (bench.setBuilder builder') := by
  obtain ⟨unit, outer, hunits, hpayload⟩ := recording?_eq_some.mp found
  have hset := setBuilder_units hunits hpayload builder'
  refine ⟨⟨h.sharing, h.limit, h.constants, h.fresh.mapTop _, ?_, h.installed⟩, .refl, rfl,
    UnitStack.evolves_mapTop (fun _ => trivial) hunits trivial⟩
  intro unit' outer' suffix
  rw [hset] at suffix
  rcases List.suffix_cons_iff.mp suffix with heq | suffix
  · cases heq
    obtain ⟨slot', builder'', hpayload', has, hreach, -⟩ :=
      h.opened unit outer (hunits ▸ List.suffix_rfl)
    cases hpayload.symm.trans hpayload'
    rw [enclosing_cons] at hreach
    exact ⟨slot, builder', rfl, has, by rw [enclosing_cons, hreach], ops⟩
  · exact h.opened unit' outer' (hunits ▸ suffix.trans (List.suffix_cons ..))

/-- The pool may grow. -/
theorem intern {constant : Constant} : Ensures (intern constant) bench fun position bench' =>
    bench.Extends reach reach bench' ∧ bench'.units = bench.units ∧
      bench'.program.constants.get? position = some constant := by
  refine ensures_intern.mono ?_
  rintro position _ ⟨constants, run, rfl⟩
  obtain ⟨room, pooled, kept⟩ := Pool.intern_ok run h.limit h.constants
  have grows : bench.program.Extends reach reach { bench.program with constants } :=
    ⟨fun _ has => ⟨has, rfl⟩, kept⟩
  refine ⟨⟨⟨h.sharing, h.limit, room, h.fresh, ?_, ?_⟩, grows, rfl,
    .refl (fun _ => trivial) _⟩, rfl, pooled⟩
  · intro unit outer suffix
    obtain ⟨slot, builder, hpayload, has, hreach, ops⟩ := h.opened unit outer suffix
    exact ⟨slot, builder, hpayload, has, hreach, fun op hop => (ops op hop).mono grows⟩
  · intro position code hcode op hop
    exact (h.installed position code hcode op hop).mono grows

/-- Opening a unit gives its slot the reach of the units around it. -/
theorem openUnit {kind : UnitKind} {name : String} {arity localCount : Nat}
    {locals : List String} : Ensures (openUnit kind name arity localCount locals) bench
    fun handle bench' => ∃ reach' payload, bench.Extends reach reach' bench' ∧
      bench.units.open kind name payload = .ok (handle, bench'.units) ∧
      0 < bench'.program.code.size ∧
      (bench.program.code.size = 0 → kind ≠ .closure → reach' 0 = 0) := by
  refine ensures_openUnit.mono ?_
  rintro handle _ ⟨builder, units, room, ops, -, hopen, rfl⟩
  have limit := h.limit
  let slot := bench.program.code.size.toUInt32
  have hslot : slot.toNat = bench.program.code.size := Program.toNat_toUInt32 (by omega)
  have fresh : ∀ position, bench.program.Has position → position ≠ slot := by
    rintro position has rfl
    rw [Program.has_iff, hslot] at has
    exact absurd has (Nat.lt_irrefl _)
  let reach' := Function.update reach slot
    (if kind = .closure then enclosing bench.units.units + 1 else 0)
  have old : ∀ position, bench.program.Has position → reach' position = reach position :=
    fun position has => Function.update_of_ne (fresh position has) _ _
  have grown : ∀ position, bench.program.Has position → bench.program.reserve.2.Has position := by
    intro position has
    rw [Program.has_iff] at has ⊢
    rw [Program.size_reserve]
    omega
  have grows : bench.program.Extends reach reach' bench.program.reserve.2 :=
    ⟨fun position has => ⟨grown position has, old position has⟩, fun _ _ found => found⟩
  have positive : 0 < bench.program.reserve.2.code.size := by
    rw [Program.size_reserve]
    exact Nat.succ_pos _
  refine ⟨reach', _, ⟨⟨h.sharing, h.limit, h.constants, h.fresh.open hopen, ?_, ?_⟩, grows, rfl,
    UnitStack.evolves_open (fun _ => trivial) hopen⟩, hopen, positive, ?_⟩
  · intro unit outer suffix
    obtain ⟨-, rfl⟩ := UnitStack.open_ok hopen
    rcases List.suffix_cons_iff.mp suffix with heq | suffix
    · cases heq
      refine ⟨slot, builder, rfl, ?_, ?_, by simp [ops]⟩
      · rw [Program.has_iff, hslot, Program.size_reserve]
        exact Nat.lt_succ_self _
      · rw [enclosing_cons]
        exact Function.update_self ..
    · obtain ⟨slot', builder', hpayload, has, hreach, fits⟩ := h.opened unit outer suffix
      rw [← old slot' has] at hreach fits
      exact ⟨slot', builder', hpayload, grown slot' has, hreach,
        fun op hop => (fits op hop).mono grows⟩
  · intro position code hcode op hop
    have hcode : (bench.program.code.push .placeholder)[position.toNat]? = some code := hcode
    rw [Array.getElem?_push] at hcode
    split at hcode
    · cases hcode
      simp [Code.placeholder] at hop
    · rw [old position ⟨code, hcode⟩]
      exact (h.installed position code hcode op hop).mono grows
  · intro empty noClosure
    have : slot = 0 := by
      apply UInt32.toNat_inj.mp
      rw [hslot, empty]
      rfl
    simp only [reach', this, Function.update_self, if_neg noClosure]

/-- Closing a unit fills its slot with operations that fit. -/
theorem closeUnit {handle : UnitHandle} {kind : UnitKind} :
    Ensures (closeUnit handle kind) bench fun installed bench' =>
      bench.Extends reach reach bench' ∧ ∃ unit line, bench.program.Has installed ∧
        bench.units.close handle kind line = .ok (unit, bench'.units) ∧
        reach installed = enclosing bench.units.units := by
  refine (ensures_closeUnit h.sharing).mono ?_
  rintro installed _
    ⟨unit, units, slot, builder, code, hclose, hpayload, hfinish, -, inside, heq, rfl⟩
  subst heq
  obtain ⟨-, -, -, hunits, -⟩ := UnitStack.close_ok hclose
  obtain ⟨slot', builder', hpayload', has, hreach, ops⟩ :=
    h.opened unit units.units (hunits ▸ List.suffix_rfl)
  cases hpayload.symm.trans hpayload'
  have all : ∀ op ∈ code.ops, op.Fits bench.program reach (reach installed) :=
    Builder.All.finish ops (Op.Plain.pop _ _ _) (Op.Plain.pushNil _ _ _) (Op.Plain.ret _ _ _) hfinish
  have grows : bench.program.Extends reach reach (bench.program.fill installed code) := by
    refine ⟨fun position has => ⟨?_, rfl⟩, fun _ _ found => found⟩
    rw [Program.has_iff] at has ⊢
    simpa [Program.fill] using has
  refine ⟨⟨⟨h.sharing, h.limit, h.constants, h.fresh.close hclose, ?_, ?_⟩, grows, rfl,
    UnitStack.evolves_close (fun _ => trivial) hclose⟩, unit, _, has, hclose, ?_⟩
  · intro unit' outer suffix
    obtain ⟨slot', builder', hpayload, has, hreach, fits⟩ :=
      h.opened unit' outer (hunits ▸ suffix.trans (List.suffix_cons ..))
    exact ⟨slot', builder', hpayload, (grows.has slot' has).1, hreach,
      fun op hop => (fits op hop).mono grows⟩
  · intro position found hfound op hop
    rcases Program.fill_cases hfound with ⟨heq, rfl⟩ | ⟨-, hfound⟩
    · have heq : installed = position := UInt32.toNat_inj.mp heq
      rw [← heq]
      exact (all op hop).mono grows
    · exact (h.installed position found hfound op hop).mono grows
  · rw [hreach, hunits]

/-- A recording has a slot, so the table is not empty. -/
theorem size_pos (found : bench.recording? = some ⟨slot, builder⟩) :
    0 < bench.program.code.size :=
  Nat.lt_of_le_of_lt (Nat.zero_le _) (Program.has_iff.mp (h.recording found).1)

/-- Appending an operation that fits. -/
theorem emit {operation : String} {op : Op}
    (fits : ∀ slot builder, bench.recording? = some ⟨slot, builder⟩ →
      op.Fits bench.program reach (reach slot)) :
    Ensures (emit operation op) bench fun _ bench' =>
      bench.Extends reach reach bench' ∧ 0 < bench.program.code.size := by
  refine ensures_emit.mono ?_
  rintro _ _ ⟨slot, builder, builder', found, run, rfl⟩
  exact ⟨h.setBuilder found ((h.recording found).2.2.emit (fits slot builder found) run),
    h.size_pos found⟩

/-- Appending an operation on a constant, which is pooled first. -/
theorem emitPooled {operation : String} {constant : Constant} {op : UInt32 → Op}
    (fits : ∀ program position around, bench.program.Extends reach reach program →
      program.constants.get? position = some constant → (op position).Fits program reach around) :
    Ensures (emitPooled operation constant op) bench fun _ bench' =>
      bench.Extends reach reach bench' ∧ 0 < bench.program.code.size := by
  refine ensures_target.bind ?_
  rintro builder bench ⟨rfl, slot, found⟩
  refine h.intern.bind ?_
  rintro position bench' ⟨grows, -, pooled⟩
  exact (grows.fits.emit fun _ _ _ => fits _ position _ grows.program pooled).mono
    fun _ _ ⟨grows', _⟩ => ⟨grows.trans grows', h.size_pos found⟩

theorem emitAlias {operation newName oldName : String} :
    Ensures (emitAlias operation newName oldName) bench fun _ bench' =>
      bench.Extends reach reach bench' ∧ 0 < bench.program.code.size := by
  refine ensures_target.bind ?_
  rintro builder bench ⟨rfl, slot, found⟩
  refine h.intern.bind ?_
  rintro new bench₁ ⟨grows₁, -, pooled₁⟩
  refine grows₁.fits.intern.bind ?_
  rintro old bench₂ ⟨grows₂, -, pooled₂⟩
  have newText : bench₂.program.constants.text? new = some newName := by
    rw [Pool.text?, grows₂.program.pool new _ pooled₁]
    rfl
  have oldText : bench₂.program.constants.text? old = some oldName := by
    rw [Pool.text?, pooled₂]
    rfl
  refine (grows₂.fits.emit fun _ _ _ => ?_).mono
    fun _ _ ⟨grows₃, _⟩ => ⟨(grows₁.trans grows₂).trans grows₃, h.size_pos found⟩
  exact ⟨⟨⟨newName, newText⟩, oldName, oldText⟩, Nat.zero_le _, trivial⟩

/-- Appending a call, with a block whose code is content with the frames around it. -/
theorem emitSend {operation name : String} {shape : Invocation} {block : Option UInt32}
    (links : ∀ code, block = some code →
      bench.program.Has code ∧ reach code ≤ bench.units.reachableDepth + 1) :
    Ensures (emitSend operation name shape block) bench fun _ bench' =>
      bench.Extends reach reach bench' ∧ bench.recording?.isSome := by
  refine ensures_target.bind ?_
  rintro builder bench ⟨rfl, slot, found⟩
  refine h.intern.bind ?_
  rintro position bench₁ ⟨grows₁, units, pooled⟩
  have text : bench₁.program.constants.text? position = some name := by
    rw [Pool.text?, pooled]
    rfl
  refine (grows₁.fits.emit fun slot builder found => ?_).mono
    fun _ _ ⟨grows₂, _⟩ => ⟨grows₁.trans grows₂, by rw [found]; rfl⟩
  refine ⟨⟨name, text⟩, Nat.zero_le _, fun code hcode => ?_⟩
  obtain ⟨has, le⟩ := links code hcode
  rw [(grows₁.fits.recording found).2.1, units]
  exact ⟨(grows₁.program.has code has).1, le⟩

theorem emitYield {operation : String} {hasArgs : Bool} :
    Ensures (emitYield operation hasArgs) bench fun _ bench' =>
      bench.Extends reach reach bench' ∧ 0 < bench.program.code.size := by
  refine Ensures.get (Ensures.ite (fun _ => ?_) fun _ => ?_)
  · exact Ensures.stop Ensures.throws
  · refine ensures_target.bind ?_
    rintro builder bench ⟨rfl, slot, found⟩
    exact h.emit fun _ _ _ => Op.Plain.yield _ _ _ _

/-- A local is looked for no further outward than there are closures around. -/
theorem emitLocal {operation : String} {index depth : Nat} {assign : Bool} :
    Ensures (emitLocal operation index depth assign) bench fun _ bench' =>
      bench.Extends reach reach bench' ∧ 0 < bench.program.code.size := by
  refine ensures_checkScopeDepth.bind ?_
  rintro _ bench ⟨rfl, reachable⟩
  refine h.emit fun slot builder found => ⟨pooled_localOp .., ?_, ?_⟩
  · rw [(h.recording found).2.1]
    exact Nat.le_trans (outward_localOp ..) reachable
  · cases assign <;> simp only [localOp] <;> split <;> trivial

theorem setLine {line : UInt32} : Ensures (setLine line) bench fun _ bench' =>
    bench.Extends reach reach bench' ∧ 0 < bench.program.code.size := by
  refine ensures_target.bind ?_
  rintro builder bench ⟨rfl, slot, found⟩
  refine (ensures_modifyBuilder found _).mono ?_
  rintro _ _ rfl
  exact ⟨h.setBuilder found (h.recording found).2.2, h.size_pos found⟩

theorem line (line : Option UInt32) : bench.Extends reach reach { bench with line } :=
  ⟨⟨h.sharing, h.limit, h.constants, h.fresh, h.opened, h.installed⟩, .refl, rfl,
    .refl (fun _ => trivial) _⟩

/-- Every operation without nested code fits. -/
theorem emitPrimitive (p : Primitive) : Ensures (emitPrimitive p) bench fun _ bench' =>
    bench.Extends reach reach bench' ∧ 0 < bench.program.code.size := by
  have text : ∀ {program : Program} {position : UInt32} {constant : Constant} {text : String},
      program.constants.get? position = some constant → constant.text? = some text →
      ∃ text, program.constants.text? position = some text := by
    intro program position constant text pooled htext
    exact ⟨text, by rw [Pool.text?, pooled]; exact htext⟩
  cases p with
  | consume | retrieveSelf | fixnum | toArray | loadFalse | loadTrue | loadNil | negate =>
      refine h.emit fun _ _ _ => ?_
      exact ⟨trivial, Nat.zero_le _, trivial⟩
  | line line =>
      refine h.setLine.bind ?_
      rintro _ bench' ⟨grows, positive⟩
      exact Ensures.modifies ⟨grows.trans (grows.fits.line _), positive⟩
  | yield hasArgs => exact h.emitYield
  | assignLocal | retrieveLocal => exact h.emitLocal
  | aliasMethod newName oldName => exact h.emitAlias
  | bignum value =>
      exact h.emitPooled fun _ _ _ _ pooled => ⟨⟨value, pooled⟩, Nat.zero_le _, trivial⟩
  | string | symbol | retrieveConstant | assignConstant | retrieveIvar | assignIvar | assignGlobal
  | retrieveGlobal =>
      exact h.emitPooled fun _ _ _ _ pooled => ⟨text pooled rfl, Nat.zero_le _, trivial⟩

end Scoped

end Bench

end BlockScript
