import BlockScript.Proofs.Backend.Scoped
import BlockScript.Proofs.Builder.Carries

/-!
# Benches whose units can be finished

While nested code runs, the units around it may have jumps that wait, so they must not be
closed. On a regular bench every open unit can be finished, except for some that are held,
and every slot of the code table belongs to an open unit or is filled with a code object
that the verifier accepts. All of this is only asked as long as no unit that is held was
closed, which nested code can do but must not.
-/

namespace BlockScript

/-- What a unit carries has become a later version of the same recording. -/
def Recording.Grows (before after : Option Recording) : Prop :=
  ∀ slot builder, before = some ⟨slot, builder⟩ →
    ∃ builder', after = some ⟨slot, builder'⟩ ∧ builder.Grows builder'

/-- All code operands lie inside a table of that size. -/
def Code.Inside (size : Nat) (ops : Array Op) : Prop :=
  ∀ op ∈ ops, ∀ target, op.codeRef? = some target → target.toNat < size

/-- A bench after successful operations, of which none closed a unit from the middle. -/
structure Bench.Grown (bench bench' : Bench) : Prop where
  size : bench.program.code.size ≤ bench'.program.code.size
  units : bench.units.Evolves Recording.Grows bench'.units

/-- Some open unit has claimed the slot at a position. -/
def Bench.Claims (bench : Bench) (position : Nat) : Prop :=
  ∃ unit ∈ bench.units.units, ∃ slot builder, unit.payload = some ⟨slot, builder⟩ ∧
    slot.toNat = position

/-- Units that are not held can be finished, and slots that are not claimed hold code that
the verifier accepts. -/
structure Bench.Finishable (held : List Nat) (bench : Bench) : Prop where
  units : ∀ unit ∈ bench.units.units, unit.id ∉ held → ∀ slot builder,
    unit.payload = some ⟨slot, builder⟩ → builder.Sound
  table : ∀ (position : Nat) code, bench.program.code[position]? = some code →
    bench.Claims position ∨ (code.ops.size < 2 ^ 31 → code.verify = .ok code.maxStack.toNat)

/-- The bench is finishable, unless a unit that is held was closed or the code table has
more slots than there are positions. -/
structure Bench.Regular (held : List Nat) (bench : Bench) : Prop where
  sharing : bench.sharing = false
  checkStack : bench.config.checkStack = true
  fresh : bench.units.Fresh
  distinct : bench.units.ids.Nodup
  issued : ∀ id ∈ held, id < bench.units.nextId
  opened : ∀ unit ∈ bench.units.units, ∃ slot builder, unit.payload = some ⟨slot, builder⟩ ∧
    slot.toNat < bench.program.code.size ∧
    Code.Inside bench.program.code.size builder.code.ops
  installed : ∀ code ∈ bench.program.code, Code.Inside bench.program.code.size code.ops
  finishable : bench.program.code.size ≤ UInt32.size → held ⊆ bench.units.ids →
    bench.Finishable held

theorem Recording.Grows.refl (recording : Option Recording) : Recording.Grows recording recording :=
  fun _ builder found => ⟨builder, found, .refl builder⟩

theorem Recording.Grows.trans (a b c : Option Recording) (h₁ : Recording.Grows a b)
    (h₂ : Recording.Grows b c) : Recording.Grows a c := by
  intro slot builder found
  obtain ⟨builder', found', grows⟩ := h₁ slot builder found
  obtain ⟨builder'', found'', grows'⟩ := h₂ slot builder' found'
  exact ⟨builder'', found'', grows.trans grows'⟩

theorem Code.Inside.mono {size size' : Nat} {ops : Array Op} (h : Code.Inside size ops)
    (le : size ≤ size') : Code.Inside size' ops :=
  fun op member target ref => Nat.lt_of_lt_of_le (h op member target ref) le

namespace Bench

variable {bench bench' bench'' : Bench} {held held' : List Nat}

theorem Grown.refl (bench : Bench) : bench.Grown bench :=
  ⟨Nat.le_refl _, .refl Recording.Grows.refl _⟩

theorem Grown.trans (h₁ : bench.Grown bench') (h₂ : bench'.Grown bench'') : bench.Grown bench'' :=
  ⟨Nat.le_trans h₁.size h₂.size, h₁.units.trans Recording.Grows.trans h₂.units⟩

namespace Regular

/-- More units are held. -/
theorem hold (h : bench.Regular held) : bench.Regular (held ++ bench.units.ids) where
  sharing := h.sharing
  checkStack := h.checkStack
  fresh := h.fresh
  distinct := h.distinct
  issued id member := by
    rcases List.mem_append.mp member with member | member
    · exact h.issued id member
    · exact h.fresh.lt member
  opened := h.opened
  installed := h.installed
  finishable small alive := by
    refine ⟨fun unit member free => ?_, ?_⟩
    · exact absurd (List.mem_append_right _ (List.mem_map_of_mem member)) free
    · exact (h.finishable small (List.append_subset.mp alive).1).table

/-- The units that were held for a while are still open and have grown, so they are no
worse than before. -/
theorem release (h : bench.Regular held) (grown : bench.Grown bench')
    (alive : bench.units.ids ⊆ bench'.units.ids)
    (h' : bench'.Regular (held ++ bench.units.ids)) : bench'.Regular held where
  sharing := h'.sharing
  checkStack := h'.checkStack
  fresh := h'.fresh
  distinct := h'.distinct
  issued id member := h'.issued id (List.mem_append_left _ member)
  opened := h'.opened
  installed := h'.installed
  finishable small held_alive := by
    have late := h'.finishable small (List.append_subset.mpr ⟨held_alive, alive⟩)
    have early := h.finishable (Nat.le_trans grown.size small) fun id member =>
      grown.units.mem_ids (h.issued id member) (held_alive member)
    refine ⟨fun unit member free slot builder payload => ?_, late.table⟩
    by_cases old : unit.id ∈ bench.units.ids
    · obtain ⟨inner, outer, hsplit⟩ := List.append_of_mem member
      obtain ⟨unit', suffix, hid, -, -, hgrows⟩ :=
        grown.units.kept unit outer ⟨inner, hsplit.symm⟩ (h.fresh.lt old)
      have member' := suffix.subset (List.mem_cons_self ..)
      obtain ⟨slot', builder', payload', -⟩ := h.opened unit' member'
      obtain ⟨builder'', payload'', grows⟩ := hgrows slot' builder' payload'
      cases payload.symm.trans payload''
      exact (early.units unit' member' (hid ▸ free) _ builder' payload').grows grows
    · exact late.units unit member
        (fun mem => (List.mem_append.mp mem).elim free old) slot builder payload

/-- Neither the level of control flow matters nor the pool and the current line. -/
theorem rest (h : bench.Regular held) (nesting : Nat) (constants : Pool) (line : Option UInt32) :
    Regular held { bench with
      units := { bench.units with nesting }, program := { bench.program with constants }, line } where
  sharing := h.sharing
  checkStack := h.checkStack
  fresh := h.fresh
  distinct := h.distinct
  issued := h.issued
  opened := h.opened
  installed := h.installed
  finishable small alive :=
    ⟨(h.finishable small alive).units, (h.finishable small alive).table⟩

/-- The builder of the innermost recording may become any other, if its unit is held. -/
theorem setBuilder (h : bench.Regular held) {unit : OpenUnit (Option Recording)}
    {outer : List (OpenUnit (Option Recording))} {recording : Recording}
    (hunits : bench.units.units = unit :: outer) (payload : unit.payload = some recording)
    (top_held : unit.id ∈ held) {builder : Builder}
    (inside : Code.Inside bench.program.code.size builder.code.ops) :
    (bench.setBuilder builder).Regular held := by
  have hset := setBuilder_units hunits payload builder
  have ids : (bench.setBuilder builder).units.ids = bench.units.ids := UnitStack.ids_mapTop ..
  have nextId : (bench.setBuilder builder).units.nextId = bench.units.nextId :=
    (UnitStack.mapTop_rest ..).1
  refine ⟨h.sharing, h.checkStack, h.fresh.mapTop _, ids ▸ h.distinct, ?_, ?_, h.installed, ?_⟩
  · intro id member
    rw [nextId]
    exact h.issued id member
  · intro unit' member
    rw [hset] at member
    rcases List.mem_cons.mp member with rfl | member
    · obtain ⟨slot, builder', payload', lt, -⟩ := h.opened unit (hunits ▸ List.mem_cons_self ..)
      cases payload.symm.trans payload'
      exact ⟨_, builder, rfl, lt, inside⟩
    · exact h.opened unit' (hunits ▸ List.mem_cons_of_mem _ member)
  · intro small alive
    rw [ids] at alive
    obtain ⟨finishable, table⟩ := h.finishable small alive
    refine ⟨fun unit' member free => ?_, fun position code hcode => ?_⟩
    · rw [hset] at member
      rcases List.mem_cons.mp member with rfl | member
      · exact absurd top_held free
      · exact finishable unit' (hunits ▸ List.mem_cons_of_mem _ member) free
    · refine (table position code hcode).imp_left ?_
      rintro ⟨unit', member, slot, builder', payload', heq⟩
      rw [hunits] at member
      rcases List.mem_cons.mp member with rfl | member
      · cases payload.symm.trans payload'
        exact ⟨_, hset ▸ List.mem_cons_self .., _, builder, rfl, heq⟩
      · exact ⟨unit', hset ▸ List.mem_cons_of_mem _ member, slot, builder', payload', heq⟩

/-- A unit opens with nothing recorded, in a slot of its own. -/
theorem openUnit (h : bench.Regular held) {kind : UnitKind} {name : String}
    {arity localCount : Nat} {locals : List String} :
    Ensures (openUnit kind name arity localCount locals) bench fun handle bench' =>
      bench.Grown bench' ∧ bench'.Regular held ∧ ∃ slot builder,
        bench.units.open kind name (some ⟨slot, builder⟩) = .ok (handle, bench'.units) ∧
        builder.Sound := by
  refine ensures_openUnit.mono ?_
  rintro handle _ ⟨builder, units, -, ops, stack, hopen, rfl⟩
  rw [h.checkStack] at stack
  have grown : bench.program.code.size < (bench.program.reserve.2).code.size := by
    rw [Program.size_reserve]
    exact Nat.lt_succ_self _
  have sound : builder.Sound := Builder.sound_new ops stack
  have slot_le : bench.program.code.size.toUInt32.toNat ≤ bench.program.code.size := by
    rw [Nat.toUInt32_eq, UInt32.toNat_ofNat']
    exact Nat.mod_le _ _
  refine ⟨⟨Nat.le_of_lt grown, UnitStack.evolves_open Recording.Grows.refl hopen⟩, {
      sharing := h.sharing, checkStack := h.checkStack, fresh := h.fresh.open hopen
      distinct := ?distinct, issued := ?issued, opened := ?opened, installed := ?installed
      finishable := ?finishable },
    _, builder, hopen, sound⟩
  case distinct =>
    rw [UnitStack.ids_open hopen, List.nodup_cons]
    exact ⟨fun member => absurd (h.fresh.lt member) (Nat.lt_irrefl _), h.distinct⟩
  case issued =>
    intro id member
    obtain ⟨-, rfl⟩ := UnitStack.open_ok hopen
    exact Nat.lt_succ_of_lt (h.issued id member)
  case opened =>
    intro unit member
    obtain ⟨-, rfl⟩ := UnitStack.open_ok hopen
    rcases List.mem_cons.mp member with rfl | member
    · exact ⟨_, builder, rfl, Nat.lt_of_le_of_lt slot_le grown, by simp [Code.Inside, ops]⟩
    · obtain ⟨slot, builder', payload, lt, inside⟩ := h.opened unit member
      exact ⟨slot, builder', payload, Nat.lt_trans lt grown, inside.mono (Nat.le_of_lt grown)⟩
  case installed =>
    intro code member
    rcases Array.mem_push.mp member with member | rfl
    · exact (h.installed code member).mono (Nat.le_of_lt grown)
    · simp [Code.Inside, Code.placeholder]
  case finishable =>
    intro small alive
    have room : bench.program.code.size < UInt32.size := Nat.lt_of_lt_of_le grown small
    have alive : held ⊆ bench.units.ids := by
      intro id member
      have := alive member
      rw [UnitStack.ids_open hopen] at this
      exact (List.mem_cons.mp this).resolve_left (Nat.ne_of_lt (h.issued id member))
    obtain ⟨finishable, table⟩ := h.finishable (Nat.le_of_lt room) alive
    obtain ⟨-, rfl⟩ := UnitStack.open_ok hopen
    refine ⟨?_, ?_⟩
    · intro unit member free slot builder' payload
      rcases List.mem_cons.mp member with rfl | member
      · cases payload
        exact sound
      · exact finishable unit member free slot builder' payload
    · intro position code hcode
      have hcode : (bench.program.code.push .placeholder)[position]? = some code := hcode
      rw [Array.getElem?_push] at hcode
      split at hcode
      · rename_i last
        refine .inl ⟨_, List.mem_cons_self .., _, builder, rfl, ?_⟩
        rw [Program.toNat_toUInt32 room, last]
      · refine (table position code hcode).imp_left ?_
        rintro ⟨unit, member, slot, builder', payload, heq⟩
        exact ⟨unit, List.mem_cons_of_mem _ member, slot, builder', payload, heq⟩

/-- A unit that closes was not held, so what fills its slot is verified. -/
theorem closeUnit (h : bench.Regular held) {handle : UnitHandle} {kind : UnitKind} :
    Ensures (closeUnit handle kind) bench fun slot bench' =>
      bench.Grown bench' ∧ bench'.Regular held ∧ slot.toNat < bench'.program.code.size ∧
      ∃ unit line, bench.units.close handle kind line = .ok (unit, bench'.units) := by
  refine (ensures_closeUnit h.sharing).mono ?_
  rintro slot _
    ⟨unit, units, slot', builder, code, hclose, hpayload, hfinish, -, inside, heq, rfl⟩
  subst heq
  obtain ⟨-, -, -, hunits, -⟩ := UnitStack.close_ok hclose
  have ids := UnitStack.ids_close hclose
  have distinct := h.distinct
  rw [ids, List.nodup_cons] at distinct
  have size : (bench.program.fill slot code).code.size = bench.program.code.size :=
    Array.size_setIfInBounds ..
  have keep : ∀ {unit'}, unit' ∈ units.units → unit' ∈ bench.units.units :=
    fun member => hunits ▸ List.mem_cons_of_mem _ member
  obtain ⟨slot', builder', hpayload', -, inside'⟩ :=
    h.opened unit (hunits ▸ List.mem_cons_self ..)
  cases hpayload.symm.trans hpayload'
  have linked : Code.Inside bench.program.code.size code.ops :=
    Builder.All.finish (p := fun op => ∀ target, op.codeRef? = some target →
      target.toNat < bench.program.code.size) inside' (fun _ ref => by cases ref)
      (fun _ ref => by cases ref) (fun _ ref => by cases ref) hfinish
  refine ⟨⟨Nat.le_of_eq size.symm, UnitStack.evolves_close Recording.Grows.refl hclose⟩, {
      sharing := h.sharing, checkStack := h.checkStack, fresh := h.fresh.close hclose
      distinct := distinct.2, issued := ?issued, opened := ?opened, installed := ?installed
      finishable := ?finishable },
    ?slot, unit, _, hclose⟩
  case issued =>
    intro id member
    obtain ⟨-, -, -, -, hlater⟩ := UnitStack.close_ok hclose
    rw [hlater]
    exact h.issued id member
  case opened =>
    intro unit' member
    rw [size]
    exact h.opened unit' (keep member)
  case installed =>
    intro other member
    rw [size]
    rcases Array.mem_or_eq_of_mem_setIfInBounds member with member | rfl
    · exact h.installed other member
    · exact linked
  case finishable =>
    intro small alive
    rw [size] at small
    have alive : held ⊆ units.ids := alive
    obtain ⟨finishable, table⟩ := h.finishable small fun id member => by
      rw [ids]
      exact List.mem_cons_of_mem _ (alive member)
    have sound : builder.Sound :=
      finishable unit (hunits ▸ List.mem_cons_self ..) (fun held => distinct.1 (alive held)) _ _
        hpayload
    refine ⟨fun unit' member => finishable unit' (keep member), fun position other hother => ?_⟩
    rcases Program.fill_cases hother with ⟨-, rfl⟩ | ⟨elsewhere, hother⟩
    · exact .inr fun short => sound.finish hfinish short
    · refine (table position other hother).imp_left ?_
      rintro ⟨unit', member, slot', builder', payload, heq⟩
      rw [hunits] at member
      rcases List.mem_cons.mp member with rfl | member
      · cases payload.symm.trans hpayload
        exact absurd heq elsewhere
      · exact ⟨unit', member, slot', builder', payload, heq⟩
  case slot =>
    rw [size]
    exact inside

end Regular

end Bench

end BlockScript
