import BlockScript.Unit.Stack

/-!
# How the open units change

A unit that is open stays where it is until it is closed: what lies outside it does not
change, and its number is not given to another unit. So when a unit is closed by the handle
that was issued for it, everything outside it is as it was when it was opened, whatever
happened in between. What the unit itself carries may change, in ways that a relation on
payloads describes.
-/

namespace BlockScript.UnitStack

variable {α : Type}

/-- No open unit has a number that is still to be issued. -/
def Fresh (stack : UnitStack α) : Prop := ∀ unit ∈ stack.units, unit.id < stack.nextId

/-- The numbers of the open units, innermost first. -/
def ids (stack : UnitStack α) : List Nat := stack.units.map (·.id)

/-- Every unit of the earlier stack that is still open lies where it did, and what it
carries has changed as the relation allows. -/
structure Evolves (related : α → α → Prop) (stack later : UnitStack α) : Prop where
  nextId : stack.nextId ≤ later.nextId
  owner : later.owner = stack.owner
  kept : ∀ unit outer, (unit :: outer) <:+ later.units → unit.id < stack.nextId →
    ∃ unit', (unit' :: outer) <:+ stack.units ∧ unit'.id = unit.id ∧ unit'.kind = unit.kind ∧
      unit'.name = unit.name ∧ related unit'.payload unit.payload

variable {related : α → α → Prop} {stack middle later : UnitStack α}

theorem Evolves.refl (reflexive : ∀ payload, related payload payload) (stack : UnitStack α) :
    Evolves related stack stack :=
  ⟨Nat.le_refl _, rfl, fun unit _ h _ => ⟨unit, h, rfl, rfl, rfl, reflexive _⟩⟩

theorem Evolves.trans (transitive : ∀ a b c, related a b → related b c → related a c)
    (h₁ : Evolves related stack middle) (h₂ : Evolves related middle later) :
    Evolves related stack later where
  nextId := Nat.le_trans h₁.nextId h₂.nextId
  owner := h₂.owner.trans h₁.owner
  kept unit outer suffix old := by
    obtain ⟨unit', suffix', hid, hkind, hname, hrelated⟩ :=
      h₂.kept unit outer suffix (Nat.lt_of_lt_of_le old h₁.nextId)
    obtain ⟨unit'', suffix'', hid', hkind', hname', hrelated'⟩ :=
      h₁.kept unit' outer suffix' (hid ▸ old)
    exact ⟨unit'', suffix'', hid'.trans hid, hkind'.trans hkind, hname'.trans hname,
      transitive _ _ _ hrelated' hrelated⟩

theorem Evolves.mono {weaker : α → α → Prop} (implies : ∀ a b, related a b → weaker a b)
    (h : Evolves related stack later) : Evolves weaker stack later where
  nextId := h.nextId
  owner := h.owner
  kept unit outer suffix old := by
    obtain ⟨unit', suffix', hid, hkind, hname, hrelated⟩ := h.kept unit outer suffix old
    exact ⟨unit', suffix', hid, hkind, hname, implies _ _ hrelated⟩

/-- Entering and leaving regions does not touch the units. -/
theorem Evolves.of_units_eq (reflexive : ∀ payload, related payload payload)
    (units : later.units = stack.units) (nextId : later.nextId = stack.nextId)
    (owner : later.owner = stack.owner) : Evolves related stack later :=
  ⟨Nat.le_of_eq nextId.symm, owner, fun unit _ h _ =>
    ⟨unit, units ▸ h, rfl, rfl, rfl, reflexive _⟩⟩

theorem mapTop_units {f : α → α} {unit : OpenUnit α} {outer : List (OpenUnit α)}
    (h : stack.units = unit :: outer) :
    (stack.mapTop f).units = { unit with payload := f unit.payload } :: outer := by
  obtain ⟨owner, nextId, units, nesting, maxNesting⟩ := stack
  cases h
  rfl

theorem mapTop_nil (h : stack.units = []) (f : α → α) : (stack.mapTop f).units = stack.units := by
  obtain ⟨owner, nextId, units, nesting, maxNesting⟩ := stack
  cases h
  rfl

theorem mapTop_rest (stack : UnitStack α) (f : α → α) :
    (stack.mapTop f).nextId = stack.nextId ∧ (stack.mapTop f).owner = stack.owner ∧
      (stack.mapTop f).nesting = stack.nesting ∧
      (stack.mapTop f).maxNesting = stack.maxNesting := by
  unfold mapTop
  split <;> exact ⟨rfl, rfl, rfl, rfl⟩

/-- Only what the innermost unit carries is replaced. -/
theorem evolves_mapTop (reflexive : ∀ payload, related payload payload) {f : α → α}
    {unit : OpenUnit α} {outer : List (OpenUnit α)} (h : stack.units = unit :: outer)
    (change : related unit.payload (f unit.payload)) :
    Evolves related stack (stack.mapTop f) := by
  obtain ⟨hnext, howner, -, -⟩ := stack.mapTop_rest f
  refine ⟨Nat.le_of_eq hnext.symm, howner, ?_⟩
  intro found rest suffix _
  rw [mapTop_units h] at suffix
  rcases List.suffix_cons_iff.mp suffix with heq | suffix
  · cases heq
    exact ⟨unit, h ▸ List.suffix_rfl, rfl, rfl, rfl, change⟩
  · exact ⟨found, h ▸ suffix.trans (List.suffix_cons ..), rfl, rfl, rfl, reflexive _⟩

theorem Fresh.mapTop (fresh : stack.Fresh) (f : α → α) : (stack.mapTop f).Fresh := by
  cases hunits : stack.units with
  | nil =>
      obtain ⟨owner, nextId, units, nesting, maxNesting⟩ := stack
      cases hunits
      exact fresh
  | cons unit outer =>
      intro found member
      rw [mapTop_units hunits] at member
      rw [(stack.mapTop_rest f).1]
      rcases List.mem_cons.mp member with rfl | member
      · exact fresh unit (hunits ▸ List.mem_cons_self ..)
      · exact fresh found (hunits ▸ List.mem_cons_of_mem _ member)

/-- A region is entered unless too many are open. -/
theorem enter_eq (stack : UnitStack α) :
    stack.enter = if stack.size + stack.nesting + 1 ≤ stack.maxNesting then
      .ok { stack with nesting := stack.nesting + 1 }
      else .error (.exhausted .nestingDepth stack.maxNesting) := by
  unfold enter checkNesting
  split <;> rfl

/-- A unit is opened unless too many are open. -/
theorem open_eq (stack : UnitStack α) (kind : UnitKind) (name : String) (payload : α) :
    stack.open kind name payload = if stack.size + stack.nesting + 1 ≤ stack.maxNesting then
      .ok (⟨stack.owner, stack.nextId⟩, { stack with
        nextId := stack.nextId + 1
        units := { id := stack.nextId, kind, name, payload } :: stack.units })
      else .error (.exhausted .nestingDepth stack.maxNesting) := by
  unfold «open» checkNesting
  split <;> rfl

theorem open_ok {kind : UnitKind} {name : String} {payload : α} {handle : UnitHandle}
    (h : stack.open kind name payload = .ok (handle, later)) :
    handle = ⟨stack.owner, stack.nextId⟩ ∧
      later = { stack with
        nextId := stack.nextId + 1
        units := { id := stack.nextId, kind, name, payload } :: stack.units } := by
  unfold «open» checkNesting at h
  split at h
  · cases h
    exact ⟨rfl, rfl⟩
  · cases h

theorem close_ok {handle : UnitHandle} {kind : UnitKind} {line : Option UInt32}
    {unit : OpenUnit α} (h : stack.close handle kind line = .ok (unit, later)) :
    handle.owner = stack.owner ∧ unit.id = handle.id ∧ unit.kind = kind ∧
      stack.units = unit :: later.units ∧ later = { stack with units := later.units } := by
  unfold close at h
  split at h
  · cases h
  · rename_i howner
    split at h
    · cases h
    · rename_i top outer hunits
      split at h
      · cases h
      · rename_i hid
        split at h
        · cases h
        · rename_i hkind
          cases h
          exact ⟨Classical.not_not.mp howner, Classical.not_not.mp hid,
            Classical.not_not.mp hkind, hunits, rfl⟩

/-- The innermost unit is closed by the handle that was issued for it. -/
theorem close_eq {unit : OpenUnit α} {outer : List (OpenUnit α)}
    (units : stack.units = unit :: outer) {handle : UnitHandle}
    (owner : stack.owner = handle.owner) (id : unit.id = handle.id) (line : Option UInt32) :
    stack.close handle unit.kind line = .ok (unit, { stack with units := outer }) := by
  unfold close
  rw [if_neg (fun differ => differ owner.symm), units]
  simp only [if_neg (fun differ => differ id : ¬unit.id ≠ handle.id),
    if_neg (fun differ => differ rfl : ¬unit.kind ≠ unit.kind)]

/-- Opening a unit leaves the others where they are. -/
theorem evolves_open (reflexive : ∀ payload, related payload payload) {kind : UnitKind}
    {name : String} {payload : α} {handle : UnitHandle}
    (h : stack.open kind name payload = .ok (handle, later)) : Evolves related stack later := by
  obtain ⟨-, rfl⟩ := open_ok h
  refine ⟨Nat.le_succ _, rfl, ?_⟩
  intro found rest suffix old
  rcases List.suffix_cons_iff.mp suffix with heq | suffix
  · cases heq
    exact absurd old (Nat.lt_irrefl _)
  · exact ⟨found, suffix, rfl, rfl, rfl, reflexive _⟩

theorem Fresh.open (fresh : stack.Fresh) {kind : UnitKind} {name : String} {payload : α}
    {handle : UnitHandle} (h : stack.open kind name payload = .ok (handle, later)) :
    later.Fresh := by
  obtain ⟨-, rfl⟩ := open_ok h
  intro found member
  rcases List.mem_cons.mp member with rfl | member
  · exact Nat.lt_succ_self _
  · exact Nat.lt_succ_of_lt (fresh found member)

/-- Closing a unit leaves the others where they are. -/
theorem evolves_close (reflexive : ∀ payload, related payload payload) {handle : UnitHandle}
    {kind : UnitKind} {line : Option UInt32} {unit : OpenUnit α}
    (h : stack.close handle kind line = .ok (unit, later)) : Evolves related stack later := by
  obtain ⟨-, -, -, hunits, hlater⟩ := close_ok h
  have hnext : later.nextId = stack.nextId := by rw [hlater]
  have howner : later.owner = stack.owner := by rw [hlater]
  refine ⟨Nat.le_of_eq hnext.symm, howner, ?_⟩
  intro found rest suffix _
  exact ⟨found, hunits ▸ suffix.trans (List.suffix_cons ..), rfl, rfl, rfl, reflexive _⟩

theorem Fresh.close (fresh : stack.Fresh) {handle : UnitHandle} {kind : UnitKind}
    {line : Option UInt32} {unit : OpenUnit α}
    (h : stack.close handle kind line = .ok (unit, later)) : later.Fresh := by
  obtain ⟨-, -, -, hunits, hlater⟩ := close_ok h
  intro found member
  rw [hlater]
  exact fresh found (hunits ▸ List.mem_cons_of_mem _ member)

/-- A unit that is closed by its own handle leaves behind what was open when it was
opened. -/
theorem units_after_close (fresh : stack.Fresh) {kind kind' : UnitKind} {name : String}
    {payload : α} {handle : UnitHandle} {opened closed : UnitStack α}
    (hopen : stack.open kind name payload = .ok (handle, opened))
    (evolves : Evolves related opened later) {line : Option UInt32} {unit : OpenUnit α}
    (hclose : later.close handle kind' line = .ok (unit, closed)) :
    closed.units = stack.units ∧ unit.kind = kind ∧ related payload unit.payload := by
  obtain ⟨rfl, rfl⟩ := open_ok hopen
  obtain ⟨-, hid, -, hunits, -⟩ := close_ok hclose
  have suffix : (unit :: closed.units) <:+ later.units := hunits ▸ List.suffix_rfl
  obtain ⟨unit', suffix', hid', hkind, -, hrelated⟩ :=
    evolves.kept unit closed.units suffix (by simp [hid])
  rcases List.suffix_cons_iff.mp suffix' with heq | suffix'
  · obtain ⟨rfl, hunits⟩ := List.cons.inj heq
    exact ⟨hunits, hkind.symm, hrelated⟩
  · -- an older unit has an older number
    have old := fresh unit' (suffix'.subset (List.mem_cons_self ..))
    rw [hid', hid] at old
    exact absurd old (Nat.lt_irrefl _)

/-! ## Numbers of units -/

theorem ids_mapTop (stack : UnitStack α) (f : α → α) : (stack.mapTop f).ids = stack.ids := by
  unfold ids mapTop
  split <;> rfl

theorem ids_open {kind : UnitKind} {name : String} {payload : α} {handle : UnitHandle}
    (h : stack.open kind name payload = .ok (handle, later)) :
    later.ids = stack.nextId :: stack.ids := by
  obtain ⟨-, rfl⟩ := open_ok h
  rfl

theorem ids_close {handle : UnitHandle} {kind : UnitKind} {line : Option UInt32}
    {unit : OpenUnit α} (h : stack.close handle kind line = .ok (unit, later)) :
    stack.ids = unit.id :: later.ids := by
  obtain ⟨-, -, -, hunits, -⟩ := close_ok h
  rw [ids, hunits]
  rfl

theorem Fresh.lt (fresh : stack.Fresh) {id : Nat} (member : id ∈ stack.ids) :
    id < stack.nextId := by
  obtain ⟨unit, hunit, rfl⟩ := List.mem_map.mp member
  exact fresh unit hunit

/-- A number that was issued and is in use later has been in use all the time. -/
theorem Evolves.mem_ids (h : Evolves related stack later) {id : Nat} (issued : id < stack.nextId)
    (member : id ∈ later.ids) : id ∈ stack.ids := by
  obtain ⟨unit, hunit, rfl⟩ := List.mem_map.mp member
  obtain ⟨inner, outer, hsplit⟩ := List.append_of_mem hunit
  obtain ⟨unit', suffix, hid, -⟩ := h.kept unit outer ⟨inner, hsplit.symm⟩ issued
  exact hid ▸ List.mem_map_of_mem (suffix.subset (List.mem_cons_self ..))

/-- Units that are open at two times are open in between. -/
theorem Evolves.between {related' : α → α → Prop} (h₁ : Evolves related stack middle)
    (fresh : stack.Fresh) (h₂ : Evolves related' middle later) {held : List Nat}
    (early : held ⊆ stack.ids) (late : held ⊆ later.ids) : held ⊆ middle.ids :=
  fun _ member => h₂.mem_ids (Nat.lt_of_lt_of_le (fresh.lt (early member)) h₁.nextId)
    (late member)

/-- As long as the innermost unit is open, everything outside it stays as it is. -/
theorem Evolves.innermost (h : Evolves related stack later) (fresh : stack.Fresh)
    (distinct : stack.ids.Nodup) {unit : OpenUnit α} {outer : List (OpenUnit α)}
    (hunits : stack.units = unit :: outer) (member : unit.id ∈ later.ids) :
    ∃ inner unit', later.units = inner ++ unit' :: outer ∧ unit'.id = unit.id ∧
      unit'.kind = unit.kind ∧ unit'.name = unit.name ∧ related unit.payload unit'.payload := by
  obtain ⟨unit', hunit', hid⟩ := List.mem_map.mp member
  obtain ⟨inner, outer', hsplit⟩ := List.append_of_mem hunit'
  have issued : unit'.id < stack.nextId := by
    rw [hid]
    exact fresh unit (hunits ▸ List.mem_cons_self ..)
  obtain ⟨found, suffix, hid', hkind, hname, hrelated⟩ :=
    h.kept unit' outer' ⟨inner, hsplit.symm⟩ issued
  rw [hunits] at suffix
  rcases List.suffix_cons_iff.mp suffix with heq | suffix
  · obtain ⟨rfl, rfl⟩ := List.cons.inj heq
    exact ⟨inner, unit', hsplit, hid, hkind.symm, hname.symm, hrelated⟩
  · -- no unit further out has the same number
    rw [ids, hunits, List.map_cons, List.nodup_cons] at distinct
    refine absurd (List.mem_map.mpr ⟨found, suffix.subset (List.mem_cons_self ..), ?_⟩) distinct.1
    rw [hid', hid]

/-- If as many units are open as before, it is still the innermost one. -/
theorem Evolves.level (h : Evolves related stack later) (fresh : stack.Fresh)
    (distinct : stack.ids.Nodup) {unit : OpenUnit α} {outer : List (OpenUnit α)}
    (hunits : stack.units = unit :: outer) (member : unit.id ∈ later.ids)
    (size : later.size = stack.size) :
    ∃ unit', later.units = unit' :: outer ∧ unit'.id = unit.id ∧ unit'.kind = unit.kind ∧
      unit'.name = unit.name ∧ related unit.payload unit'.payload := by
  obtain ⟨inner, unit', units, same⟩ := h.innermost fresh distinct hunits member
  have none_inside : inner = [] := by
    rw [UnitStack.size, UnitStack.size, units, hunits] at size
    simpa using size
  subst none_inside
  exact ⟨unit', units, same⟩

/-- Units are told apart by numbers that were issued. -/
structure Numbered (stack : UnitStack α) : Prop where
  fresh : stack.Fresh
  distinct : stack.ids.Nodup

/-- Some units were closed or discarded, or none at all. -/
structure Fewer (stack later : UnitStack α) : Prop where
  units : later.units <:+ stack.units
  nextId : later.nextId = stack.nextId
  owner : later.owner = stack.owner

theorem Fewer.of_close {handle : UnitHandle} {kind : UnitKind} {line : Option UInt32}
    {unit : OpenUnit α} (h : stack.close handle kind line = .ok (unit, later)) :
    stack.Fewer later := by
  obtain ⟨-, -, -, hunits, hlater⟩ := close_ok h
  refine ⟨hunits ▸ List.suffix_cons .., ?_, ?_⟩ <;> rw [hlater]

theorem Fewer.evolves (h : stack.Fewer later) (reflexive : ∀ payload, related payload payload) :
    Evolves related stack later :=
  ⟨Nat.le_of_eq h.nextId.symm, h.owner, fun unit _ suffix _ =>
    ⟨unit, suffix.trans h.units, rfl, rfl, rfl, reflexive _⟩⟩

theorem Numbered.fewer (numbered : stack.Numbered) (h : stack.Fewer later) : later.Numbered where
  fresh unit member := h.nextId ▸ numbered.fresh unit (h.units.subset member)
  distinct := numbered.distinct.sublist (h.units.sublist.map _)

theorem Numbered.mapTop (numbered : stack.Numbered) (f : α → α) : (stack.mapTop f).Numbered :=
  ⟨numbered.fresh.mapTop f, (stack.ids_mapTop f).symm ▸ numbered.distinct⟩

theorem Numbered.open (numbered : stack.Numbered) {kind : UnitKind} {name : String} {payload : α}
    {handle : UnitHandle} (h : stack.open kind name payload = .ok (handle, later)) :
    later.Numbered := by
  refine ⟨numbered.fresh.open h, ?_⟩
  rw [ids_open h, List.nodup_cons]
  exact ⟨fun member => absurd (numbered.fresh.lt member) (Nat.lt_irrefl _), numbered.distinct⟩

end BlockScript.UnitStack
