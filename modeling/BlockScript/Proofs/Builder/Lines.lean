import Mathlib.Data.List.Basic
import Mathlib.Order.Defs.Unbundled
import BlockScript.Proofs.Builder.Flow

/-!
# Source lines of recorded code

The entries of a line table ascend, so halving finds the last one that begins at or before a
position. A line that is set while a code object is recorded is in effect from there on and
changes nothing before, and nothing else changes the lines of the code.
-/

namespace BlockScript

namespace LineTable

variable {table : LineTable} {ip : UInt32}

/-- The positions of the entries ascend. -/
def Ascends (table : LineTable) : Prop := table.toList.Pairwise (·.ip < ·.ip)

theorem Ascends.lt (ascends : table.Ascends) {i j : Nat} (before : i < j)
    {earlier later : LineEntry} (h₁ : table[i]? = some earlier) (h₂ : table[j]? = some later) :
    earlier.ip < later.ip := by
  obtain ⟨hi, rfl⟩ := Array.getElem?_eq_some_iff.mp h₁
  obtain ⟨hj, rfl⟩ := Array.getElem?_eq_some_iff.mp h₂
  exact List.pairwise_iff_getElem.mp ascends i j hi hj before

/-- Where halving comes to: everything further on lies after `ip`, and so does the entry itself
only if it is the first one. -/
theorem narrow_found (ascends : table.Ascends) {rounds base size : Nat} (enough : size ≤ rounds)
    (bounded : base + size ≤ table.size)
    (starts : base = 0 ∨ ∃ entry, table[base]? = some entry ∧ entry.ip ≤ ip)
    (ends : ∀ i, base + size ≤ i → ∀ entry, table[i]? = some entry → ip < entry.ip) :
    (narrow table ip rounds base size = 0 ∨
      ∃ entry, table[narrow table ip rounds base size]? = some entry ∧ entry.ip ≤ ip) ∧
    ∀ i, narrow table ip rounds base size < i → ∀ entry, table[i]? = some entry →
      ip < entry.ip := by
  induction rounds generalizing base size with
  | zero =>
      unfold narrow
      exact ⟨starts, fun i further => ends i (by omega)⟩
  | succ rounds ih =>
      unfold narrow
      split
      · exact ⟨starts, fun i further => ends i (by omega)⟩
      dsimp only
      obtain ⟨middle, found⟩ : ∃ middle, table[base + size / 2]? = some middle :=
        ⟨_, Array.getElem?_eq_getElem (by omega)⟩
      rw [found, Option.any_some]
      by_cases after : ip < middle.ip
      · rw [if_pos (by simpa using after)]
        refine ih (by omega) (by omega) starts fun i further entry held => ?_
        rcases Nat.lt_or_eq_of_le (show base + size / 2 ≤ i by omega) with beyond | rfl
        · exact UInt32.lt_trans after (ascends.lt beyond found held)
        · cases found.symm.trans held
          exact after
      · rw [if_neg (by simpa using after)]
        exact ih (by omega) (by omega) (.inr ⟨middle, found, UInt32.not_lt.mp after⟩)
          fun i further => ends i (by omega)

/-- The line in effect is that of the last entry at or before the position. -/
theorem lineAt_eq (ascends : table.Ascends) (ip : UInt32) :
    table.lineAt ip = (table.toList.reverse.find? (·.ip ≤ ip)).map (·.line) := by
  obtain ⟨starts, ends⟩ := @narrow_found _ ip ascends _ _ _ (Nat.le_refl table.size)
    (by omega) (.inl rfl) fun i beyond entry held => by
      rw [Array.getElem?_eq_none (by omega)] at held
      cases held
  unfold lineAt
  dsimp only
  generalize narrow table ip table.size 0 table.size = position at starts ends
  have later {i : Nat} (beyond : position < i) (inside : i < table.toList.length) :
      ip < table.toList[i].ip :=
    ends i beyond _ (Array.getElem?_eq_getElem inside)
  cases held : table[position]? with
  | none =>
      have empty : table = #[] := by
        rcases starts with rfl | ⟨entry, found, -⟩
        · exact Array.eq_empty_of_size_eq_zero (by simpa using held)
        · rw [held] at found
          cases found
      rw [empty]
      rfl
  | some entry =>
      obtain ⟨inside, rfl⟩ := Array.getElem?_eq_some_iff.mp held
      dsimp only
      by_cases reached : table[position].ip ≤ ip
      · rw [if_pos reached]
        have last : table.toList.reverse.find? (·.ip ≤ ip) = some table[position] := by
          refine List.find?_eq_some_iff_append.mpr ⟨by simpa using reached,
            (table.toList.drop (position + 1)).reverse, (table.toList.take position).reverse, ?_, ?_⟩
          · have split : table.toList = table.toList.take position ++
                table[position] :: table.toList.drop (position + 1) := by
              rw [← Array.getElem_toList, ← List.drop_eq_getElem_cons, List.take_append_drop]
            conv_lhs => rw [split]
            simp
          · intro entry member
            obtain ⟨i, hi, rfl⟩ := List.mem_iff_getElem.mp (List.mem_reverse.mp member)
            rw [List.length_drop] at hi
            rw [List.getElem_drop]
            have further := later (show position < position + 1 + i by omega) (by omega)
            rw [decide_eq_false (UInt32.not_le.mpr further)]
            rfl
        rw [last]
        rfl
      · rw [if_neg reached]
        obtain rfl : position = 0 := by
          rcases starts with first | ⟨entry, found, before⟩
          · exact first
          · cases held.symm.trans found
            exact absurd before reached
        have none_reached : table.toList.reverse.find? (·.ip ≤ ip) = none := by
          rw [List.find?_eq_none]
          intro entry member
          obtain ⟨i, hi, rfl⟩ := List.mem_iff_getElem.mp (List.mem_reverse.mp member)
          rcases Nat.eq_zero_or_pos i with rfl | beyond
          · simpa using reached
          · simpa using later beyond hi
        rw [none_reached]
        rfl

theorem ascends_push {entry : LineEntry} : Ascends (table.push entry) ↔
    table.Ascends ∧ ∀ earlier ∈ table.toList, earlier.ip < entry.ip := by
  rw [Ascends, Array.toList_push, List.pairwise_append]
  simp [Ascends]

/-- An entry at the end is in effect from its position on. -/
theorem lineAt_push {entry : LineEntry} (ascends : Ascends (table.push entry)) :
    lineAt (table.push entry) ip = if entry.ip ≤ ip then some entry.line else table.lineAt ip := by
  rw [lineAt_eq ascends, lineAt_eq (ascends_push.mp ascends).1, Array.toList_push,
    List.reverse_append, List.reverse_singleton, List.singleton_append, List.find?_cons]
  by_cases here : entry.ip ≤ ip <;> simp [here]

/-- All entries lie at or before a position that the code has come to. -/
structure Reaches (table : LineTable) (label : UInt32) : Prop where
  ascends : table.Ascends
  bounded : ∀ entry ∈ table.toList, entry.ip ≤ label

theorem Reaches.mono (h : table.Reaches ip) {label : UInt32} (later : ip ≤ label) :
    table.Reaches label :=
  ⟨h.ascends, fun entry member => UInt32.le_trans (h.bounded entry member) later⟩

/-- A line that is entered at that position is in effect from there on. -/
theorem Reaches.enterLine {label : UInt32} (h : table.Reaches label) (line : UInt32) :
    Reaches (Builder.enterLine table label line) label ∧
      ∀ ip, lineAt (Builder.enterLine table label line) ip =
        if label ≤ ip then some line else table.lineAt ip := by
  have pushed {front : LineTable} (ascends : front.Ascends)
      (before : ∀ entry ∈ front.toList, entry.ip < label) :
      Reaches (front.push ⟨label, line⟩) label ∧ ∀ ip, lineAt (front.push ⟨label, line⟩) ip =
        if label ≤ ip then some line else front.lineAt ip := by
    have ascends' : Ascends (front.push ⟨label, line⟩) := ascends_push.mpr ⟨ascends, before⟩
    refine ⟨⟨ascends', fun entry member => ?_⟩, fun ip => lineAt_push ascends'⟩
    rw [Array.toList_push] at member
    rcases List.mem_append.mp member with member | member
    · exact UInt32.le_of_lt (before entry member)
    · rw [List.mem_singleton.mp member]
      exact UInt32.le_refl _
  unfold Builder.enterLine
  cases back : table.back? with
  | none =>
      obtain rfl : table = #[] := by simpa using back
      exact pushed h.ascends (by simp)
  | some last =>
      obtain ⟨front, rfl⟩ := Array.back?_eq_some_iff.mp back
      obtain ⟨ascends, before⟩ := ascends_push.mp h.ascends
      have last_le : last.ip ≤ label := h.bounded last (by simp)
      dsimp only
      split
      · -- the last entry is replaced, and it was in effect nowhere else
        rename_i same
        rw [Array.pop_push, ← same]
        obtain ⟨reaches, effect⟩ := pushed ascends (same ▸ before)
        refine ⟨same ▸ reaches, fun ip => ?_⟩
        rw [same, effect, lineAt_push h.ascends, same]
        split <;> rfl
      rename_i apart
      have earlier : last.ip < label := UInt32.lt_of_le_of_ne last_le apart
      split
      · rename_i same
        refine ⟨h, fun ip => ?_⟩
        by_cases reached : label ≤ ip
        · rw [if_pos reached, lineAt_push h.ascends, if_pos (UInt32.le_trans last_le reached), same]
        · rw [if_neg reached]
      · refine pushed h.ascends fun entry member => ?_
        rw [Array.toList_push] at member
        rcases List.mem_append.mp member with member | member
        · exact UInt32.lt_trans (before entry member) earlier
        · rw [List.mem_singleton.mp member]
          exact earlier

/-- From the last entry on the line stays in effect. -/
theorem Reaches.lineAt_beyond {label : UInt32} (h : table.Reaches label) (beyond : label ≤ ip) :
    table.lineAt ip = table.lineAt label := by
  have last {position : UInt32} (after : label ≤ position) :
      table.toList.reverse.find? (·.ip ≤ position) = table.toList.reverse.head? := by
    have bounded : ∀ entry ∈ table.toList.reverse, entry.ip ≤ position := fun entry member =>
      UInt32.le_trans (h.bounded entry (List.mem_reverse.mp member)) after
    generalize table.toList.reverse = entries at bounded
    cases entries with
    | nil => rfl
    | cons entry rest => simp [bounded entry (List.mem_cons_self ..)]
  rw [lineAt_eq h.ascends, lineAt_eq h.ascends, last beyond, last (UInt32.le_refl _)]

end LineTable

namespace Builder

variable {builder builder' builder'' : Builder}

theorem toUInt32_le_iff {position label : Nat} (h₁ : position < 2 ^ 32) (h₂ : label < 2 ^ 32) :
    position.toUInt32 ≤ label.toUInt32 ↔ position ≤ label := by
  have low : position.toUInt32.toNat = position := UInt32.toNat_ofNat_of_lt' h₁
  have high : label.toUInt32.toNat = label := UInt32.toNat_ofNat_of_lt' h₂
  rw [UInt32.le_iff_toNat_le, low, high]

/-- Lines are entered for the operations up to the next one, as far as positions are numbers of
32 bits. -/
def Listed (builder : Builder) : Prop :=
  builder.label < 2 ^ 32 → builder.code.lines.Reaches builder.label.toUInt32

theorem listed_of_empty (empty : builder.code.lines = #[]) : builder.Listed := by
  intro _
  rw [empty]
  exact ⟨List.Pairwise.nil, by simp⟩

/-- More is recorded, but no line is set. -/
structure Unmarked (builder builder' : Builder) : Prop where
  name : builder'.code.name = builder.code.name
  lines : builder'.code.lines = builder.code.lines
  label : builder.label ≤ builder'.label

/-- More is recorded, and what was recorded before keeps its lines. -/
structure Retains (builder builder' : Builder) : Prop where
  name : builder'.code.name = builder.code.name
  label : builder.label ≤ builder'.label
  listed : builder.Listed → builder'.Listed
  lines : builder.Listed → builder'.label < 2 ^ 32 → ∀ position < builder.label,
    builder'.code.lineFor position = builder.code.lineFor position

instance : IsPreorder Builder Unmarked where
  refl _ := ⟨rfl, rfl, Nat.le_refl _⟩
  trans _ _ _ h₁ h₂ :=
    ⟨h₂.name.trans h₁.name, h₂.lines.trans h₁.lines, Nat.le_trans h₁.label h₂.label⟩

instance : IsPreorder Builder Retains where
  refl _ := ⟨rfl, Nat.le_refl _, id, fun _ _ _ _ => rfl⟩
  trans _ _ _ h₁ h₂ := by
    refine ⟨h₂.name.trans h₁.name, Nat.le_trans h₁.label h₂.label, h₂.listed ∘ h₁.listed, ?_⟩
    intro listed small position before
    have later := h₂.lines (h₁.listed listed) small position (Nat.lt_of_lt_of_le before h₁.label)
    exact later.trans (h₁.lines listed (Nat.lt_of_le_of_lt h₂.label small) position before)

theorem Unmarked.listed (h : builder.Unmarked builder') (listed : builder.Listed) :
    builder'.Listed := by
  intro small
  have small' := Nat.lt_of_le_of_lt h.label small
  rw [h.lines]
  exact (listed small').mono ((toUInt32_le_iff small' small).mpr h.label)

theorem Unmarked.retains (h : builder.Unmarked builder') : builder.Retains builder' where
  name := h.name
  label := h.label
  listed := h.listed
  lines _ _ _ _ := by rw [Code.lineFor, Code.lineFor, h.lines]

/-- What is recorded without setting a line is on the line that was in effect before. -/
theorem Unmarked.lineFor (h : builder.Unmarked builder') (listed : builder.Listed) {position : Nat}
    (after : builder.label ≤ position) (small : position < 2 ^ 32) :
    builder'.code.lineFor position = builder.code.lineFor builder.label := by
  have small' := Nat.lt_of_le_of_lt after small
  rw [Code.lineFor, Code.lineFor, h.lines]
  exact (listed small').lineAt_beyond ((toUInt32_le_iff small' small).mpr after)

theorem retains_setLine (builder : Builder) (line : UInt32) :
    builder.Retains (builder.setLine line) where
  name := rfl
  label := Nat.le_refl _
  listed listed small := ((listed small).enterLine line).1
  lines listed small position before := by
    have effect := ((listed small).enterLine line).2 position.toUInt32
    have small : builder.label < 2 ^ 32 := small
    have earlier : ¬builder.label.toUInt32 ≤ position.toUInt32 := by
      rw [toUInt32_le_iff small (Nat.lt_trans before small)]
      exact Nat.not_le_of_lt before
    rw [if_neg earlier] at effect
    exact effect

/-- A line that is set is in effect for what comes next. -/
theorem lineFor_setLine (listed : builder.Listed) (small : builder.label < 2 ^ 32) (line : UInt32) :
    (builder.setLine line).code.lineFor builder.label = some line := by
  have effect := ((listed small).enterLine line).2 builder.label.toUInt32
  rw [if_pos (UInt32.le_refl _)] at effect
  exact effect

theorem unmarked_patchHere (builder : Builder) (patch : JumpPatch) :
    builder.Unmarked (builder.patchHere patch) := by
  rw [patchHere_eq]
  exact ⟨rfl, rfl, Nat.le_of_eq Array.size_setIfInBounds.symm⟩

theorem unmarked_resetTo (builder : Builder) (depth : Nat) :
    builder.Unmarked (builder.resetTo depth) :=
  ⟨rfl, rfl, Nat.le_refl _⟩

theorem unmarked_emit {operation : String} {op : Op} (run : builder.emit operation op = .ok builder') :
    builder.Unmarked builder' := by
  obtain ⟨stack, -, rfl⟩ := emit_ok run
  refine ⟨rfl, rfl, ?_⟩
  rw [Builder.label, Builder.label, Array.size_push]
  exact Nat.le_succ _

theorem unmarked_emitTimes {operation : String} {op : Op} {count : Nat}
    (run : emitTimes operation op count builder = .ok builder') : builder.Unmarked builder' := by
  induction count generalizing builder with
  | zero =>
      cases run
      exact refl_of Unmarked _
  | succ count ih =>
      obtain ⟨popped, once, rest⟩ := Verifier.bind_ok run
      exact trans_of Unmarked (unmarked_emit once) (ih rest)

/-- What is finished has the name and the lines that were recorded. -/
theorem lines_finish {code : Code} (run : builder.finish = .ok code) :
    code.lines = builder.code.lines ∧ code.name = builder.code.name ∧
      builder.label ≤ code.ops.size := by
  obtain ⟨surplus, popped, valued, closed, -, hpopped, hvalued, hclosed, rfl⟩ := finish_ok run
  have first : builder.Unmarked popped := unmarked_emitTimes hpopped
  have second : popped.Unmarked valued := by
    rcases hvalued with ⟨-, pushed⟩ | ⟨-, rfl⟩
    · exact unmarked_emit pushed
    · exact refl_of Unmarked _
  have whole := trans_of Unmarked first (trans_of Unmarked second (unmarked_emit hclosed))
  exact ⟨whole.lines, whole.name, whole.label⟩

end Builder

end BlockScript
