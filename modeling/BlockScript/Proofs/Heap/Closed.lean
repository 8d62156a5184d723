import BlockScript.Value.Basic

/-!
# Closed heaps

A heap is closed when every value that some cell holds refers to an existing cell.
Cells are only ever added, blocks never change, a frame keeps its parent and an object
keeps its class; `Heap.Grows` records this, and a value that is alive in a heap stays
alive in every heap that grows out of it.
-/

namespace BlockScript

namespace Heap

/-- The number of cells of one kind. -/
def count (heap : Heap) : CellKind → Nat
  | .string => heap.strings.size
  | .array => heap.arrays.size
  | .proc => heap.procs.size
  | .object => heap.objects.size
  | .frame => heap.frames.size

/-- What a heap may turn into while a program runs. -/
structure Grows (heap later : Heap) : Prop where
  strings : heap.strings.size ≤ later.strings.size
  arrays : heap.arrays.size ≤ later.arrays.size
  procs : ∀ (i : Nat) proc, heap.procs[i]? = some proc → later.procs[i]? = some proc
  objects : ∀ (i : Nat) object, heap.objects[i]? = some object →
    ∃ object', later.objects[i]? = some object' ∧ object'.className = object.className
  frames : ∀ (i : Nat) frame, heap.frames[i]? = some frame →
    ∃ frame', later.frames[i]? = some frame' ∧ frame'.parent = frame.parent

theorem Grows.refl (heap : Heap) : heap.Grows heap :=
  ⟨Nat.le_refl _, Nat.le_refl _, fun _ _ h => h, fun _ o h => ⟨o, h, rfl⟩,
    fun _ f h => ⟨f, h, rfl⟩⟩

theorem Grows.trans {heap middle later : Heap} (h₁ : heap.Grows middle)
    (h₂ : middle.Grows later) : heap.Grows later where
  strings := Nat.le_trans h₁.strings h₂.strings
  arrays := Nat.le_trans h₁.arrays h₂.arrays
  procs i proc h := h₂.procs i proc (h₁.procs i proc h)
  objects i object h := by
    obtain ⟨object', h', hclass⟩ := h₁.objects i object h
    obtain ⟨object'', h'', hclass'⟩ := h₂.objects i object' h'
    exact ⟨object'', h'', hclass'.trans hclass⟩
  frames i frame h := by
    obtain ⟨frame', h', hparent⟩ := h₁.frames i frame h
    obtain ⟨frame'', h'', hparent'⟩ := h₂.frames i frame' h'
    exact ⟨frame'', h'', hparent'.trans hparent⟩

private theorem size_le_of_getElem? {α β : Type} {xs : Array α} {ys : Array β}
    (h : ∀ (i : Nat) x, xs[i]? = some x → ∃ y, ys[i]? = some y) : xs.size ≤ ys.size := by
  rcases Nat.eq_zero_or_pos xs.size with hzero | hpos
  · omega
  · have hlast : xs.size - 1 < xs.size := by omega
    obtain ⟨y, hy⟩ := h (xs.size - 1) _ (Array.getElem?_eq_getElem hlast)
    have := (Array.getElem?_eq_some_iff.mp hy).1
    omega

theorem Grows.count_le {heap later : Heap} (h : heap.Grows later) (kind : CellKind) :
    heap.count kind ≤ later.count kind := by
  cases kind with
  | string => exact h.strings
  | array => exact h.arrays
  | proc => exact size_le_of_getElem? fun i proc hp => ⟨proc, h.procs i proc hp⟩
  | object =>
      refine size_le_of_getElem? fun i object ho => ?_
      obtain ⟨object', ho', -⟩ := h.objects i object ho
      exact ⟨object', ho'⟩
  | frame =>
      refine size_le_of_getElem? fun i frame hf => ?_
      obtain ⟨frame', hf', -⟩ := h.frames i frame hf
      exact ⟨frame', hf'⟩

end Heap

/-- The cell exists. -/
def Ref.Alive {kind : CellKind} (heap : Heap) (cell : Ref kind) : Prop :=
  cell.index < heap.count kind

/-- The cell that a value refers to exists, if it refers to one. -/
def Value.Alive (heap : Heap) : Value → Prop
  | .string cell => cell.Alive heap
  | .array cell => cell.Alive heap
  | .proc cell => cell.Alive heap
  | .object cell => cell.Alive heap
  | _ => True

/-- Everything that a block closed over exists. -/
structure Proc.Alive (heap : Heap) (proc : Proc) : Prop where
  frame : proc.frame.Alive heap
  self : proc.self.Alive heap
  block : ∀ cell, proc.block = some cell → cell.Alive heap

/-- The variables of a frame exist, and the frame around it. -/
structure Frame.Alive (heap : Heap) (frame : Frame) : Prop where
  locals : ∀ value ∈ frame.locals, value.Alive heap
  parent : ∀ cell, frame.parent = some cell → cell.Alive heap

/-- At least `depth` frames lie around a frame, one inside the other. -/
def Heap.Deep (heap : Heap) (frame : Ref .frame) (depth : Nat) : Prop :=
  ∃ outer, heap.ancestor? depth frame = some outer

/-- Every entry of a table exists. -/
def Table.Alive (heap : Heap) (table : Table Value) : Prop :=
  ∀ entry ∈ table.entries, entry.2.Alive heap

section Mono

variable {heap later : Heap} (grows : heap.Grows later)

include grows

theorem Ref.Alive.mono {kind : CellKind} {cell : Ref kind} (h : cell.Alive heap) :
    cell.Alive later :=
  Nat.lt_of_lt_of_le h (grows.count_le kind)

theorem Value.Alive.mono {value : Value} (h : value.Alive heap) : value.Alive later := by
  cases value with
  | string cell => exact Ref.Alive.mono grows h
  | array cell => exact Ref.Alive.mono grows h
  | proc cell => exact Ref.Alive.mono grows h
  | object cell => exact Ref.Alive.mono grows h
  | _ => trivial

theorem Proc.Alive.mono {proc : Proc} (h : proc.Alive heap) : proc.Alive later :=
  ⟨h.frame.mono grows, h.self.mono grows, fun cell hc => (h.block cell hc).mono grows⟩

theorem Frame.Alive.mono {frame : Frame} (h : frame.Alive heap) : frame.Alive later :=
  ⟨fun value hv => (h.locals value hv).mono grows,
    fun cell hc => (h.parent cell hc).mono grows⟩

theorem Table.Alive.mono {table : Table Value} (h : table.Alive heap) : table.Alive later :=
  fun entry he => (h entry he).mono grows

/-- A frame keeps the frames around it. -/
theorem Heap.Deep.mono {frame : Ref .frame} {depth : Nat} (h : heap.Deep frame depth) :
    later.Deep frame depth := by
  induction depth generalizing frame with
  | zero => exact ⟨frame, rfl⟩
  | succ depth ih =>
      obtain ⟨outer, houter⟩ := h
      simp only [Heap.ancestor?] at houter
      split at houter
      · rename_i parent hparent
        have alive : frame.index < heap.frames.size := by
          apply Classical.byContradiction
          intro dead
          simp [Heap.frame, Array.getD, dead] at hparent
        obtain ⟨frame', hframe', hsame⟩ :=
          grows.frames frame.index _ (Array.getElem?_eq_getElem alive)
        have hparent' : (later.frame frame).parent = some parent := by
          rw [Heap.frame, Array.getD_eq_getD_getElem?, hframe', Option.getD_some, hsame]
          simpa [Heap.frame, Array.getD, alive] using hparent
        obtain ⟨outer', houter'⟩ := ih ⟨outer, houter⟩
        exact ⟨outer', by simpa only [Heap.ancestor?, hparent'] using houter'⟩
      · cases houter

end Mono

theorem Heap.deep_zero (heap : Heap) (frame : Ref .frame) : heap.Deep frame 0 := ⟨frame, rfl⟩

/-- One more frame lies around a frame than around its parent. -/
theorem Heap.deep_succ {heap : Heap} {frame parent : Ref .frame} {depth : Nat}
    (hparent : (heap.frame frame).parent = some parent) :
    heap.Deep frame (depth + 1) ↔ heap.Deep parent depth := by
  simp only [Heap.Deep, Heap.ancestor?, hparent]

theorem Heap.Deep.le {heap : Heap} {frame : Ref .frame} {depth most : Nat}
    (h : heap.Deep frame most) (le : depth ≤ most) : heap.Deep frame depth := by
  induction depth generalizing frame most with
  | zero => exact heap.deep_zero frame
  | succ depth ih =>
      obtain ⟨most, rfl⟩ : ∃ n, most = n + 1 := ⟨most - 1, by omega⟩
      cases hparent : (heap.frame frame).parent with
      | none =>
          obtain ⟨outer, houter⟩ := h
          simp [Heap.ancestor?, hparent] at houter
      | some parent =>
          rw [Heap.deep_succ hparent] at h ⊢
          exact ih h (by omega)

theorem Table.mem_put {α : Type} {name : String} {value : α} {entries : List (String × α)}
    {entry : String × α} (h : entry ∈ Table.put name value entries) :
    entry = (name, value) ∨ entry ∈ entries := by
  induction entries with
  | nil => exact .inl (List.mem_singleton.mp h)
  | cons head rest ih =>
      obtain ⟨n, e⟩ := head
      simp only [Table.put] at h
      split at h
      · rcases List.mem_cons.mp h with h | h
        · exact .inl h
        · exact .inr (List.mem_cons_of_mem _ h)
      · rcases List.mem_cons.mp h with h | h
        · exact .inr (h ▸ List.mem_cons_self ..)
        · exact (ih h).imp id (List.mem_cons_of_mem _)

theorem Table.mem_of_get? {α : Type} {table : Table α} {name : String} {value : α}
    (h : table.get? name = some value) : ∃ entry ∈ table.entries, entry.2 = value := by
  simp only [Table.get?, Option.map_eq_some_iff] at h
  obtain ⟨entry, hfind, rfl⟩ := h
  exact ⟨entry, List.mem_of_find?_eq_some hfind, rfl⟩

theorem Table.Alive.get? {heap : Heap} {table : Table Value} (h : table.Alive heap)
    {name : String} {value : Value} (found : table.get? name = some value) :
    value.Alive heap := by
  obtain ⟨entry, hmem, rfl⟩ := Table.mem_of_get? found
  exact h entry hmem

/-- What is missing is read as nil. -/
theorem Table.Alive.getD {heap : Heap} {table : Table Value} (h : table.Alive heap) (name : String) :
    ((table.get? name).getD .nil).Alive heap := by
  cases found : table.get? name with
  | none => trivial
  | some value => exact h.get? found

theorem Table.Alive.set {heap : Heap} {table : Table Value} (h : table.Alive heap)
    (name : String) {value : Value} (alive : value.Alive heap) :
    (table.set name value).Alive heap := by
  intro entry he
  rcases Table.mem_put he with rfl | he
  · exact alive
  · exact h entry he

theorem Frame.mem_setSlot {values : Array Value} {slot : Nat} {value v : Value}
    (h : v ∈ Frame.setSlot values slot value) : v ∈ values ∨ v = value ∨ v = .nil := by
  unfold Frame.setSlot at h
  split at h
  · rename_i inside
    simp only [Array.setIfInBounds, dif_pos inside] at h
    rcases Array.mem_or_eq_of_mem_set h with h | h
    · exact .inl h
    · exact .inr (.inl h)
  · rcases Array.mem_push.mp h with h | h
    · rcases Array.mem_append.mp h with h | h
      · exact .inl h
      · exact .inr (.inr (Array.mem_replicate.mp h).2)
    · exact .inr (.inl h)

@[simp] theorem Frame.set_parent (frame : Frame) (slot : Nat) (value : Value) :
    (frame.set slot value).parent = frame.parent := rfl

@[simp] theorem Frame.new_parent (size : Nat) (values : List Value)
    (parent : Option (Ref .frame)) : (Frame.new size values parent).parent = parent := rfl

theorem Frame.mem_new {size : Nat} {values : List Value} {parent : Option (Ref .frame)}
    {v : Value} (h : v ∈ (Frame.new size values parent).locals) : v ∈ values ∨ v = .nil := by
  rcases Array.mem_append.mp h with h | h
  · exact .inl (by simpa using h)
  · exact .inr (Array.mem_replicate.mp h).2

theorem Frame.alive_new {heap : Heap} {size : Nat} {values : List Value}
    {parent : Option (Ref .frame)} (values_alive : ∀ value ∈ values, value.Alive heap)
    (parent_alive : ∀ cell, parent = some cell → cell.Alive heap) :
    (Frame.new size values parent).Alive heap := by
  refine ⟨fun value hv => ?_, parent_alive⟩
  rcases mem_new hv with hv | rfl
  · exact values_alive value hv
  · trivial

namespace Heap

/-- Every value in a cell refers to an existing cell. -/
structure Closed (heap : Heap) : Prop where
  arrays : ∀ items ∈ heap.arrays, ∀ value ∈ items, value.Alive heap
  objects : ∀ object ∈ heap.objects, object.ivars.Alive heap
  frames : ∀ frame ∈ heap.frames, frame.Alive heap
  procs : ∀ proc ∈ heap.procs, proc.Alive heap

namespace Closed

variable {heap later : Heap}

theorem array (h : heap.Closed) (cell : Ref .array) :
    ∀ value ∈ heap.array cell, value.Alive heap := by
  intro value hv
  unfold Heap.array Array.getD at hv
  split at hv
  · exact h.arrays _ (Array.getElem_mem _) value hv
  · simp at hv

theorem object (h : heap.Closed) (cell : Ref .object) :
    (heap.object cell).ivars.Alive heap := by
  unfold Heap.object Array.getD
  split
  · exact h.objects _ (Array.getElem_mem _)
  · intro entry he
    cases he

theorem frame (h : heap.Closed) (cell : Ref .frame) : (heap.frame cell).Alive heap := by
  unfold Heap.frame Array.getD
  split
  · exact h.frames _ (Array.getElem_mem _)
  · exact ⟨by simp, by simp⟩

theorem proc (h : heap.Closed) {cell : Ref .proc} {proc : Proc}
    (found : heap.proc? cell = some proc) : proc.Alive heap :=
  h.procs proc (Array.mem_of_getElem? found)

theorem getLocal (h : heap.Closed) (cell : Ref .frame) (slot : Nat) :
    ((heap.frame cell).get slot).Alive heap := by
  unfold Frame.get Array.getD
  split
  · exact (h.frame cell).locals _ (Array.getElem_mem _)
  · trivial

/-- A heap that grew is closed if its new or changed cells hold living values. -/
theorem of_grows (h : heap.Closed) (grows : heap.Grows later)
    (arrays : ∀ items ∈ later.arrays, items ∈ heap.arrays ∨ ∀ value ∈ items, value.Alive later)
    (objects : ∀ object ∈ later.objects, object ∈ heap.objects ∨ object.ivars.Alive later)
    (frames : ∀ frame ∈ later.frames, frame ∈ heap.frames ∨ frame.Alive later)
    (procs : ∀ proc ∈ later.procs, proc ∈ heap.procs ∨ proc.Alive later) : later.Closed where
  arrays items hi := (arrays items hi).elim
    (fun old value hv => (h.arrays items old value hv).mono grows) id
  objects object ho := (objects object ho).elim (fun old => (h.objects object old).mono grows) id
  frames frame hf := (frames frame hf).elim (fun old => (h.frames frame old).mono grows) id
  procs proc hp := (procs proc hp).elim (fun old => (h.procs proc old).mono grows) id

end Closed

theorem closed_empty : Heap.empty.Closed :=
  ⟨by simp [Heap.empty], by simp [Heap.empty], by simp [Heap.empty], by simp [Heap.empty]⟩

/-! ## Making and changing cells -/

section Cells

variable (heap : Heap)

private theorem getElem?_push_of_some {α : Type} {xs : Array α} {i : Nat} {x y : α}
    (h : xs[i]? = some x) : (xs.push y)[i]? = some x := by
  have := (Array.getElem?_eq_some_iff.mp h).1
  rw [Array.getElem?_push_lt this]
  exact (Array.getElem?_eq_some_iff.mp h).2 ▸ rfl

theorem grows_newString (text : String) : heap.Grows (heap.newString text).2 :=
  { Grows.refl heap with strings := by simp [newString] }

theorem grows_newArray (items : Array Value) : heap.Grows (heap.newArray items).2 :=
  { Grows.refl heap with arrays := by simp [newArray] }

theorem grows_newProc (proc : Proc) : heap.Grows (heap.newProc proc).2 :=
  { Grows.refl heap with procs := fun _ _ h => getElem?_push_of_some h }

theorem grows_newObject (className : String) : heap.Grows (heap.newObject className).2 :=
  { Grows.refl heap with objects := fun _ o h => ⟨o, getElem?_push_of_some h, rfl⟩ }

theorem grows_newFrame (frame : Frame) : heap.Grows (heap.newFrame frame).2 :=
  { Grows.refl heap with frames := fun _ f h => ⟨f, getElem?_push_of_some h, rfl⟩ }

theorem grows_newBignum (n : Int) : heap.Grows (heap.newBignum n).2 := { Grows.refl heap with }

theorem grows_modifyString (cell : Ref .string) (f : String → String) :
    heap.Grows (heap.modifyString cell f) :=
  { Grows.refl heap with strings := by simp [modifyString] }

theorem grows_modifyArray (cell : Ref .array) (f : Array Value → Array Value) :
    heap.Grows (heap.modifyArray cell f) :=
  { Grows.refl heap with arrays := by simp [modifyArray] }

theorem grows_setIvar (cell : Ref .object) (name : String) (value : Value) :
    heap.Grows (heap.setIvar cell name value) where
  strings := Nat.le_refl _
  arrays := Nat.le_refl _
  procs := fun _ _ h => h
  objects i object h := by
    simp only [setIvar, Array.getElem?_modify, h]
    split
    · exact ⟨_, rfl, rfl⟩
    · exact ⟨object, rfl, rfl⟩
  frames := fun _ f h => ⟨f, h, rfl⟩

theorem grows_setLocal (cell : Ref .frame) (slot : Nat) (value : Value) :
    heap.Grows (heap.setLocal cell slot value) where
  strings := Nat.le_refl _
  arrays := Nat.le_refl _
  procs := fun _ _ h => h
  objects := fun _ o h => ⟨o, h, rfl⟩
  frames i frame h := by
    simp only [setLocal, Array.getElem?_modify, h]
    split
    · exact ⟨_, rfl, rfl⟩
    · exact ⟨frame, rfl, rfl⟩

end Cells

namespace Closed

variable {heap : Heap}

theorem newString (h : heap.Closed) (text : String) : (heap.newString text).2.Closed :=
  h.of_grows (grows_newString heap text) (fun _ => .inl) (fun _ => .inl) (fun _ => .inl)
    (fun _ => .inl)

theorem newArray (h : heap.Closed) {items : Array Value}
    (alive : ∀ value ∈ items, value.Alive heap) : (heap.newArray items).2.Closed := by
  have grows := grows_newArray heap items
  refine h.of_grows grows ?_ (fun _ => .inl) (fun _ => .inl) (fun _ => .inl)
  intro items' hi
  rcases Array.mem_push.mp hi with hi | rfl
  · exact .inl hi
  · exact .inr fun value hv => (alive value hv).mono grows

theorem newProc (h : heap.Closed) {proc : Proc} (alive : proc.Alive heap) :
    (heap.newProc proc).2.Closed := by
  have grows := grows_newProc heap proc
  refine h.of_grows grows (fun _ => .inl) (fun _ => .inl) (fun _ => .inl) ?_
  intro proc' hp
  rcases Array.mem_push.mp hp with hp | rfl
  · exact .inl hp
  · exact .inr (alive.mono grows)

theorem newObject (h : heap.Closed) (className : String) :
    (heap.newObject className).2.Closed := by
  refine h.of_grows (grows_newObject heap className) (fun _ => .inl) ?_ (fun _ => .inl)
    (fun _ => .inl)
  intro object ho
  rcases Array.mem_push.mp ho with ho | rfl
  · exact .inl ho
  · exact .inr fun entry he => by cases he

theorem newFrame (h : heap.Closed) {frame : Frame} (alive : frame.Alive heap) :
    (heap.newFrame frame).2.Closed := by
  have grows := grows_newFrame heap frame
  refine h.of_grows grows (fun _ => .inl) (fun _ => .inl) ?_ (fun _ => .inl)
  intro frame' hf
  rcases Array.mem_push.mp hf with hf | rfl
  · exact .inl hf
  · exact .inr (alive.mono grows)

theorem newBignum (h : heap.Closed) (n : Int) : (heap.newBignum n).2.Closed :=
  h.of_grows (grows_newBignum heap n) (fun _ => .inl) (fun _ => .inl) (fun _ => .inl)
    (fun _ => .inl)

theorem modifyString (h : heap.Closed) (cell : Ref .string) (f : String → String) :
    (heap.modifyString cell f).Closed :=
  h.of_grows (grows_modifyString heap cell f) (fun _ => .inl) (fun _ => .inl) (fun _ => .inl)
    (fun _ => .inl)

theorem mem_modify {α : Type} {xs : Array α} {i : Nat} {f : α → α} {y : α}
    (h : y ∈ xs.modify i f) : y ∈ xs ∨ ∃ x ∈ xs, y = f x := by
  obtain ⟨j, hj⟩ := Array.mem_iff_getElem?.mp h
  rw [Array.getElem?_modify] at hj
  split at hj
  · obtain ⟨x, hx, rfl⟩ := Option.map_eq_some_iff.mp hj
    exact .inr ⟨x, Array.mem_of_getElem? hx, rfl⟩
  · exact .inl (Array.mem_of_getElem? hj)

theorem modifyArray (h : heap.Closed) (cell : Ref .array) {f : Array Value → Array Value}
    (alive : ∀ items ∈ heap.arrays, ∀ value ∈ f items, value.Alive heap) :
    (heap.modifyArray cell f).Closed := by
  have grows := grows_modifyArray heap cell f
  refine h.of_grows grows ?_ (fun _ => .inl) (fun _ => .inl) (fun _ => .inl)
  intro items hi
  rcases mem_modify hi with hi | ⟨old, hold, rfl⟩
  · exact .inl hi
  · exact .inr fun value hv => (alive old hold value hv).mono grows

theorem setIvar (h : heap.Closed) (cell : Ref .object) (name : String) {value : Value}
    (alive : value.Alive heap) : (heap.setIvar cell name value).Closed := by
  have grows := grows_setIvar heap cell name value
  refine h.of_grows grows (fun _ => .inl) ?_ (fun _ => .inl) (fun _ => .inl)
  intro object ho
  simp only [Heap.setIvar] at ho
  rcases mem_modify ho with ho | ⟨old, hold, rfl⟩
  · exact .inl ho
  · exact .inr (((h.objects old hold).set name alive).mono grows)

theorem setLocal (h : heap.Closed) (cell : Ref .frame) (slot : Nat) {value : Value}
    (alive : value.Alive heap) : (heap.setLocal cell slot value).Closed := by
  have grows := grows_setLocal heap cell slot value
  refine h.of_grows grows (fun _ => .inl) (fun _ => .inl) ?_ (fun _ => .inl)
  intro frame hf
  simp only [Heap.setLocal] at hf
  rcases mem_modify hf with hf | ⟨old, hold, rfl⟩
  · exact .inl hf
  · refine .inr (Frame.Alive.mono grows ⟨?_, (h.frames old hold).parent⟩)
    intro v hv
    rcases Frame.mem_setSlot hv with hv | rfl | rfl
    · exact (h.frames old hold).locals v hv
    · exact alive
    · trivial

end Closed

end Heap

end BlockScript
