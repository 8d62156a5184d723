import BlockScript.Proofs.World.Effect

/-!
# Where values come from

No value appears from nowhere: after an effect every value in the world and in the reply was
known before, or it was made by the effect. What is made is a reference to a cell that was not
there before, an integer that is too large to be a fixnum, or the symbol of a name; plain values
need no making. The symbol of a name stays its symbol.
-/

namespace BlockScript

/-! ## Symbols -/

namespace SymbolTable

variable {table later latest : SymbolTable}

/-- No name is entered twice. -/
def Distinct (table : SymbolTable) : Prop := table.names.toList.Nodup

/-- Names that are entered stay where they are. -/
structure Grows (table later : SymbolTable) : Prop where
  identity : later.identity = table.identity
  names : table.names.toList <+: later.names.toList
  distinct : table.Distinct → later.Distinct

@[refl] theorem Grows.refl (table : SymbolTable) : table.Grows table := ⟨rfl, List.prefix_rfl, id⟩

theorem Grows.trans (h₁ : table.Grows later) (h₂ : later.Grows latest) : table.Grows latest :=
  ⟨h₂.identity.trans h₁.identity, h₁.names.trans h₂.names, fun h => h₂.distinct (h₁.distinct h)⟩

/-- A position with a name has a symbol under its number, be it that of an earlier name. -/
theorem exists_symbol? {position : Nat} (inside : position < table.size) :
    ∃ symbol, table.symbol? position.toUInt32 = some symbol := by
  have earlier : position.toUInt32.toNat < table.names.size :=
    Nat.lt_of_le_of_lt (Nat.mod_le ..) inside
  exact ⟨_, by rw [symbol?, Array.getElem?_eq_getElem earlier]; rfl⟩

/-- Just the names that are not entered are not found. -/
theorem lookup?_eq_none {name : String} :
    table.lookup? name = none ↔ name ∉ table.names.toList := by
  constructor
  · intro missing member
    obtain ⟨position, found⟩ : ∃ position, table.names.findIdx? (· == name) = some position :=
      Option.isSome_iff_exists.mp <| Array.findIdx?_isSome.trans <| Array.any_eq_true'.mpr
        ⟨name, Array.mem_toList_iff.mp member, beq_self_eq_true name⟩
    obtain ⟨inside, -⟩ := Array.findIdx?_eq_some_iff_getElem.mp found
    obtain ⟨symbol, entered⟩ := exists_symbol? inside
    rw [lookup?, found, Option.bind_some, entered] at missing
    cases missing
  · intro absent
    have none : table.names.findIdx? (· == name) = none := by
      simpa [Array.findIdx?_eq_none_iff] using fun other member (same : other = name) =>
        absent (same ▸ Array.mem_toList_iff.mpr member)
    rw [lookup?, none, Option.bind_none]

theorem grows_intern (table : SymbolTable) (name : String) : table.Grows (table.intern name).2 := by
  unfold intern
  cases found : table.lookup? name with
  | some symbol => exact .refl table
  | none =>
      refine ⟨rfl, ⟨[name], (Array.toList_push ..).symm⟩, fun distinct => ?_⟩
      rw [Distinct, Array.toList_push]
      refine List.nodup_append.mpr ⟨distinct, List.pairwise_singleton .., ?_⟩
      rintro entered member _ (_ | ⟨_, ⟨⟩⟩) rfl
      exact lookup?_eq_none.mp found member

end SymbolTable

/-- The symbol is that of an entry of the table. -/
structure Symbol.IssuedBy (symbol : Symbol) (issuer : SymbolTable) : Prop where
  table : symbol.table = issuer.identity
  entry : ∃ position : Nat, issuer.names[position]? = some symbol.name ∧
    symbol.number = position.toUInt32

theorem Symbol.IssuedBy.mono {symbol : Symbol} {table later : SymbolTable}
    (issued : symbol.IssuedBy table) (grows : table.Grows later) : symbol.IssuedBy later where
  table := issued.table.trans grows.identity.symm
  entry := by
    obtain ⟨position, entered, number⟩ := issued.entry
    refine ⟨position, ?_, number⟩
    obtain ⟨rest, joined⟩ := grows.names
    rw [← Array.getElem?_toList] at entered ⊢
    rw [← joined, List.getElem?_append_left (List.getElem?_eq_some_iff.mp entered).1, entered]

theorem SymbolTable.issued_intern (table : SymbolTable) (name : String) :
    (table.intern name).1.IssuedBy (table.intern name).2 := by
  unfold intern
  cases found : table.lookup? name with
  | some symbol =>
      rw [lookup?, Option.bind_eq_some_iff] at found
      obtain ⟨position, -, found⟩ := found
      rw [symbol?, Option.map_eq_some_iff] at found
      obtain ⟨other, entered, rfl⟩ := found
      exact ⟨rfl, _, entered, (UInt32.ofNat_toNat ..).symm⟩
  | none => exact ⟨rfl, table.size, Array.getElem?_push_size, rfl⟩

/-- A table with few names gives a name its own symbol. -/
theorem SymbolTable.name_intern {table : SymbolTable} (few : table.size ≤ UInt32.size) (name : String) :
    (table.intern name).1.name = name := by
  unfold intern
  cases found : table.lookup? name with
  | some symbol =>
      rw [lookup?, Option.bind_eq_some_iff] at found
      obtain ⟨position, first, found⟩ := found
      obtain ⟨inside, same, -⟩ := Array.findIdx?_eq_some_iff_getElem.mp first
      have exact : position.toUInt32.toNat = position :=
        UInt32.toNat_ofNat_of_lt' (Nat.lt_of_lt_of_le inside few)
      rw [symbol?, exact, Array.getElem?_eq_getElem inside] at found
      cases found
      exact eq_of_beq same
  | none => rfl

/-! ## Values that are made -/

/-- The value came into being after a heap was as it is, or needs no making. Symbols are issued
by a table. -/
inductive Heap.Makes (heap : Heap) (symbols : SymbolTable) : Value → Prop where
  | plain {value : Value} (h : value.Plain) : Makes heap symbols value
  | string {cell : Ref .string} (new : heap.strings.size ≤ cell.index) :
      Makes heap symbols (.string cell)
  | array {cell : Ref .array} (new : heap.arrays.size ≤ cell.index) :
      Makes heap symbols (.array cell)
  | proc {cell : Ref .proc} (new : heap.procs.size ≤ cell.index) : Makes heap symbols (.proc cell)
  | object {cell : Ref .object} (new : heap.objects.size ≤ cell.index) :
      Makes heap symbols (.object cell)
  | bignum {n : Int} {identity : Nat} (large : isFixnum n = false)
      (new : heap.bignums ≤ identity) : Makes heap symbols (.bignum n identity)
  | symbol {symbol : Symbol} (issued : symbol.IssuedBy symbols) :
      Makes heap symbols (.symbol symbol)

/-- The value was known in a world, or was made until a later one. -/
def World.Hands (world : World) (known : Value → Prop) (after : World) (value : Value) : Prop :=
  known value ∨ world.heap.Makes after.symbols value

/-- Every value that the reply hands on has the property. -/
def Reply.All (known : Value → Prop) : Reply → Prop
  | .value result => known result
  | .enter _ activation => activation.All known
  | .iterate loop => loop.All known

theorem Activation.All.mono {known known' : Value → Prop} {activation : Activation}
    (h : activation.All known) (weaker : ∀ value, known value → known' value) :
    activation.All known' :=
  ⟨fun value member => weaker value (h.stack value member), weaker _ h.self,
    fun cell given => weaker _ (h.block cell given)⟩

theorem BlockLoop.All.mono {known known' : Value → Prop} {loop : BlockLoop} (h : loop.All known)
    (weaker : ∀ value, known value → known' value) : loop.All known' := by
  cases loop with
  | times block next count receiver => exact ⟨weaker _ h.1, weaker _ h.2⟩
  | each block rest receiver =>
      exact ⟨weaker _ h.1, fun value member => weaker value (h.2.1 value member), weaker _ h.2.2⟩
  | map block rest results =>
      exact ⟨weaker _ h.1, fun value member => weaker value (h.2.1 value member),
        fun value member => weaker value (h.2.2 value member)⟩

theorem Reply.All.mono {known known' : Value → Prop} {reply : Reply} (h : reply.All known)
    (weaker : ∀ value, known value → known' value) : reply.All known' := by
  cases reply with
  | value value => exact weaker value h
  | enter position activation => exact Activation.All.mono h weaker
  | iterate loop => exact BlockLoop.All.mono h weaker

namespace World

variable {world after : World} {known : Value → Prop}

/-- What is new in the cells, tables and calls of a world decides what is known of it. -/
theorem Knows.changes (knows : world.Knows known)
    (arrays : ∀ items ∈ after.heap.arrays,
      items ∈ world.heap.arrays ∨ ∀ value ∈ items, world.Hands known after value)
    (objects : ∀ object ∈ after.heap.objects, object ∈ world.heap.objects ∨
      ∀ entry ∈ object.ivars.entries, world.Hands known after entry.2)
    (frames : ∀ frame ∈ after.heap.frames, frame ∈ world.heap.frames ∨
      ∀ value ∈ frame.locals, world.Hands known after value)
    (procs : ∀ proc ∈ after.heap.procs, proc ∈ world.heap.procs ∨
      world.Hands known after proc.self ∧ Ref.Given (world.Hands known after) proc.block)
    (globals : ∀ entry ∈ after.globals.entries,
      entry ∈ world.globals.entries ∨ world.Hands known after entry.2)
    (constants : ∀ entry ∈ after.constants.entries,
      entry ∈ world.constants.entries ∨ world.Hands known after entry.2)
    (calls : ∀ call ∈ after.calls,
      call ∈ world.calls ∨ Ref.Given (world.Hands known after) call.block) :
    after.Knows (world.Hands known after) where
  plain _ h := .inr (.plain h)
  held value held := by
    cases held with
    | element cell member =>
        exact (arrays _ cell).elim (fun old => .inl (knows.held _ (.element old member)))
          fun new => new _ member
    | ivar cell member =>
        exact (objects _ cell).elim (fun old => .inl (knows.held _ (.ivar old member)))
          fun new => new _ member
    | slot cell member =>
        exact (frames _ cell).elim (fun old => .inl (knows.held _ (.slot old member)))
          fun new => new _ member
    | self cell =>
        exact (procs _ cell).elim (fun old => .inl (knows.held _ (.self old))) fun new => new.1
    | block member given =>
        exact (procs _ member).elim (fun old => .inl (knows.held _ (.block old given)))
          fun new => new.2 _ given
    | global member =>
        exact (globals _ member).elim (fun old => .inl (knows.held _ (.global old))) id
    | constant member =>
        exact (constants _ member).elim (fun old => .inl (knows.held _ (.constant old))) id
    | call member given =>
        exact (calls _ member).elim (fun old => .inl (knows.held _ (.call old given)))
          fun new => new _ given

/-- A change that adds no value to the cells, tables and calls. -/
theorem Knows.same (knows : world.Knows known) (arrays : after.heap.arrays = world.heap.arrays)
    (objects : after.heap.objects = world.heap.objects)
    (frames : after.heap.frames = world.heap.frames) (procs : after.heap.procs = world.heap.procs)
    (globals : after.globals = world.globals) (constants : after.constants = world.constants)
    (calls : after.calls = world.calls) : after.Knows (world.Hands known after) :=
  knows.changes (by rw [arrays]; exact fun _ => .inl) (by rw [objects]; exact fun _ => .inl)
    (by rw [frames]; exact fun _ => .inl) (by rw [procs]; exact fun _ => .inl)
    (by rw [globals]; exact fun _ => .inl) (by rw [constants]; exact fun _ => .inl)
    (by rw [calls]; exact fun _ => .inl)

end World

namespace Run.Effect

variable {program : Program} {known : Value → Prop} {world after : World} {reply : Reply}

theorem symbols (h : Effect program known world reply after) :
    world.symbols.Grows after.symbols := by
  cases h with
  | symbol name => exact world.symbols.grows_intern name
  | _ => exact .refl _

/-- Every value in the world after an effect was known before or was made. -/
theorem knows (h : Effect program known world reply after) (knows : world.Knows known) :
    after.Knows (world.Hands known after) := by
  cases h with
  | found | string | bignum | symbol | printed | text | loop =>
      exact knows.same rfl rfl rfl rfl rfl rfl rfl
  | array all | printedArray text all =>
      refine knows.changes ?_ (fun _ => .inl) (fun _ => .inl) (fun _ => .inl) (fun _ => .inl)
        (fun _ => .inl) (fun _ => .inl)
      intro items member
      rcases Array.mem_push.mp member with member | rfl
      · exact .inl member
      · exact .inr fun value member => .inl (all value member)
  | object className =>
      refine knows.changes (fun _ => .inl) ?_ (fun _ => .inl) (fun _ => .inl) (fun _ => .inl)
        (fun _ => .inl) (fun _ => .inl)
      intro object member
      rcases Array.mem_push.mp member with member | rfl
      · exact .inl member
      · exact .inr fun entry member => by cases member
  | elements cell all h =>
      refine knows.changes ?_ (fun _ => .inl) (fun _ => .inl) (fun _ => .inl) (fun _ => .inl)
        (fun _ => .inl) (fun _ => .inl)
      intro items member
      rcases Heap.Closed.mem_modify member with member | ⟨old, held, rfl⟩
      · exact .inl member
      · exact .inr fun value member => .inl
          (all old (fun value member => knows.held _ (.element held member)) value member)
  | method bound code self_known args_known block_known =>
      refine knows.changes (fun _ => .inl) (fun _ => .inl) ?_ (fun _ => .inl) (fun _ => .inl)
        (fun _ => .inl) (fun _ => .inl)
      intro frame member
      rcases Array.mem_push.mp member with member | rfl
      · exact .inl member
      · refine .inr fun value member => ?_
        rcases Frame.mem_new member with member | rfl
        · exact .inl (args_known value member)
        · exact .inr (.plain .nil)
  | block made code args_known =>
      refine knows.changes (fun _ => .inl) (fun _ => .inl) ?_ (fun _ => .inl) (fun _ => .inl)
        (fun _ => .inl) (fun _ => .inl)
      intro frame member
      rcases Array.mem_push.mp member with member | rfl
      · exact .inl member
      · refine .inr fun value member => ?_
        rcases Frame.mem_new member with member | rfl
        · exact .inl (args_known value member)
        · exact .inr (.plain .nil)

/-- Every value that a reply hands on was known before or was made. -/
theorem reply_all (h : Effect program known world reply after) (knows : world.Knows known) :
    reply.All (world.Hands known after) := by
  cases h with
  | found h | printed text h | text cell f h | elements cell all h => exact Or.inl h
  | string text => exact Or.inr (.string (Nat.le_refl _))
  | array | printedArray => exact Or.inr (.array (Nat.le_refl _))
  | bignum large => exact Or.inr (.bignum large (Nat.le_refl _))
  | object => exact Or.inr (.object (Nat.le_refl _))
  | symbol name => exact Or.inr (.symbol (world.symbols.issued_intern name))
  | method bound code self_known args_known block_known =>
      exact ⟨by simp, .inl self_known, fun cell given => .inl (block_known cell given)⟩
  | block made code args_known =>
      have member := Array.mem_of_getElem? made
      exact ⟨by simp, .inl (knows.held _ (.self member)),
        fun cell given => .inl (knows.held _ (.block member given))⟩
  | loop h => exact BlockLoop.All.mono h fun _ => .inl

end Run.Effect

end BlockScript
