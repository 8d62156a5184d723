/-!
# Tables of named entries

Small tables keyed by text: globals, constants, methods, instance variables. A
table holds one entry per name; setting a name replaces its entry in place and a
new name goes to the end.
-/

namespace BlockScript

/-- A table with entries of type `α`, keyed by text. -/
structure Table (α : Type) where
  entries : List (String × α) := []
deriving DecidableEq, Repr

namespace Table

variable {α : Type}

/-- The table without entries. -/
def empty : Table α := ⟨[]⟩

/-- The entry under a name. -/
def get? (table : Table α) (name : String) : Option α :=
  (table.entries.find? (·.1 = name)).map (·.2)

/-- Put an entry into a list of entries with distinct names. -/
def put (name : String) (entry : α) : List (String × α) → List (String × α)
  | [] => [(name, entry)]
  | (n, e) :: rest => if n = name then (name, entry) :: rest else (n, e) :: put name entry rest

/-- Bind a name, replacing what it was bound to. -/
def set (table : Table α) (name : String) (entry : α) : Table α :=
  ⟨put name entry table.entries⟩

/-- The entries in the order of their names. -/
def sorted (table : Table α) : List (String × α) :=
  table.entries.mergeSort fun a b => a.1 ≤ b.1

/-- The entries, each once, in the order of their names. -/
structure Listing (table : Table α) (listed : List (String × α)) : Prop where
  each : listed.Perm table.entries
  ordered : listed.Pairwise fun a b => a.1 ≤ b.1

theorem listing_sorted (table : Table α) : table.Listing table.sorted where
  each := List.mergeSort_perm ..
  ordered := by
    refine (List.pairwise_mergeSort (fun a b c ab bc => ?_) (fun a b => ?_) table.entries).imp
      fun ordered => of_decide_eq_true ordered
    · exact decide_eq_true (String.le_trans (of_decide_eq_true ab) (of_decide_eq_true bc))
    · exact (Bool.or_eq_true ..).mpr <| (String.le_total a.1 b.1).imp decide_eq_true decide_eq_true

theorem find?_put (name : String) (entry : α) (entries : List (String × α)) (other : String) :
    ((put name entry entries).find? (·.1 = other)).map (·.2) =
      if other = name then some entry else (entries.find? (·.1 = other)).map (·.2) := by
  induction entries with
  | nil => by_cases h : name = other <;> simp [put, h, eq_comm]
  | cons head rest ih =>
    obtain ⟨n, e⟩ := head
    by_cases hn : n = name
    · by_cases h : name = other <;> simp_all [put, eq_comm]
    · by_cases ho : n = other
      · have : other ≠ name := fun h => hn (ho.trans h)
        simp [put, ho, this]
      · simp [put, hn, ho, ih]

@[simp] theorem get?_set (table : Table α) (name : String) (entry : α) (other : String) :
    (table.set name entry).get? other =
      if other = name then some entry else table.get? other :=
  find?_put name entry table.entries other

@[simp] theorem get?_empty (name : String) : (empty : Table α).get? name = none := rfl

end Table

end BlockScript
