import BlockScript.Proofs.Machine.Effect
import BlockScript.Proofs.World.Closed

/-!
# The bodies that lie around a body

A body lies directly inside the one that makes blocks of it. A lineage goes outward from a body,
block by block, to the script or method body at the root. In a nested program each body has one
lineage, which all operations agree with: a block has the lineage of the body that makes it one
longer, a method begins one of its own, and only bodies of methods and of blocks in them yield.
-/

namespace BlockScript

/-- Positions and kinds of bodies, each inside the next. -/
abbrev Lineage := List (UInt32 × UnitKind)

/-- The operation, in a body at a position, agrees with the lineages of all bodies. -/
structure Op.Nests (program : Program) (lineage : UInt32 → Lineage) (position : UInt32) (op : Op) :
    Prop where
  has : ∀ target, op.codeRef? = some target → program.Has target
  block : ∀ target, op.closure? = some target →
    lineage target = (target, .closure) :: lineage position
  method : ∀ constant target, op = .defineMethod constant target →
    lineage target = [(target, .method)]
  yields : ∀ argc, op = .yield argc →
    ∃ root, (lineage position).getLast? = some (root, .method)

/-- The operation refers to no body and calls no block of a method. -/
def Op.Free (op : Op) : Prop := op.codeRef? = none ∧ ∀ argc, op ≠ .yield argc

theorem Op.codeRef?_of_closure? {op : Op} {target : UInt32} (h : op.closure? = some target) :
    op.codeRef? = some target := by
  cases op <;> first | exact h | cases h

theorem Op.Free.nests {op : Op} (free : op.Free) (program : Program) (lineage : UInt32 → Lineage)
    (position : UInt32) : op.Nests program lineage position where
  has target h := by cases free.1.symm.trans h
  block target h := by cases free.1.symm.trans (codeRef?_of_closure? h)
  method constant target h := by cases h ▸ free.1
  yields argc h := absurd h (free.2 argc)

theorem Op.Free.pop : Op.pop.Free := ⟨rfl, nofun⟩

theorem Op.Free.pushNil : Op.pushNil.Free := ⟨rfl, nofun⟩

theorem Op.Free.ret : Op.ret.Free := ⟨rfl, nofun⟩

/-- Lineages of bodies that were there already may not change, but others may be added. -/
theorem Op.Nests.mono {program program' : Program} {lineage lineage' : UInt32 → Lineage}
    {position : UInt32} {op : Op} (h : op.Nests program lineage position)
    (kept : ∀ position, program.Has position →
      program'.Has position ∧ lineage' position = lineage position)
    (here : program.Has position) : op.Nests program' lineage' position where
  has target ref := (kept target (h.has target ref)).1
  block target ref := by
    rw [(kept target (h.has target (codeRef?_of_closure? ref))).2, (kept position here).2]
    exact h.block target ref
  method constant target same := by
    rw [(kept target (h.has target (same ▸ rfl))).2]
    exact h.method constant target same
  yields argc same := by
    rw [(kept position here).2]
    exact h.yields argc same

namespace Program

/-- Every body has its lineage, and every operation agrees with that. -/
structure Nested (program : Program) (lineage : UInt32 → Lineage) : Prop where
  begins : ∀ position code, program.code? position = some code →
    ∃ outer, lineage position = (position, code.kind) :: outer ∧
      (code.kind ≠ .closure → outer = [])
  ops : ∀ position code, program.code? position = some code →
    ∀ op ∈ code.ops, op.Nests program lineage position
  main : ∀ code, program.main? = some code → code.kind = .script

/-- The body at `outer` makes blocks of the one at `inner`. -/
def Encloses (program : Program) (outer inner : UInt32) : Prop :=
  ∃ code, program.code? outer = some code ∧ ∃ op ∈ code.ops, op.closure? = some inner

/-- The body at a position lies so many blocks deep inside the script or method body at `root`. -/
inductive Lies (program : Program) : UInt32 → Nat → UInt32 → Prop where
  | root {position : UInt32} {code : Code} (found : program.code? position = some code)
      (kind : code.kind ≠ .closure) : Lies program position 0 position
  | inside {inner outer root : UInt32} {body : Code} {depth : Nat}
      (found : program.code? inner = some body) (kind : body.kind = .closure)
      (encloses : program.Encloses outer inner) (lies : Lies program outer depth root) :
      Lies program inner (depth + 1) root

namespace Nested

variable {program : Program} {lineage : UInt32 → Lineage} (nested : program.Nested lineage)

include nested

/-- What an enclosed body is. -/
theorem enclosed {outer inner : UInt32} (h : program.Encloses outer inner) :
    lineage inner = (inner, .closure) :: lineage outer ∧
      ∃ body, program.code? inner = some body ∧ body.kind = .closure := by
  obtain ⟨code, found, op, member, makes⟩ := h
  have nests := nested.ops outer code found op member
  have inside := nests.block inner makes
  obtain ⟨body, here⟩ := nests.has inner (Op.codeRef?_of_closure? makes)
  obtain ⟨rest, begins, -⟩ := nested.begins inner body here
  rw [inside] at begins
  injection begins with first
  injection first with _ kind
  exact ⟨inside, body, here, kind.symm⟩

/-- Blocks of a body are made in one body only. -/
theorem encloses_unique {outer other inner : UInt32} (h : program.Encloses outer inner)
    (h' : program.Encloses other inner) : outer = other := by
  have same := (nested.enclosed h).1.symm.trans (nested.enclosed h').1
  obtain ⟨code, found, -⟩ := h
  obtain ⟨code', found', -⟩ := h'
  obtain ⟨rest, begins, -⟩ := nested.begins outer code found
  obtain ⟨rest', begins', -⟩ := nested.begins other code' found'
  rw [begins, begins'] at same
  injection same with _ same
  injection same with same
  injection same

/-- A body lies in one way only. -/
theorem lies_unique {position root root' : UInt32} {depth depth' : Nat}
    (h : program.Lies position depth root) (h' : program.Lies position depth' root') :
    depth = depth' ∧ root = root' := by
  induction h generalizing depth' root' with
  | root found kind =>
      cases h' with
      | root => exact ⟨rfl, rfl⟩
      | inside found' kind' => exact absurd (Option.some.inj (found.symm.trans found') ▸ kind') kind
  | inside found kind encloses _ ih =>
      cases h' with
      | root found' kind' => exact absurd (Option.some.inj (found.symm.trans found') ▸ kind) kind'
      | inside _ _ encloses' lies' =>
          cases nested.encloses_unique encloses encloses'
          obtain ⟨rfl, rfl⟩ := ih lies'
          exact ⟨rfl, rfl⟩

/-- The lineage of a body ends with its root. -/
theorem lies_root {position root : UInt32} {depth : Nat} (h : program.Lies position depth root) :
    ∃ code, program.code? root = some code ∧
      (lineage position).getLast? = some (root, code.kind) := by
  induction h with
  | @root position code found kind =>
      obtain ⟨outer, begins, none⟩ := nested.begins position code found
      exact ⟨code, found, by rw [begins, none kind]; rfl⟩
  | @inside inner outer root body depth found kind encloses lies ih =>
      obtain ⟨code, found', last⟩ := ih
      refine ⟨code, found', ?_⟩
      rw [(nested.enclosed encloses).1, List.getLast?_cons, last]
      rfl

/-- A body that yields lies in a method. -/
theorem yields_in_method {position root : UInt32} {depth : Nat} {code : Code} {argc : UInt32}
    (found : program.code? position = some code) (yields : .yield argc ∈ code.ops)
    (lies : program.Lies position depth root) :
    ∃ body, program.code? root = some body ∧ body.kind = .method := by
  obtain ⟨body, here, last⟩ := nested.lies_root lies
  obtain ⟨other, last'⟩ := (nested.ops position code found _ yields).yields argc rfl
  exact ⟨body, here, (Prod.mk.inj (Option.some.inj (last.symm.trans last'))).2⟩

/-- A method that is defined is a method body. -/
theorem method_of_defines {position constant target : UInt32} {code body : Code}
    (found : program.code? position = some code) (defines : .defineMethod constant target ∈ code.ops)
    (here : program.code? target = some body) : body.kind = .method := by
  have begins := (nested.ops position code found _ defines).method constant target rfl
  obtain ⟨outer, begins', -⟩ := nested.begins target body here
  rw [begins] at begins'
  injection begins' with first
  injection first with _ kind
  exact kind.symm

end Nested

end Program

end BlockScript
