import BlockScript.Proofs.Verifier.Heights
import Mathlib.Data.List.Forall2

/-!
# Code objects that do the same

Two programs that were recorded separately number their constants and code objects
differently. Operations are alike when they differ in such numbers only: positions of
constants denote the same constant in both programs, and positions of code objects are
related by a relation that pairs the code objects of the two programs. Two programs
mirror each other along the relation when paired code objects are alike in turn.

The verifier looks at neither kind of number, so it treats alike code objects alike.
-/

namespace BlockScript

/-- The operation refers to no table of the program. -/
def Op.Bare : Op → Prop
  | .pushBignum _ | .pushString _ | .pushSymbol _ | .getIvar _ | .setIvar _ | .getGlobal _
  | .setGlobal _ | .getConst _ | .setConst _ | .send _ _ _ _ | .makeClosure _
  | .defineMethod _ _ | .aliasMethod _ _ => False
  | _ => True

/-- The positions hold the same text. -/
def Program.SameText (program other : Program) (position position' : UInt32) : Prop :=
  ∃ text, program.constants.text? position = some text ∧
    other.constants.text? position' = some text

/-- The operations differ only in how the two programs number constants and code. -/
inductive Op.Alike (program other : Program) (twins : UInt32 → UInt32 → Prop) :
    Op → Op → Prop where
  | bare {op : Op} (bare : op.Bare) : Alike program other twins op op
  | pushBignum {i j : UInt32} (n : Int) (h : program.constants.get? i = some (.bignum n))
      (h' : other.constants.get? j = some (.bignum n)) :
      Alike program other twins (.pushBignum i) (.pushBignum j)
  | pushString {i j : UInt32} (h : program.SameText other i j) :
      Alike program other twins (.pushString i) (.pushString j)
  | pushSymbol {i j : UInt32} (h : program.SameText other i j) :
      Alike program other twins (.pushSymbol i) (.pushSymbol j)
  | getIvar {i j : UInt32} (h : program.SameText other i j) :
      Alike program other twins (.getIvar i) (.getIvar j)
  | setIvar {i j : UInt32} (h : program.SameText other i j) :
      Alike program other twins (.setIvar i) (.setIvar j)
  | getGlobal {i j : UInt32} (h : program.SameText other i j) :
      Alike program other twins (.getGlobal i) (.getGlobal j)
  | setGlobal {i j : UInt32} (h : program.SameText other i j) :
      Alike program other twins (.setGlobal i) (.setGlobal j)
  | getConst {i j : UInt32} (h : program.SameText other i j) :
      Alike program other twins (.getConst i) (.getConst j)
  | setConst {i j : UInt32} (h : program.SameText other i j) :
      Alike program other twins (.setConst i) (.setConst j)
  | send {i j : UInt32} (argc : UInt32) (receiver : Bool) (h : program.SameText other i j) :
      Alike program other twins (.send i argc receiver none) (.send j argc receiver none)
  | sendBlock {i j a b : UInt32} (argc : UInt32) (receiver : Bool)
      (h : program.SameText other i j) (block : twins a b) :
      Alike program other twins (.send i argc receiver (some a)) (.send j argc receiver (some b))
  | makeClosure {a b : UInt32} (code : twins a b) :
      Alike program other twins (.makeClosure a) (.makeClosure b)
  | defineMethod {i j a b : UInt32} (h : program.SameText other i j) (code : twins a b) :
      Alike program other twins (.defineMethod i a) (.defineMethod j b)
  | aliasMethod {i j k l : UInt32} (new : program.SameText other i j)
      (old : program.SameText other k l) :
      Alike program other twins (.aliasMethod i k) (.aliasMethod j l)

/-- What a code object says about its unit beside the operations. -/
def Code.head (code : Code) : Code := { code with ops := #[], lines := #[], maxStack := 0 }

/-- The code objects agree in their heads, and their operations are alike one by one. -/
structure Code.Alike (program other : Program) (twins : UInt32 → UInt32 → Prop)
    (code code' : Code) : Prop where
  head : code.head = code'.head
  ops : List.Forall₂ (Op.Alike program other twins) code.ops.toList code'.ops.toList

/-- Paired code objects exist and are alike. -/
def Program.Mirrors (program other : Program) (twins : UInt32 → UInt32 → Prop) : Prop :=
  ∀ i j, twins i j → ∃ code code', program.code? i = some code ∧ other.code? j = some code' ∧
    code.Alike program other twins code'

namespace Op.Alike

variable {program other : Program} {twins : UInt32 → UInt32 → Prop} {op op' : Op}

theorem pops (h : Op.Alike program other twins op op') : op'.pops = op.pops := by
  cases h <;> rfl

theorem pushes (h : Op.Alike program other twins op op') : op'.pushes = op.pushes := by
  cases h <;> rfl

/-- Control goes on in the same way. -/
theorem successors (h : Op.Alike program other twins op op') (size ip height : Nat) :
    Verifier.successors size ip height op' = Verifier.successors size ip height op := by
  cases h <;> rfl

theorem visit (h : Op.Alike program other twins op op') {size ip height after : Nat}
    {next : List Nat} (visited : Verifier.visit size ip height op = .ok (after, next)) :
    Verifier.visit size ip height op' = .ok (after, next) := by
  unfold Verifier.visit at visited ⊢
  rw [h.pops, h.pushes, h.successors]
  split at visited
  · cases visited
  · rw [if_neg ‹_›]
    exact visited

end Op.Alike

namespace Verifier

variable {program other : Program} {twins : UInt32 → UInt32 → Prop} {ops ops' : Array Op}

theorem explore_alike (size : ops'.size = ops.size)
    (alike : ∀ (ip : Nat) (op : Op), ops[ip]? = some op →
      ∃ op', ops'[ip]? = some op' ∧ Op.Alike program other twins op op')
    {rounds : Nat} {pending : List (Nat × Nat)} {heights found : Heights}
    (h : explore ops rounds pending heights = .ok found) :
    explore ops' rounds pending heights = .ok found := by
  fun_induction explore ops rounds pending heights with
  | case1 rounds heights => simpa [explore] using h
  | case2 head rest heights => simpa [explore] using h
  | case3 rounds ip pending heights height hseen ih =>
      rw [explore, hseen]
      simp only [if_true]
      exact ih h
  | case4 => cases h
  | case5 rounds ip height pending heights hunseen hop ih =>
      have hop' : ops'[ip]? = none := by
        rw [Array.getElem?_eq_none_iff] at hop ⊢
        omega
      rw [explore, hunseen]
      simp only [hop']
      exact ih h
  | case6 rounds ip height pending heights hunseen op hop ih =>
      obtain ⟨op', hop', halike⟩ := alike ip op hop
      obtain ⟨⟨after, next⟩, hvisit, hrest⟩ := bind_ok h
      rw [explore, hunseen]
      simp only [hop', size, halike.visit hvisit]
      exact ih after next hrest

end Verifier

namespace Code.Alike

variable {program other : Program} {twins : UInt32 → UInt32 → Prop} {code code' : Code}

theorem name (h : code.Alike program other twins code') : code'.name = code.name :=
  (congrArg Code.name h.head).symm

theorem arity (h : code.Alike program other twins code') : code'.arity = code.arity :=
  (congrArg Code.arity h.head).symm

theorem localCount (h : code.Alike program other twins code') :
    code'.localCount = code.localCount :=
  (congrArg Code.localCount h.head).symm

theorem size (h : code.Alike program other twins code') : code'.ops.size = code.ops.size := by
  simpa using h.ops.length_eq.symm

/-- Corresponding operations are alike. -/
theorem op (h : code.Alike program other twins code') {ip : Nat} {op : Op}
    (hop : code.ops[ip]? = some op) :
    ∃ op', code'.ops[ip]? = some op' ∧ Op.Alike program other twins op op' := by
  have inside : ip < code.ops.size := (Array.getElem?_eq_some_iff.mp hop).1
  have inside' : ip < code'.ops.size := h.size ▸ inside
  refine ⟨code'.ops[ip], Array.getElem?_eq_getElem inside', ?_⟩
  have := h.ops.get (by simpa using inside) (by simpa using inside')
  obtain ⟨_, rfl⟩ := Array.getElem?_eq_some_iff.mp hop
  simpa using this

/-- The verifier accepts a code object if it accepts one like it. -/
theorem verify (h : code.Alike program other twins code') {most : Nat}
    (verified : code.verify = .ok most) : code'.verify = .ok most := by
  have heights : ∀ found, Verifier.heights code.ops = .ok found →
      Verifier.heights code'.ops = .ok found := by
    intro found hfound
    unfold Verifier.heights at hfound ⊢
    have empty : code'.ops.isEmpty = code.ops.isEmpty := by
      simp only [Array.isEmpty, h.size]
    rw [empty, h.size]
    split at hfound
    · cases hfound
    · rw [if_neg ‹_›]
      exact Verifier.explore_alike h.size (fun _ _ => h.op) hfound
  unfold Code.verify at verified ⊢
  split at verified
  · rename_i found hfound
    rw [heights found hfound]
    exact verified
  · cases verified

end Code.Alike

end BlockScript
