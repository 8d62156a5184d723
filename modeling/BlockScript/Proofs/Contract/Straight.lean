import BlockScript.Proofs.Builder.Flow

/-!
# Operations without nested code

An operation without nested code is recorded as at most one operation of the machine, which
control goes past. So what it takes from the stack and leaves there is known beforehand.
-/

namespace BlockScript

/-- Control goes past the operation, which takes and leaves that many values. -/
structure Op.Straight (op : Op) (taken given : Nat) : Prop where
  pops : op.pops = taken
  pushes : op.pushes = given
  falls : op.falls = true
  straight : op.jumpOffset? = none

theorem Op.Straight.counts {op : Op} {taken given : Nat} (h : op.Straight taken given) :
    given ≤ taken + 1 := by
  rw [← h.pops, ← h.pushes]
  exact op.pushes_le

namespace Primitive

/-- The values that the operation takes. -/
def taken : Primitive → Nat
  | consume | assignLocal _ _ | toArray | assignConstant _ | assignIvar _ | assignGlobal _
  | negate => 1
  | yield hasArgs => hasArgs.toNat
  | _ => 0

/-- The values that the operation leaves. -/
def given : Primitive → Nat
  | consume | line _ | assignLocal _ _ | aliasMethod _ _ | assignConstant _ | assignIvar _
  | assignGlobal _ => 0
  | _ => 1

/-- Only a source line is not recorded as an operation. -/
def count : Primitive → Nat
  | line _ => 0
  | _ => 1

/-- What the operation becomes in code takes and leaves as many values. -/
def Form.Acts (taken given count : Nat) : Form → Prop
  | .op single => count = 1 ∧ single.Straight taken given
  | .pooled _ make => count = 1 ∧ ∀ position, (make position).Straight taken given
  | .access index depth assign => count = 1 ∧ (Bench.localOp index depth assign).Straight taken given
  | .aliasMethod _ _ => count = 1 ∧ taken = 0 ∧ given = 0
  | .yield hasArgs => count = 1 ∧ taken = hasArgs.toNat ∧ given = 1
  | .line _ => count = 0 ∧ taken = 0 ∧ given = 0

theorem straight_localOp (index depth : Nat) (assign : Bool) :
    (Bench.localOp index depth assign).Straight assign.toNat (1 - assign.toNat) := by
  unfold Bench.localOp
  dsimp only
  cases assign <;>
  · dsimp only
    split <;> exact ⟨rfl, rfl, rfl, rfl⟩

theorem acts_form (p : Primitive) : p.form.Acts p.taken p.given p.count := by
  cases p with
  | assignLocal index depth => exact ⟨rfl, straight_localOp index depth true⟩
  | retrieveLocal index depth => exact ⟨rfl, straight_localOp index depth false⟩
  | yield hasArgs => exact ⟨rfl, rfl, rfl⟩
  | line line => exact ⟨rfl, rfl, rfl⟩
  | aliasMethod newName oldName => exact ⟨rfl, rfl, rfl⟩
  | consume | retrieveSelf | fixnum | toArray | loadFalse | loadTrue | loadNil | negate =>
      exact ⟨rfl, rfl, rfl, rfl, rfl⟩
  | bignum | string | symbol | retrieveConstant | assignConstant | retrieveIvar | assignIvar
  | assignGlobal | retrieveGlobal => exact ⟨rfl, fun _ => ⟨rfl, rfl, rfl, rfl⟩⟩

end Primitive

theorem Invocation.straight_send {shape : Invocation} (few : shape.argc < 2 ^ 31)
    (name : UInt32) (block : Option UInt32) :
    (Op.send name shape.argc.toUInt32 shape.hasReceiver block).Straight shape.consumed 1 := by
  refine ⟨?_, rfl, rfl, rfl⟩
  change shape.argc.toUInt32.toNat + shape.hasReceiver.toNat = shape.consumed
  rw [Program.toNat_toUInt32_short few]
  rfl

end BlockScript
