import BlockScript.Proofs.Backend.Issued

/-!
# Bodies and their declared effect

A body is a tree of operations, with the nested code of an operation as subtrees and each
method that is begun ended in the same tree. The operations of the contract have declared
effects on the implicit value stack. `Body.Effect` puts them together: it leads from the depth
before a body to the depth after it, one rule for each operation, and to nowhere if some
operation would find too few values or some nested code leaves the wrong number. A body is
balanced if it leads from an empty stack to one that a unit may return with.

Nothing here knows how a backend tracks depths, or in what order it checks them.
-/

namespace BlockScript

/-- A local is only reached for in closures that are open, of which that many are around. -/
def Primitive.Reaches (around : Nat) : Primitive → Prop
  | .assignLocal _ depth | .retrieveLocal _ depth => depth ≤ around
  | _ => True

/-- A tree of operations. -/
inductive Body where
  | skip
  | seq (first next : Body)
  | primitive (p : Primitive)
  | call (name : String) (shape : Invocation)
  | callBlock (name : String) (shape : Invocation) (scope : StaticScope) (arity : Nat) (body : Body)
  | array (count : Nat) (element : Nat → Body)
  | branch (onTrue onFalse : Body)
  | logical (connective : Connective) (right : Body)
  | loop (condition body : Body) (checkFirst : Bool)
  | closure (scope : StaticScope) (arity : Nat) (body : Body)
  | define (name : String) (arity localCount : Nat) (body : Body)
  /-- A method that is begun, given its body and ended. -/
  | unit (name : String) (arity localCount : Nat) (body : Body)
deriving Inhabited

namespace Body

/-- Issue the operations of a body. -/
def run {σ : Type} (contract : Contract σ) : Body → Gen σ Unit
  | skip => return ()
  | seq first next => do
    first.run contract
    next.run contract
  | primitive p => contract.primitive p
  | call name shape => contract.invoke name shape none
  | callBlock name shape scope arity body =>
    contract.invoke name shape (some { scope, arity, body := body.run contract })
  | array count element => contract.objectArray count fun index => (element index).run contract
  | branch onTrue onFalse => contract.branch (onTrue.run contract) (onFalse.run contract)
  | logical connective right => contract.logical connective (right.run contract)
  | loop condition body checkFirst =>
    contract.loop (condition.run contract) (body.run contract) checkFirst
  | closure scope arity body => contract.closure scope arity (body.run contract)
  | define name arity localCount body =>
    contract.defineMethod name arity localCount (body.run contract)
  | unit name arity localCount body => do
    let handle ← contract.beginMethod name arity localCount
    body.run contract
    contract.endMethod handle

/-! ## Effects -/

/-- The body leads from the one depth to the other. -/
inductive Effect : Body → (before after : Nat) → Prop
  | skip {depth : Nat} : Effect skip depth depth
  | seq {first next : Body} {before between after : Nat} (first_effect : Effect first before between)
      (next_effect : Effect next between after) : Effect (seq first next) before after
  | primitive {p : Primitive} {depth : Nat} (enough : p.taken ≤ depth) :
      Effect (primitive p) depth (depth - p.taken + p.given)
  | call {name : String} {shape : Invocation} {depth : Nat} (enough : shape.consumed ≤ depth) :
      Effect (call name shape) depth (depth - shape.consumed + 1)
  | callBlock {name : String} {shape : Invocation} {scope : StaticScope} {arity : Nat} {body : Body}
      {depth result : Nat} (body_effect : Effect body 0 result) (value : result ≤ 1)
      (enough : shape.consumed ≤ depth) :
      Effect (callBlock name shape scope arity body) depth (depth - shape.consumed + 1)
  /-- Each element leaves one value, and they are collapsed into one. -/
  | array {count depth : Nat} {element : Nat → Body}
      (elements : ∀ index < count, Effect (element index) (depth + index) (depth + index + 1)) :
      Effect (array count element) depth (depth + 1)
  /-- Both arms start without the condition and end equally deep. -/
  | branch {onTrue onFalse : Body} {depth after : Nat} (true_effect : Effect onTrue depth after)
      (false_effect : Effect onFalse depth after) : Effect (branch onTrue onFalse) (depth + 1) after
  /-- The right-hand side replaces the left value. -/
  | logical {connective : Connective} {right : Body} {depth : Nat}
      (right_effect : Effect right depth (depth + 1)) :
      Effect (logical connective right) (depth + 1) (depth + 1)
  /-- The condition leaves the value that is tested, and what the body leaves is dropped. -/
  | loop {condition body : Body} {checkFirst : Bool} {depth after : Nat}
      (condition_effect : Effect condition depth (depth + 1)) (body_effect : Effect body depth after)
      (dropped : after = depth ∨ after = depth + 1) :
      Effect (loop condition body checkFirst) depth depth
  | closure {scope : StaticScope} {arity : Nat} {body : Body} {depth result : Nat}
      (body_effect : Effect body 0 result) (value : result ≤ 1) :
      Effect (closure scope arity body) depth (depth + 1)
  | define {name : String} {arity localCount : Nat} {body : Body} {depth result : Nat}
      (body_effect : Effect body 0 result) (value : result ≤ 1) :
      Effect (define name arity localCount body) depth depth
  | unit {name : String} {arity localCount : Nat} {body : Body} {depth result : Nat}
      (body_effect : Effect body 0 result) (value : result ≤ 1) :
      Effect (unit name arity localCount body) depth depth

/-- The body of a unit leaves at most one value. -/
def Balanced (body : Body) : Prop := ∃ result, body.Effect 0 result ∧ result ≤ 1

/-! ## Effects by operation -/

section Operations

variable {depth after : Nat}

theorem effect_skip : skip.Effect depth after ↔ after = depth := by
  constructor
  · intro h
    cases h
    rfl
  · rintro rfl
    exact .skip

theorem effect_seq {first next : Body} : (seq first next).Effect depth after ↔
    ∃ between, first.Effect depth between ∧ next.Effect between after := by
  constructor
  · intro h
    cases h with
    | seq first_effect next_effect => exact ⟨_, first_effect, next_effect⟩
  · rintro ⟨between, first_effect, next_effect⟩
    exact .seq first_effect next_effect

theorem effect_primitive {p : Primitive} : (primitive p).Effect depth after ↔
    p.taken ≤ depth ∧ after = depth - p.taken + p.given := by
  constructor
  · intro h
    cases h with
    | primitive enough => exact ⟨enough, rfl⟩
  · rintro ⟨enough, rfl⟩
    exact .primitive enough

theorem effect_call {name : String} {shape : Invocation} : (call name shape).Effect depth after ↔
    shape.consumed ≤ depth ∧ after = depth - shape.consumed + 1 := by
  constructor
  · intro h
    cases h with
    | call enough => exact ⟨enough, rfl⟩
  · rintro ⟨enough, rfl⟩
    exact .call enough

theorem effect_callBlock {name : String} {shape : Invocation} {scope : StaticScope} {arity : Nat}
    {body : Body} : (callBlock name shape scope arity body).Effect depth after ↔
    body.Balanced ∧ shape.consumed ≤ depth ∧ after = depth - shape.consumed + 1 := by
  constructor
  · intro h
    cases h with
    | callBlock body_effect value enough => exact ⟨⟨_, body_effect, value⟩, enough, rfl⟩
  · rintro ⟨⟨result, body_effect, value⟩, enough, rfl⟩
    exact .callBlock body_effect value enough

theorem effect_array {count : Nat} {element : Nat → Body} :
    (array count element).Effect depth after ↔
    (∀ index < count, (element index).Effect (depth + index) (depth + index + 1)) ∧
      after = depth + 1 := by
  constructor
  · intro h
    cases h with
    | array elements => exact ⟨elements, rfl⟩
  · rintro ⟨elements, rfl⟩
    exact .array elements

theorem effect_branch {onTrue onFalse : Body} : (branch onTrue onFalse).Effect depth after ↔
    ∃ taken, depth = taken + 1 ∧ onTrue.Effect taken after ∧ onFalse.Effect taken after := by
  constructor
  · intro h
    cases h with
    | branch true_effect false_effect => exact ⟨_, rfl, true_effect, false_effect⟩
  · rintro ⟨taken, rfl, true_effect, false_effect⟩
    exact .branch true_effect false_effect

theorem effect_logical {connective : Connective} {right : Body} :
    (logical connective right).Effect depth after ↔
    ∃ taken, depth = taken + 1 ∧ right.Effect taken (taken + 1) ∧ after = depth := by
  constructor
  · intro h
    cases h with
    | logical right_effect => exact ⟨_, rfl, right_effect, rfl⟩
  · rintro ⟨taken, rfl, right_effect, rfl⟩
    exact .logical right_effect

theorem effect_loop {condition body : Body} {checkFirst : Bool} :
    (loop condition body checkFirst).Effect depth after ↔
    condition.Effect depth (depth + 1) ∧
      (∃ left, body.Effect depth left ∧ (left = depth ∨ left = depth + 1)) ∧ after = depth := by
  constructor
  · intro h
    cases h with
    | loop condition_effect body_effect dropped =>
        exact ⟨condition_effect, ⟨_, body_effect, dropped⟩, rfl⟩
  · rintro ⟨condition_effect, ⟨left, body_effect, dropped⟩, rfl⟩
    exact .loop condition_effect body_effect dropped

theorem effect_closure {scope : StaticScope} {arity : Nat} {body : Body} :
    (closure scope arity body).Effect depth after ↔ body.Balanced ∧ after = depth + 1 := by
  constructor
  · intro h
    cases h with
    | closure body_effect value => exact ⟨⟨_, body_effect, value⟩, rfl⟩
  · rintro ⟨⟨result, body_effect, value⟩, rfl⟩
    exact .closure body_effect value

theorem effect_define {name : String} {arity localCount : Nat} {body : Body} :
    (define name arity localCount body).Effect depth after ↔ body.Balanced ∧ after = depth := by
  constructor
  · intro h
    cases h with
    | define body_effect value => exact ⟨⟨_, body_effect, value⟩, rfl⟩
  · rintro ⟨⟨result, body_effect, value⟩, rfl⟩
    exact .define body_effect value

theorem effect_unit {name : String} {arity localCount : Nat} {body : Body} :
    (unit name arity localCount body).Effect depth after ↔ body.Balanced ∧ after = depth := by
  constructor
  · intro h
    cases h with
    | unit body_effect value => exact ⟨⟨_, body_effect, value⟩, rfl⟩
  · rintro ⟨⟨result, body_effect, value⟩, rfl⟩
    exact .unit body_effect value

end Operations

/-- The depth before a body decides about the depth after it. -/
theorem Effect.unique {body : Body} {depth after after' : Nat} (h : body.Effect depth after)
    (h' : body.Effect depth after') : after = after' := by
  induction h generalizing after' with
  | skip => exact (effect_skip.mp h').symm
  | seq _ _ first next =>
      obtain ⟨between, first_effect, next_effect⟩ := effect_seq.mp h'
      cases first first_effect
      exact next next_effect
  | primitive => exact (effect_primitive.mp h').2.symm
  | call => exact (effect_call.mp h').2.symm
  | callBlock => exact (effect_callBlock.mp h').2.2.symm
  | array => exact (effect_array.mp h').2.symm
  | branch _ _ onTrue _ =>
      obtain ⟨taken, heq, true_effect, -⟩ := effect_branch.mp h'
      cases heq
      exact onTrue true_effect
  | logical =>
      obtain ⟨-, -, -, rfl⟩ := effect_logical.mp h'
      rfl
  | loop => exact (effect_loop.mp h').2.2.symm
  | closure => exact (effect_closure.mp h').2.symm
  | define => exact (effect_define.mp h').2.symm
  | unit => exact (effect_unit.mp h').2.symm

/-! ## What else a backend asks of a body -/

/-- At most that many operations of code are recorded for the body in its own unit. -/
def size : Body → Nat
  | skip => 0
  | seq first next => first.size + next.size
  | primitive p => p.count
  | call _ _ => 1
  | callBlock _ _ _ _ _ => 1
  | array count element => ((List.range count).map fun index => (element index).size).sum + 1
  | branch onTrue onFalse => onTrue.size + onFalse.size + 2
  | logical _ right => right.size + 3
  | loop condition body _ => condition.size + body.size + 3
  | closure _ _ _ => 1
  | define _ _ _ _ => 1
  | unit _ _ _ _ => 0

/-- The code of a unit with this body, with what closes the unit, stays below the span. -/
def Short (span : Nat) (body : Body) : Prop := body.size + 2 < span

instance (span : Nat) (body : Body) : Decidable (body.Short span) :=
  inferInstanceAs (Decidable (body.size + 2 < span))

/-- Counts have 32 bits, locals are within reach, and units are not too long. -/
def Legal (span : Nat) : (around : Nat) → Body → Prop
  | _, skip => True
  | around, seq first next => first.Legal span around ∧ next.Legal span around
  | around, primitive p => p.Reaches around
  | _, call _ shape => shape.argc < 2 ^ 32
  | around, callBlock _ shape _ _ body =>
    shape.argc < 2 ^ 32 ∧ body.Short span ∧ body.Legal span (around + 1)
  | around, array count element => count < 2 ^ 32 ∧ ∀ index < count, (element index).Legal span around
  | around, branch onTrue onFalse => onTrue.Legal span around ∧ onFalse.Legal span around
  | around, logical _ right => right.Legal span around
  | around, loop condition body _ => condition.Legal span around ∧ body.Legal span around
  | around, closure _ _ body => body.Short span ∧ body.Legal span (around + 1)
  | _, define _ _ _ body | _, unit _ _ _ body => body.Short span ∧ body.Legal span 0

end Body

end BlockScript
