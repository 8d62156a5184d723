import BlockScript.Proofs.Builder.Flow

/-!
# Control flow and its failures

An operation with nested code emits a forward jump before it records its parts, and aims the
jump when they are done. So a flow is carried through the whole operation with the same jumps
waiting as before. If a part breaks off, the jump is never aimed. Then the flow still goes on,
but the jump waits for good: `Builder.Carries` says which jumps may have been torn off in this
way, and with none of them a builder grows.
-/

namespace BlockScript.Builder

variable {builder builder' builder'' : Builder} {height : Nat → Nat} {pending : List JumpPatch}
  {count : Nat} {torn torn' : JumpPatch → Prop}

/-- The jump stands in the code as it was emitted, without a target. -/
def Waits (builder : Builder) (patch : JumpPatch) : Prop :=
  builder.code.ops[patch.ip]? = some (patch.kind.op 0)

/-- Operations were added so that a flow continues. Some of the jumps that were added may be
waiting, if they may be torn. -/
structure Carries (torn : JumpPatch → Prop) (builder builder' : Builder) : Prop where
  label : builder.label ≤ builder'.label
  flow : builder'.label < 2 ^ 31 → ∀ height pending,
    builder.Flow height pending (builder.label + 1) →
      ∃ height' left, builder'.Flow height' (left ++ pending) (builder'.label + 1) ∧
        (∀ i ≤ builder.label, height' i = height i) ∧
        ∀ patch ∈ left, builder.label ≤ patch.ip ∧ torn patch

namespace Carries

theorem of_grows (grows : builder.Grows builder') : builder.Carries torn builder' := by
  refine ⟨grows.label, fun short height pending flow => ?_⟩
  obtain ⟨height', flow', old⟩ := grows.flow short height pending flow
  exact ⟨height', [], flow', old, by simp⟩

/-- Without torn jumps a builder grows. -/
theorem grows (h : builder.Carries (fun _ => False) builder') : builder.Grows builder' := by
  refine ⟨h.label, fun short height pending flow => ?_⟩
  obtain ⟨height', left, flow', old, untorn⟩ := h.flow short height pending flow
  obtain rfl : left = [] := List.eq_nil_iff_forall_not_mem.mpr fun patch member =>
    (untorn patch member).2
  exact ⟨height', flow', old⟩

theorem refl (builder : Builder) : builder.Carries torn builder := of_grows (.refl builder)

theorem mono (h : builder.Carries torn builder') (weaker : ∀ patch, torn patch → torn' patch) :
    builder.Carries torn' builder' := by
  refine ⟨h.label, fun short height pending flow => ?_⟩
  obtain ⟨height', left, flow', old, tears⟩ := h.flow short height pending flow
  exact ⟨height', left, flow', old, fun patch member =>
    (tears patch member).imp_right (weaker patch)⟩

/-- Jumps that were left behind later are left behind with those before. -/
theorem tears_append {start later : Nat} {left left' : List JumpPatch} (before : start ≤ later)
    (tears' : ∀ patch ∈ left', later ≤ patch.ip ∧ torn patch)
    (tears : ∀ patch ∈ left, start ≤ patch.ip ∧ torn patch) :
    ∀ patch ∈ left' ++ left, start ≤ patch.ip ∧ torn patch := by
  intro patch member
  rcases List.mem_append.mp member with member | member
  · exact (tears' patch member).imp_left (Nat.le_trans before)
  · exact tears patch member

theorem trans (h₁ : builder.Carries torn builder') (h₂ : builder'.Carries torn builder'') :
    builder.Carries torn builder'' := by
  refine ⟨Nat.le_trans h₁.label h₂.label, fun short height pending flow => ?_⟩
  obtain ⟨height', left, flow', old, tears⟩ :=
    h₁.flow (Nat.lt_of_le_of_lt h₂.label short) height pending flow
  obtain ⟨height'', left', flow'', old', tears'⟩ := h₂.flow short height' _ flow'
  refine ⟨height'', left' ++ left, List.append_assoc .. ▸ flow'', fun i hi => ?_, ?_⟩
  · rw [old' i (Nat.le_trans hi h₁.label), old i hi]
  · exact tears_append h₁.label tears' tears

/-- Whatever is torn was added, and stands in the code without a target. -/
theorem waits (h : builder.Carries torn builder') :
    builder.Carries (fun patch => builder.label ≤ patch.ip ∧ builder'.Waits patch) builder' := by
  refine ⟨h.label, fun short height pending flow => ?_⟩
  obtain ⟨height', left, flow', old, tears⟩ := h.flow short height pending flow
  exact ⟨height', left, flow', old, fun patch member => ⟨(tears patch member).1,
    (tears patch member).1, flow'.waiting patch (List.mem_append_left _ member)⟩⟩

end Carries

/-! ## Jumps that wait among others -/

namespace Flow

/-- A jump that waits among others is aimed at the next operation. -/
theorem aim {left : List JumpPatch} {patch : JumpPatch}
    (h : builder.Flow height (left ++ patch :: pending) count) (short : builder.label < 2 ^ 31)
    {depth : Nat} (hdepth : depth = (patch.kind.op 0).after (height patch.ip))
    (agrees : builder.label < count → builder.depth = depth) :
    ∃ height', ((builder.patchHere patch).resetTo depth).Flow height' (left ++ pending)
      (((builder.patchHere patch).resetTo depth).label + 1) ∧
      ∀ i < count, height' i = height i :=
  (h.perm List.perm_middle).patch short hdepth agrees

/-- Where the other arm of a branch begins, the jump past it waits, and it comes from where the
arm that was taken ended. -/
theorem otherwise {operation : String} {start taken trueEnd away : Builder}
    {toElse toEnd : JumpPatch} (flow : start.Flow height pending (start.label + 1))
    (test : start.emitJump operation .ifFalse = .ok (toElse, taken))
    (onTrue : taken.Carries torn trueEnd)
    (leave : trueEnd.emitJump operation .always = .ok (toEnd, away)) (short : away.label < 2 ^ 31) :
    ∃ height' left, ((away.patchHere toElse).resetTo taken.depth).Flow height'
        ((toEnd :: left) ++ pending) (away.label + 1) ∧
      (∀ i ≤ start.label, height' i = height i) ∧
      (∀ patch ∈ left, start.label ≤ patch.ip ∧ torn patch) ∧ height' toEnd.ip = trueEnd.depth := by
  obtain ⟨htoElse, htest⟩ := emitJump_ok test
  obtain ⟨htoEnd, hleave⟩ := emitJump_ok leave
  have label₁ := label_emit htest
  have label₂ := onTrue.label
  have label₃ := label_emit hleave
  obtain ⟨height₁, flow₁, old₁⟩ := flow.emitJump test
  obtain ⟨height₂, left, flow₂, old₂, tears⟩ := onTrue.flow (by omega) _ _ flow₁
  obtain ⟨height₃, flow₃, old₃⟩ := flow₂.emitJump leave
  -- the arm that was taken jumps away, so the jump to the other arm is what leads there
  have arrives : taken.depth = (toElse.kind.op 0).after (height₃ toElse.ip) := by
    rw [depth_emitJump flow.strict test, htoElse, old₃ _ (by simp only; omega),
      old₂ _ (by simp only; omega), old₁ _ (Nat.le_refl _), flow.here (Nat.lt_succ_self _)]
  have flow₃ : away.Flow height₃ ((toEnd :: left) ++ toElse :: pending) away.label := flow₃
  obtain ⟨height₄, flow₄, old₄⟩ := flow₃.aim short arrives fun live => absurd live (Nat.lt_irrefl _)
  have label₄ : (away.patchHere toElse).label = away.label := label_patchHere toElse
  have before : trueEnd.label < away.label := by omega
  refine ⟨height₄, left, label₄ ▸ flow₄, fun i hi => ?_,
    fun patch member => (tears patch member).imp_left (Nat.le_trans (by omega)), ?_⟩
  · rw [old₄ i (by omega), old₃ i (by omega), old₂ i (by omega), old₁ i hi]
  · rw [htoEnd, old₄ _ before, old₃ _ (Nat.le_refl _), flow₂.here (Nat.lt_succ_self _)]

end Flow

/-! ## Operations with nested code -/

namespace Carries

variable {operation : String}

/-- An operation breaks off after its jump. -/
theorem emitJump {kind : JumpKind} {patch : JumpPatch}
    (run : builder.emitJump operation kind = .ok (patch, builder'))
    (conditional : (kind.op 0).falls = true) : builder.Carries (· = patch) builder' := by
  obtain ⟨hpatch, appended⟩ := emitJump_ok run
  refine ⟨by rw [label_emit appended]; exact Nat.le_succ _, fun _ height pending flow => ?_⟩
  obtain ⟨height', flow', old⟩ := flow.emitJump run
  rw [if_pos conditional] at flow'
  exact ⟨height', [patch], flow', old, by simp [hpatch]⟩

/-- A branch breaks off in its other arm. -/
theorem otherwise {start taken trueEnd away : Builder} {toElse toEnd : JumpPatch}
    (test : start.emitJump operation .ifFalse = .ok (toElse, taken))
    (onTrue : taken.Carries torn trueEnd)
    (leave : trueEnd.emitJump operation .always = .ok (toEnd, away)) :
    start.Carries (fun patch => patch = toEnd ∨ torn patch)
      ((away.patchHere toElse).resetTo taken.depth) := by
  have label₁ := label_emit (emitJump_ok test).2
  have label₂ := onTrue.label
  have label₃ := label_emit (emitJump_ok leave).2
  have label₄ : ((away.patchHere toElse).resetTo taken.depth).label = away.label :=
    label_patchHere toElse
  refine ⟨by omega, fun short height pending flow => ?_⟩
  obtain ⟨height', left, flow', old, tears, -⟩ := flow.otherwise test onTrue leave (by omega)
  refine ⟨height', toEnd :: left, label₄ ▸ flow', old, fun patch member => ?_⟩
  rcases List.mem_cons.mp member with rfl | member
  · exact ⟨by rw [(emitJump_ok leave).1]; simp only; omega, .inl rfl⟩
  · exact (tears patch member).imp_right .inr

/-- Both arms of a branch start with the depth that the condition leaves, and end with the
same depth as each other. -/
theorem branch {start taken trueEnd away falseEnd : Builder} {toElse toEnd : JumpPatch}
    (test : start.emitJump operation .ifFalse = .ok (toElse, taken))
    (onTrue : taken.Carries torn trueEnd)
    (leave : trueEnd.emitJump operation .always = .ok (toEnd, away))
    (onFalse : ((away.patchHere toElse).resetTo taken.depth).Carries torn falseEnd)
    (level : falseEnd.stack.strict = true → trueEnd.depth = falseEnd.depth) :
    start.Carries torn (falseEnd.patchHere toEnd) := by
  obtain ⟨htoEnd, hleave⟩ := emitJump_ok leave
  have label₁ := label_emit (emitJump_ok test).2
  have label₂ := onTrue.label
  have label₃ := label_emit hleave
  have label₄ : ((away.patchHere toElse).resetTo taken.depth).label = away.label :=
    label_patchHere toElse
  have label₅ := onFalse.label
  refine ⟨by rw [label_patchHere]; omega, fun short height pending flow => ?_⟩
  rw [label_patchHere] at short
  obtain ⟨height₁, left₁, flow₁, old₁, tears₁, away_depth⟩ :=
    flow.otherwise test onTrue leave (by omega)
  obtain ⟨height₂, left₂, flow₂, old₂, tears₂⟩ := onFalse.flow short _ _ (label₄ ▸ flow₁)
  have joins : falseEnd.depth = (toEnd.kind.op 0).after (height₂ toEnd.ip) := by
    rw [old₂ _ (by simp only [htoEnd]; omega), away_depth, level flow₂.strict, htoEnd]
    rfl
  obtain ⟨height₃, flow₃, old₃⟩ := flow₂.aim short joins fun _ => rfl
  rw [resetTo_patchHere] at flow₃
  refine ⟨height₃, left₂ ++ left₁, List.append_assoc .. ▸ flow₃, fun i hi => ?_, ?_⟩
  · rw [old₃ i (by omega), old₂ i (by omega), old₁ i hi]
  · exact tears_append (by omega) tears₂ tears₁

/-- The right-hand side of an operator replaces the value that decided about it. -/
theorem logical {start doubled tested dropped done : Builder} {kind : JumpKind}
    {toEnd : JumpPatch} (double : start.emit operation .dup = .ok doubled)
    (test : doubled.emitJump operation kind = .ok (toEnd, tested))
    (conditional : (kind.op 0).falls = true)
    (drop : tested.emit operation .pop = .ok dropped) (right : dropped.Carries torn done)
    (level : dropped.Leaves done 1) : start.Carries torn (done.patchHere toEnd) := by
  obtain ⟨htoEnd, htest⟩ := emitJump_ok test
  have label₁ := label_emit double
  have label₂ := label_emit htest
  have label₃ := label_emit drop
  have label₄ := right.label
  refine ⟨by rw [label_patchHere]; omega, fun short height pending flow => ?_⟩
  rw [label_patchHere] at short
  obtain ⟨height₁, flow₁, old₁⟩ := (Grows.emit double rfl rfl).flow (by omega) _ _ flow
  obtain ⟨height₂, flow₂, old₂⟩ := flow₁.emitJump test
  rw [if_pos conditional] at flow₂
  obtain ⟨height₃, flow₃, old₃⟩ := (Grows.emit drop rfl rfl).flow (by omega) _ _ flow₂
  obtain ⟨height₄, left, flow₄, old₄, tears⟩ := right.flow short _ _ flow₃
  have joins : done.depth = (toEnd.kind.op 0).after (height₄ toEnd.ip) := by
    obtain ⟨enough, depth₁⟩ := flow.depth_emit double
    have depth₂ := depth_emitJump flow₁.strict test
    obtain ⟨-, depth₃⟩ := flow₂.depth_emit drop
    have level := level (flow₃.depth_lt (by omega)) (flow₄.depth_lt short) flow₄.strict
    rw [htoEnd, old₄ _ (by simp only; omega), old₃ _ (by simp only; omega),
      old₂ _ (Nat.le_refl _), flow₁.here (Nat.lt_succ_self _), level, depth₃, depth₂, depth₁]
    have enough : 1 ≤ start.depth := enough
    rw [kind.after_conditional 0 conditional, Op.after_pop,
      Op.after_dup]
    omega
  obtain ⟨height₅, flow₅, old₅⟩ := flow₄.aim short joins fun _ => rfl
  rw [resetTo_patchHere] at flow₅
  refine ⟨height₅, left, flow₅, fun i hi => ?_,
    fun patch member => (tears patch member).imp_left (Nat.le_trans (by omega))⟩
  rw [old₅ i (by omega), old₄ i (by omega), old₃ i (by omega), old₂ i (by omega), old₁ i hi]

/-- A loop that tests its condition first ends up where the condition was false. -/
theorem loopFirst {start tested entered repeated back : Builder} {toEnd : JumpPatch}
    (condition : start.Carries torn tested) (value : start.Leaves tested 1)
    (test : tested.emitJump operation .ifFalse = .ok (toEnd, entered))
    (body : entered.Carries torn repeated) (level : entered.Leaves repeated 0)
    (jump : repeated.emitJumpBack operation .always start.label = .ok back) :
    start.Carries torn (back.patchHere toEnd) := by
  obtain ⟨htoEnd, htest⟩ := emitJump_ok test
  have label₁ := condition.label
  have label₂ := label_emit htest
  have label₃ := body.label
  have label₄ := label_emit jump
  refine ⟨by rw [label_patchHere]; omega, fun short height pending flow => ?_⟩
  rw [label_patchHere] at short
  obtain ⟨height₁, left₁, flow₁, old₁, tears₁⟩ := condition.flow (by omega) _ _ flow
  obtain ⟨height₂, flow₂, old₂⟩ := flow₁.emitJump test
  obtain ⟨height₃, left₃, flow₃, old₃, tears₃⟩ := body.flow (by omega) _ _ flow₂
  have value := value (flow.depth_lt (by omega)) (flow₁.depth_lt (by omega)) flow₁.strict
  have level := level (flow₂.depth_lt (by omega)) (flow₃.depth_lt (by omega)) flow₃.strict
  have depth₂ : entered.depth = start.depth := by
    rw [depth_emitJump flow₁.strict test, value]
    rfl
  have top : height₃ start.label = (JumpKind.always.op 0).after repeated.depth := by
    rw [old₃ _ (by omega), old₂ _ (by omega), old₁ _ (Nat.le_refl _),
      flow.here (Nat.lt_succ_self _), level, depth₂]
    rfl
  obtain ⟨height₄, flow₄, old₄⟩ := flow₃.emitJumpBack jump (by omega) (by omega) top
  have joins : back.depth = (toEnd.kind.op 0).after (height₄ toEnd.ip) := by
    rw [htoEnd, old₄ _ (by simp only; omega), old₃ _ (by simp only; omega),
      old₂ _ (Nat.le_refl _), flow₁.here (Nat.lt_succ_self _), value]
    rw [(flow₃.depth_emit jump).2, level, depth₂]
    rfl
  obtain ⟨height₅, flow₅, old₅⟩ := flow₄.aim short joins fun _ => rfl
  rw [resetTo_patchHere] at flow₅
  refine ⟨height₅, left₃ ++ left₁, List.append_assoc .. ▸ flow₅, fun i hi => ?_, ?_⟩
  · have before : i < back.label := by omega
    rw [old₅ i before, old₄ i (by omega), old₃ i (by omega), old₂ i (by omega), old₁ i hi]
  · exact tears_append (by omega) tears₃ tears₁

/-- A loop that tests its condition last goes on where the condition is false. -/
theorem loopLast {start repeated tested back : Builder} (body : start.Carries torn repeated)
    (level : start.Leaves repeated 0) (condition : repeated.Carries torn tested)
    (value : repeated.Leaves tested 1)
    (jump : tested.emitJumpBack operation .ifTrue start.label = .ok back) :
    start.Carries torn back := by
  have label₁ := body.label
  have label₂ := condition.label
  have label₃ := label_emit jump
  refine ⟨by omega, fun short height pending flow => ?_⟩
  obtain ⟨height₁, left₁, flow₁, old₁, tears₁⟩ := body.flow (by omega) _ _ flow
  obtain ⟨height₂, left₂, flow₂, old₂, tears₂⟩ := condition.flow (by omega) _ _ flow₁
  have level := level (flow.depth_lt (by omega)) (flow₁.depth_lt (by omega)) flow₁.strict
  have value := value (flow₁.depth_lt (by omega)) (flow₂.depth_lt (by omega)) flow₂.strict
  have top : height₂ start.label = (JumpKind.ifTrue.op 0).after tested.depth := by
    rw [old₂ _ (by omega), old₁ _ (Nat.le_refl _), flow.here (Nat.lt_succ_self _), value, level]
    rfl
  obtain ⟨height₃, flow₃, old₃⟩ := flow₂.emitJumpBack jump (by omega) (by omega) top
  refine ⟨height₃, left₂ ++ left₁, List.append_assoc .. ▸ flow₃, fun i hi => ?_, ?_⟩
  · rw [old₃ i (by omega), old₂ i (by omega), old₁ i hi]
  · exact tears_append (by omega) tears₂ tears₁

end Carries

/-! ### Operations whose parts succeed -/

namespace Grows

variable {operation : String}

theorem branch {start taken trueEnd away falseEnd : Builder} {toElse toEnd : JumpPatch}
    (test : start.emitJump operation .ifFalse = .ok (toElse, taken))
    (onTrue : taken.Grows trueEnd)
    (leave : trueEnd.emitJump operation .always = .ok (toEnd, away))
    (onFalse : ((away.patchHere toElse).resetTo taken.depth).Grows falseEnd)
    (level : falseEnd.stack.strict = true → trueEnd.depth = falseEnd.depth) :
    start.Grows (falseEnd.patchHere toEnd) :=
  (Carries.branch test (.of_grows onTrue) leave (.of_grows onFalse) level).grows

theorem logical {start doubled tested dropped done : Builder} {kind : JumpKind}
    {toEnd : JumpPatch} (double : start.emit operation .dup = .ok doubled)
    (test : doubled.emitJump operation kind = .ok (toEnd, tested))
    (conditional : (kind.op 0).falls = true)
    (drop : tested.emit operation .pop = .ok dropped) (right : dropped.Grows done)
    (level : dropped.Leaves done 1) : start.Grows (done.patchHere toEnd) :=
  (Carries.logical double test conditional drop (.of_grows right) level).grows

theorem loopFirst {start tested entered repeated back : Builder} {toEnd : JumpPatch}
    (condition : start.Grows tested) (value : start.Leaves tested 1)
    (test : tested.emitJump operation .ifFalse = .ok (toEnd, entered))
    (body : entered.Grows repeated) (level : entered.Leaves repeated 0)
    (jump : repeated.emitJumpBack operation .always start.label = .ok back) :
    start.Grows (back.patchHere toEnd) :=
  (Carries.loopFirst (.of_grows condition) value test (.of_grows body) level jump).grows

theorem loopLast {start repeated tested back : Builder} (body : start.Grows repeated)
    (level : start.Leaves repeated 0) (condition : repeated.Grows tested)
    (value : repeated.Leaves tested 1)
    (jump : tested.emitJumpBack operation .ifTrue start.label = .ok back) :
    start.Grows back :=
  (Carries.loopLast (.of_grows body) level (.of_grows condition) value jump).grows

end Grows

/-! ## Finished code objects -/

/-- A builder that nothing waits in but torn jumps, as long as jumps can span it. -/
def Whole (torn : JumpPatch → Prop) (builder : Builder) : Prop :=
  builder.label < 2 ^ 31 → ∃ height left, builder.Flow height left (builder.label + 1) ∧
    ∀ patch ∈ left, torn patch

namespace Whole

theorem of_sound (h : builder.Sound) : builder.Whole torn := fun short =>
  have ⟨height, flow⟩ := h short
  ⟨height, [], flow, by simp⟩

theorem carries (h : builder.Whole torn) (carries : builder.Carries torn builder') :
    builder'.Whole torn := by
  intro short
  obtain ⟨height, left, flow, tears⟩ := h (Nat.lt_of_le_of_lt carries.label short)
  obtain ⟨height', left', flow', -, tears'⟩ := carries.flow short height left flow
  refine ⟨height', left' ++ left, flow', fun patch member => ?_⟩
  exact (List.mem_append.mp member).elim (fun member => (tears' patch member).2) (tears patch)

/-- What is finished without complaint is verified, or a torn jump stands in it. -/
theorem finish {code : Code} (h : builder.Whole torn) (run : builder.finish = .ok code)
    (short : code.ops.size < 2 ^ 31) : code.verify = .ok code.maxStack.toNat ∨
      ∃ patch, torn patch ∧ code.ops[patch.ip]? = some (patch.kind.op 0) := by
  have := label_finish run
  obtain ⟨height, left, flow, tears⟩ := h (by omega)
  cases left with
  | nil => exact .inl (Sound.finish (fun _ => ⟨height, flow⟩) run short)
  | cons patch rest =>
      have waiting := flow.waiting patch (List.mem_cons_self ..)
      exact .inr ⟨patch, tears patch (List.mem_cons_self ..),
        finish_keeps flow.strict run waiting⟩

end Whole

end BlockScript.Builder
