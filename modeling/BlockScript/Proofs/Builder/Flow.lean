import Mathlib.Logic.Function.Basic
import BlockScript.Proofs.Backend.BenchSteps

/-!
# The tracked depth is the height that the verifier finds

While a code object is recorded, its operations have heights: zero at the first one, the
tracked depth at the next one, and in between whatever the depth was when control could
first get there. Forward jumps that still wait for their target are exempt until they are
patched. Appending, patching and rewinding keep such heights, so when the builder is
finished nothing waits, the heights are consistent, and since control gets everywhere, the
greatest of them is what the verifier returns.
-/

namespace BlockScript

namespace Op

/-- The height after an operation that is reached with this one. -/
def after (op : Op) (height : Nat) : Nat := height - op.pops + op.pushes

/-- No operation leaves more than one value beyond those that it takes. -/
theorem pushes_le (op : Op) : op.pushes ≤ op.pops + 1 := by
  cases op with
  | dup => exact Nat.le_refl _
  | _ => first | exact Nat.zero_le _ | exact Nat.le_add_left ..

/-- No operation makes the stack more than one value higher. -/
theorem after_le (op : Op) (height : Nat) (enough : op.pops ≤ height) :
    op.after height ≤ height + 1 := by
  have := op.pushes_le
  unfold after
  omega

theorem after_pop (height : Nat) : pop.after height = height - 1 := rfl

theorem after_dup (height : Nat) : dup.after height = height - 1 + 2 := rfl

end Op

namespace JumpKind

variable (kind : JumpKind) (offset : Int32)

theorem jumpOffset?_op : (kind.op offset).jumpOffset? = some offset := by
  cases kind <;> rfl

theorem op_ne_ret : kind.op offset ≠ .ret := by
  cases kind <;> exact Op.noConfusion

theorem falls_op (offset' : Int32) : (kind.op offset).falls = (kind.op offset').falls := by
  cases kind <;> rfl

theorem pops_op (offset' : Int32) : (kind.op offset).pops = (kind.op offset').pops := by
  cases kind <;> rfl

theorem after_le_op (height : Nat) : (kind.op offset).after height ≤ height := by
  cases kind with
  | always => exact Nat.le_refl _
  | ifFalse | ifTrue => exact Nat.sub_le ..

theorem after_conditional (conditional : (kind.op offset).falls = true) (height : Nat) :
    (kind.op offset).after height = height - 1 := by
  cases kind with
  | always => cases conditional
  | ifFalse | ifTrue => rfl

theorem after_op (offset' : Int32) (height : Nat) :
    (kind.op offset).after height = (kind.op offset').after height := by
  cases kind <;> rfl

end JumpKind

namespace Builder

variable {builder builder' : Builder} {height : Nat → Nat} {pending : List JumpPatch}
  {count : Nat}

/-- A strict builder appends an operation only if the operands are there. -/
theorem emit_strict (strict : builder.stack.strict = true) {operation : String} {op : Op}
    (run : builder.emit operation op = .ok builder') :
    op.pops ≤ builder.depth ∧ builder' = { builder with
      code := { builder.code with ops := builder.code.ops.push op }
      stack := {
        depth := op.after builder.depth
        maxDepth := max builder.stack.maxDepth (op.after builder.depth)
        strict := true } } := by
  obtain ⟨stack, hconsume, rfl⟩ := emit_ok run
  unfold DepthTracker.consume at hconsume
  split at hconsume
  · rename_i enough
    cases hconsume
    refine ⟨enough, ?_⟩
    simp only [DepthTracker.produce, Op.after, Builder.depth, strict]
  · cases hconsume

theorem label_emit {operation : String} {op : Op} (run : builder.emit operation op = .ok builder') :
    builder'.label = builder.label + 1 := by
  obtain ⟨stack, -, rfl⟩ := emit_ok run
  exact Array.size_push ..

/-- A jump that was appended lies inside the code as long as that does not get shorter. -/
theorem emitJump_inside {operation : String} {kind : JumpKind} {patch : JumpPatch}
    (test : builder.emitJump operation kind = .ok (patch, builder')) {later : Builder}
    (longer : builder'.label ≤ later.label) : patch.ip < later.label := by
  obtain ⟨rfl, emits⟩ := emitJump_ok test
  have label := label_emit emits
  show builder.label < later.label
  omega

theorem label_patchHere (patch : JumpPatch) : (builder.patchHere patch).label = builder.label := by
  rw [patchHere_eq]
  exact Array.size_setIfInBounds ..

@[simp] theorem stack_patchHere (patch : JumpPatch) :
    (builder.patchHere patch).stack = builder.stack := by
  rw [patchHere_eq]

@[simp] theorem depth_patchHere (patch : JumpPatch) :
    (builder.patchHere patch).depth = builder.depth :=
  congrArg DepthTracker.depth (stack_patchHere patch)

/-- Aiming a jump leaves the depth alone. -/
theorem resetTo_patchHere (patch : JumpPatch) :
    (builder.patchHere patch).resetTo builder.depth = builder.patchHere patch := by
  rw [patchHere_eq]
  rfl

theorem strict_emit {operation : String} {op : Op}
    (run : builder.emit operation op = .ok builder') :
    builder'.stack.strict = builder.stack.strict := by
  obtain ⟨stack, hconsume, rfl⟩ := emit_ok run
  unfold DepthTracker.consume at hconsume
  split at hconsume
  · cases hconsume
    rfl
  · split at hconsume
    · cases hconsume
    · cases hconsume
      rfl

theorem label_emitTimes {operation : String} {op : Op} {count : Nat}
    (run : emitTimes operation op count builder = .ok builder') :
    builder'.label = builder.label + count := by
  induction count generalizing builder with
  | zero =>
      cases run
      rfl
  | succ count ih =>
      obtain ⟨next, hemit, run⟩ := Verifier.bind_ok run
      rw [ih run, label_emit hemit]
      omega

/-- The operation at a position agrees with the heights of the first `count` positions. -/
structure Agrees (height : Nat → Nat) (pending : List JumpPatch) (count position : Nat)
    (op : Op) : Prop where
  enough : op.pops ≤ height position
  stays : op ≠ .ret
  falls : op.falls = true → position + 1 < count ∧
    height (position + 1) = op.after (height position)
  jumps : ∀ offset, op.jumpOffset? = some offset → position ∈ pending.map (·.ip) ∨
    ∃ target < count, (target : Int) = position + offset.toInt ∧
      height target = op.after (height position)

/-- An operation still agrees when more positions get a height. If it waited for its target, it
still waits. -/
theorem Agrees.extend {height' : Nat → Nat} {pending' : List JumpPatch} {count' position : Nat}
    {op : Op} (agrees : Agrees height pending count position op) (inside : position < count)
    (more : count ≤ count') (old : ∀ i < count, height' i = height i)
    (waits : position ∈ pending.map (·.ip) → position ∈ pending'.map (·.ip)) :
    Agrees height' pending' count' position op := by
  refine ⟨?_, agrees.stays, fun falls => ?_, fun offset jump => ?_⟩
  · rw [old position inside]
    exact agrees.enough
  · obtain ⟨next, same⟩ := agrees.falls falls
    rw [old position inside, old _ next]
    exact ⟨Nat.lt_of_lt_of_le next more, same⟩
  · rw [old position inside]
    refine (agrees.jumps offset jump).imp waits ?_
    rintro ⟨target, lt, aimed, same⟩
    exact ⟨target, Nat.lt_of_lt_of_le lt more, aimed, (old target lt).trans same⟩

/-- Heights of the first `count` positions, which are those of the recorded operations and,
if control gets there, of the next one. Pending jumps still wait for their target. -/
structure Flow (height : Nat → Nat) (pending : List JumpPatch) (count : Nat)
    (builder : Builder) : Prop where
  strict : builder.stack.strict = true
  covers : builder.label ≤ count ∧ count ≤ builder.label + 1
  start : 0 < count ∧ height 0 = 0
  here : builder.label < count → height builder.label = builder.depth
  bound : ∀ i < count, height i ≤ builder.stack.maxDepth
  attained : ∃ i < count, height i = builder.stack.maxDepth
  room : builder.stack.maxDepth ≤ builder.label
  agrees : ∀ (i : Nat) op, builder.code.ops[i]? = some op → Agrees height pending count i op
  reached : ∀ i < count, 0 < i → ∃ j < i, ∃ op, builder.code.ops[j]? = some op ∧ op.Leads j i
  waiting : ∀ patch ∈ pending, builder.code.ops[patch.ip]? = some (patch.kind.op 0)
  distinct : (pending.map (·.ip)).Nodup

/-- Nothing is recorded yet, and control is at the beginning. -/
theorem flow_new (ops : builder.code.ops = #[]) (stack : builder.stack = .new true) :
    builder.Flow (fun _ => 0) [] 1 := by
  have label : builder.label = 0 := by
    rw [Builder.label, ops]
    rfl
  refine ⟨by rw [stack]; rfl, ?_, ⟨Nat.one_pos, rfl⟩, ?_, ?_, ⟨0, Nat.one_pos, ?_⟩, ?_, ?_, ?_,
    by simp, by simp⟩
  · omega
  · simp [Builder.depth, stack, DepthTracker.new]
  · simp
  · simp [stack, DepthTracker.new]
  · simp [stack, DepthTracker.new]
  · simp [ops]
  · intro i hi positive
    omega

namespace Flow

theorem depth_le (h : builder.Flow height pending (builder.label + 1)) :
    builder.depth ≤ builder.stack.maxDepth :=
  h.here (Nat.lt_succ_self _) ▸ h.bound _ (Nat.lt_succ_self _)

/-- Control does not get past a jump that is always taken. -/
theorem after_le_of_not_falls {op : Op} (stays : op ≠ .ret) (h : op.falls = false) (n : Nat) :
    op.after n = n := by
  cases op with
  | jump offset => rfl
  | ret => exact absurd rfl stays
  | _ => cases h

theorem ip_lt (h : builder.Flow height pending count) {patch : JumpPatch}
    (member : patch ∈ pending) : patch.ip < builder.label :=
  (Array.getElem?_eq_some_iff.mp (h.waiting patch member)).1

/-- An operation is appended where control gets. If it jumps, then to a position with the
right height, or it becomes one of the jumps that wait. -/
theorem append (h : builder.Flow height pending (builder.label + 1)) {operation : String}
    {op : Op} (run : builder.emit operation op = .ok builder') (stays : op ≠ .ret)
    (new : Option JumpPatch)
    (waits : ∀ patch ∈ new, patch.ip = builder.label ∧ op = patch.kind.op 0)
    (jumps : ∀ offset, op.jumpOffset? = some offset → new.isSome ∨ ∃ target ≤ builder.label,
      (target : Int) = builder.label + offset.toInt ∧ height target = op.after builder.depth) :
    ∃ height', builder'.Flow height' (new.toList ++ pending)
      (if op.falls then builder'.label + 1 else builder'.label) ∧
      ∀ i ≤ builder.label, height' i = height i := by
  obtain ⟨enough, hbuilder'⟩ := emit_strict h.strict run
  let height' := Function.update height (builder.label + 1) (op.after builder.depth)
  have old : ∀ i ≤ builder.label, height' i = height i :=
    fun i hi => Function.update_of_ne (by omega) _ _
  have last : height' (builder.label + 1) = op.after builder.depth := Function.update_self ..
  have here := h.here (Nat.lt_succ_self _)
  have slack := op.after_le builder.depth enough
  have depth_le := h.depth_le
  have room := h.room
  have label : builder'.label = builder.label + 1 := by
    rw [hbuilder']
    exact Array.size_push ..
  have maxDepth : builder'.stack.maxDepth =
      max builder.stack.maxDepth (op.after builder.depth) := by
    rw [hbuilder']
  have depth : builder'.depth = op.after builder.depth := by
    rw [hbuilder']
    rfl
  have kept : ∀ (i : Nat) op', builder.code.ops[i]? = some op' →
      builder'.code.ops[i]? = some op' ∧ i < builder.label := by
    intro i op' found
    have inside := (Array.getElem?_eq_some_iff.mp found).1
    rw [hbuilder', Array.getElem?_push_lt inside, ← Array.getElem?_eq_getElem inside]
    exact ⟨found, inside⟩
  have appended : builder'.code.ops[builder.label]? = some op := by
    rw [hbuilder']
    exact Array.getElem?_push_size
  rw [label]
  refine ⟨height', {
    strict := ?strict, covers := ?covers, start := ?start, here := ?here, bound := ?bound
    attained := ?attained, room := ?room, agrees := ?agrees, reached := ?reached
    waiting := ?waiting, distinct := ?distinct }, old⟩
  case strict =>
    rw [hbuilder']
  case covers =>
    split <;> omega
  case start =>
    exact ⟨by split <;> omega, (old 0 (Nat.zero_le _)).trans h.start.2⟩
  case here =>
    intro
    rw [label, last, depth]
  case bound =>
    intro i hi
    rw [maxDepth]
    by_cases new : i = builder.label + 1
    · rw [new, last]
      exact Nat.le_max_right ..
    · have inside : i ≤ builder.label := by split at hi <;> omega
      rw [old i inside]
      exact Nat.le_trans (h.bound i (by omega)) (Nat.le_max_left ..)
  case attained =>
    obtain ⟨i, hi, heq⟩ := h.attained
    rw [maxDepth]
    by_cases higher : op.after builder.depth ≤ builder.stack.maxDepth
    · refine ⟨i, by split <;> omega, ?_⟩
      rw [old i (by omega), heq, Nat.max_eq_left higher]
    · cases falls : op.falls with
      | false => exact absurd (after_le_of_not_falls stays falls _ ▸ depth_le) higher
      | true =>
          refine ⟨builder.label + 1, by simp, ?_⟩
          rw [last, Nat.max_eq_right (by omega)]
  case room =>
    rw [maxDepth, label]
    omega
  case agrees =>
    intro i op' found
    by_cases new : i = builder.label
    · subst new
      cases appended.symm.trans found
      refine ⟨?_, stays, fun falls => ?_, fun offset jump => ?_⟩
      · rw [old _ (Nat.le_refl _), here]
        exact enough
      · rw [if_pos falls, old _ (Nat.le_refl _), here]
        exact ⟨Nat.lt_succ_self _, last⟩
      · rw [old _ (Nat.le_refl _), here]
        rcases jumps offset jump with isSome | ⟨target, le, position, hheight⟩
        · obtain ⟨patch, rfl⟩ := Option.isSome_iff_exists.mp isSome
          exact .inl (List.mem_cons.mpr (.inl (waits patch rfl).1.symm))
        · refine .inr ⟨target, by split <;> omega, position, ?_⟩
          rw [old target le, hheight]
    · have inside : i < builder'.label := (Array.getElem?_eq_some_iff.mp found).1
      have inside : i < builder.label := by omega
      obtain ⟨op'', found'⟩ : ∃ op'', builder.code.ops[i]? = some op'' :=
        ⟨_, Array.getElem?_eq_getElem inside⟩
      cases (kept i op'' found').1.symm.trans found
      refine (h.agrees i op' found').extend (by omega) (by split <;> omega)
        (fun i lt => old i (Nat.le_of_lt_succ lt)) fun waits => ?_
      rw [List.map_append]
      exact List.mem_append_right _ waits
  case reached =>
    intro i hi positive
    by_cases new : i = builder.label + 1
    · have falls : op.falls = true := by
        by_contra stuck
        rw [if_neg stuck] at hi
        omega
      exact ⟨builder.label, by omega, op, appended, .inl ⟨falls, new⟩⟩
    · obtain ⟨j, lt, op', found, leads⟩ := h.reached i (by split at hi <;> omega) positive
      exact ⟨j, lt, op', (kept j op' found).1, leads⟩
  case waiting =>
    intro patch member
    rcases List.mem_append.mp member with member | member
    · obtain ⟨hip, hop⟩ := waits patch (Option.mem_toList.mp member)
      rw [hip, appended, hop]
    · exact (kept _ _ (h.waiting patch member)).1
  case distinct =>
    rw [List.map_append]
    refine List.nodup_append.mpr ⟨?_, h.distinct, ?_⟩
    · cases new <;> simp
    · intro ip isNew ip' isOld
      obtain ⟨patch, member, rfl⟩ := List.mem_map.mp isNew
      obtain ⟨patch', member', rfl⟩ := List.mem_map.mp isOld
      have := (waits patch (Option.mem_toList.mp member)).1
      have := h.ip_lt member'
      omega

/-- A jump that waited is aimed at the next operation, and the depth there is what the jump
leaves. Control gets there by the jump, whether it got there before or not. -/
theorem patch {patch : JumpPatch} (h : builder.Flow height (patch :: pending) count)
    (short : builder.label < 2 ^ 31) {depth : Nat}
    (hdepth : depth = (patch.kind.op 0).after (height patch.ip))
    (agrees : builder.label < count → builder.depth = depth) :
    ∃ height', ((builder.patchHere patch).resetTo depth).Flow height' pending
      (((builder.patchHere patch).resetTo depth).label + 1) ∧
      ∀ i < count, height' i = height i := by
  have label := @label_patchHere builder patch
  rw [patchHere_eq] at label ⊢
  let jump := patch.kind.op (offset patch.ip builder.label)
  let patched := Builder.resetTo { builder with
    code := { builder.code with ops := builder.code.ops.setIfInBounds patch.ip jump } } depth
  have earlier := h.ip_lt (List.mem_cons_self ..)
  have covers := h.covers
  replace label : patched.label = builder.label := label
  have aim : (offset patch.ip builder.label).toInt = (builder.label : Int) - patch.ip :=
    Int32.toInt_ofInt_of_le (by omega) (by omega)
  have old : ∀ i < count, Function.update height builder.label depth i = height i := by
    intro i hi
    by_cases next : i = builder.label
    · subst next
      rw [Function.update_self, ← agrees hi, h.here hi]
    · exact Function.update_of_ne next _ _
  have self : patched.code.ops[patch.ip]? = some jump :=
    Array.getElem?_setIfInBounds_self_of_lt earlier
  have other : ∀ i : Nat, i ≠ patch.ip → patched.code.ops[i]? = builder.code.ops[i]? :=
    fun i ne => Array.getElem?_setIfInBounds_ne ne.symm
  have waited := h.waiting patch (List.mem_cons_self ..)
  have jumped := h.agrees _ _ waited
  refine ⟨Function.update height builder.label depth, ?_, old⟩
  change patched.Flow _ _ (patched.label + 1)
  rw [label]
  refine {
    strict := h.strict, covers := ?covers, start := ⟨Nat.succ_pos _, ?start⟩, here := ?here
    bound := ?bound, attained := ?attained, room := ?room, agrees := ?agrees
    reached := ?reached, waiting := ?waiting, distinct := ?distinct }
  case covers =>
    rw [label]
    omega
  case start =>
    rw [old 0 h.start.1, h.start.2]
  case here =>
    intro
    rw [label, Function.update_self]
    rfl
  case bound =>
    intro i hi
    by_cases next : i = builder.label
    · have : depth ≤ height patch.ip := by
        rw [hdepth]
        exact patch.kind.after_le_op 0 _
      rw [next, Function.update_self]
      exact Nat.le_trans this (h.bound _ (by omega))
    · rw [old i (by omega)]
      exact h.bound i (by omega)
  case attained =>
    obtain ⟨i, hi, heq⟩ := h.attained
    exact ⟨i, by omega, (old i hi).trans heq⟩
  case room =>
    rw [label]
    exact h.room
  case agrees =>
    intro i op found
    by_cases here : i = patch.ip
    · subst here
      cases self.symm.trans found
      have falls_same := patch.kind.falls_op (offset patch.ip builder.label) 0
      have after_same := patch.kind.after_op (offset patch.ip builder.label) 0
      refine ⟨?_, patch.kind.op_ne_ret _, fun falls => ?_, fun offset jumps => ?_⟩
      · rw [old patch.ip (by omega), patch.kind.pops_op _ 0]
        exact jumped.enough
      · obtain ⟨lt, hheight⟩ := jumped.falls (falls_same ▸ falls)
        rw [old _ lt, old patch.ip (by omega), after_same, hheight]
        exact ⟨by omega, rfl⟩
      · rw [JumpKind.jumpOffset?_op] at jumps
        cases jumps
        refine .inr ⟨builder.label, by omega, by omega, ?_⟩
        rw [old patch.ip (by omega), Function.update_self, after_same, hdepth]
    · have found' := (other i here).symm.trans found
      have inside : i < builder.label := (Array.getElem?_eq_some_iff.mp found').1
      exact (h.agrees i op found').extend (by omega) (by omega) old
        fun waits => (List.mem_cons.mp waits).resolve_left here
  case reached =>
    intro i hi positive
    by_cases reached : i < count
    · obtain ⟨j, lt, op, found, leads⟩ := h.reached i reached positive
      by_cases here : j = patch.ip
      · subst here
        cases waited.symm.trans found
        refine ⟨_, lt, jump, self, ?_⟩
        rcases leads with ⟨falls, next⟩ | ⟨offset, jumps, position⟩
        · exact .inl ⟨patch.kind.falls_op _ 0 ▸ falls, next⟩
        · -- a jump that waits has offset zero
          rw [JumpKind.jumpOffset?_op] at jumps
          cases jumps
          simp only [Int32.toInt_zero] at position
          omega
      · exact ⟨j, lt, op, (other j here).trans found, leads⟩
    · refine ⟨patch.ip, by omega, jump, self, .inr ⟨_, patch.kind.jumpOffset?_op _, ?_⟩⟩
      omega
  case waiting =>
    intro patch' member
    have distinct := h.distinct
    rw [List.map_cons, List.nodup_cons] at distinct
    have ne : patch'.ip ≠ patch.ip := fun heq =>
      distinct.1 (heq ▸ List.mem_map_of_mem member)
    rw [other _ ne]
    exact h.waiting patch' (List.mem_cons_of_mem _ member)
  case distinct =>
    exact (List.nodup_cons.mp h.distinct).2

/-- The order in which jumps wait does not matter. -/
theorem perm (h : builder.Flow height pending count) {pending' : List JumpPatch}
    (same : pending.Perm pending') : builder.Flow height pending' count where
  strict := h.strict
  covers := h.covers
  start := h.start
  here := h.here
  bound := h.bound
  attained := h.attained
  room := h.room
  agrees i op found := by
    have agrees := h.agrees i op found
    refine ⟨agrees.enough, agrees.stays, agrees.falls, fun offset jumps => ?_⟩
    exact (agrees.jumps offset jumps).imp_left (same.map (·.ip)).mem_iff.mp
  reached := h.reached
  waiting patch member := h.waiting patch (same.mem_iff.mpr member)
  distinct := (same.map (·.ip)).nodup_iff.mp h.distinct

/-- Only the operations and the tracked depth matter. -/
theorem congr (h : builder.Flow height pending count)
    (ops : builder'.code.ops = builder.code.ops) (stack : builder'.stack = builder.stack) :
    builder'.Flow height pending count := by
  obtain ⟨code, stack', line⟩ := builder
  obtain ⟨code', stack'', line'⟩ := builder'
  simp only at ops stack
  subst stack
  obtain ⟨strict, covers, start, here, bound, attained, room, agrees, reached, waiting,
    distinct⟩ := h
  simp only [Builder.label, Builder.depth, ← ops] at *
  exact ⟨strict, covers, start, here, bound, attained, room, agrees, reached, waiting, distinct⟩

end Flow

/-! ## Builders that grow -/

/-- Operations were added so that a flow continues, with the same jumps waiting. Offsets of
jumps have 32 bits, so this is only said of code that is short enough for them. -/
structure Grows (builder builder' : Builder) : Prop where
  label : builder.label ≤ builder'.label
  flow : builder'.label < 2 ^ 31 → ∀ height pending,
    builder.Flow height pending (builder.label + 1) →
      ∃ height', builder'.Flow height' pending (builder'.label + 1) ∧
        ∀ i ≤ builder.label, height' i = height i

namespace Grows

variable {builder'' : Builder}

theorem refl (builder : Builder) : builder.Grows builder :=
  ⟨Nat.le_refl _, fun _ height _ flow => ⟨height, flow, fun _ _ => rfl⟩⟩

theorem trans (h₁ : builder.Grows builder') (h₂ : builder'.Grows builder'') :
    builder.Grows builder'' := by
  refine ⟨Nat.le_trans h₁.label h₂.label, fun short height pending flow => ?_⟩
  obtain ⟨height', flow', old⟩ := h₁.flow (Nat.lt_of_le_of_lt h₂.label short) height pending flow
  obtain ⟨height'', flow'', old'⟩ := h₂.flow short height' pending flow'
  exact ⟨height'', flow'', fun i hi => (old' i (Nat.le_trans hi h₁.label)).trans (old i hi)⟩

/-- Nothing was added. -/
theorem congr (ops : builder'.code.ops = builder.code.ops)
    (stack : builder'.stack = builder.stack) : builder.Grows builder' := by
  have label : builder'.label = builder.label := congrArg Array.size ops
  refine ⟨Nat.le_of_eq label.symm, fun _ height pending flow => ?_⟩
  exact ⟨height, label ▸ flow.congr ops stack, fun _ _ => rfl⟩

end Grows

/-- An operation that control goes past was added. -/
theorem Grows.emit {operation : String} {op : Op}
    (run : builder.emit operation op = .ok builder') (falls : op.falls = true)
    (straight : op.jumpOffset? = none) : builder.Grows builder' := by
  refine ⟨by rw [label_emit run]; exact Nat.le_succ _, fun short height pending flow => ?_⟩
  have stays : op ≠ .ret := by
    rintro rfl
    cases falls
  obtain ⟨height', flow', old⟩ := flow.append run stays none (fun _ none => by cases none)
    (fun offset jumps => by rw [straight] at jumps; cases jumps)
  rw [if_pos falls] at flow'
  exact ⟨height', flow', old⟩

/-- A forward jump waits from where it was emitted. -/
theorem Flow.emitJump (h : builder.Flow height pending (builder.label + 1)) {operation : String}
    {kind : JumpKind} {patch : JumpPatch}
    (run : builder.emitJump operation kind = .ok (patch, builder')) :
    ∃ height', builder'.Flow height' (patch :: pending)
      (if (kind.op 0).falls then builder'.label + 1 else builder'.label) ∧
      ∀ i ≤ builder.label, height' i = height i := by
  obtain ⟨rfl, appended⟩ := emitJump_ok run
  refine h.append appended (kind.op_ne_ret 0) (some ⟨builder.label, kind⟩) ?_ fun _ _ => .inl rfl
  rintro _ ⟨⟩
  exact ⟨rfl, rfl⟩

/-- A jump back leads to a position that was passed with the depth that is left now. -/
theorem Flow.emitJumpBack (h : builder.Flow height pending (builder.label + 1))
    {operation : String} {kind : JumpKind} {top : Nat}
    (run : builder.emitJumpBack operation kind top = .ok builder') (short : builder.label < 2 ^ 31)
    (earlier : top ≤ builder.label) (level : height top = (kind.op 0).after builder.depth) :
    ∃ height', builder'.Flow height' pending
      (if (kind.op 0).falls then builder'.label + 1 else builder'.label) ∧
      ∀ i ≤ builder.label, height' i = height i := by
  rw [kind.falls_op 0 (offset builder.label top)]
  refine h.append run (kind.op_ne_ret _) none (fun _ none => by cases none) fun o jumps => ?_
  rw [JumpKind.jumpOffset?_op] at jumps
  cases jumps
  refine .inr ⟨top, earlier, ?_, by rw [level, kind.after_op]⟩
  have : (offset builder.label top).toInt = (top : Int) - builder.label :=
    Int32.toInt_ofInt_of_le (by omega) (by omega)
  omega

/-- The depth after an operation that was appended to a strict builder. -/
theorem Flow.depth_emit (h : builder.Flow height pending count) {operation : String} {op : Op}
    (run : builder.emit operation op = .ok builder') :
    op.pops ≤ builder.depth ∧ builder'.depth = op.after builder.depth := by
  obtain ⟨enough, rfl⟩ := emit_strict h.strict run
  exact ⟨enough, rfl⟩

theorem depth_emitJump (strict : builder.stack.strict = true) {operation : String}
    {kind : JumpKind} {patch : JumpPatch}
    (run : builder.emitJump operation kind = .ok (patch, builder')) :
    builder'.depth = (kind.op 0).after builder.depth := by
  obtain ⟨-, run⟩ := emitJump_ok run
  obtain ⟨-, rfl⟩ := emit_strict strict run
  rfl

/-- The stack is higher by that many values, if it is one whose depth is a small number and
is checked. -/
def Leaves (builder builder' : Builder) (values : Nat) : Prop :=
  builder.depth < 2 ^ 31 → builder'.depth < 2 ^ 31 → builder'.stack.strict = true →
    builder'.depth = builder.depth + values

theorem Flow.depth_lt (h : builder.Flow height pending (builder.label + 1))
    (short : builder.label < 2 ^ 31) : builder.depth < 2 ^ 31 := by
  have := h.depth_le
  have := h.room
  omega

/-- Some values were dropped. -/
structure Drops (builder builder' : Builder) (count : Nat) : Prop where
  grows : builder.Grows builder'
  strict : builder'.stack.strict = builder.stack.strict
  level : builder.stack.strict = true → builder'.depth + count = builder.depth

theorem Drops.none (builder : Builder) : builder.Drops builder 0 := ⟨.refl _, rfl, fun _ => rfl⟩

theorem Drops.pop {operation : String} {popped : Builder}
    (run : builder.emit operation .pop = .ok popped) (rest : popped.Drops builder' count) :
    builder.Drops builder' (count + 1) := by
  have strict := strict_emit run
  refine ⟨(Grows.emit run rfl rfl).trans rest.grows, rest.strict.trans strict, fun checked => ?_⟩
  obtain ⟨enough, heq⟩ := emit_strict checked run
  have depth : popped.depth = Op.after .pop builder.depth := by
    rw [heq]
    rfl
  have := rest.level (strict.trans checked)
  have enough : 1 ≤ builder.depth := enough
  rw [Op.after_pop] at depth
  omega

/-- The net effect of a region is admitted, and it is the true one, as depths are not so large
that they are read as negative. -/
def Produces (builder builder' : Builder) (allowed : DepthTracker.Allowance) (produced : Int) :
    Prop :=
  builder'.stack.strict = true → allowed.admits produced = true ∧
    (builder.depth < 2 ^ 32 → builder'.depth < 2 ^ 32 →
      builder'.depth = builder.depth + produced.toNat)

namespace Produces

variable {allowed : DepthTracker.Allowance} {produced : Int}

/-- What the check after a region lets pass. -/
theorem of_check (least : 0 ≤ allowed.least) {construct : String} {line : Option UInt32}
    (passed : builder'.stack.expectDelta construct builder.depth allowed line = .ok ()) :
    builder.Produces builder' allowed (builder'.stack.deltaSince builder.depth) := by
  intro strict
  have admitted : allowed.admits (builder'.stack.deltaSince builder.depth) = true := by
    simp only [DepthTracker.expectDelta] at passed
    split at passed
    · rename_i admitted
      simpa [strict] using admitted
    · cases passed
  refine ⟨admitted, fun low low' => ?_⟩
  have depth : builder'.stack.depth = builder'.depth := rfl
  simp only [DepthTracker.Allowance.admits, DepthTracker.deltaSince, DepthTracker.signed,
    Bool.and_eq_true, decide_eq_true_eq, depth] at admitted ⊢
  rw [if_pos (by omega), if_pos (by omega)] at admitted ⊢
  omega

/-- A region that must leave exactly one value does. -/
theorem leaves_one (h : builder.Produces builder' .one produced) : builder.Leaves builder' 1 := by
  intro low low' strict
  obtain ⟨admitted, level⟩ := h strict
  have one : produced = 1 := by
    simp only [DepthTracker.Allowance.admits, Bool.and_eq_true, decide_eq_true_eq] at admitted
    exact Int.le_antisymm admitted.2 admitted.1
  have := level (by omega) (by omega)
  rwa [one] at this

/-- Nothing is left of a region that may leave a value, once that is dropped. -/
theorem leaves_none (h : builder.Produces builder' .atMostOne produced) {builder'' : Builder}
    (drops : builder'.Drops builder'' produced.toNat) : builder.Leaves builder'' 0 := by
  intro low low' strict
  have strict := drops.strict.symm.trans strict
  obtain ⟨admitted, level⟩ := h strict
  have few : produced.toNat ≤ 1 := by
    simp only [DepthTracker.Allowance.admits, Bool.and_eq_true, decide_eq_true_eq] at admitted
    exact Int.toNat_le.mpr admitted.2
  have dropped := drops.level strict
  have := level (by omega) (by omega)
  omega

end Produces

/-! ## Finished code objects -/

/-- What is left of a builder that can be finished: it returns with one value on its stack. -/
structure Returns (height : Nat → Nat) (builder : Builder) (ops : Array Op) : Prop where
  flow : builder.Flow height [] (builder.label + 1)
  value : builder.depth = 1
  ops : ops = builder.code.ops.push .ret

namespace Returns

variable {ops : Array Op} (h : builder.Returns height ops)

include h

theorem size : ops.size = builder.label + 1 := by
  rw [h.ops]
  exact Array.size_push ..

/-- Each operation is the return or was recorded before it. -/
theorem op_cases {i : Nat} {op : Op} (found : ops[i]? = some op) :
    (i = builder.label ∧ op = .ret) ∨ (i < builder.label ∧ builder.code.ops[i]? = some op) := by
  rw [h.ops, Array.getElem?_push] at found
  split at found
  · rename_i last
    cases found
    exact .inl ⟨last, rfl⟩
  · exact .inr ⟨(Array.getElem?_eq_some_iff.mp found).1, found⟩

/-- The heights of a flow are consistent. -/
theorem consistent :
    Verifier.Consistent ops fun i => if i ≤ builder.label then some (height i) else none where
  start := by rw [if_pos (Nat.zero_le _), h.flow.start.2]
  step i n hn := by
    obtain ⟨inside, rfl⟩ : i ≤ builder.label ∧ height i = n := by
      split at hn
      · exact ⟨‹_›, Option.some.inj hn⟩
      · cases hn
    have size := h.size
    obtain ⟨op, hop⟩ : ∃ op, ops[i]? = some op := ⟨_, Array.getElem?_eq_getElem (by omega)⟩
    have lands : ∀ t ≤ builder.label, height t = op.after (height i) →
        (if t ≤ builder.label then some (height t) else none) = some (op.after (height i)) := by
      intro t le heq
      rw [if_pos le, heq]
    rcases h.op_cases hop with ⟨rfl, rfl⟩ | ⟨before, found⟩
    · have one : height builder.label = 1 := (h.flow.here (Nat.lt_succ_self _)).trans h.value
      refine ⟨.ret, 0, [], hop, ?_, by simp⟩
      rw [one]
      rfl
    · have agrees := h.flow.agrees i op found
      obtain ⟨next, hvisit, hleads⟩ := Verifier.visit_of_inside agrees.enough agrees.stays
        (fun falls => by have := (agrees.falls falls).1; omega)
        (fun offset jump => by
          obtain waiting | ⟨target, lt, position, -⟩ := agrees.jumps offset jump
          · cases waiting
          · exact ⟨target, by omega, position⟩)
      refine ⟨op, _, next, hop, by rw [size]; exact hvisit, fun t member => ?_⟩
      rcases hleads t member with ⟨falls, rfl⟩ | ⟨offset, jump, position⟩
      · obtain ⟨lt, heq⟩ := agrees.falls falls
        exact lands _ (by omega) heq
      · obtain waiting | ⟨target, lt, position', heq⟩ := agrees.jumps offset jump
        · cases waiting
        · have : t = target := by omega
          exact this ▸ lands target (by omega) heq

/-- The verifier finds the height of every position that control gets to. -/
theorem at?_eq {heights : Verifier.Heights} (found : Verifier.heights ops = .ok heights)
    (sub : ∀ t k, heights.at? t = some k →
      (if t ≤ builder.label then some (height t) else none) = some k)
    (i : Nat) (inside : i ≤ builder.label) : heights.at? i = some (height i) := by
  induction i using Nat.strongRecOn with
  | _ i ih =>
      rcases Nat.eq_zero_or_pos i with rfl | positive
      · rw [(Verifier.heights_consistent found).start, h.flow.start.2]
      · obtain ⟨j, lt, op, hop, leads⟩ := h.flow.reached i (by omega) positive
        obtain ⟨op', after, next, hop', hvisit, hnext⟩ :=
          (Verifier.heights_consistent found).step j _ (ih j lt (by omega))
        have same : op' = op := by
          rcases h.op_cases hop' with ⟨last, -⟩ | ⟨-, hop'⟩
          · omega
          · exact Option.some.inj (hop'.symm.trans hop)
        subst same
        have reached := hnext i (Verifier.successors_leads (Verifier.visit_ok hvisit).2.2 leads)
        have := sub i after reached
        rw [if_pos inside] at this
        rw [reached, this]

/-- The greatest height that the verifier finds is the greatest depth that was tracked. -/
theorem greatest_eq {heights : Verifier.Heights} (found : Verifier.heights ops = .ok heights)
    (sub : ∀ t k, heights.at? t = some k →
      (if t ≤ builder.label then some (height t) else none) = some k) :
    heights.greatest = builder.stack.maxDepth := by
  apply Nat.le_antisymm
  · rcases (Verifier.heights_exploring found).attained with zero | ⟨t, k, op, hat, hop, heq⟩
    · omega
    · have hk := sub t k hat
      have inside : t ≤ builder.label := by
        by_contra outside
        rw [if_neg outside] at hk
        cases hk
      rw [if_pos inside, Option.some.injEq] at hk
      have le : k ≤ builder.stack.maxDepth := hk ▸ h.flow.bound t (by omega)
      have after_le : op.after k ≤ builder.stack.maxDepth := by
        rcases h.op_cases hop with ⟨-, rfl⟩ | ⟨-, hop⟩
        · exact Nat.le_trans (Nat.sub_le ..) le
        · have agrees := h.flow.agrees t op hop
          cases falls : op.falls with
          | false => rwa [Flow.after_le_of_not_falls agrees.stays falls]
          | true =>
              obtain ⟨lt, heq⟩ := agrees.falls falls
              rw [← hk, ← heq]
              exact h.flow.bound _ lt
      rw [heq]
      exact Nat.max_le.mpr ⟨after_le, le⟩
  · obtain ⟨i, lt, heq⟩ := h.flow.attained
    rw [← heq]
    exact Verifier.heights_le_greatest found (h.at?_eq found sub i (by omega))

end Returns

/-- A builder that nothing waits in, as long as jumps can span it. -/
def Sound (builder : Builder) : Prop :=
  builder.label < 2 ^ 31 → ∃ height, builder.Flow height [] (builder.label + 1)

/-- Nothing waits in a new unit. -/
theorem sound_new (ops : builder.code.ops = #[]) (stack : builder.stack = .new true) :
    builder.Sound := by
  intro
  have label : builder.label = 0 := by
    rw [Builder.label, ops]
    rfl
  refine ⟨fun _ => 0, ?_⟩
  rw [label]
  exact flow_new ops stack

theorem Sound.grows (h : builder.Sound) (grows : builder.Grows builder') : builder'.Sound := by
  intro short
  obtain ⟨height, flow⟩ := h (Nat.lt_of_le_of_lt grows.label short)
  obtain ⟨height', flow', -⟩ := grows.flow short height [] flow
  exact ⟨height', flow'⟩

/-- A strict builder that can be finished has at most one value. If it has none, it gets one. -/
theorem finish_strict {code : Code} (strict : builder.stack.strict = true)
    (run : builder.finish = .ok code) : ∃ valued closed, builder.depth ≤ 1 ∧
      ((builder.depth = 0 ∧ builder.emit "end of unit" .pushNil = .ok valued) ∨
        (builder.depth ≠ 0 ∧ valued = builder)) ∧
      valued.emit "end of unit" .ret = .ok closed ∧
      code = { closed.code with maxStack := closed.stack.maxDepth.toUInt32 } := by
  obtain ⟨surplus, popped, valued, closed, hsurplus, hpopped, hvalued, hclosed, hcode⟩ :=
    finish_ok run
  obtain ⟨low, rfl⟩ : builder.depth ≤ 1 ∧ surplus = 0 := by
    unfold DepthTracker.surplus at hsurplus
    split at hsurplus
    · exact ⟨‹_›, (Except.ok.inj hsurplus).symm⟩
    · cases hsurplus
  cases hpopped
  exact ⟨valued, closed, low, hvalued, hclosed, hcode⟩

/-- What is recorded stays where it is when something is appended. -/
theorem emit_keeps {operation : String} {op op' : Op} (run : builder.emit operation op = .ok builder')
    {i : Nat} (found : builder.code.ops[i]? = some op') : builder'.code.ops[i]? = some op' := by
  obtain ⟨stack, -, rfl⟩ := emit_ok run
  have inside := (Array.getElem?_eq_some_iff.mp found).1
  rw [Array.getElem?_push_lt inside, ← Array.getElem?_eq_getElem inside]
  exact found

/-- What is recorded stays where it is when a strict builder is finished. -/
theorem finish_keeps {code : Code} (strict : builder.stack.strict = true)
    (run : builder.finish = .ok code) {i : Nat} {op : Op}
    (found : builder.code.ops[i]? = some op) : code.ops[i]? = some op := by
  obtain ⟨valued, closed, -, ⟨-, pushed⟩ | ⟨-, rfl⟩, closes, rfl⟩ := finish_strict strict run
  · exact emit_keeps closes (emit_keeps pushed found)
  · exact emit_keeps closes found

/-- Finishing adds at least one operation. -/
theorem label_finish {code : Code} (run : builder.finish = .ok code) :
    builder.label < code.ops.size := by
  obtain ⟨surplus, popped, valued, closed, -, hpopped, hvalued, hclosed, rfl⟩ := finish_ok run
  have popped_label := label_emitTimes hpopped
  have closed_label := label_emit hclosed
  show builder.label < closed.label
  rcases hvalued with ⟨-, pushed⟩ | ⟨-, rfl⟩
  · have := label_emit pushed
    omega
  · omega

/-- What is finished without complaint is verified, and needs as much stack as the builder
tracked. -/
theorem Sound.finish {code : Code} (h : builder.Sound) (run : builder.finish = .ok code)
    (short : code.ops.size < 2 ^ 31) : code.verify = .ok code.maxStack.toNat := by
  have := label_finish run
  obtain ⟨height, flow⟩ := h (by omega)
  obtain ⟨valued, closed, low, hvalued, hclosed, rfl⟩ := finish_strict flow.strict run
  have grown := label_emit hclosed
  have short : closed.label < 2 ^ 31 := short
  obtain ⟨height', returns⟩ : ∃ height', valued.Returns height' closed.code.ops := by
    have ops : ∀ {height'} (flow' : valued.Flow height' [] (valued.label + 1)),
        closed.code.ops = valued.code.ops.push .ret := by
      intro height' flow'
      rw [(emit_strict flow'.strict hclosed).2]
    rcases hvalued with ⟨empty, pushed⟩ | ⟨nonempty, rfl⟩
    · obtain ⟨height', flow', -⟩ := (Grows.emit pushed rfl rfl).flow (by omega) _ _ flow
      refine ⟨height', flow', ?_, ops flow'⟩
      rw [(flow.depth_emit pushed).2, empty]
      rfl
    · exact ⟨height, flow, by omega, ops flow⟩
  obtain ⟨heights, found, sub⟩ := Verifier.heights_of_consistent returns.consistent
  have room := returns.flow.room
  have maxDepth : closed.stack.maxDepth = valued.stack.maxDepth := by
    rw [(emit_strict returns.flow.strict hclosed).2, returns.value]
    exact Nat.max_eq_left (Nat.zero_le _)
  have exact : closed.stack.maxDepth.toUInt32.toNat = closed.stack.maxDepth := by
    rw [Nat.toUInt32_eq, UInt32.toNat_ofNat_of_lt']
    have : UInt32.size = 2 ^ 32 := rfl
    omega
  simp only [Code.verify, found]
  rw [returns.greatest_eq found sub, exact, maxDepth]

end Builder

end BlockScript
