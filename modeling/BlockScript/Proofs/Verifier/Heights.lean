import BlockScript.Verifier

/-!
# What the verifier's heights say

An assignment of heights is consistent when the first operation has height zero and
every operation with a height is one that may be visited with it and hands the height
after it to everywhere control can go. The heights that the verifier finds are
consistent, and it finds heights whenever a consistent assignment exists. Both follow
from one invariant of the exploration: what an assigned operation hands on is assigned
already or still pending.
-/

namespace BlockScript

/-- Control may go on with the next operation. -/
def Op.falls : Op → Bool
  | .jump _ | .ret => false
  | _ => true

/-- Control may get from the operation at the first position to the second one. -/
def Op.Leads (op : Op) (source target : Nat) : Prop :=
  (op.falls = true ∧ target = source + 1) ∨
    ∃ offset, op.jumpOffset? = some offset ∧ (target : Int) = source + offset.toInt

namespace Verifier

/-- The height assigned to a position. -/
def Heights.at? (heights : Heights) (ip : Nat) : Option Nat := heights.assigned[ip]?.join

/-- The operation at `ip` may be reached with this height, and what it hands on is
reached. -/
def Accounts (ops : Array Op) (reached : Nat → Nat → Prop) (ip height : Nat) : Prop :=
  ∃ op after next, ops[ip]? = some op ∧ visit ops.size ip height op = .ok (after, next) ∧
    ∀ target ∈ next, reached target after

/-- An assignment of heights that every operation with a height agrees with. -/
structure Consistent (ops : Array Op) (height : Nat → Option Nat) : Prop where
  start : height 0 = some 0
  step : ∀ ip n, height ip = some n → Accounts ops (fun t k => height t = some k) ip n

variable {ops : Array Op} {heights : Heights} {ip n : Nat}

theorem Accounts.mono {reached reached' : Nat → Nat → Prop}
    (h : Accounts ops reached ip n) (sub : ∀ t k, reached t k → reached' t k) :
    Accounts ops reached' ip n := by
  obtain ⟨op, after, next, hop, hvisit, hnext⟩ := h
  exact ⟨op, after, next, hop, hvisit, fun t ht => sub t after (hnext t ht)⟩

section Visit

variable {size height after : Nat} {op : Op} {next : List Nat}

/-- A visit succeeds only if there are enough operands; the height after it is the
declared effect. -/
theorem visit_ok (h : visit size ip height op = .ok (after, next)) :
    op.pops ≤ height ∧ after = height - op.pops + op.pushes ∧
      successors size ip height op = .ok next := by
  unfold visit at h
  split at h
  · cases h
  · cases hs : successors size ip height op with
    | error fault => simp [hs, bind, Except.bind] at h
    | ok targets =>
        simp only [hs, bind, Except.bind, pure, Except.pure, Except.ok.injEq,
          Prod.mk.injEq] at h
        exact ⟨by omega, h.1.symm, by rw [h.2]⟩

theorem jumpTarget_ok {offset : Int32} {target : Nat}
    (h : jumpTarget size ip offset = .ok target) :
    target < size ∧ (target : Int) = ip + offset.toInt := by
  simp only [jumpTarget] at h
  split at h
  · simp only [Except.ok.injEq] at h
    omega
  · cases h

theorem fallThrough_ok {target : Nat} (h : fallThrough size ip = .ok target) :
    target = ip + 1 ∧ ip + 1 < size := by
  simp only [fallThrough] at h
  split at h
  · simp only [Except.ok.injEq] at h
    omega
  · cases h

theorem bind_ok {ε α β : Type} {first : Except ε α} {rest : α → Except ε β} {result : β}
    (h : first >>= rest = .ok result) : ∃ value, first = .ok value ∧ rest value = .ok result := by
  cases first with
  | error error => cases h
  | ok value => exact ⟨value, rfl, h⟩

/-- Everywhere that control can go after an operation. -/
theorem successors_cases (h : successors size ip height op = .ok next) :
    (op = .ret ∧ height = 1 ∧ next = []) ∨
    (∃ offset target, op = .jump offset ∧ jumpTarget size ip offset = .ok target ∧
      next = [target]) ∨
    (∃ offset target, op.falls ∧ op.jumpOffset? = some offset ∧
      jumpTarget size ip offset = .ok target ∧ ip + 1 < size ∧ next = [ip + 1, target]) ∨
    (op.falls ∧ op.jumpOffset? = none ∧ ip + 1 < size ∧ next = [ip + 1]) := by
  have conditional : ∀ offset, op.falls → op.jumpOffset? = some offset → (do
      let target ← jumpTarget size ip offset
      let following ← fallThrough size ip
      return [following, target] : Except VerifyFault (List Nat)) = .ok next →
      ∃ offset target, op.falls ∧ op.jumpOffset? = some offset ∧
        jumpTarget size ip offset = .ok target ∧ ip + 1 < size ∧ next = [ip + 1, target] := by
    intro offset falls jump hr
    obtain ⟨target, htarget, hr⟩ := bind_ok hr
    obtain ⟨following, hfollowing, hr⟩ := bind_ok hr
    obtain ⟨rfl, inside⟩ := fallThrough_ok hfollowing
    exact ⟨offset, target, falls, jump, htarget, inside, (Except.ok.inj hr).symm⟩
  unfold successors at h
  split at h
  · split at h
    · exact .inl ⟨rfl, ‹height = 1›, (Except.ok.inj h).symm⟩
    · cases h
  · obtain ⟨target, htarget, hr⟩ := bind_ok h
    exact .inr (.inl ⟨_, target, rfl, htarget, (Except.ok.inj hr).symm⟩)
  · exact .inr (.inr (.inl (conditional _ rfl rfl h)))
  · exact .inr (.inr (.inl (conditional _ rfl rfl h)))
  · rename_i noRet noJump noFalse noTrue
    obtain ⟨following, hfollowing, hr⟩ := bind_ok h
    obtain ⟨rfl, inside⟩ := fallThrough_ok hfollowing
    have plain : op.falls ∧ op.jumpOffset? = none := by
      cases op with
      | ret => exact (noRet rfl).elim
      | jump offset => exact (noJump offset rfl).elim
      | jumpIfFalse offset => exact (noFalse offset rfl).elim
      | jumpIfTrue offset => exact (noTrue offset rfl).elim
      | _ => exact ⟨rfl, rfl⟩
    exact .inr (.inr (.inr ⟨plain.1, plain.2, inside, (Except.ok.inj hr).symm⟩))

/-- Control goes to at most two places, all inside the code. -/
theorem successors_ok (h : successors size ip height op = .ok next) :
    next.length ≤ 2 ∧ ∀ target ∈ next, target < size := by
  rcases successors_cases h with ⟨-, -, rfl⟩ | ⟨offset, target, -, htarget, rfl⟩ |
    ⟨offset, target, -, -, htarget, inside, rfl⟩ | ⟨-, -, inside, rfl⟩
  · simp
  · simpa using (jumpTarget_ok htarget).1
  · simpa using ⟨inside, (jumpTarget_ok htarget).1⟩
  · simpa using inside

/-- The next operation is where control goes after one that may go on there. -/
theorem successors_falls (h : successors size ip height op = .ok next) (falls : op.falls) :
    ip + 1 ∈ next := by
  rcases successors_cases h with ⟨rfl, -, -⟩ | ⟨offset, target, rfl, -, -⟩ |
    ⟨offset, target, -, -, -, -, rfl⟩ | ⟨-, -, -, rfl⟩
  · cases falls
  · cases falls
  · exact List.mem_cons_self ..
  · exact List.mem_cons_self ..

/-- The target of a jump is where control goes after it. -/
theorem successors_jump {offset : Int32} (h : successors size ip height op = .ok next)
    (jump : op.jumpOffset? = some offset) :
    ∃ target ∈ next, (target : Int) = ip + offset.toInt := by
  rcases successors_cases h with ⟨rfl, -, -⟩ | ⟨offset', target, rfl, htarget, rfl⟩ |
    ⟨offset', target, -, jump', htarget, -, rfl⟩ | ⟨-, none, -, -⟩
  · cases jump
  · cases jump
    exact ⟨target, by simp, (jumpTarget_ok htarget).2⟩
  · cases jump.symm.trans jump'
    exact ⟨target, by simp, (jumpTarget_ok htarget).2⟩
  · cases jump.symm.trans none

theorem jumpTarget_of_inside {offset : Int32} {target : Nat} (inside : target < size)
    (position : (target : Int) = ip + offset.toInt) : jumpTarget size ip offset = .ok target := by
  unfold jumpTarget
  rw [if_pos (by omega), ← position, Int.toNat_natCast]

theorem fallThrough_of_inside (inside : ip + 1 < size) :
    fallThrough size ip = .ok (ip + 1) := if_pos inside

/-- An operation may be visited if there are enough operands and control stays inside. -/
theorem visit_of_inside (enough : op.pops ≤ height) (stays : op ≠ .ret)
    (falls : op.falls = true → ip + 1 < size)
    (jumps : ∀ offset, op.jumpOffset? = some offset → ∃ target < size,
      (target : Int) = ip + offset.toInt) :
    ∃ next, visit size ip height op = .ok (height - op.pops + op.pushes, next) ∧
      ∀ target ∈ next, op.Leads ip target := by
  have leads : ∃ next, successors size ip height op = .ok next ∧
      ∀ target ∈ next, op.Leads ip target := by
    have conditional : ∀ offset, op.falls = true → op.jumpOffset? = some offset →
        ∃ next, (do
          let target ← jumpTarget size ip offset
          let following ← fallThrough size ip
          return [following, target] : Except VerifyFault (List Nat)) = .ok next ∧
          ∀ target ∈ next, op.Leads ip target := by
      intro offset hfalls jump
      obtain ⟨target, inside, position⟩ := jumps offset jump
      rw [jumpTarget_of_inside inside position, fallThrough_of_inside (falls hfalls)]
      refine ⟨_, rfl, ?_⟩
      intro t member
      simp only [List.mem_cons, List.not_mem_nil, or_false] at member
      rcases member with rfl | rfl
      · exact .inl ⟨hfalls, rfl⟩
      · exact .inr ⟨offset, jump, position⟩
    cases op with
    | ret => exact absurd rfl stays
    | jump offset =>
        obtain ⟨target, inside, position⟩ := jumps offset rfl
        refine ⟨[target], ?_, ?_⟩
        · rw [successors, jumpTarget_of_inside inside position]
          rfl
        · intro t member
          rw [List.mem_singleton.mp member]
          exact .inr ⟨offset, rfl, position⟩
    | jumpIfFalse offset | jumpIfTrue offset => exact conditional offset rfl rfl
    | _ =>
        refine ⟨[ip + 1], ?_, ?_⟩
        · show (do return [← fallThrough size ip] : Except VerifyFault (List Nat)) = _
          rw [fallThrough_of_inside (falls rfl)]
          rfl
        · intro t member
          rw [List.mem_singleton.mp member]
          exact .inl ⟨rfl, rfl⟩
  obtain ⟨next, hsuccessors, hleads⟩ := leads
  refine ⟨next, ?_, hleads⟩
  rw [visit, if_neg (Nat.not_lt_of_le enough), hsuccessors]
  rfl

/-- Control goes everywhere that an operation may lead. -/
theorem successors_leads (h : successors size ip height op = .ok next) {target : Nat}
    (leads : op.Leads ip target) : target ∈ next := by
  rcases leads with ⟨falls, rfl⟩ | ⟨offset, jump, position⟩
  · exact successors_falls h falls
  · obtain ⟨target', member, position'⟩ := successors_jump h jump
    have : target = target' := by omega
    exact this ▸ member

end Visit

/-! ## The exploration -/

/-- How many operations have no height yet. -/
def Heights.open (heights : Heights) : Nat := heights.assigned.countP Option.isNone

/-- Assign a height to the operation at a position. -/
def Heights.assign (heights : Heights) (ip n after : Nat) : Heights where
  assigned := heights.assigned.setIfInBounds ip (some n)
  greatest := max heights.greatest (max after n)

theorem Heights.at?_assign {after : Nat} (inside : ip < heights.assigned.size) (t : Nat) :
    (heights.assign ip n after).at? t = if t = ip then some n else heights.at? t := by
  simp only [at?, assign, Array.getElem?_setIfInBounds]
  by_cases h : ip = t
  · subst h
    simp [inside]
  · simp [h, Ne.symm h]

theorem Heights.open_assign {after : Nat} (inside : ip < heights.assigned.size)
    (unassigned : heights.at? ip = none) :
    (heights.assign ip n after).open + 1 = heights.open := by
  have hnone : heights.assigned[ip] = none := by
    simpa [at?, Array.getElem?_eq_getElem inside] using unassigned
  have positive : 0 < heights.assigned.countP Option.isNone :=
    Array.countP_pos_iff.mpr ⟨_, Array.getElem_mem inside, by simp [hnone]⟩
  have counted := Array.countP_set (p := Option.isNone) (a := some n) inside
  simp only [hnone, Option.isNone_none, if_true, Option.isNone_some] at counted
  simp only [«open», assign, Array.setIfInBounds, dif_pos inside]
  rw [counted]
  simp
  omega

/-- What holds while arrivals are being settled: an operation with a height accounts for
it, up to arrivals that are still pending, and the greatest height is that of some
operation, before or after it. -/
structure Exploring (ops : Array Op) (pending : List (Nat × Nat)) (heights : Heights) :
    Prop where
  size : heights.assigned.size = ops.size
  inside : ∀ t k, (t, k) ∈ pending → t < ops.size
  start : heights.at? 0 = some 0 ∨ (0, 0) ∈ pending
  step : ∀ t k, heights.at? t = some k →
    Accounts ops (fun t k => heights.at? t = some k ∨ (t, k) ∈ pending) t k
  bound : ∀ t k op, heights.at? t = some k → ops[t]? = some op →
    max (k - op.pops + op.pushes) k ≤ heights.greatest
  attained : heights.greatest = 0 ∨ ∃ t k op, heights.at? t = some k ∧ ops[t]? = some op ∧
    heights.greatest = max (k - op.pops + op.pushes) k

namespace Exploring

variable {pending : List (Nat × Nat)}

/-- An arrival with the height that was assigned before settles itself. -/
theorem skip (h : Exploring ops ((ip, n) :: pending) heights) (seen : heights.at? ip = some n) :
    Exploring ops pending heights := by
  have drop : ∀ t k, heights.at? t = some k ∨ (t, k) ∈ (ip, n) :: pending →
      heights.at? t = some k ∨ (t, k) ∈ pending := by
    intro t k hk
    rcases hk with hk | hk
    · exact .inl hk
    · rcases List.mem_cons.mp hk with heq | hk
      · cases heq
        exact .inl seen
      · exact .inr hk
  exact {
    size := h.size
    inside := fun t k hk => h.inside t k (List.mem_cons_of_mem _ hk)
    start := drop 0 0 h.start
    step := fun t k hk => (h.step t k hk).mono drop
    bound := h.bound
    attained := h.attained }

/-- An arrival at an operation without a height assigns one. -/
theorem assign {op : Op} {after : Nat} {next : List Nat}
    (h : Exploring ops ((ip, n) :: pending) heights) (unassigned : heights.at? ip = none)
    (hop : ops[ip]? = some op) (hvisit : visit ops.size ip n op = .ok (after, next)) :
    Exploring ops (next.map (·, after) ++ pending) (heights.assign ip n after) := by
  have inside : ip < heights.assigned.size := by
    rw [h.size]
    exact h.inside ip n (List.mem_cons_self ..)
  have old : ∀ t k, heights.at? t = some k → (heights.assign ip n after).at? t = some k := by
    intro t k hk
    have hne : t ≠ ip := by
      rintro rfl
      simp [unassigned] at hk
    rw [Heights.at?_assign inside, if_neg hne, hk]
  have self : (heights.assign ip n after).at? ip = some n := by
    rw [Heights.at?_assign inside, if_pos rfl]
  have cases : ∀ t k, (heights.assign ip n after).at? t = some k →
      (t = ip ∧ k = n) ∨ heights.at? t = some k := by
    intro t k hk
    rw [Heights.at?_assign inside] at hk
    split at hk
    · exact .inl ⟨‹_›, (Option.some.inj hk).symm⟩
    · exact .inr hk
  have keep : ∀ t k, heights.at? t = some k ∨ (t, k) ∈ (ip, n) :: pending →
      (heights.assign ip n after).at? t = some k ∨ (t, k) ∈ next.map (·, after) ++ pending := by
    intro t k hk
    rcases hk with hk | hk
    · exact .inl (old t k hk)
    · rcases List.mem_cons.mp hk with heq | hk
      · cases heq
        exact .inl self
      · exact .inr (List.mem_append_right _ hk)
  obtain ⟨-, hafter, hsuccessors⟩ := visit_ok hvisit
  refine {
    size := ?size, inside := ?inside, start := keep 0 0 h.start, step := ?step
    bound := ?bound, attained := ?attained }
  case size =>
    simpa [Heights.assign] using h.size
  case inside =>
    intro t k hk
    rcases List.mem_append.mp hk with hk | hk
    · obtain ⟨t', ht', heq⟩ := List.mem_map.mp hk
      cases heq
      exact (successors_ok hsuccessors).2 _ ht'
    · exact h.inside t k (List.mem_cons_of_mem _ hk)
  case step =>
    intro t k hk
    rcases cases t k hk with ⟨rfl, rfl⟩ | hk
    · exact ⟨op, after, next, hop, hvisit,
        fun t ht => .inr (List.mem_append_left _ (List.mem_map_of_mem ht))⟩
    · exact (h.step t k hk).mono keep
  case bound =>
    intro t k op' hk hop'
    change _ ≤ max heights.greatest (max after n)
    rcases cases t k hk with ⟨rfl, rfl⟩ | hk
    · cases hop.symm.trans hop'
      omega
    · have := h.bound t k op' hk hop'
      omega
  case attained =>
    change max heights.greatest (max after n) = 0 ∨ _
    rcases Nat.le_total heights.greatest (max after n) with hle | hle
    · exact .inr ⟨ip, n, op, self, hop, by rw [← hafter]; exact Nat.max_eq_right hle⟩
    · rcases h.attained with hzero | ⟨t, k, op', hk, hop', heq⟩
      · exact .inl (by omega)
      · exact .inr ⟨t, k, op', old t k hk, hop', (Nat.max_eq_left hle).trans heq⟩

end Exploring

/-- Settling all arrivals leaves none pending. An assignment uses up one operation
without a height and adds at most two arrivals, so the rounds suffice. -/
theorem explore_ok {rounds : Nat} {pending : List (Nat × Nat)} {found : Heights}
    (h : Exploring ops pending heights) (budget : pending.length + 2 * heights.open ≤ rounds)
    (run : explore ops rounds pending heights = .ok found) : Exploring ops [] found := by
  induction rounds generalizing pending heights with
  | zero =>
      cases pending with
      | nil =>
          cases run
          exact h
      | cons arrival pending => simp at budget
  | succ rounds ih =>
      cases pending with
      | nil =>
          cases run
          exact h
      | cons arrival pending =>
          obtain ⟨ip, n⟩ := arrival
          have inside : ip < heights.assigned.size := by
            rw [h.size]
            exact h.inside ip n (List.mem_cons_self ..)
          simp only [List.length_cons] at budget
          unfold explore at run
          split at run
          · rename_i seen hseen
            split at run
            · subst n
              exact ih (h.skip hseen) (by omega) run
            · cases run
          · rename_i unassigned
            have inside' : ip < ops.size := h.size ▸ inside
            have hop := Array.getElem?_eq_getElem inside'
            simp only [hop] at run
            cases hvisit : visit ops.size ip n ops[ip] with
            | error fault => simp [hvisit, bind, Except.bind] at run
            | ok result =>
                obtain ⟨after, next⟩ := result
                simp only [hvisit, bind, Except.bind] at run
                have counted : (heights.assign ip n after).open + 1 = heights.open :=
                  Heights.open_assign inside unassigned
                have few := (successors_ok (visit_ok hvisit).2.2).1
                refine ih (h.assign unassigned hop hvisit) ?_ run
                simp only [List.length_append, List.length_map]
                omega

/-- An assignment of no heights at all, with one arrival at the first operation. -/
theorem exploring_start (nonempty : 0 < ops.size) :
    Exploring ops [(0, 0)] ⟨Array.replicate ops.size none, 0⟩ := by
  have none_at : ∀ t, (Heights.mk (Array.replicate ops.size none) 0).at? t = none := by
    intro t
    simp only [Heights.at?, Array.getElem?_replicate]
    split <;> rfl
  refine ⟨by simp, by simpa using nonempty, .inr (by simp), ?_, ?_, .inl rfl⟩
  · intro t k hk
    simp [none_at] at hk
  · intro t k op hk
    simp [none_at] at hk

theorem open_start : (Heights.mk (Array.replicate ops.size none) 0).open = ops.size := by
  simp [Heights.open, Array.countP_replicate]

theorem heights_exploring (h : Verifier.heights ops = .ok heights) :
    Exploring ops [] heights := by
  unfold Verifier.heights at h
  split at h
  · cases h
  · rename_i nonempty
    have nonempty : 0 < ops.size := by simpa [Array.size_pos_iff] using nonempty
    refine explore_ok (exploring_start nonempty) ?_ h
    rw [open_start]
    simp
    omega

/-- The heights that the verifier finds are consistent. -/
theorem heights_consistent (h : Verifier.heights ops = .ok heights) :
    Consistent ops heights.at? := by
  have explored := heights_exploring h
  constructor
  · simpa using explored.start
  · intro ip n hn
    exact (explored.step ip n hn).mono (by simp)

/-- No operation is reached with more values than the greatest height. -/
theorem heights_le_greatest (h : Verifier.heights ops = .ok heights)
    (hn : heights.at? ip = some n) : n ≤ heights.greatest := by
  have explored := heights_exploring h
  obtain ⟨op, after, next, hop, -, -⟩ := explored.step ip n hn
  have := explored.bound ip n op hn hop
  omega

/-! ## Finding heights -/

/-- The exploration stays within a consistent assignment, and never meets a fault. -/
theorem explore_of_consistent {height : Nat → Option Nat} (consistent : Consistent ops height)
    (rounds : Nat) {pending : List (Nat × Nat)}
    (arrivals : ∀ t k, (t, k) ∈ pending → height t = some k)
    (assigned : ∀ t k, heights.at? t = some k → height t = some k)
    (size : heights.assigned.size = ops.size) :
    ∃ found, explore ops rounds pending heights = .ok found ∧
      ∀ t k, found.at? t = some k → height t = some k := by
  induction rounds generalizing pending heights with
  | zero => cases pending <;> exact ⟨heights, by simp [explore], assigned⟩
  | succ rounds ih =>
      cases pending with
      | nil => exact ⟨heights, by simp [explore], assigned⟩
      | cons arrival pending =>
          obtain ⟨ip, n⟩ := arrival
          have hn : height ip = some n := arrivals ip n (List.mem_cons_self ..)
          have rest : ∀ t k, (t, k) ∈ pending → height t = some k :=
            fun t k hk => arrivals t k (List.mem_cons_of_mem _ hk)
          obtain ⟨op, after, next, hop, hvisit, hnext⟩ := consistent.step ip n hn
          unfold explore
          split
          · rename_i seen hseen
            have : seen = n := Option.some.inj ((assigned ip seen hseen).symm.trans hn)
            rw [if_pos this]
            exact ih rest assigned size
          · have inside : ip < heights.assigned.size := by
              rw [size]
              exact (Array.getElem?_eq_some_iff.mp hop).1
            simp only [hop, hvisit, bind, Except.bind]
            refine @ih (heights.assign ip n after) _ ?_ ?_ (by simpa [Heights.assign])
            · intro t k hk
              rcases List.mem_append.mp hk with hk | hk
              · obtain ⟨t', ht', heq⟩ := List.mem_map.mp hk
                cases heq
                exact hnext _ ht'
              · exact rest t k hk
            · intro t k hk
              rw [Heights.at?_assign inside] at hk
              split at hk
              · cases hk
                exact ‹t = ip› ▸ hn
              · exact assigned t k hk

/-- The verifier finds heights whenever a consistent assignment exists, and finds no
others. -/
theorem heights_of_consistent {height : Nat → Option Nat} (consistent : Consistent ops height) :
    ∃ found, Verifier.heights ops = .ok found ∧
      ∀ t k, found.at? t = some k → height t = some k := by
  obtain ⟨op, -, -, hop, -, -⟩ := consistent.step 0 0 consistent.start
  have nonempty : ops.isEmpty = false := by
    have := (Array.getElem?_eq_some_iff.mp hop).1
    simp only [Array.isEmpty, decide_eq_false_iff_not]
    omega
  unfold Verifier.heights
  rw [nonempty, if_neg Bool.false_ne_true]
  refine explore_of_consistent consistent _ ?_ ?_ (by simp)
  · intro t k hk
    simp only [List.mem_singleton, Prod.mk.injEq] at hk
    rw [hk.1, hk.2]
    exact consistent.start
  · intro t k hk
    simp only [Heights.at?, Array.getElem?_replicate] at hk
    split at hk <;> simp at hk

end Verifier

end BlockScript
