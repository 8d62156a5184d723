import Mathlib.Order.Bounds.Basic
import BlockScript.Proofs.Verifier.Heights

/-!
# What the verifier decides

Code obeys the rules if heights can be assigned to its reachable operations: the first one has
height zero, each finds enough operands and hands the height after it to everywhere that control
can go, all of that lies inside the code, and a return finds one value. The verifier accepts
exactly the code that obeys them, and reports the greatest of the heights.

The verifier settles the latest arrival first. Nothing depends on that: `Turn` settles any of the
pending arrivals, so a sequence of turns is an exploration in some order. Each assigns no more
than one height, so there are few of them, and whenever no turn is left, the verdict is the same.
-/

namespace BlockScript

/-- Control goes from the operation at a position to this one, which need not be in the code. -/
def Op.Aims (op : Op) (source : Nat) (target : Int) : Prop :=
  (op.falls = true ∧ target = source + 1) ∨
    ∃ offset, op.jumpOffset? = some offset ∧ target = source + offset.toInt

theorem Op.aims_iff_leads {op : Op} {source target : Nat} :
    op.Aims source target ↔ op.Leads source target := by
  unfold Aims Leads
  norm_cast

namespace Verifier

variable {ops : Array Op} {heights : Heights} {ip n : Nat}

/-! ## The rules -/

/-- Control reaches the position from the first operation. -/
inductive Reachable (ops : Array Op) : Nat → Prop where
  | start : Reachable ops 0
  | step {source target : Nat} {op : Op} (reached : Reachable ops source)
      (found : ops[source]? = some op) (leads : op.Leads source target) : Reachable ops target

/-- The code has these heights at its reachable operations. -/
structure Obeys (ops : Array Op) (height : Nat → Nat) : Prop where
  nonempty : 0 < ops.size
  start : height 0 = 0
  enough : ∀ ip op, Reachable ops ip → ops[ip]? = some op → op.pops ≤ height ip
  onward : ∀ ip op, Reachable ops ip → ops[ip]? = some op → ∀ target, op.Aims ip target →
    ∃ next : Nat, (next : Int) = target ∧ next < ops.size ∧
      height next = height ip - op.pops + op.pushes
  returns : ∀ ip, Reachable ops ip → ops[ip]? = some .ret → height ip = 1

/-- The heights before and after the reachable operations. -/
def Occurring (ops : Array Op) (height : Nat → Nat) : Set Nat :=
  {n | ∃ ip op, Reachable ops ip ∧ ops[ip]? = some op ∧
    (n = height ip ∨ n = height ip - op.pops + op.pushes)}

open Classical in
/-- The heights of the reachable operations alone. -/
noncomputable def confined (ops : Array Op) (height : Nat → Nat) (ip : Nat) : Option Nat :=
  if Reachable ops ip then some (height ip) else none

theorem confined_eq_some {height : Nat → Nat} :
    confined ops height ip = some n ↔ Reachable ops ip ∧ n = height ip := by
  unfold confined
  split <;> simp_all [eq_comm]

/-- Where control aims after an operation that was visited. -/
theorem aims_inside {size height after : Nat} {op : Op} {next : List Nat} {goal : Int}
    (visited : visit size ip height op = .ok (after, next)) (aims : op.Aims ip goal) :
    ∃ target ∈ next, (target : Int) = goal ∧ target < size := by
  obtain ⟨-, -, goes⟩ := visit_ok visited
  have inside := (successors_ok goes).2
  rcases aims with ⟨falls, rfl⟩ | ⟨offset, jump, rfl⟩
  · have member := successors_falls goes falls
    exact ⟨ip + 1, member, by norm_cast, inside _ member⟩
  · obtain ⟨target, member, position⟩ := successors_jump goes jump
    exact ⟨target, member, position, inside _ member⟩

namespace Consistent

variable {height : Nat → Option Nat} (consistent : Consistent ops height)
include consistent

/-- Reachable operations have heights. -/
theorem assigned (reached : Reachable ops ip) : ∃ n, height ip = some n := by
  induction reached with
  | start => exact ⟨0, consistent.start⟩
  | @step source target op _ found leads ih =>
      obtain ⟨n, hn⟩ := ih
      obtain ⟨op', after, next, found', visited, hands⟩ := consistent.step source n hn
      cases found.symm.trans found'
      obtain ⟨-, -, goes⟩ := visit_ok visited
      exact ⟨after, hands target (successors_leads goes leads)⟩

/-- Code with a consistent assignment obeys the rules. -/
theorem obeys : Obeys ops fun ip => (height ip).getD 0 := by
  have accounts {ip : Nat} {op : Op} (reached : Reachable ops ip) (found : ops[ip]? = some op) :
      ∃ n after next, height ip = some n ∧ visit ops.size ip n op = .ok (after, next) ∧
        ∀ target ∈ next, height target = some after := by
    obtain ⟨n, hn⟩ := consistent.assigned reached
    obtain ⟨op', after, next, found', visited, hands⟩ := consistent.step ip n hn
    cases found.symm.trans found'
    exact ⟨n, after, next, hn, visited, hands⟩
  constructor
  · obtain ⟨op, -, -, found, -⟩ := consistent.step 0 0 consistent.start
    exact (Array.getElem?_eq_some_iff.mp found).1
  · rw [consistent.start]
    rfl
  · intro ip op reached found
    obtain ⟨n, after, next, hn, visited, -⟩ := accounts reached found
    rw [hn]
    exact (visit_ok visited).1
  · intro ip op reached found target aims
    obtain ⟨n, after, next, hn, visited, hands⟩ := accounts reached found
    obtain ⟨target', member, position, inside⟩ := aims_inside visited aims
    refine ⟨target', position, inside, ?_⟩
    rw [hn, hands target' member, (visit_ok visited).2.1]
    rfl
  · intro ip reached found
    obtain ⟨n, after, next, hn, visited, -⟩ := accounts reached found
    obtain ⟨-, -, goes⟩ := visit_ok visited
    rcases successors_cases goes with ⟨-, one, -⟩ | ⟨_, _, jump, -⟩ | ⟨_, _, falls, -⟩ | ⟨falls, -⟩
    · rw [hn, one]
      rfl
    · cases jump
    · cases falls
    · cases falls

end Consistent

namespace Obeys

variable {height : Nat → Nat} (obeys : Obeys ops height)
include obeys

theorem inside (reached : Reachable ops ip) : ip < ops.size := by
  cases reached with
  | start => exact obeys.nonempty
  | step reached found leads =>
      obtain ⟨next, same, inside, -⟩ :=
        obeys.onward _ _ reached found _ (Op.aims_iff_leads.mpr leads)
      omega

/-- The heights of the reachable operations are a consistent assignment. -/
theorem consistent : Consistent ops (confined ops height) := by
  constructor
  · exact confined_eq_some.mpr ⟨.start, obeys.start.symm⟩
  · intro ip n assigned
    obtain ⟨reached, rfl⟩ := confined_eq_some.mp assigned
    obtain ⟨op, found⟩ : ∃ op, ops[ip]? = some op :=
      ⟨_, Array.getElem?_eq_getElem (obeys.inside reached)⟩
    -- wherever control goes from here, the height after the operation is assigned
    have hands (target : Nat) (leads : op.Leads ip target) :
        confined ops height target = some (height ip - op.pops + op.pushes) := by
      obtain ⟨next, same, -, after⟩ :=
        obeys.onward ip _ reached found _ (Op.aims_iff_leads.mpr leads)
      cases Int.ofNat.inj same
      exact confined_eq_some.mpr ⟨reached.step found leads, after.symm⟩
    by_cases returns : op = .ret
    · subst returns
      have one := obeys.returns ip reached found
      refine ⟨.ret, 0, [], found, ?_, nofun⟩
      rw [one]
      rfl
    · have falls (falls : op.falls = true) : ip + 1 < ops.size := by
        obtain ⟨next, same, inside, -⟩ := obeys.onward ip _ reached found _ (.inl ⟨falls, rfl⟩)
        omega
      have jumps (offset : Int32) (jump : op.jumpOffset? = some offset) :
          ∃ target < ops.size, (target : Int) = ip + offset.toInt := by
        obtain ⟨next, same, inside, -⟩ :=
          obeys.onward ip _ reached found _ (.inr ⟨offset, jump, rfl⟩)
        exact ⟨next, inside, same⟩
      obtain ⟨next, visited, leads⟩ :=
        visit_of_inside (obeys.enough ip op reached found) returns falls jumps
      exact ⟨_, _, next, found, visited, fun target member => hands target (leads target member)⟩

end Obeys

/-! ## Heights that are found -/

section Found

variable {height : Nat → Nat} (explored : Exploring ops [] heights)
  (within : ∀ t k, heights.at? t = some k → Reachable ops t ∧ k = height t)
include explored within

/-- Once no arrival is pending, exactly the reachable operations have a height. -/
theorem at?_of_reachable (reached : Reachable ops ip) : heights.at? ip = some (height ip) := by
  have consistent : Consistent ops heights.at? :=
    ⟨by simpa using explored.start, fun ip n hn => (explored.step ip n hn).mono (by simp)⟩
  obtain ⟨n, hn⟩ := consistent.assigned reached
  rw [hn, (within ip n hn).2]

/-- The greatest height that was seen is the greatest one that occurs. -/
theorem isGreatest_greatest (obeys : Obeys ops height) :
    IsGreatest (Occurring ops height) heights.greatest := by
  constructor
  · rcases explored.attained with zero | ⟨t, k, op, assigned, here, greatest⟩
    · refine ⟨0, _, .start, Array.getElem?_eq_getElem obeys.nonempty, .inl ?_⟩
      rw [zero, obeys.start]
    · obtain ⟨reached, rfl⟩ := within t k assigned
      refine ⟨t, op, reached, here, ?_⟩
      rw [greatest]
      omega
  · rintro n ⟨ip, op, reached, here, occurs⟩
    have bound := explored.bound ip _ op (at?_of_reachable explored within reached) here
    omega

end Found

/-! ## Any order of exploration -/

/-- How far an exploration has come. -/
structure Stage where
  pending : List (Nat × Nat)
  heights : Heights

/-- Nothing has a height, and control arrives at the first operation. -/
def Stage.first (ops : Array Op) : Stage := ⟨[(0, 0)], ⟨Array.replicate ops.size none, 0⟩⟩

/-- One of the pending arrivals is settled, whichever it is. -/
inductive Turn (ops : Array Op) : Stage → Stage → Prop where
  | again {pending rest : List (Nat × Nat)} {heights : Heights} {ip n : Nat}
      (picked : pending.Perm ((ip, n) :: rest)) (seen : heights.at? ip = some n) :
      Turn ops ⟨pending, heights⟩ ⟨rest, heights⟩
  | assign {pending rest : List (Nat × Nat)} {heights : Heights} {ip n : Nat} {op : Op}
      {after : Nat} {next : List Nat} (picked : pending.Perm ((ip, n) :: rest))
      (unassigned : heights.at? ip = none) (found : ops[ip]? = some op)
      (visited : visit ops.size ip n op = .ok (after, next)) :
      Turn ops ⟨pending, heights⟩ ⟨next.map (·, after) ++ rest, heights.assign ip n after⟩

/-- The exploration is over, because nothing is pending or because an arrival is at fault. -/
inductive Verdict (ops : Array Op) : Stage → Except VerifyFault Heights → Prop where
  | settled {heights : Heights} : Verdict ops ⟨[], heights⟩ (.ok heights)
  | clash {pending rest : List (Nat × Nat)} {heights : Heights} {ip n seen : Nat}
      (picked : pending.Perm ((ip, n) :: rest)) (assigned : heights.at? ip = some seen)
      (differ : seen ≠ n) : Verdict ops ⟨pending, heights⟩ (.error (.inconsistent ip seen n))
  | refused {pending rest : List (Nat × Nat)} {heights : Heights} {ip n : Nat} {op : Op}
      {fault : VerifyFault} (picked : pending.Perm ((ip, n) :: rest))
      (unassigned : heights.at? ip = none) (found : ops[ip]? = some op)
      (refuses : visit ops.size ip n op = .error fault) :
      Verdict ops ⟨pending, heights⟩ (.error fault)

/-- So many turns lead from one stage to the other. -/
inductive Turns (ops : Array Op) : Nat → Stage → Stage → Prop where
  | none {stage : Stage} : Turns ops 0 stage stage
  | more {count : Nat} {stage stage' stage'' : Stage} (turn : Turn ops stage stage')
      (rest : Turns ops count stage' stage'') : Turns ops (count + 1) stage stage''

/-- The stage keeps the invariant of the exploration. -/
def Stage.Sound (ops : Array Op) (stage : Stage) : Prop :=
  Exploring ops stage.pending stage.heights

/-- A bound on the turns to come: an assignment adds at most two arrivals. -/
def Stage.remaining (stage : Stage) : Nat := stage.pending.length + 2 * stage.heights.open

/-- The stage agrees with an assignment. -/
structure Stage.Agrees (height : Nat → Option Nat) (stage : Stage) : Prop where
  arrivals : ∀ t k, (t, k) ∈ stage.pending → height t = some k
  assigned : ∀ t k, stage.heights.at? t = some k → height t = some k

variable {stage stage' : Stage}

theorem sound_first (nonempty : 0 < ops.size) : (Stage.first ops).Sound ops :=
  exploring_start nonempty

theorem remaining_first : (Stage.first ops).remaining = 2 * ops.size + 1 := by
  show [(0, 0)].length + 2 * (Heights.mk (Array.replicate ops.size none) 0).open = _
  rw [open_start]
  simp
  omega

theorem agrees_first {height : Nat → Option Nat} (start : height 0 = some 0) :
    (Stage.first ops).Agrees height := by
  constructor
  · intro t k pending
    cases List.mem_singleton.mp pending
    exact start
  · intro t k assigned
    simp only [Stage.first, Heights.at?, Array.getElem?_replicate] at assigned
    split at assigned <;> cases assigned

/-- The order of the pending arrivals does not matter. -/
theorem Exploring.perm {pending pending' : List (Nat × Nat)} (h : Exploring ops pending heights)
    (same : pending.Perm pending') : Exploring ops pending' heights where
  size := h.size
  inside t k member := h.inside t k (same.mem_iff.mpr member)
  start := h.start.imp_right same.mem_iff.mp
  step t k assigned := (h.step t k assigned).mono fun _ _ => Or.imp_right same.mem_iff.mp
  bound := h.bound
  attained := h.attained

theorem Turn.sound (turn : Turn ops stage stage') (h : stage.Sound ops) : stage'.Sound ops := by
  cases turn with
  | again picked seen => exact (Exploring.perm h picked).skip seen
  | assign picked unassigned found visited =>
      exact (Exploring.perm h picked).assign unassigned found visited

theorem Turn.remaining (turn : Turn ops stage stage') (h : stage.Sound ops) :
    stage'.remaining < stage.remaining := by
  cases turn with
  | again picked seen =>
      have length := picked.length_eq
      simp only [List.length_cons] at length
      simp only [Stage.remaining]
      omega
  | @assign pending rest heights ip n op after next picked unassigned found visited =>
      have length := picked.length_eq
      have few := (successors_ok (visit_ok visited).2.2).1
      have inside : ip < heights.assigned.size := by
        rw [h.size]
        exact (Array.getElem?_eq_some_iff.mp found).1
      have counted : (heights.assign ip n after).open + 1 = heights.open :=
        Heights.open_assign inside unassigned
      simp only [List.length_cons] at length
      simp only [Stage.remaining, List.length_append, List.length_map]
      omega

theorem Turn.agrees {height : Nat → Option Nat} (consistent : Consistent ops height)
    (turn : Turn ops stage stage') (sound : stage.Sound ops) (h : stage.Agrees height) :
    stage'.Agrees height := by
  cases turn with
  | again picked seen =>
      exact ⟨fun t k member => h.arrivals t k (picked.mem_iff.mpr (List.mem_cons_of_mem _ member)),
        h.assigned⟩
  | @assign pending rest heights ip n op after next picked unassigned found visited =>
      have here : height ip = some n := h.arrivals ip n (picked.mem_iff.mpr (List.mem_cons_self ..))
      obtain ⟨op', after', next', found', visited', hands⟩ := consistent.step ip n here
      cases found.symm.trans found'
      cases visited.symm.trans visited'
      have inside : ip < heights.assigned.size := by
        rw [sound.size]
        exact (Array.getElem?_eq_some_iff.mp found).1
      constructor
      · intro t k member
        rcases List.mem_append.mp member with member | member
        · obtain ⟨target, goes, same⟩ := List.mem_map.mp member
          cases same
          exact hands _ goes
        · exact h.arrivals t k (picked.mem_iff.mpr (List.mem_cons_of_mem _ member))
      · intro t k assigned
        rw [Heights.at?_assign inside] at assigned
        split at assigned
        · rename_i same
          cases assigned
          rw [same, here]
        · exact h.assigned t k assigned

section Turns

variable {count : Nat}

theorem Turns.sound (turns : Turns ops count stage stage') (h : stage.Sound ops) :
    stage'.Sound ops := by
  induction turns with
  | none => exact h
  | more turn _ ih => exact ih (turn.sound h)

theorem Turns.remaining (turns : Turns ops count stage stage') (h : stage.Sound ops) :
    count + stage'.remaining ≤ stage.remaining := by
  induction turns with
  | none => exact Nat.le_of_eq (Nat.zero_add _)
  | more turn _ ih =>
      have rest := ih (turn.sound h)
      have first := turn.remaining h
      omega

theorem Turns.agrees {height : Nat → Option Nat} (consistent : Consistent ops height)
    (turns : Turns ops count stage stage') (sound : stage.Sound ops) (h : stage.Agrees height) :
    stage'.Agrees height := by
  induction turns with
  | none => exact h
  | more turn _ ih => exact ih (turn.sound sound) (turn.agrees consistent sound h)

end Turns

/-- An exploration goes on unless it is over. -/
theorem Stage.Sound.goes_on (h : stage.Sound ops) :
    (∃ stage', Turn ops stage stage') ∨ ∃ outcome, Verdict ops stage outcome := by
  obtain ⟨pending, heights⟩ := stage
  cases pending with
  | nil => exact .inr ⟨_, .settled⟩
  | cons arrival pending =>
      obtain ⟨ip, n⟩ := arrival
      obtain ⟨op, found⟩ : ∃ op, ops[ip]? = some op :=
        ⟨_, Array.getElem?_eq_getElem (h.inside ip n (List.mem_cons_self ..))⟩
      cases assigned : heights.at? ip with
      | some seen =>
          by_cases same : seen = n
          · exact .inl ⟨_, .again (.refl _) (same ▸ assigned)⟩
          · exact .inr ⟨_, .clash (.refl _) assigned same⟩
      | none =>
          cases visited : visit ops.size ip n op with
          | error fault => exact .inr ⟨_, .refused (.refl _) assigned found visited⟩
          | ok result => exact .inl ⟨_, .assign (.refl _) assigned found visited⟩

/-- No arrival is at fault if the stage agrees with a consistent assignment. -/
theorem Verdict.ok_of_agrees {height : Nat → Option Nat} (consistent : Consistent ops height)
    (h : stage.Agrees height) {outcome : Except VerifyFault Heights}
    (verdict : Verdict ops stage outcome) : stage.pending = [] ∧ outcome = .ok stage.heights := by
  cases verdict with
  | settled => exact ⟨rfl, rfl⟩
  | @clash pending rest heights ip n seen picked assigned differ =>
      have here := h.arrivals ip n (picked.mem_iff.mpr (List.mem_cons_self ..))
      exact absurd (Option.some.inj ((h.assigned ip seen assigned).symm.trans here)) differ
  | @refused pending rest heights ip n op fault picked unassigned found refuses =>
      have here := h.arrivals ip n (picked.mem_iff.mpr (List.mem_cons_self ..))
      obtain ⟨op', after, next, found', visited, -⟩ := consistent.step ip n here
      cases found.symm.trans found'
      cases refuses.symm.trans visited

/-- The verifier's own order comes to its end. -/
theorem explore_turns {rounds : Nat} {pending : List (Nat × Nat)}
    (h : Exploring ops pending heights) (budget : pending.length + 2 * heights.open ≤ rounds) :
    ∃ count stage, Turns ops count ⟨pending, heights⟩ stage ∧
      Verdict ops stage (explore ops rounds pending heights) := by
  induction rounds generalizing pending heights with
  | zero =>
      cases pending with
      | nil => exact ⟨0, _, .none, .settled⟩
      | cons arrival pending => simp at budget
  | succ rounds ih =>
      cases pending with
      | nil => exact ⟨0, _, .none, .settled⟩
      | cons arrival pending =>
          obtain ⟨ip, n⟩ := arrival
          obtain ⟨op, found⟩ : ∃ op, ops[ip]? = some op :=
            ⟨_, Array.getElem?_eq_getElem (h.inside ip n (List.mem_cons_self ..))⟩
          have goes {stage : Stage} (turn : Turn ops ⟨(ip, n) :: pending, heights⟩ stage) :
              ∃ count stage', Turns ops count ⟨(ip, n) :: pending, heights⟩ stage' ∧
                Verdict ops stage' (explore ops rounds stage.pending stage.heights) := by
            have fewer := turn.remaining h
            obtain ⟨count, stage', turns, verdict⟩ := ih (turn.sound h) (by
              simp only [Stage.remaining] at fewer
              omega)
            exact ⟨count + 1, stage', .more turn turns, verdict⟩
          unfold explore
          cases assigned : heights.at? ip with
          | some seen =>
              have assigned' : heights.assigned[ip]?.join = some seen := assigned
              rw [assigned']
              by_cases same : seen = n
              · dsimp only
                rw [if_pos same]
                exact goes (.again (.refl _) (same ▸ assigned))
              · dsimp only
                rw [if_neg same]
                exact ⟨0, _, .none, .clash (.refl _) assigned same⟩
          | none =>
              have assigned' : heights.assigned[ip]?.join = none := assigned
              rw [assigned', found]
              dsimp only
              cases visited : visit ops.size ip n op with
              | error fault => exact ⟨0, _, .none, .refused (.refl _) assigned found visited⟩
              | ok result => exact goes (.assign (.refl _) assigned found visited)

theorem heights_turns (nonempty : 0 < ops.size) :
    ∃ count stage, Turns ops count (.first ops) stage ∧
      Verdict ops stage (Verifier.heights ops) := by
  have occupied : ops.isEmpty = false := by
    simp only [Array.isEmpty, decide_eq_false_iff_not]
    omega
  unfold Verifier.heights
  rw [occupied, if_neg Bool.false_ne_true]
  refine explore_turns (exploring_start nonempty) ?_
  rw [open_start]
  simp
  omega

/-- Whatever the order, the code is accepted only if it obeys the rules, with the greatest height
that occurs. -/
theorem Verdict.accepts {count : Nat} (nonempty : 0 < ops.size)
    (turns : Turns ops count (.first ops) stage) (verdict : Verdict ops stage (.ok heights)) :
    ∃ height, Obeys ops height ∧ IsGreatest (Occurring ops height) heights.greatest := by
  have explored := turns.sound (sound_first nonempty)
  cases verdict
  have found : Consistent ops heights.at? :=
    ⟨by simpa using explored.start, fun ip n hn => (explored.step ip n hn).mono (by simp)⟩
  have obeys := found.obeys
  have agrees := turns.agrees obeys.consistent (sound_first nonempty)
    (agrees_first obeys.consistent.start)
  exact ⟨_, obeys, isGreatest_greatest explored
    (fun t k assigned => confined_eq_some.mp (agrees.assigned t k assigned)) obeys⟩

/-- Whatever the order, code that obeys the rules is accepted. -/
theorem Verdict.of_obeys {height : Nat → Nat} (obeys : Obeys ops height) {count : Nat}
    (turns : Turns ops count (.first ops) stage) {outcome : Except VerifyFault Heights}
    (verdict : Verdict ops stage outcome) :
    ∃ heights, outcome = .ok heights ∧ IsGreatest (Occurring ops height) heights.greatest := by
  have agrees := turns.agrees obeys.consistent (sound_first obeys.nonempty)
    (agrees_first obeys.consistent.start)
  obtain ⟨settled, rfl⟩ := verdict.ok_of_agrees obeys.consistent agrees
  have explored := turns.sound (sound_first obeys.nonempty)
  unfold Stage.Sound at explored
  rw [settled] at explored
  exact ⟨_, rfl, isGreatest_greatest explored
    (fun t k assigned => confined_eq_some.mp (agrees.assigned t k assigned)) obeys⟩

end Verifier

open Verifier in
/-- The verifier accepts code exactly if its reachable operations have heights that obey the
rules, and gives the greatest height that occurs. It gets there by settling arrivals; in whatever
order they are settled, this ends after few turns, and the verdict is the same. -/
theorem Code.verify_decides (code : Code) :
    (∀ most, code.verify = .ok most ↔
      ∃ height, Obeys code.ops height ∧ IsGreatest (Occurring code.ops height) most) ∧
    (0 < code.ops.size →
      (∃ count stage, Turns code.ops count (.first code.ops) stage ∧
        Verdict code.ops stage (heights code.ops)) ∧
      ∀ count stage, Turns code.ops count (.first code.ops) stage →
        count ≤ 2 * code.ops.size + 1 ∧
        ((∃ stage', Turn code.ops stage stage') ∨ ∃ outcome, Verdict code.ops stage outcome) ∧
        ∀ outcome, Verdict code.ops stage outcome →
          outcome.toOption.map (·.greatest) = code.verify.toOption) := by
  have accepted_iff (most : Nat) : code.verify = .ok most ↔
      ∃ height, Obeys code.ops height ∧ IsGreatest (Occurring code.ops height) most := by
    have verify_eq : code.verify = .ok most ↔
        ∃ found, heights code.ops = .ok found ∧ found.greatest = most := by
      unfold Code.verify
      cases heights code.ops <;> simp
    rw [verify_eq]
    constructor
    · rintro ⟨found, run, rfl⟩
      have nonempty : 0 < code.ops.size := (heights_consistent run).obeys.nonempty
      obtain ⟨count, stage, turns, verdict⟩ := heights_turns nonempty
      exact Verdict.accepts nonempty turns (run ▸ verdict)
    · rintro ⟨height, obeys, greatest⟩
      obtain ⟨count, stage, turns, verdict⟩ := heights_turns obeys.nonempty
      obtain ⟨found, run, greatest'⟩ := Verdict.of_obeys obeys turns verdict
      exact ⟨found, run, greatest'.unique greatest⟩
  refine ⟨accepted_iff, fun nonempty => ⟨heights_turns nonempty, ?_⟩⟩
  intro count stage turns
  have sound := turns.sound (sound_first nonempty)
  refine ⟨?_, sound.goes_on, ?_⟩
  · have bound := turns.remaining (sound_first nonempty)
    rw [remaining_first] at bound
    omega
  · intro outcome verdict
    cases outcome with
    | ok found =>
        rw [(accepted_iff _).mpr (verdict.accepts nonempty turns)]
        rfl
    | error fault =>
        cases verified : code.verify with
        | error error => rfl
        | ok most =>
            obtain ⟨height, obeys, -⟩ := (accepted_iff most).mp verified
            obtain ⟨found, same, -⟩ := Verdict.of_obeys obeys turns verdict
            cases same

namespace Verifier

/-- A loop that jumps back over its body. -/
def circling : Code where
  name := "m"
  kind := .method
  ops := #[.pushFalse, .jumpIfFalse 4, .pushNil, .pop, .jump (-4), .pushNil, .ret]

theorem circling_decided : circling.verify = .ok 1 ∧
    (∃ height, Obeys circling.ops height ∧ IsGreatest (Occurring circling.ops height) 1) ∧
    0 < circling.ops.size ∧
    ∀ count stage, Turns circling.ops count (.first circling.ops) stage → count ≤ 15 := by
  have verified : circling.verify = .ok 1 := by decide
  have nonempty : 0 < circling.ops.size := by decide
  obtain ⟨accepted_iff, explores⟩ := circling.verify_decides
  exact ⟨verified, (accepted_iff 1).mp verified, nonempty,
    fun count stage turns => ((explores nonempty).2 count stage turns).1⟩

end Verifier

end BlockScript
