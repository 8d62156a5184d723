import BlockScript.Proofs.Backend.Completed

/-!
# Scripts that are executed without checks

Where the script is executed, its operations do the same whether stacks are checked or not, as long
as they find their operands. Only the bodies that are recorded meanwhile are completed.
-/

namespace BlockScript.Interpreter

variable {υ α γ : Type} {fuel taken given taken' given' : Nat}

/-- Wherever the script is executed, the second computation does with checks what the first one
does without them, and it takes and leaves that many values. -/
structure Completes (taken given : Nat) (work work' : Work Interpreter υ α) : Prop where
  runs : Runs taken given work'
  repeats {session : Session Interpreter υ} : Live session.checking →
    taken ≤ session.backend.top.stack.length → Repeats Session.checking work work' session

theorem Live.offers {session : Session Interpreter υ} (live : Live session.checking) (count : Nat) :
    session.bench.Offers count := by
  intro recording found
  cases (Bench.checking_found found).symm.trans live.executes.recording?

namespace Completes

variable {work work' : Work Interpreter υ α}

theorem cast (h : Completes taken given work work') (same : taken = taken') (same' : given = given') :
    Completes taken' given' work work' :=
  same ▸ same' ▸ h

/-- What is below the operands stays there. -/
theorem frame (h : Completes taken given work work') {whole : Nat} (enough : taken ≤ whole) :
    Completes whole (whole - taken + given) work work' where
  runs := h.runs.frame enough
  repeats live covered := h.repeats live (Nat.le_trans enough covered)

theorem pure (value : α) : Completes 0 0 (Pure.pure value : Work Interpreter υ α) (Pure.pure value) where
  runs := .pure value
  repeats _ _ := .pure value

/-- What comes second takes what the first one left, and then what was there before. -/
theorem bind {next next' : α → Work Interpreter υ γ} (h₁ : Completes taken given work work')
    (h₂ : ∀ value, Completes taken' given' (next value) (next' value)) :
    Completes (taken + (taken' - given)) (given' + (given - taken')) (work >>= next)
      (work' >>= next') where
  runs := h₁.runs.bind fun value => (h₂ value).runs
  repeats {session} live enough := by
    refine (h₁.repeats live (by omega)).bind fun value session₁ _ again => ?_
    have scene := (h₁.runs.ends live (Nat.le_trans (Nat.le_add_right ..) enough)).ok again
    have length : session₁.backend.top.stack.length =
        given + (session.backend.top.stack.length - taken) := scene.stack.length
    exact (h₂ value).repeats (live.scene scene) (by omega)

/-- What comes first leaves the stack alone. -/
theorem after {next next' : α → Work Interpreter υ γ} (h₁ : Completes 0 0 work work')
    (h₂ : ∀ value, Completes taken given (next value) (next' value)) :
    Completes taken given (work >>= next) (work' >>= next') :=
  (bind h₁ h₂).cast (by omega) (by omega)

theorem intern (constant : Constant) : Completes 0 0
    (Work.onBench (Bench.intern constant) : Work Interpreter υ UInt32)
    (Work.onBench (Bench.intern constant)) where
  runs := .intern constant
  repeats _ _ := Work.repeats_onBench (Bench.repeats_intern constant)

theorem perform {operation : String} {op : Op} (h : op.Straight taken given) : Completes taken given
    (perform fuel operation op : Work Interpreter υ Unit) (perform fuel operation op) where
  runs := .perform h
  repeats live _ := repeats_perform (live.offers _)

theorem primitive (fuel : Nat) (p : Primitive) : Completes p.taken p.given
    (primitive fuel p : Work Interpreter υ Unit) (primitive fuel p) where
  runs := .primitive fuel p
  repeats live _ := repeats_primitive p (live.offers _)

section Parts

variable {part part' recorded recorded' : Work Interpreter υ Unit}

/-- Nothing is recorded, so the operation is carried out. -/
theorem either (h : Completes taken given part part') : Completes taken given
    (do ensureOpen; if ← recording then recorded else part)
    (do ensureOpen; if ← recording then recorded' else part') where
  runs := .either h.runs
  repeats live enough := by
    refine repeats_either (fun some => ?_) fun _ => h.repeats live enough
    obtain ⟨recording, found⟩ := Option.isSome_iff_exists.mp some
    cases (Bench.checking_found found).symm.trans live.executes.recording?

theorem opened (h : Completes taken given part part') :
    Completes taken given (do ensureOpen; part) (do ensureOpen; part') where
  runs := Runs.ensureOpen.after fun _ => h.runs
  repeats live enough := repeats_ensureOpen (h.repeats live enough)

/-- A region one level deeper. -/
theorem nested (h : Completes taken given part part') :
    Completes taken given (Work.nested part) (Work.nested part') where
  runs := h.runs.nested
  repeats live enough := Work.repeats_nested
    (h.repeats ⟨live.checks, live.sharing, live.executes.congr rfl⟩ enough)

/-- A region whose value stays. What it owes is found by both. -/
theorem keeping (h : Completes 0 1 part part') (construct : String) :
    Completes 0 1 (do let _ ← runRegion construct .one part)
      (do let _ ← runRegion construct .one part') where
  runs := h.runs.keeping construct
  repeats {session} live enough := by
    refine Repeats.bind ?_ fun _ _ _ _ => .pure ()
    refine Work.repeats_bench ?_
    rw [Bench.checking_size]
    refine .get ((h.repeats live enough).bind fun _ session₁ _ again => ?_)
    have length : session₁.backend.top.stack.length = 1 + session.backend.top.stack.length :=
      ((h.runs.ends live enough).ok again).stack.length
    refine Work.repeats_ensureSameUnit construct _ (.get (.get ?_))
    have produced : (session₁.backend.top.stack.length : Int) - session.backend.top.stack.length = 1 := by
      omega
    have produced' : (session₁.checking.backend.top.stack.length : Int) -
        session.checking.backend.top.stack.length = 1 := produced
    have admits : DepthTracker.Allowance.one.admits 1 = true := by decide
    simp only [produced, produced', admits]
    exact .pure 1

/-- The elements of an aggregate leave one value each. -/
theorem elements {element element' : Nat → Work Interpreter υ Unit} (construct : String)
    (first total : Nat) (h : ∀ index, first ≤ index → index < first + total →
      Completes 0 1 (element index) (element' index)) :
    Completes 0 total
      (Work.forEachIndex (fun index => do let _ ← runRegion construct .one (element index)) first total)
      (Work.forEachIndex (fun index => do let _ ← runRegion construct .one (element' index)) first
        total) := by
  induction total generalizing first with
  | zero => exact pure ()
  | succ total ih =>
      have one := keeping (h first (Nat.le_refl _) (by omega)) construct
      have rest := ih (first + 1) fun index low high => h index (by omega) (by omega)
      exact (bind one fun _ => rest).cast (by omega) (by omega)

theorem objectArray (fuel : Nat) {total : Nat} {element element' : Nat → Work Interpreter υ Unit}
    (h : ∀ index < total, Completes 0 1 (element index) (element' index)) (short : total < 2 ^ 31) :
    Completes 0 1 (objectArray fuel total element) (objectArray fuel total element') := by
  have collapse : (Op.makeArray total.toUInt32).Straight total 1 :=
    ⟨Program.toNat_toUInt32_short short, rfl, rfl, rfl⟩
  have parts := elements (Work.arrayOperation ++ " element") 0 total fun index _ inside =>
    h index (by omega)
  exact either ((bind (nested parts) fun _ => perform collapse).cast (by omega) (by omega))

end Parts

/-! ## Bodies -/

/-- A call finds its operands before its block is recorded. -/
theorem invoke (name : String) {shape : Invocation} (few : shape.argc < 2 ^ 31)
    {block block' : Option (BlockBody (Session Interpreter υ))}
    (h : Completes 0 0 (Work.recordBlock? block) (Work.recordBlock? block')) :
    Completes shape.consumed 1 (invoke fuel name shape block) (invoke fuel name shape block') := by
  have called : Completes shape.consumed 1 (do
        let block ← Work.recordBlock? block
        let position ← Work.onBench (Bench.intern (.name name))
        Interpreter.perform fuel Work.callOperation
          (.send position shape.argc.toUInt32 shape.hasReceiver block) : Work Interpreter υ Unit)
      (do
        let block ← Work.recordBlock? block'
        let position ← Work.onBench (Bench.intern (.name name))
        Interpreter.perform fuel Work.callOperation
          (.send position shape.argc.toUInt32 shape.hasReceiver block)) :=
    .after h fun slot => .after (.intern _) fun position =>
      perform (shape.straight_send few position slot)
  refine either ⟨⟨fun live enough => Ends.get (Ends.ite (fun short => ?_) fun _ =>
    called.runs.ends live enough)⟩, fun live enough => .get (.ite (fun _ => ?_) fun _ =>
      called.repeats live enough)⟩
  · exact absurd enough (Nat.not_le.mpr short)
  · exact Ensures.stop (Ensures.get Ensures.throws)

theorem call (name : String) {shape : Invocation} (few : shape.argc < 2 ^ 31) :
    Completes shape.consumed 1 (Interpreter.invoke fuel name shape none : Work Interpreter υ Unit)
      (Interpreter.invoke fuel name shape none) :=
  invoke name few (pure none)

section Bodies

variable {body body' : Work Interpreter υ Unit}
  (finishes : (Backend.immediate fuel).Finishes body body')

include finishes

theorem recordBlock (scope : StaticScope) (arity : Nat) : Completes 0 0
    (Work.recordBlock scope arity body) (Work.recordBlock scope arity body') where
  runs := .get fun _ => .recordUnit finishes.fits _ _ _ _ _
  repeats live _ := finishes.repeats_recordBlock (live.prepared fuel) scope arity

theorem callBlock (name : String) {shape : Invocation} (few : shape.argc < 2 ^ 31)
    (scope : StaticScope) (arity : Nat) : Completes shape.consumed 1
      (Interpreter.invoke fuel name shape (some ⟨scope, arity, body⟩))
      (Interpreter.invoke fuel name shape (some ⟨scope, arity, body'⟩)) :=
  invoke name few (.after (recordBlock finishes scope arity) fun slot => pure (some slot))

theorem closure (scope : StaticScope) (arity : Nat) : Completes 0 1
    (Interpreter.closure fuel scope arity body) (Interpreter.closure fuel scope arity body') :=
  opened (.after (recordBlock finishes scope arity) fun _ => perform ⟨rfl, rfl, rfl, rfl⟩)

theorem defineMethod (name : String) (arity localCount : Nat) : Completes 0 0
    (Interpreter.defineMethod fuel name arity localCount body)
    (Interpreter.defineMethod fuel name arity localCount body') := by
  have records : Completes 0 0 (Work.recordUnit .method name arity localCount [] body)
      (Work.recordUnit .method name arity localCount [] body') :=
    ⟨.recordUnit finishes.fits _ _ _ _ _, fun live _ =>
      finishes.repeats_recordUnit (live.prepared fuel) _ _ _ _ _⟩
  exact opened (.after records fun _ => .after (.intern _) fun _ =>
    perform ⟨rfl, rfl, rfl, rfl⟩)

end Bodies

end Completes

end BlockScript.Interpreter
