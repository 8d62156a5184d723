import BlockScript.Proofs.Backend.Composed
import BlockScript.Proofs.Node.Context

/-!
# Emission around nested code

Where an operation with nested code is recorded, each piece of its nested code is run once, with
steps of emission and the other pieces before and after it. So the emission is a computation with a
place for this piece. What the steps and the other pieces do to what is known of the current line
tells what is known where the piece begins.
-/

namespace BlockScript

variable {β υ α γ : Type} {ε : Type}

/-! ## Layers of computations -/

/-- The operation with the piece of nested code in its place. -/
def Place.control : Place (Work β υ Unit) → Work β υ Unit → Control (Session β υ)
  | .onTrue other, part => .branch part other
  | .onFalse other, part => .branch other part
  | .right connective, part => .logical connective part
  | .condition other checkFirst, part => .loop part other checkFirst
  | .body other checkFirst, part => .loop other part checkFirst
  | .element count elements index, part => .array count (Function.update elements index part)

/-- The computation with what is directly around it. -/
def Layer.wrap (contract : Contract (Session β υ)) :
    Layer (Work β υ Unit) → Work β υ Unit → Work β υ Unit
  | .first other, part => do part; other
  | .next other, part => do other; part
  | .nested place, part => (place.control part).issue contract

theorem Action.run_within {contract : Contract (Session β Notes)}
    {onExtra : ε → Work β Notes Unit} (layer : Layer (Action ε)) (part : Action ε) :
    (within layer part).run contract onExtra =
      (layer.map (·.run contract onExtra)).wrap contract (part.run contract onExtra) := by
  cases layer with
  | first next => rfl
  | next first => rfl
  | nested place =>
      cases place with
      | element count elements index =>
          have each : (fun other => (Function.update elements index part other).run contract onExtra) =
              Function.update (fun other => (elements other).run contract onExtra) index
                (part.run contract onExtra) :=
            Function.comp_update (Action.run contract onExtra) elements index.val part
          exact congrArg (contract.objectArray count) each
      | _ => rfl

/-! ## Computations with a place in them -/

/-- A family of properties of computations, by what is known of the line before and after. -/
abbrev Tracking (β υ : Type) := Known → Known → ∀ {α : Type}, Work β υ α → Prop

/-- Other computations are around a part that is run once. What is known before the whole comes to
what is known where the part begins, and what is known where it ends to what is known after the
whole. -/
inductive Around (P : Tracking β υ) : (known entry exit after : Known) → {γ : Type} →
    (Work β υ Unit → Work β υ γ) → Prop
  | hole {known entry : Known} (implies : known.Implies entry) (exit : Known) :
      Around P known entry exit exit fun part => part
  | after {α γ : Type} {known middle entry exit after : Known} {first : Work β υ α}
      {emits : α → Work β υ Unit → Work β υ γ} (h₁ : P known middle first)
      (h₂ : ∀ value, Around P middle entry exit after (emits value)) :
      Around P known entry exit after fun part => do
        let value ← first
        emits value part
  | before {α γ : Type} {known entry exit middle after : Known} {emits : Work β υ Unit → Work β υ α}
      {next : α → Work β υ γ} (h₁ : Around P known entry exit middle emits)
      (h₂ : ∀ value, P middle after (next value)) :
      Around P known entry exit after fun part => do
        let value ← emits part
        next value
  | nested {γ : Type} {known entry exit after : Known} {emits : Work β υ Unit → Work β υ γ}
      (h : Around P known entry exit after emits) :
      Around P known entry exit after fun part => Work.nested (emits part)

theorem Around.of_eq {P : Tracking β υ} {known entry exit after : Known}
    {emits emits' : Work β υ Unit → Work β υ γ} (h : Around P known entry exit after emits)
    (same : ∀ part, emits' part = emits part) : Around P known entry exit after emits' :=
  (funext same : emits' = emits) ▸ h

/-- A family of properties that follows the current line: the steps of emission leave the line as it
was, and what comes one after the other passes on what is known. -/
structure Tracks (S : ∀ {α : Type}, Work β υ α → Prop) (P : Tracking β υ) : Prop where
  steps : Stepwise (β := β) (υ := υ) S
  still : ∀ {α : Type} {action : Work β υ α}, S action → ∀ known, P known known action
  bind : ∀ {α γ : Type} {known middle known' : Known} {first : Work β υ α}
    {next : α → Work β υ γ},
    P known middle first → (∀ value, P middle known' (next value)) → P known known' (first >>= next)
  nested : ∀ {α : Type} {known known' : Known} {region : Work β υ α}, P known known' region →
    P known known' (Work.nested region)
  consequence : ∀ {α : Type} {known weaker stronger known' : Known} {action : Work β υ α},
    P weaker stronger action → known.Implies weaker → stronger.Implies known' → P known known' action

namespace Tracks

variable {S : ∀ {α : Type}, Work β υ α → Prop} {P : Tracking β υ}
  (tracks : Tracks S P) {known known' entry exit last : Known} {part : Work β υ Unit}

include tracks

/-- With the part in its place, the whole does what is known of it. -/
theorem holds {emits : Work β υ Unit → Work β υ γ} (around : Around P known entry exit last emits)
    (h : P entry exit part) : P known last (emits part) := by
  induction around with
  | hole implies exit => exact tracks.consequence h implies (.refl exit)
  | after h₁ _ ih => exact tracks.bind h₁ fun value => ih value h
  | before _ h₂ ih => exact tracks.bind (ih h) h₂
  | nested _ ih => exact tracks.nested (ih h)

theorem weaken {weaker : Known} {action : Work β υ α} (h : P weaker known' action)
    (implies : known.Implies weaker) : P known known' action :=
  tracks.consequence h implies (.refl known')

/-- A step comes first. -/
theorem after {first : Work β υ α} {next : α → Work β υ γ} (h₁ : S first)
    (h₂ : ∀ value, P known known' (next value)) : P known known' (first >>= next) :=
  tracks.bind (tracks.still h₁ known) h₂

/-- A step comes last. -/
theorem before {first : Work β υ α} {next : α → Work β υ γ} (h₁ : P known known' first)
    (h₂ : ∀ value, S (next value)) : P known known' (first >>= next) :=
  tracks.bind h₁ fun value => tracks.still (h₂ value) known'

theorem step {first : Work β υ α} {emits : α → Work β υ Unit → Work β υ γ} (h₁ : S first)
    (h₂ : ∀ value, Around P known entry exit last (emits value)) :
    Around P known entry exit last fun part => first >>= fun value => emits value part :=
  .after (tracks.still h₁ known) h₂

theorem runRegion (construct : String) (allowed : DepthTracker.Allowance)
    (h : P known known' part) : P known known' (Work.runRegion construct allowed part) :=
  tracks.after tracks.steps.bench fun _ => tracks.after tracks.steps.target fun _ =>
    tracks.before h fun _ => tracks.steps.endRegion tracks.steps.target _ _ _ _

theorem around_runRegion (construct : String) (allowed : DepthTracker.Allowance)
    (implies : known.Implies entry) (exit : Known) :
    Around P known entry exit exit (Work.runRegion construct allowed) :=
  tracks.step tracks.steps.bench fun _ => tracks.step tracks.steps.target fun _ =>
    .before (.hole implies exit) fun _ =>
      tracks.still (tracks.steps.endRegion tracks.steps.target _ _ _ _) _

/-! ### Branches and connectives -/

theorem depth : S (Work.depth : Work β υ Nat) :=
  tracks.steps.bind tracks.steps.target fun _ => tracks.steps.pure _

/-- What a branch does after its second arm. -/
theorem endBranch (units before afterTrue : Nat) (toEnd : JumpPatch) : S (do
    Work.ensureSameUnit "perform_boolean_branch" units
    let builder ← Work.onBench Bench.target
    let afterFalse := builder.depth
    if afterTrue ≠ afterFalse ∧ builder.stack.strict then
      Work.violate (.unbalancedBranch (afterTrue - before) (afterFalse - before))
    Work.patchHere toEnd : Work β υ Unit) :=
  have steps := tracks.steps
  steps.bind (steps.ensureSameUnit _ _) fun _ => steps.bind steps.target fun _ =>
    Sequenced.ite (steps.bind (steps.violate _) fun _ => steps.patchHere _) (steps.patchHere _)

theorem around_onTrue {onFalse : Work β υ Unit} (rest : P exit last onFalse) (known : Known) :
    Around P known known exit last fun part => Work.emitBranch part onFalse := by
  have steps := tracks.steps
  refine .nested (tracks.step steps.bench fun units => tracks.step (steps.emitJump _ _) fun toElse =>
    tracks.step tracks.depth fun before => .before (.hole (.refl known) exit) fun _ => ?_)
  refine tracks.after (steps.ensureSameUnit _ _) fun _ => tracks.after tracks.depth fun _ =>
    tracks.after (steps.emitJump _ _) fun toEnd => tracks.after (steps.patchHere _) fun _ =>
    tracks.after (steps.resetTo _) fun _ => ?_
  exact tracks.before rest fun _ => tracks.endBranch _ _ _ _

theorem around_onFalse {onTrue : Work β υ Unit} (other : P known entry onTrue) (exit : Known) :
    Around P known entry exit exit fun part => Work.emitBranch onTrue part := by
  have steps := tracks.steps
  refine .nested (tracks.step steps.bench fun units => tracks.step (steps.emitJump _ _) fun toElse =>
    tracks.step tracks.depth fun before => .after other fun _ => ?_)
  refine tracks.step (steps.ensureSameUnit _ _) fun _ => tracks.step tracks.depth fun _ =>
    tracks.step (steps.emitJump _ _) fun toEnd => tracks.step (steps.patchHere _) fun _ =>
    tracks.step (steps.resetTo _) fun _ => ?_
  exact .before (.hole (.refl entry) exit) fun _ => tracks.still (tracks.endBranch _ _ _ _) _

theorem emitBranch {onTrue onFalse : Work β υ Unit} (h₁ : P known exit onTrue)
    (h₂ : P exit last onFalse) : P known last (Work.emitBranch onTrue onFalse) :=
  have around := tracks.around_onTrue h₂ known
  have done := tracks.holds around h₁
  done

theorem around_right (connective : Connective) (known exit : Known) :
    Around P known known exit exit fun part => Work.emitLogical connective part :=
  have steps := tracks.steps
  .nested (tracks.step (steps.emit _ .dup nofun) fun _ => tracks.step (steps.emitJump _ _) fun _ =>
    tracks.step (steps.emit _ .pop nofun) fun _ =>
    .before (tracks.around_runRegion _ _ (.refl known) exit) fun _ =>
      tracks.still (steps.patchHere _) exit)

theorem emitLogical (connective : Connective) (h : P known known' part) :
    P known known' (Work.emitLogical connective part) :=
  have around := tracks.around_right connective known known'
  have done := tracks.holds around h
  done

/-! ### Loops -/

theorem emitCondition (h : P known known' part) : P known known' (Work.emitCondition part) :=
  tracks.before (tracks.runRegion _ _ h) fun _ => tracks.steps.pure _

theorem emitLoopBody (h : P known known' part) : P known known' (Work.emitLoopBody part) :=
  tracks.before (tracks.runRegion _ _ h) fun _ => tracks.steps.emitTimes _ .pop nofun _

theorem around_emitCondition (implies : known.Implies entry) (exit : Known) :
    Around P known entry exit exit (Work.emitCondition : Work β υ Unit → Work β υ Unit) :=
  .before (tracks.around_runRegion _ _ implies exit) fun _ => tracks.still (tracks.steps.pure _) exit

theorem around_emitLoopBody (implies : known.Implies entry) (exit : Known) :
    Around P known entry exit exit (Work.emitLoopBody : Work β υ Unit → Work β υ Unit) :=
  .before (tracks.around_runRegion _ _ implies exit) fun _ =>
    tracks.still (tracks.steps.emitTimes _ .pop nofun _) exit

theorem around_conditionFirst {body : Work β υ Unit} (implies : known.Implies entry)
    (rest : P exit last body) :
    Around P known entry exit last fun part => Work.emitLoop part body true := by
  have steps := tracks.steps
  refine .nested (tracks.step steps.target fun top =>
    .before (tracks.around_emitCondition implies exit) fun _ => ?_)
  exact tracks.after (steps.emitJump _ _) fun _ => tracks.before (tracks.emitLoopBody rest)
    fun _ => steps.bind (steps.emitJumpBack _ _ _) fun _ => steps.patchHere _

theorem around_conditionLast {body : Work β υ Unit} (other : P known entry body) (exit : Known) :
    Around P known entry exit exit fun part => Work.emitLoop part body false :=
  .nested (tracks.step tracks.steps.target fun _ => .after (tracks.emitLoopBody other) fun _ =>
    .before (tracks.around_emitCondition (.refl entry) exit) fun _ =>
      tracks.still (tracks.steps.emitJumpBack _ _ _) exit)

theorem around_bodyLast {condition : Work β υ Unit} (other : P known entry condition) (exit : Known) :
    Around P known entry exit exit fun part => Work.emitLoop condition part true := by
  have steps := tracks.steps
  refine .nested (tracks.step steps.target fun top => .after (tracks.emitCondition other) fun _ => ?_)
  refine tracks.step (steps.emitJump _ _) fun _ =>
    .before (tracks.around_emitLoopBody (.refl entry) exit) fun _ => tracks.still ?_ exit
  exact steps.bind (steps.emitJumpBack _ _ _) fun _ => steps.patchHere _

theorem around_bodyFirst {condition : Work β υ Unit} (implies : known.Implies entry)
    (rest : P exit last condition) :
    Around P known entry exit last fun part => Work.emitLoop condition part false :=
  .nested (tracks.step tracks.steps.target fun _ =>
    .before (tracks.around_emitLoopBody implies exit) fun _ =>
      tracks.before (tracks.emitCondition rest) fun _ => tracks.steps.emitJumpBack _ _ _)

theorem emitLoopFirst {condition body : Work β υ Unit} (h₁ : P known exit condition)
    (h₂ : P exit last body) : P known last (Work.emitLoop condition body true) :=
  have around := tracks.around_conditionFirst (.refl known) h₂
  have done := tracks.holds around h₁
  done

theorem emitLoopLast {condition body : Work β υ Unit} (h₁ : P known exit body)
    (h₂ : P exit last condition) : P known last (Work.emitLoop condition body false) :=
  have around := tracks.around_bodyFirst (.refl known) h₂
  have done := tracks.holds around h₁
  done

/-! ### Aggregates -/

/-- What is known goes from one action to the next. -/
theorem forEachIndex {action : Nat → Work β υ Unit} (knows : Nat → Known) {first count : Nat}
    (h : ∀ index, first ≤ index → index < first + count →
      P (knows index) (knows (index + 1)) (action index)) :
    P (knows first) (knows (first + count)) (Work.forEachIndex action first count) := by
  induction count generalizing first with
  | zero => exact tracks.still (tracks.steps.pure ()) _
  | succ count ih =>
      have rest : P (knows (first + 1)) (knows (first + 1 + count))
          (Work.forEachIndex action (first + 1) count) :=
        ih fun index later inside => h index (by omega) (by omega)
      rw [Nat.add_right_comm] at rest
      exact tracks.bind (h first (Nat.le_refl first) (by omega)) fun _ => rest

omit tracks in
theorem forEachIndex_congr {action action' : Nat → Work β υ Unit} {first : Nat}
    (same : ∀ index, first ≤ index → action index = action' index) (count : Nat) :
    Work.forEachIndex action first count = Work.forEachIndex action' first count := by
  induction count generalizing first with
  | zero => rfl
  | succ count ih =>
      rw [Work.forEachIndex, Work.forEachIndex, same first (Nat.le_refl first),
        ih fun index later => same index (Nat.le_of_succ_le later)]

/-- An element of an aggregate is produced. -/
abbrev produce (element : Work β υ Unit) : Work β υ Unit := do
  let _ ← Work.runRegion (Work.arrayOperation ++ " element") .one element

theorem produces (h : P known known' part) : P known known' (produce part) :=
  tracks.before (tracks.runRegion _ _ h) fun _ => tracks.steps.pure ()

theorem emitArray {count : Nat} {elements : Nat → Work β υ Unit} {knows : Nat → Known}
    (h : ∀ index < count, P (knows index) (knows (index + 1)) (elements index)) :
    P (knows 0) (knows count) (Work.emitArray count elements) := by
  have produced := tracks.forEachIndex knows fun index (_ : 0 ≤ index)
    (inside : index < 0 + count) => tracks.produces (h index (Nat.zero_add count ▸ inside))
  rw [Nat.zero_add] at produced
  exact tracks.nested (tracks.before produced fun _ => tracks.steps.emit _ (.makeArray _) nofun)

/-- What is known goes from one element to the next until it comes to the part. -/
theorem around_elements {elements : Nat → Work β υ Unit} {index : Nat} {knows : Nat → Known}
    (earlier : ∀ other < index, P (knows other) (knows (other + 1)) (elements other))
    (rest : ∀ other ≠ index, P .any .any (elements other)) {first count : Nat}
    (start : first ≤ index) (inside : index < first + count) :
    Around P (knows first) (knows index) .any .any fun part => Work.forEachIndex
      (fun other => produce (Function.update elements index part other)) first count := by
  induction count generalizing first with
  | zero => omega
  | succ count ih =>
      obtain rfl | before := Nat.eq_or_lt_of_le start
      · have later : P .any .any
            (Work.forEachIndex (fun other => produce (elements other)) (first + 1) count) :=
          tracks.forEachIndex (fun _ => .any) fun other later _ =>
            tracks.produces (rest other (Nat.ne_of_gt later))
        have here : Around P (knows first) (knows first) .any .any
            (produce : Work β υ Unit → Work β υ Unit) :=
          .before (tracks.around_runRegion _ _ (.refl _) .any) fun _ =>
            tracks.still (tracks.steps.pure ()) .any
        refine .of_eq (.before here fun _ => later) fun part => ?_
        -- no element after it is the part
        rw [Work.forEachIndex, Function.update_self, forEachIndex_congr fun other later => by
          rw [Function.update_of_ne (Nat.ne_of_gt later)]]
      · refine .of_eq (.after (tracks.produces (earlier first before)) fun _ =>
          ih before (by omega)) fun part => ?_
        rw [Work.forEachIndex, Function.update_of_ne (Nat.ne_of_lt before)]

/-! ### All of them -/

/-- The emission of an operation is around each piece of its nested code. -/
theorem around {place : Place (Work β υ Unit)}
    (enters : place.Enters (fun part known known' => P known known' part) part known entry)
    (others : ∀ other, place.Has other → P .any .any other) :
    Around P known entry .any .any fun part => (place.control part).emit := by
  cases place with
  | onTrue onFalse =>
      obtain rfl : entry = known := enters
      exact tracks.around_onTrue (others _ rfl) entry
  | onFalse onTrue => exact tracks.around_onFalse enters.2 .any
  | right connective =>
      obtain rfl : entry = known := enters
      exact tracks.around_right connective entry .any
  | condition body checkFirst =>
      obtain ⟨again, start, -, repeats⟩ := enters
      cases checkFirst with
      | true => exact tracks.around_conditionFirst start (others _ rfl)
      | false => exact tracks.around_conditionLast (tracks.weaken repeats start) .any
  | body condition checkFirst =>
      obtain ⟨again, start, -, tests⟩ := enters
      cases checkFirst with
      | true => exact tracks.around_bodyLast (tracks.weaken tests start) .any
      | false => exact tracks.around_bodyFirst start (others _ rfl)
  | element count elements index =>
      obtain ⟨knows, rfl, rfl, earlier⟩ := enters
      refine .nested (.before (tracks.around_elements earlier
        (fun other apart => others _ ⟨other, apart, rfl⟩) (Nat.zero_le _) ?_) fun _ =>
          tracks.still (tracks.steps.emit _ (.makeArray _) nofun) .any)
      exact Nat.lt_of_lt_of_eq index.isLt (Nat.zero_add count).symm

end Tracks

end BlockScript
