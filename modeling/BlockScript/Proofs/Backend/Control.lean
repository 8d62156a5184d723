import BlockScript.Proofs.Backend.Sketch
import BlockScript.Proofs.Contract.Client

/-!
# Operations with nested code in the same unit

A branch, an operator that may skip its right-hand side, a loop and an aggregate all record
their parts into the unit that they begin in. `Control.Layout` says what they add to its code:
the code of the parts in order, and jumps whose targets lie in what was added.
-/

namespace BlockScript

variable {executes : Bool} {β υ α σ : Type}

namespace Control

/-- The operation as every backend records it. -/
def emit : Control (Session β υ) → Work β υ Unit
  | branch onTrue onFalse => Work.emitBranch onTrue onFalse
  | logical connective right => Work.emitLogical connective right
  | loop condition body checkFirst => Work.emitLoop condition body checkFirst
  | array count element => Work.emitArray count element

/-- The jump from one position of an operation's code to another. -/
def jump (kind : JumpKind) (source target : Nat) : Op := kind.op (Builder.offset source target)

/-- What an operation adds to the code of its unit, with the code that its parts add. -/
inductive Layout : Control σ → List Op → Prop
  | branch (onTrue onFalse : Gen σ Unit) (yes no : List Op) :
      Layout (.branch onTrue onFalse) (jump .ifFalse 0 (yes.length + 2) ::
        (yes ++ jump .always (yes.length + 1) (yes.length + 2 + no.length) :: no))
  | logical (connective : Connective) (part : Gen σ Unit) (right : List Op) :
      Layout (.logical connective part)
        (.dup :: jump (Work.skipWhen connective) 1 (right.length + 3) :: .pop :: right)
  | checkFirst (condition body : Gen σ Unit) (tested repeated : List Op) (dropped : Nat) :
      Layout (.loop condition body true) (tested ++
        jump .ifFalse tested.length (tested.length + repeated.length + dropped + 2) ::
        (repeated ++ List.replicate dropped .pop ++
          [jump .always (tested.length + repeated.length + dropped + 1) 0]))
  | checkLast (condition body : Gen σ Unit) (repeated tested : List Op) (dropped : Nat) :
      Layout (.loop condition body false) (repeated ++ List.replicate dropped .pop ++ tested ++
        [jump .ifTrue (repeated.length + dropped + tested.length) 0])
  | array (element : Nat → Gen σ Unit) (elements : List (List Op)) :
      Layout (.array elements.length element)
        (elements.flatten ++ [.makeArray elements.length.toUInt32])

end Control

/-! ## Parts of loops and aggregates -/

namespace Bench.Sketch

variable {start : Bench} {unit : OpenUnit (Option Recording)}
  {outer : List (OpenUnit (Option Recording))} {slot : UInt32} {builder : Builder}
  {added : List Op} {waiting : List (JumpPatch × Nat)} {session : Session β υ}
  {quits : β → υ → Prop}
  (sketch : start.Sketch executes unit builder added waiting session.bench) (proper : start.Proper executes)
  (hunits : start.units.units = unit :: outer) (payload : unit.payload = some ⟨slot, builder⟩)

include sketch proper hunits payload

theorem ends_emitCondition {condition : Work β υ Unit} (h : condition.Nests executes quits) :
    Ends (Work.emitCondition condition) session
      (fun _ session' => ∃ code, start.Sketch executes unit builder (added ++ code) waiting session'.bench)
      (start.Breaks executes unit quits) :=
  (sketch.ends_runRegion hunits payload proper h _ .one).bind fun _ _ drawn => Ends.pure drawn

/-- What the body of a loop leaves is dropped. -/
theorem ends_emitLoopBody {body : Work β υ Unit} (h : body.Nests executes quits) :
    Ends (Work.emitLoopBody body) session
      (fun _ session' => ∃ code dropped, start.Sketch executes unit builder
        (added ++ (code ++ List.replicate dropped .pop)) waiting session'.bench)
      (start.Breaks executes unit quits) := by
  refine (sketch.ends_runRegion hunits payload proper h _ .atMostOne).bind ?_
  rintro produced session₁ ⟨code, sketch₁⟩
  refine (sketch₁.ends_emitTimes hunits payload _ .pop _).weaken fun _ session₂ sketch₂ => ?_
  rw [List.append_assoc] at sketch₂
  exact ⟨code, _, sketch₂⟩

/-- The elements of an aggregate are recorded one after the other. -/
theorem ends_elements {element : Nat → Work β υ Unit} (h : ∀ index, (element index).Nests executes quits)
    (construct : String) (first count : Nat) :
    Ends (Work.forEachIndex (fun index => do
        let _ ← Work.runRegion construct .one (element index)) first count) session
      (fun _ session' => ∃ elements : List (List Op), elements.length = count ∧
        start.Sketch executes unit builder (added ++ elements.flatten) waiting session'.bench)
      (start.Breaks executes unit quits) := by
  induction count generalizing first added session with
  | zero => exact Ends.pure ⟨[], rfl, by simpa using sketch⟩
  | succ count ih =>
      have one : Ends (do let _ ← Work.runRegion construct .one (element first)) session
          (fun _ session' => ∃ code,
            start.Sketch executes unit builder (added ++ code) waiting session'.bench)
          (start.Breaks executes unit quits) :=
        (sketch.ends_runRegion hunits payload proper (h first) _ .one).bind
          fun _ _ drawn => Ends.pure drawn
      refine one.bind ?_
      rintro _ session₁ ⟨code, sketch₁⟩
      refine (ih sketch₁ (first + 1)).weaken ?_
      rintro _ session₂ ⟨elements, length, sketch₂⟩
      rw [List.append_assoc] at sketch₂
      exact ⟨code :: elements, congrArg (· + 1) length, sketch₂⟩

end Bench.Sketch

/-! ## What each operation adds -/

namespace Work

variable {session : Session β υ} {unit : OpenUnit (Option Recording)}
  {outer : List (OpenUnit (Option Recording))} {slot : UInt32} {builder : Builder}
  {quits : β → υ → Prop}
  (proper : session.bench.Proper executes) (hunits : session.bench.units.units = unit :: outer)
  (payload : unit.payload = some ⟨slot, builder⟩)

include proper hunits payload

theorem ends_emitBranch {onTrue onFalse : Work β υ Unit} (h₁ : onTrue.Nests executes quits)
    (h₂ : onFalse.Nests executes quits) : Ends (emitBranch onTrue onFalse) session
      (fun _ session' => ∃ added, (Control.branch onTrue onFalse).Layout added ∧
        session.bench.Sketch executes unit builder added [] session'.bench)
      (session.bench.Breaks executes unit quits) := by
  refine ends_nested_sketch proper fun start proper same => ?_
  have hunits := same.trans hunits
  have sketch := Bench.Sketch.begin proper hunits payload
  refine Ends.get ((sketch.ends_emitJump hunits payload _ .ifFalse).bind ?_)
  rintro toElse session₁ ⟨kind, sketch₁⟩
  refine sketch₁.ends_depth.bind ?_
  rintro before session₁ rfl
  refine sketch₁.ends_part hunits payload proper h₁ _ fun yes session₂ sketch₂ => ?_
  refine sketch₂.ends_depth.bind ?_
  rintro afterTrue session₂ rfl
  refine (sketch₂.ends_emitJump hunits payload _ .always).bind ?_
  rintro toEnd session₃ ⟨kind', sketch₃⟩
  refine (sketch₃.ends_patchHere hunits payload
    (show (toElse, 0) ∈ _ from List.mem_cons_of_mem _ (List.mem_cons_self ..)) (by simp)).bind ?_
  rintro _ session₄ sketch₄
  refine (sketch₄.ends_modifyBuilder hunits payload
    fun builder => show (builder.resetTo before).code.ops = _ from rfl).bind ?_
  rintro _ session₅ sketch₅
  refine sketch₅.ends_part hunits payload proper h₂ _ fun no session₆ sketch₆ => ?_
  refine sketch₆.ends_target.bind ?_
  rintro after session₆ ⟨rfl, -⟩
  refine Ends.ite (fun _ => (Work.ends_violate (sketch₆.breaks _)).halts) fun _ => ?_
  refine (sketch₆.ends_patchHere hunits payload (List.mem_cons_self ..) (by simp)).weaken ?_
  rintro _ session₇ sketch₇
  refine ⟨_, .branch onTrue onFalse yes no, ?_⟩
  have drawn := sketch₇.forget (List.nil_subset _)
  rw [kind, kind'] at drawn
  simpa [Control.jump, Nat.add_assoc, Nat.add_comm, Nat.add_left_comm] using drawn

theorem ends_emitLogical {connective : Connective} {right : Work β υ Unit}
    (h : right.Nests executes quits) : Ends (emitLogical connective right) session
      (fun _ session' => ∃ added, (Control.logical connective right).Layout added ∧
        session.bench.Sketch executes unit builder added [] session'.bench)
      (session.bench.Breaks executes unit quits) := by
  refine ends_nested_sketch proper fun start proper same => ?_
  have hunits := same.trans hunits
  have sketch := Bench.Sketch.begin proper hunits payload
  refine (sketch.ends_emit hunits payload _ .dup).bind fun _ session₁ sketch₁ => ?_
  refine (sketch₁.ends_emitJump hunits payload _ (skipWhen connective)).bind ?_
  rintro toEnd session₂ ⟨kind, sketch₂⟩
  refine (sketch₂.ends_emit hunits payload _ .pop).bind fun _ session₃ sketch₃ => ?_
  refine (sketch₃.ends_runRegion hunits payload proper h _ .one).bind ?_
  rintro _ session₄ ⟨code, sketch₄⟩
  refine (sketch₄.ends_patchHere hunits payload (List.mem_cons_self ..) (by simp)).weaken ?_
  rintro _ session₅ sketch₅
  refine ⟨_, .logical connective right code, ?_⟩
  have drawn := sketch₅.forget (List.nil_subset _)
  rw [kind] at drawn
  simpa [Control.jump] using drawn

theorem ends_emitLoop {condition body : Work β υ Unit} (h₁ : condition.Nests executes quits)
    (h₂ : body.Nests executes quits) (checkFirst : Bool) :
    Ends (emitLoop condition body checkFirst) session
      (fun _ session' => ∃ added, (Control.loop condition body checkFirst).Layout added ∧
        session.bench.Sketch executes unit builder added [] session'.bench)
      (session.bench.Breaks executes unit quits) := by
  refine ends_nested_sketch proper fun start proper same => ?_
  have hunits := same.trans hunits
  have sketch := Bench.Sketch.begin proper hunits payload
  refine sketch.ends_target.bind ?_
  rintro _ start ⟨rfl, slot', found⟩
  cases (Bench.recording?_eq_some.mpr ⟨unit, outer, hunits, payload⟩).symm.trans found
  refine Ends.ite (fun first => ?_) fun last => ?_
  · refine (sketch.ends_emitCondition proper hunits payload h₁).bind ?_
    rintro _ session₁ ⟨tested, sketch₁⟩
    refine (sketch₁.ends_emitJump hunits payload _ .ifFalse).bind ?_
    rintro toEnd session₂ ⟨kind, sketch₂⟩
    refine (sketch₂.ends_emitLoopBody proper hunits payload h₂).bind ?_
    rintro _ session₃ ⟨repeated, dropped, sketch₃⟩
    refine (sketch₃.ends_emitJumpBack hunits payload _ .always).bind fun _ session₄ sketch₄ => ?_
    refine (sketch₄.ends_patchHere hunits payload (List.mem_cons_self ..) (by simp)).weaken ?_
    rintro _ session₅ sketch₅
    subst first
    refine ⟨_, .checkFirst condition body tested repeated dropped, ?_⟩
    have drawn := sketch₅.forget (List.nil_subset _)
    rw [kind] at drawn
    simpa [Control.jump, Nat.add_assoc, Nat.add_comm, Nat.add_left_comm] using drawn
  · refine (sketch.ends_emitLoopBody proper hunits payload h₂).bind ?_
    rintro _ session₁ ⟨repeated, dropped, sketch₁⟩
    refine (sketch₁.ends_emitCondition proper hunits payload h₁).bind ?_
    rintro _ session₂ ⟨tested, sketch₂⟩
    refine (sketch₂.ends_emitJumpBack hunits payload _ .ifTrue).weaken fun _ session₃ drawn => ?_
    cases Bool.eq_false_iff.mpr last
    refine ⟨_, .checkLast condition body repeated tested dropped, ?_⟩
    simpa [Control.jump, Nat.add_assoc] using drawn

theorem ends_emitArray {count : Nat} {element : Nat → Work β υ Unit}
    (h : ∀ index, (element index).Nests executes quits) : Ends (emitArray count element) session
      (fun _ session' => ∃ added, (Control.array count element).Layout added ∧
        session.bench.Sketch executes unit builder added [] session'.bench)
      (session.bench.Breaks executes unit quits) := by
  refine ends_nested_sketch proper fun start proper same => ?_
  have hunits := same.trans hunits
  have sketch := Bench.Sketch.begin proper hunits payload
  refine (sketch.ends_elements proper hunits payload h _ 0 count).bind ?_
  rintro _ session₁ ⟨elements, rfl, sketch₁⟩
  refine (sketch₁.ends_emit hunits payload _ _).weaken fun _ session₂ sketch₂ => ?_
  exact ⟨_, .array element elements, sketch₂⟩

end Work

/-- What an operation adds to the code of the unit that it began in. -/
theorem Control.ends_emit {session : Session β υ} {unit : OpenUnit (Option Recording)}
    {outer : List (OpenUnit (Option Recording))} {slot : UInt32} {builder : Builder}
    (proper : session.bench.Proper executes) (hunits : session.bench.units.units = unit :: outer)
    (payload : unit.payload = some ⟨slot, builder⟩) {control : Control (Session β υ)}
    {quits : β → υ → Prop} (parts : ∀ part, control.Has part → Work.Nests executes quits part) :
    Ends control.emit session
      (fun _ session' => ∃ added, control.Layout added ∧
        session.bench.Sketch executes unit builder added [] session'.bench)
      (session.bench.Breaks executes unit quits) := by
  cases control with
  | branch onTrue onFalse =>
      exact Work.ends_emitBranch proper hunits payload (parts _ (.inl rfl)) (parts _ (.inr rfl))
  | logical connective right => exact Work.ends_emitLogical proper hunits payload (parts _ rfl)
  | loop condition body checkFirst =>
      exact Work.ends_emitLoop proper hunits payload (parts _ (.inl rfl)) (parts _ (.inr rfl)) _
  | array count element =>
      exact Work.ends_emitArray proper hunits payload fun index => parts _ ⟨index, rfl⟩

end BlockScript
