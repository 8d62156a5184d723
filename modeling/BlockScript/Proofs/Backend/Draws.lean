import BlockScript.Proofs.Backend.Drawing
import BlockScript.Proofs.Backend.Issued

/-!
# Operations record what is laid out

Every operation records the code of its parts in the order in which `Action.Lays` puts them, with
jumps around it that were aimed when their targets were reached.
-/

namespace BlockScript

variable {ε υ α : Type}

namespace Backend.Draws

variable {backend : Backend} {site : Site} {taken given count taken' given' count' : Nat}
  {action action' : Action ε} {work work' : Work backend.State υ Unit}

theorem cast (h : backend.Draws taken given count action site work) (same : given = given')
    (same' : count = count') : backend.Draws taken given' count' action site work :=
  same ▸ same' ▸ h

/-- What else the computation does while nothing is recorded does not matter. -/
theorem congr (h : backend.Draws taken given count action site work')
    (same : ∀ {session : Session backend.State υ} {recording : Recording},
      session.bench.recording? = some recording → work session = work' session) :
    backend.Draws taken given count action site work where
  writes := h.writes.congr same
  draws records enough room := by
    unfold Ends
    rw [same records.found]
    exact h.draws records enough room

/-- What is below the operands stays there. -/
theorem frame (h : backend.Draws taken given count action site work) {whole : Nat}
    (enough : taken ≤ whole) :
    backend.Draws whole (whole - taken + given) count action site work where
  writes := h.writes.frame enough
  draws records covered room := h.draws records (Nat.le_trans enough covered) room

theorem skip : backend.Draws 0 0 0 (.skip : Action ε) site (pure () : Work backend.State υ Unit) where
  writes := .pure
  draws records _ _ := Ends.pure ⟨_, [], _, records.drawing, rfl⟩

/-- One after the other, where the second one takes nothing that the first one has not left. -/
theorem seq (h₁ : backend.Draws taken given count action site work)
    (h₂ : backend.Draws taken' given' count' action' site work') (owned : taken' ≤ given) :
    backend.Draws taken (given - taken' + given') (count + count') (.seq action action') site
      (do work; work') where
  writes := h₁.writes.seq h₂.writes owned
  draws records enough room := by
    have counts := h₁.writes.counts
    refine (records.drawing.ends_part records h₁ ?_ enough (by omega)).bind ?_
    · rintro ⟨program, _, _, _, lays, -, rfl⟩
      exact ⟨program, _, lays⟩
    rintro _ session₁ ⟨builder₁, ops₁, wrote, drawing₁⟩
    have depth := wrote.depth
    refine (drawing₁.ends_part records h₂ ?_ (by omega) (by omega)).weaken ?_
    · rintro ⟨program, _, _, _, -, lays, rfl⟩
      exact ⟨program, _, lays⟩
    rintro _ session₂ ⟨builder₂, ops₂, -, drawing₂⟩
    obtain ⟨⟨-, lays₁⟩, lays₂⟩ := drawing₂.holds
    exact ⟨_, _, builder₂, drawing₂, ops₁, ops₂, lays₁, lays₂, rfl⟩

/-- The same operations are laid out for another action. -/
theorem relay (h : backend.Draws taken given count action site work)
    (same : ∀ program ops, action.Lays program site ops ↔ action'.Lays program site ops) :
    backend.Draws taken given count action' site work where
  writes := h.writes
  draws records enough room := by
    refine (h.draws records enough room).mono ?_ ?_
    · rintro _ session' ⟨laid, ops, builder', drawing, lays⟩
      exact ⟨laid, ops, builder', drawing, (same _ _).mp lays⟩
    · rintro halt _ limit ⟨program, ops, lays⟩
      exact limit ⟨program, ops, (same _ _).mpr lays⟩

/-- A region one level deeper. -/
theorem nested {region : Work backend.State υ Unit}
    (writes : backend.Writes taken given count (Work.nested region))
    (draws : ∀ {session : Session backend.State υ} {unit : OpenUnit (Option Recording)}
      {outer : List (OpenUnit (Option Recording))} {slot : UInt32} {builder : Builder},
      backend.Records site unit outer slot builder session → taken ≤ builder.depth →
      builder.depth + count < 2 ^ 63 →
      Ends region session (fun _ session' => ∃ laid ops builder',
        Drawing session unit outer slot builder laid ops builder' session' ∧
        action.Lays session'.bench.program site ops)
        fun halt _ => action.Recordable site → halt.Limit) :
    backend.Draws taken given count action site (Work.nested region) where
  writes := writes
  draws {session unit outer slot builder} records enough room := by
    have entered : backend.Records site unit outer slot builder
        { session with bench := session.bench.enterRegion } :=
      ⟨⟨records.prepared.unpoisoned, records.prepared.checks, records.prepared.sharing⟩,
        records.tidy.congr rfl rfl rfl, records.units, records.payload, records.site⟩
    refine Work.ends_nested (fun _ => ⟨_, _, rfl⟩) ((draws entered enough room).weaken ?_)
    rintro _ session' ⟨laid, ops, builder', drawing, lays⟩
    have level : session'.bench.units.nesting - 1 = session.bench.units.nesting := by
      rw [drawing.page.beside.nesting]
      rfl
    have grew : session.bench.Grew session'.bench ops := ⟨drawing.grew.config, drawing.grew.constants,
      drawing.grew.size, drawing.grew.code, drawing.grew.old, drawing.grew.fresh, drawing.grew.tidy⟩
    refine ⟨laid, ops, builder', ⟨⟨drawing.page.units, ?_, drawing.page.backend, drawing.page.client⟩,
      drawing.appends, grew.congr rfl rfl rfl, drawing.holds, drawing.stable⟩, lays⟩
    exact ⟨drawing.page.beside.config, drawing.page.beside.sharing, drawing.page.beside.owner, level,
      drawing.page.beside.table⟩

/-! ## Operations without nested code -/

/-- A local that is out of reach cannot be laid out, and neither can a yield without a method. -/
theorem emitPrimitive (p : Primitive) : backend.Draws p.taken p.given p.count
    (.primitive p : Action ε) site (Work.onBench (Bench.emitPrimitive p) : Work backend.State υ Unit) where
  writes := .emitPrimitive p
  draws {session unit outer slot builder} records enough room := by
    have acts := p.acts_form
    have drawing := records.drawing
    change Ends _ session (fun _ (session' : Session backend.State υ) => ∃ laid ops builder', _ ∧
      p.form.Lays session'.bench.program site ops) _
    unfold Bench.emitPrimitive
    cases form : p.form with
    | op single =>
        obtain ⟨-, straight⟩ : _ ∧ _ := form ▸ acts
        refine (drawing.ends_emit (straight.pops ▸ enough)).weaken ?_
        rintro _ session' ⟨builder', -, drawing'⟩
        exact ⟨_, _, builder', drawing', rfl⟩
    | pooled constant make =>
        obtain ⟨-, straight⟩ : _ ∧ _ := form ▸ acts
        dsimp only
        rw [Bench.emitPooled, Work.onBench_bind]
        refine drawing.page.ends_target.bind ?_
        rintro _ _ ⟨rfl, rfl⟩
        rw [Work.onBench_bind]
        refine (drawing.ends_intern constant).bind fun position session₁ drawing₁ => ?_
        refine (drawing₁.ends_emit ((straight position).pops ▸ enough)).weaken ?_
        rintro _ session₂ ⟨builder₂, -, drawing₂⟩
        exact ⟨_, _, builder₂, drawing₂, position, drawing₂.holds.2, rfl⟩
    | access index depth assign =>
        obtain ⟨-, straight⟩ : _ ∧ _ := form ▸ acts
        dsimp only
        rw [Bench.emitLocal, Work.onBench_bind]
        have reach : session.bench.units.reachableDepth = site.reach :=
          congrArg Site.reach records.site
        have within : Ends (Work.onBench (Bench.checkScopeDepth depth) : Work backend.State υ Unit)
            session (fun _ session' => depth ≤ site.reach ∧ session = session')
            fun halt _ => (Action.primitive p : Action ε).Recordable site → halt.Limit := by
          refine Work.ends_onBench (Ends.get (Ends.ite (fun far => ?_) fun near => ?_))
          · refine Ends.throws ?_
            rintro ⟨program, ops, lays⟩
            have near : depth ≤ site.reach := by
              rw [Action.Lays, form] at lays
              exact lays.1
            omega
          · exact Ends.pure ⟨by omega, rfl⟩
        refine within.bind ?_
        rintro _ _ ⟨near, rfl⟩
        refine (drawing.ends_emit (straight.pops ▸ enough)).weaken ?_
        rintro _ session' ⟨builder', -, drawing'⟩
        exact ⟨_, _, builder', drawing', near, rfl⟩
    | aliasMethod newName oldName =>
        dsimp only
        rw [Bench.emitAlias, Work.onBench_bind]
        refine drawing.page.ends_target.bind ?_
        rintro _ _ ⟨rfl, rfl⟩
        rw [Work.onBench_bind]
        refine (drawing.ends_intern _).bind fun new session₁ drawing₁ => ?_
        rw [Work.onBench_bind]
        refine (drawing₁.ends_intern _).bind fun old session₂ drawing₂ => ?_
        refine (drawing₂.ends_emit (Nat.zero_le _)).weaken ?_
        rintro _ session₃ ⟨builder₃, -, drawing₃⟩
        obtain ⟨⟨-, pooled⟩, pooled'⟩ := drawing₃.holds
        exact ⟨_, _, builder₃, drawing₃, new, old, pooled, pooled', rfl⟩
    | yield hasArgs =>
        obtain ⟨-, taken, -⟩ : _ ∧ _ ∧ _ := form ▸ acts
        rw [taken] at enough
        have same := Bench.emitYield_eq records.found enough p.operation
        have inside : session.bench.units.insideMethod = site.yields :=
          congrArg Site.yields records.site
        rw [inside] at same
        dsimp only
        cases yields : site.yields with
        | false =>
            rw [yields, if_neg Bool.false_ne_true] at same
            refine Work.ends_onBench ?_
            unfold Ends
            rw [same]
            rintro ⟨program, ops, lays⟩
            rw [Action.Lays, form] at lays
            cases yields.symm.trans lays.1
        | true =>
            rw [yields, if_pos rfl] at same
            unfold Ends
            rw [Work.onBench_congr same]
            have operand : (Op.yield (if hasArgs then 1 else 0)).pops ≤ builder.depth := by
              cases hasArgs <;> exact enough
            refine (drawing.ends_emit operand).weaken ?_
            rintro _ session' ⟨builder', -, drawing'⟩
            exact ⟨_, _, builder', drawing', yields, rfl⟩
    | line line =>
        dsimp only
        rw [Bench.setLine, Work.onBench_bind, Work.onBench_bind]
        have sets : Ends (do let _ ← Work.onBench Bench.target
                             Work.onBench (Bench.modifyBuilder (·.setLine line))) session
            (fun _ session' => session' =
              { session with bench := session.bench.setBuilder (builder.setLine line) })
            fun halt _ => (Action.primitive p : Action ε).Recordable site → halt.Limit := by
          refine drawing.page.ends_target.bind ?_
          rintro _ _ ⟨rfl, rfl⟩
          refine Work.ends_onBench ?_
          unfold Ends
          rw [Bench.modifyBuilder_eq records.found]
        refine sets.bind ?_
        rintro _ _ rfl
        have drawn := drawing.setBuilder (.setLine builder line) fun _ => id
        refine Work.ends_onBench (Ends.modifies ⟨_, [], _, ⟨?_, drawn.appends,
          drawn.grew.congr rfl rfl rfl, drawn.holds, drawn.stable⟩, rfl⟩)
        exact drawn.page.added rfl ⟨rfl, rfl, rfl, rfl, fun _ => Nat.le_refl _⟩

/-! ## Control flow -/

variable {onTrue onFalse : Action ε}

theorem emitBranch (h₁ : backend.Draws 0 1 count onTrue site work)
    (h₂ : backend.Draws 0 1 count' onFalse site work') :
    backend.Draws 1 1 (count + count' + 2) (.branch onTrue onFalse) site
      (Work.emitBranch work work') := by
  refine nested (h₁.writes.emitBranch h₂.writes) fun {session unit outer slot builder} records enough room => ?_
  have drawing := records.drawing
  refine Ends.get ?_
  rw [drawing.page.size]
  refine (drawing.ends_emitJump (show (JumpKind.ifFalse.op 0).pops ≤ _ from enough)).bind ?_
  rintro _ session₁ ⟨rfl, builder₁, depth₁, drawing₁⟩
  refine drawing₁.page.ends_depth.bind ?_
  rintro _ _ ⟨rfl, rfl⟩
  have depth₁ : builder₁.depth = builder.depth - 1 := depth₁
  refine (drawing₁.ends_part records h₁ ?_ (Nat.zero_le _) (by omega)).bind ?_
  · rintro ⟨program, _, _, _, lays, -, rfl⟩
    exact ⟨program, _, lays⟩
  rintro _ session₂ ⟨builder₂, yes, wrote₂, drawing₂⟩
  have depth₂ := wrote₂.depth
  refine (drawing₂.page.ends_ensureSameUnit _).bind ?_
  rintro _ _ rfl
  refine drawing₂.page.ends_depth.bind ?_
  rintro _ _ ⟨rfl, rfl⟩
  refine (drawing₂.ends_emitJump (show (JumpKind.always.op 0).pops ≤ _ from Nat.zero_le _)).bind ?_
  rintro _ session₃ ⟨rfl, builder₃, depth₃, drawing₃⟩
  refine (drawing₃.ends_patchHere [] (JumpKind.ifFalse.op 0) (yes ++ [JumpKind.always.op 0]) rfl rfl
    .ifFalse).bind ?_
  rintro _ session₄ ⟨builder₄, depth₄, drawing₄⟩
  refine (drawing₄.ends_modifyBuilder (·.resetTo builder₁.depth) rfl).bind fun _ session₅ drawing₅ => ?_
  have depth₅ : (builder₄.resetTo builder₁.depth).depth = builder₁.depth := rfl
  refine (drawing₅.ends_part records h₂ ?_ (Nat.zero_le _) (by omega)).bind ?_
  · rintro ⟨program, _, _, _, -, lays, rfl⟩
    exact ⟨program, _, lays⟩
  rintro _ session₆ ⟨builder₆, no, wrote₆, drawing₆⟩
  have depth₆ := wrote₆.depth
  refine (drawing₆.page.ends_ensureSameUnit _).bind ?_
  rintro _ _ rfl
  refine drawing₆.page.ends_target.bind ?_
  rintro _ _ ⟨rfl, rfl⟩
  have level : builder₂.depth = builder₆.depth := by omega
  refine Ends.ite (fun unequal => absurd level unequal.1) fun _ => ?_
  have waits : builder.label + ([] ++ [JumpKind.ifFalse.op 0] ++ yes).length =
      builder.label + (Control.jump .ifFalse 0 (yes.length + 2) :: yes).length := by simp
  rw [waits]
  refine (drawing₆.ends_patchHere (Control.jump .ifFalse 0 (yes.length + 2) :: yes)
    (JumpKind.always.op 0) no (by simp [Nat.add_left_comm]) rfl .always).weaken ?_
  rintro _ session₇ ⟨builder₇, -, drawing₇⟩
  obtain ⟨⟨-, lays₁⟩, lays₂⟩ := drawing₇.holds
  refine ⟨_, _, builder₇, drawing₇, yes, no, lays₁, lays₂, ?_⟩
  have target : yes.length + 1 + 1 + no.length = yes.length + 2 + no.length := by omega
  simp only [List.length_cons, target, List.cons_append]

theorem emitLogical (connective : Connective) (h : backend.Draws 0 1 count action site work) :
    backend.Draws 1 1 (count + 3) (.logical connective action) site
      (Work.emitLogical connective work) := by
  refine nested (h.writes.emitLogical connective)
    fun {session unit outer slot builder} records enough room => ?_
  have drawing := records.drawing
  refine (drawing.ends_emit (show Op.dup.pops ≤ _ from enough)).bind ?_
  rintro _ session₁ ⟨builder₁, depth₁, drawing₁⟩
  have depth₁ : builder₁.depth = builder.depth - 1 + 2 := depth₁
  have conditional : ((Work.skipWhen connective).op 0).falls = true := by cases connective <;> rfl
  have pops : ((Work.skipWhen connective).op 0).pops = 1 := by cases connective <;> rfl
  refine (drawing₁.ends_emitJump
    (show ((Work.skipWhen connective).op 0).pops ≤ builder₁.depth by omega)).bind ?_
  rintro _ session₂ ⟨rfl, builder₂, depth₂, drawing₂⟩
  rw [JumpKind.after_conditional _ _ conditional] at depth₂
  have one : 1 ≤ builder₂.depth := by omega
  refine (drawing₂.ends_emit (show Op.pop.pops ≤ builder₂.depth from one)).bind ?_
  rintro _ session₃ ⟨builder₃, depth₃, drawing₃⟩
  have depth₃ : builder₃.depth = builder₂.depth - 1 := depth₃
  refine (drawing₃.ends_runRegion records h ?_ (by omega) _ (by decide)).bind ?_
  · rintro ⟨program, _, _, lays, rfl⟩
    exact ⟨program, _, lays⟩
  rintro _ session₄ ⟨rfl, builder₄, right, wrote₄, drawing₄⟩
  refine (drawing₄.ends_patchHere [.dup] ((Work.skipWhen connective).op 0) (.pop :: right) rfl
    (by cases connective <;> rfl) (Work.skipWhen connective)).weaken ?_
  rintro _ session₅ ⟨builder₅, -, drawing₅⟩
  refine ⟨_, _, builder₅, drawing₅, right, drawing₅.holds.2, ?_⟩
  have target : 1 + 1 + (right.length + 1) = right.length + 3 := by omega
  simp only [List.length_cons, List.length_nil, Nat.zero_add, target, List.singleton_append]

section Loop

variable {condition body : Action ε} {start session : Session backend.State υ}
  {unit : OpenUnit (Option Recording)} {outer : List (OpenUnit (Option Recording))} {slot : UInt32}
  {builder builder' : Builder} {laid : Program → Prop} {ops : List Op} {whole : Prop}
  (drawing : Drawing start unit outer slot builder laid ops builder' session)
  (records : backend.Records site unit outer slot builder start)

include drawing records

/-- The condition of a loop leaves the value that is tested. -/
theorem ends_emitCondition (h : backend.Draws 0 1 count condition site work)
    (within : whole → condition.Recordable site) (room : builder'.depth + count < 2 ^ 63) :
    Ends (Work.emitCondition work) session
      (fun _ session' => ∃ builder'' tested, builder''.depth = builder'.depth + 1 ∧
        Drawing start unit outer slot builder
          (fun program => laid program ∧ condition.Lays program site tested) (ops ++ tested) builder''
          session') fun halt _ => whole → halt.Limit := by
  refine (drawing.ends_runRegion records h within room _ (by decide)).bind ?_
  rintro _ session' ⟨-, builder'', tested, wrote, drawing'⟩
  exact Ends.pure ⟨builder'', tested, wrote.depth, drawing'⟩

/-- The value that the body of a loop leaves is dropped. -/
theorem ends_emitLoopBody (h : backend.Draws 0 1 count body site work)
    (within : whole → body.Recordable site) (room : builder'.depth + count < 2 ^ 63) :
    Ends (Work.emitLoopBody work) session
      (fun _ session' => ∃ builder'' repeated, builder''.depth = builder'.depth ∧
        Drawing start unit outer slot builder
          (fun program => laid program ∧ body.Lays program site repeated) (ops ++ (repeated ++ [.pop]))
          builder'' session') fun halt _ => whole → halt.Limit := by
  refine (drawing.ends_runRegion records h within room _ (by decide)).bind ?_
  rintro _ session₁ ⟨rfl, builder₁, repeated, wrote₁, drawing₁⟩
  have depth₁ : builder₁.depth = builder'.depth + 1 := wrote₁.depth
  have one : 1 ≤ builder₁.depth := by omega
  refine (drawing₁.ends_emit (show Op.pop.pops ≤ _ from one)).bind ?_
  rintro _ session₂ ⟨builder₂, depth₂, drawing₂⟩
  have depth₂ : builder₂.depth = builder₁.depth - 1 := depth₂
  rw [List.append_assoc] at drawing₂
  exact Ends.pure ⟨builder₂, repeated, by omega, drawing₂⟩

end Loop

theorem emitLoop {condition body : Action ε} (h₁ : backend.Draws 0 1 count condition site work)
    (h₂ : backend.Draws 0 1 count' body site work') (checkFirst : Bool) :
    backend.Draws 0 0 (count + count' + Writes.loopCount checkFirst) (.loop condition body checkFirst)
      site (Work.emitLoop work work' checkFirst) := by
  refine nested (h₁.writes.emitLoop h₂.writes checkFirst)
    fun {session unit outer slot builder} records enough room => ?_
  have drawing := records.drawing
  refine drawing.page.ends_target.bind ?_
  rintro _ _ ⟨rfl, rfl⟩
  have counts := h₁.writes.counts
  cases checkFirst with
  | true =>
      rw [show Writes.loopCount true = 3 from rfl] at room
      refine (ends_emitCondition drawing records h₁ ?_ (by omega)).bind ?_
      · rintro ⟨program, _, _, _, lays, -, rfl⟩
        exact ⟨program, _, lays⟩
      rintro _ session₁ ⟨builder₁, tested, depth₁, drawing₁⟩
      have one : 1 ≤ builder₁.depth := by omega
      refine (drawing₁.ends_emitJump (show (JumpKind.ifFalse.op 0).pops ≤ _ from one)).bind ?_
      rintro _ session₂ ⟨rfl, builder₂, depth₂, drawing₂⟩
      have depth₂ : builder₂.depth = builder₁.depth - 1 := depth₂
      refine (ends_emitLoopBody drawing₂ records h₂ ?_ (by omega)).bind ?_
      · rintro ⟨program, _, _, _, -, lays, rfl⟩
        exact ⟨program, _, lays⟩
      rintro _ session₃ ⟨builder₃, repeated, depth₃, drawing₃⟩
      refine (drawing₃.ends_emitJumpBack
        (show (JumpKind.always.op 0).pops ≤ _ from Nat.zero_le _)).bind ?_
      rintro _ session₄ ⟨builder₄, drawing₄⟩
      rw [List.nil_append]
      refine (drawing₄.ends_patchHere tested (JumpKind.ifFalse.op 0)
        (repeated ++ [.pop, Control.jump .always (tested.length + repeated.length + 2) 0])
        (by simp [Nat.add_assoc, Nat.add_comm, Nat.add_left_comm]) rfl .ifFalse).weaken ?_
      rintro _ session₅ ⟨builder₅, -, drawing₅⟩
      obtain ⟨⟨-, lays₁⟩, lays₂⟩ := drawing₅.holds
      refine ⟨_, _, builder₅, drawing₅, tested, repeated, lays₁, lays₂, ?_⟩
      have target : tested.length + 1 + (repeated.length + 2) =
          tested.length + repeated.length + 3 := by omega
      simp only [List.length_append, List.length_cons, List.length_nil, Nat.zero_add, target]
  | false =>
      rw [show Writes.loopCount false = 2 from rfl] at room
      refine (ends_emitLoopBody drawing records h₂ ?_ (by omega)).bind ?_
      · rintro ⟨program, _, _, _, lays, -, rfl⟩
        exact ⟨program, _, lays⟩
      rintro _ session₁ ⟨builder₁, repeated, depth₁, drawing₁⟩
      refine (ends_emitCondition drawing₁ records h₁ ?_ (by omega)).bind ?_
      · rintro ⟨program, _, _, _, -, lays, rfl⟩
        exact ⟨program, _, lays⟩
      rintro _ session₂ ⟨builder₂, tested, depth₂, drawing₂⟩
      have one : 1 ≤ builder₂.depth := by omega
      refine (drawing₂.ends_emitJumpBack (show (JumpKind.ifTrue.op 0).pops ≤ _ from one)).weaken ?_
      rintro _ session₃ ⟨builder₃, drawing₃⟩
      obtain ⟨⟨-, lays₂⟩, lays₁⟩ := drawing₃.holds
      refine ⟨_, _, builder₃, drawing₃, repeated, tested, lays₂, lays₁, ?_⟩
      simp [Nat.add_comm, Nat.add_left_comm]

/-! ## Aggregates -/

/-- The elements of an aggregate leave one value each. -/
theorem ends_elements {element : Nat → Action ε} {part : Nat → Work backend.State υ Unit}
    {counts : Nat → Nat} (construct : String) {whole : Prop} {start session : Session backend.State υ}
    {unit : OpenUnit (Option Recording)} {outer : List (OpenUnit (Option Recording))} {slot : UInt32}
    {builder builder' : Builder} {laid : Program → Prop} {ops : List Op}
    (drawing : Drawing start unit outer slot builder laid ops builder' session)
    (records : backend.Records site unit outer slot builder start) (first total : Nat)
    (h : ∀ index, first ≤ index → index < first + total →
      backend.Draws 0 1 (counts index) (element index) site (part index))
    (within : whole → ∀ index, first ≤ index → index < first + total →
      (element index).Recordable site)
    (room : builder'.depth + ((List.range' first total).map counts).sum < 2 ^ 63) :
    Ends (Work.forEachIndex (fun index => do
        let _ ← Work.runRegion construct .one (part index)) first total) session
      (fun _ session' => ∃ builder'' parts, builder''.depth = builder'.depth + total ∧
        Drawing start unit outer slot builder (fun program => laid program ∧
          LaysEach (fun index => (element index).Lays program site) first total parts) (ops ++ parts)
          builder'' session') fun halt _ => whole → halt.Limit := by
  induction total generalizing first laid ops builder' session with
  | zero =>
      refine Ends.pure ⟨builder', [], rfl, ?_⟩
      rw [List.append_nil]
      exact drawing.also (fun _ h => h) rfl
  | succ total ih =>
      rw [List.range'_succ, List.map_cons, List.sum_cons] at room
      have inside : first < first + (total + 1) := by omega
      have one : Ends (do let _ ← Work.runRegion construct .one (part first)) session
          (fun _ session' => ∃ builder'' ops', builder''.depth = builder'.depth + 1 ∧
            Drawing start unit outer slot builder
              (fun program => laid program ∧ (element first).Lays program site ops') (ops ++ ops')
              builder'' session') fun halt _ => whole → halt.Limit := by
        refine (drawing.ends_runRegion records (h first (Nat.le_refl _) inside)
          (fun holds => within holds first (Nat.le_refl _) inside) (by omega) _ (by decide)).bind ?_
        rintro _ session' ⟨-, builder'', ops', wrote, drawing'⟩
        exact Ends.pure ⟨builder'', ops', wrote.depth, drawing'⟩
      have counts := (h first (Nat.le_refl _) inside).writes.counts
      refine one.bind ?_
      rintro _ session₁ ⟨builder₁, ops₁, depth₁, drawing₁⟩
      refine (ih drawing₁ (first + 1) (fun index low high => h index (by omega) (by omega))
        (fun holds index low high => within holds index (by omega) (by omega)) (by omega)).weaken ?_
      rintro _ session₂ ⟨builder₂, ops₂, depth₂, drawing₂⟩
      rw [List.append_assoc] at drawing₂
      refine ⟨builder₂, ops₁ ++ ops₂, by omega, drawing₂.page, drawing₂.appends, drawing₂.grew, ?_, ?_⟩
      · obtain ⟨⟨laid, lays₁⟩, lays₂⟩ := drawing₂.holds
        exact ⟨laid, ops₁, ops₂, lays₁, lays₂, rfl⟩
      · rintro program other carries ⟨laid, each⟩
        exact ⟨drawing.stable carries laid, each.carry
          (fun _ _ lays refs => lays.carry carries refs) fun _ _ => trivial⟩

theorem emitArray {element : Nat → Action ε} {part : Nat → Work backend.State υ Unit}
    {counts : Nat → Nat} {total : Nat}
    (h : ∀ index < total, backend.Draws 0 1 (counts index) (element index) site (part index))
    (short : total < 2 ^ 31) :
    backend.Draws 0 1 (((List.range total).map counts).sum + 1) (.array total element) site
      (Work.emitArray total part) := by
  refine nested (.emitArray (fun index inside => (h index inside).writes) short)
    fun {session unit outer slot builder} records enough room => ?_
  rw [List.range_eq_range'] at room
  refine (ends_elements (Work.arrayOperation ++ " element") records.drawing records 0 total
    (fun index _ inside => h index (by omega)) ?_ (by omega)).bind ?_
  · rintro ⟨program, _, parts, each, rfl⟩ index low inside
    obtain ⟨ops, lays⟩ := each.part low inside
    exact ⟨program, ops, lays⟩
  rintro _ session₁ ⟨builder₁, parts, depth₁, drawing₁⟩
  have operands : (Op.makeArray total.toUInt32).pops ≤ builder₁.depth := by
    change total.toUInt32.toNat ≤ _
    rw [Program.toNat_toUInt32_short short]
    omega
  refine (drawing₁.ends_emit operands).weaken ?_
  rintro _ session₂ ⟨builder₂, -, drawing₂⟩
  exact ⟨_, _, builder₂, drawing₂, parts, drawing₂.holds.2, rfl⟩

end Backend.Draws

end BlockScript
