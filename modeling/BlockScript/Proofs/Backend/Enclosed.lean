import BlockScript.Proofs.Backend.Shadowed

/-!
# Nested code of a script in the shadow of its artifact

The bodies of blocks and methods are recorded while the machine stands still. The arm of a branch
that is not taken and a right-hand side that is skipped are what the machine jumps over, and each
pass of a loop is one of the machine's. So if a loop uses up its budget, the machine has done as
many steps at least.
-/

namespace BlockScript.Interpreter.Shadowed

variable {ε υ : Type} {artifact : Program} {limits : Limits} {start : Machine} {code : Code}
  {ip least : Nat} {ops : List Op} {session session' : Session Interpreter υ}
  {fuel taken given count : Nat} {action body : Action ε} {work : Work Interpreter υ Unit}

/-! ## Bodies -/

/-- A body was recorded, while the machine stands still. -/
theorem filed {head : Code} {inner : Site} {slot : UInt32}
    (shadow : Shadow ε artifact limits start code ip least session)
    (files : session.Files head body inner slot session') :
    Shadow ε artifact limits start code ip least session' :=
  have grew := files.grew [.makeClosure slot] (Op.refer_single.mpr rfl)
  shadow.grow files.intact.units files.intact.beside files.intact.backend grew.carries grew.tidy

/-- A limit is all that recording a body may fail over, if the machine's program has the body. -/
theorem ends_body {head : Code} {inner : Site} {slot : UInt32} {record : Work Interpreter υ UInt32}
    (files : artifact.Files head (body.Lays artifact inner) slot)
    (shadow : Shadow ε artifact limits start code ip least session)
    (records : Ends record session
      (fun slot session' => session.Files head body inner slot session')
      fun halt _ => body.Recordable inner → halt.Limit) :
    Ends record session
      (fun slot' session' => Shadow ε artifact limits start code ip least session' ∧
        session'.backend = session.backend ∧ artifact.Twins ε session'.bench.program slot slot')
      (Echoes artifact limits start fuel) := by
  refine records.mono (fun slot' session' filed => ?_) fun halt _ limit => ?_
  · exact ⟨Shadowed.filed shadow filed, filed.intact.backend, head, body, inner, files, filed.files⟩
  · obtain ⟨_, ops, -, -, lays, -⟩ := files
    exact .inl (limit ⟨artifact, ops, lays⟩)

/-- A block body of the script. -/
theorem ends_recordBlock {scope : StaticScope} {arity : Nat} {slot : UInt32}
    (h : (Backend.immediate fuel).Draws 0 1 count body Site.script.closure work)
    (short : count + 1 < 2 ^ 31)
    (files : artifact.Files (.headOf .closure Site.script.closure.name arity scope.size scope.names)
      (body.Lays artifact Site.script.closure) slot)
    (shadow : Shadow ε artifact limits start code ip least session) :
    Ends (Work.recordBlock scope arity work) session
      (fun slot' session' => Shadow ε artifact limits start code ip least session' ∧
        session'.backend = session.backend ∧ artifact.Twins ε session'.bench.program slot slot')
      (Echoes artifact limits start fuel) := by
  obtain ⟨unit, outer, hunits, -⟩ := shadow.live.executes
  exact ends_body files shadow (Backend.Draws.ends_recordBlock h short (shadow.live.prepared fuel)
    shadow.tidy (hunits ▸ List.cons_ne_nil _ _) shadow.script.site scope arity)

theorem closure (h : (Backend.immediate fuel).Draws 0 1 count body Site.script.closure work)
    (short : count + 1 < 2 ^ 31) (scope : StaticScope) (arity : Nat) :
    Shadowed fuel 0 1 (.closure scope arity body) (Interpreter.closure fuel scope arity work) where
  runs := .closure ⟨count, short, h.writes⟩ scope arity
  shadows {artifact limits start code ip least ops session} quiet _ holds lays shadow _ := by
    obtain ⟨slot, files, rfl⟩ := lays
    refine (shadow.ends_ensureOpen).bind ?_
    rintro _ _ rfl
    refine (ends_recordBlock h short files shadow).bind ?_
    rintro slot' session₁ ⟨shadow₁, -, twins⟩
    exact shadow₁.ends_perform quiet holds.head (.makeClosure twins) ⟨rfl, rfl, rfl, rfl⟩
      (Nat.zero_le _) fuel _

theorem method (name : String) (arity localCount : Nat)
    (h : (Backend.immediate fuel).Draws 0 1 count body (.method name) work)
    (short : count + 1 < 2 ^ 31) : Shadowed fuel 0 0 (.method name arity localCount body)
      (Interpreter.defineMethod fuel name arity localCount work) where
  runs := .defineMethod ⟨count, short, h.writes⟩ name arity localCount
  shadows {artifact limits start code ip least ops session} quiet _ holds lays shadow _ := by
    obtain ⟨slot, position, files, pooled, rfl⟩ := lays
    refine (shadow.ends_ensureOpen).bind ?_
    rintro _ _ rfl
    refine (ends_body files shadow (Backend.Draws.ends_filed h short (shadow.live.prepared fuel)
      shadow.tidy UnitStack.site_method arity localCount [])).bind ?_
    rintro slot' session₁ ⟨shadow₁, -, twins⟩
    exact ends_pooled (fun _ => ⟨rfl, rfl, rfl, rfl⟩) quiet holds.head
      (fun program position' carries pooled' =>
        .defineMethod (Program.sameText rfl pooled pooled') (twins.carry carries))
      shadow₁ (Nat.zero_le _)

/-! ## Calls -/

section Calls

variable {shape : Invocation} (few : shape.argc < 2 ^ 31)

include few

theorem call (name : String) : Shadowed fuel shape.consumed 1 (.call name shape : Action ε)
    (Interpreter.invoke fuel name shape none : Work Interpreter υ Unit) where
  runs := .invoke name few nofun
  shadows {artifact limits start code ip least ops session} quiet _ holds lays shadow enough := by
    obtain ⟨position, pooled, rfl⟩ := lays
    refine shadow.ends_either (Ends.get (Ends.ite
      (fun lacks => absurd enough (Nat.not_le.mpr lacks)) fun _ => ?_))
    exact ends_pooled (fun position => shape.straight_send few position none) quiet holds.head
      (fun program position' _ pooled' => .send _ _ (Program.sameText rfl pooled pooled')) shadow
      enough

theorem callBlock (name : String) {scope : StaticScope} {arity : Nat}
    (h : (Backend.immediate fuel).Draws 0 1 count body Site.script.closure work)
    (short : count + 1 < 2 ^ 31) :
    Shadowed fuel shape.consumed 1 (.callBlock name shape scope arity body)
      (Interpreter.invoke fuel name shape (some ⟨scope, arity, work⟩)) where
  runs := .invoke name few fun _ same => Option.some.inj same ▸ ⟨count, short, h.writes⟩
  shadows {artifact limits start code ip least ops session} quiet _ holds lays shadow enough := by
    obtain ⟨slot, position, files, pooled, rfl⟩ := lays
    refine shadow.ends_either (Ends.get (Ends.ite
      (fun lacks => absurd enough (Nat.not_le.mpr lacks)) fun _ => ?_))
    simp only [Work.recordBlock?, Option.mapM_some, map_eq_pure_bind, bind_assoc, pure_bind]
    refine (ends_recordBlock h short files shadow).bind ?_
    rintro slot' session₁ ⟨shadow₁, backend, twins⟩
    rw [← backend] at enough
    exact ends_pooled (fun position => shape.straight_send few position (some slot')) quiet holds.head
      (fun program position' carries pooled' =>
        .sendBlock _ _ (Program.sameText rfl pooled pooled') (twins.carry carries)) shadow₁ enough

end Calls

/-! ## Control -/

section Parts

variable {work' : Work Interpreter υ Unit} {action' : Action ε}

/-- A part of the script on a control-flow level of its own. -/
theorem ends_inner (h : Shadowed fuel taken given action work) (quiet : start.Quiet artifact limits)
    (short : code.ops.size < 2 ^ 31) (holds : code.Holds ip ops)
    (lays : action.Lays artifact .script ops)
    (shadow : Shadow ε artifact limits start code ip least session)
    (enough : taken ≤ session.backend.top.stack.length) :
    Ends (Work.nested work) session
      (fun _ session' => Shadow ε artifact limits start code (ip + ops.length) least session' ∧
        Scene taken given session session')
      (Echoes artifact limits start fuel) :=
  (ends_nested shadow fun entered => h.shadows quiet short holds lays entered enough).ensured
    ((Runs.nested h.runs).ends shadow.live enough).ensures

/-- The arm that is taken runs, and the machine jumps over the other one. -/
theorem branch (h₁ : Shadowed fuel 0 1 action work) (h₂ : Shadowed fuel 0 1 action' work') :
    Shadowed fuel 1 1 (.branch action action') (Interpreter.branch work work') where
  runs := .branch h₁.runs h₂.runs
  shadows {artifact limits start code ip least ops session} quiet short holds lays shadow enough := by
    obtain ⟨yes, no, lays₁, lays₂, rfl⟩ := lays
    have fits := holds.le_size
    simp only [List.length_append, List.length_cons] at fits
    have test := holds.head
    have leave := holds.tail.right.head
    have onTrue : code.Holds (ip + 1) yes := holds.tail.left
    have onFalse : code.Holds (ip + (yes.length + 2)) no := by
      have rest := holds.tail.right.tail
      rwa [show ip + 1 + yes.length + 1 = ip + (yes.length + 2) by omega] at rest
    have whole : ip + (Control.jump .ifFalse 0 (yes.length + 2) ::
        (yes ++ Control.jump .always (yes.length + 1) (yes.length + 2 + no.length) :: no)).length =
        ip + (yes.length + 2 + no.length) := by
      simp only [List.length_append, List.length_cons]
      omega
    rw [whole]
    refine shadow.ends_either ?_
    cases stack : session.backend.top.stack with
    | nil => simp [stack] at enough
    | cons value rest =>
        refine (ends_pop stack _).bind ?_
        rintro value _ ⟨rfl, rfl⟩
        have tests : Shadow ε artifact limits start code (ip + 0) least session := shadow
        have jumped := Shadow.step_conditional quiet tests (by omega) (by omega) test nofun stack
        refine Ends.get ?_
        cases truthy : value.isTruthy with
        | true =>
            have there : Shadow ε artifact limits start code (ip + 1) (least + 1)
                (withStack session rest) := by simpa [truthy] using jumped
            refine (ends_inner h₁ quiet short onTrue lays₁ there (Nat.zero_le _)).bind ?_
            rintro _ session₁ ⟨shadow₁, scene⟩
            refine (scene.ends_ensureSameUnit _).weaken ?_
            rintro _ _ rfl
            rw [show ip + 1 + yes.length = ip + (yes.length + 1) by omega] at shadow₁ leave
            exact (Shadow.step_always quiet shadow₁ (by omega) (by omega) leave).mono (by omega)
        | false =>
            have there : Shadow ε artifact limits start code (ip + (yes.length + 2)) (least + 1)
                (withStack session rest) := by simpa [truthy] using jumped
            refine (ends_inner h₂ quiet short onFalse lays₂ there (Nat.zero_le _)).bind ?_
            rintro _ session₁ ⟨shadow₁, scene⟩
            refine (scene.ends_ensureSameUnit _).weaken ?_
            rintro _ _ rfl
            rw [← Nat.add_assoc]
            exact shadow₁.mono (by omega)

/-- A right-hand side that is skipped is what the machine jumps over. -/
theorem logical (connective : Connective) (h : Shadowed fuel 0 1 action work) :
    Shadowed fuel 1 1 (.logical connective action) (Interpreter.logical connective work) where
  runs := .logical connective h.runs
  shadows {artifact limits start code ip least ops session} quiet short holds lays shadow enough := by
    obtain ⟨right, lays, rfl⟩ := lays
    have fits := holds.le_size
    simp only [List.length_cons] at fits
    have double := holds.head
    have test := holds.tail.head
    have drop := holds.tail.tail.head
    have next : code.Holds (ip + 2 + 1) right := holds.tail.tail.tail
    have whole : ip + (.dup :: Control.jump (Work.skipWhen connective) 1 (right.length + 3) ::
        .pop :: right : List Op).length = ip + (right.length + 3) := by
      simp only [List.length_cons]
    rw [whole]
    refine shadow.ends_either (Ends.get ?_)
    cases stack : session.backend.top.stack with
    | nil => simp [stack] at enough
    | cons value rest =>
        have tested := Shadow.step_test quiet shadow (by omega) double test
          (by cases connective <;> nofun) stack
        have same : value.isTruthy = decide (Work.skipWhen connective = .ifTrue) ↔
            value.isTruthy ≠ runsWhen connective := by
          cases connective <;> cases value.isTruthy <;> decide
        refine Ends.ite (fun runs => ?_) fun skips => ?_
        · rw [if_neg fun skip => same.mp skip runs] at tested
          refine (ends_pop stack _).bind ?_
          rintro _ _ ⟨rfl, rfl⟩
          have dropped := Shadow.step_pop quiet tested drop stack
          rw [show ip + (right.length + 3) = ip + 2 + 1 + right.length by omega]
          refine (ends_nested dropped fun entered => ?_).weaken fun _ _ shadow' =>
            shadow'.mono (Nat.le_add_right least 2)
          refine (ends_runRegion h quiet short next lays entered _ (by decide)).bind ?_
          rintro _ session₁ ⟨-, shadow₁, -⟩
          exact Ends.pure shadow₁
        · rw [if_pos (same.mpr skips)] at tested
          exact Ends.pure (tested.mono (by omega))

/-! ## Loops -/

section Loop

variable {condition : Action ε} {test : Work Interpreter υ Unit} {tested repeated : List Op}
  {first again last : Nat}

/-- Every pass of a loop is one of the machine's, which takes a step at least. The condition is laid
out at one place and the body at another one, and there is a place after the loop. -/
theorem ends_passes (h₁ : Shadowed fuel 0 1 condition test) (h₂ : Shadowed fuel 0 1 body work)
    (quiet : start.Quiet artifact limits) (short : code.ops.size < 2 ^ 31)
    (tests : code.Holds first tested) (lays₁ : condition.Lays artifact .script tested)
    (repeats : code.Holds again repeated) (lays₂ : body.Lays artifact .script repeated)
    (goes : ∀ {least : Nat} {session : Session Interpreter υ} {value : Value} {rest : List Value},
      session.backend.top.stack = value :: rest →
      Shadow ε artifact limits start code (first + tested.length) least session →
      Shadow ε artifact limits start code (if value.isTruthy then again else last) least
        (withStack session rest))
    (returns : ∀ {least : Nat} {session : Session Interpreter υ} {value : Value} {rest : List Value},
      session.backend.top.stack = value :: rest →
      Shadow ε artifact limits start code (again + repeated.length) least session →
      Shadow ε artifact limits start code first (least + 1) (withStack session rest))
    {budget : Nat} (spent : fuel ≤ least + budget) (checks : Bool)
    (shadow : Shadow ε artifact limits start code (if checks then first else again) least session) :
    Ends (passes test work budget checks) session
      (fun _ session' => Shadow ε artifact limits start code last least session')
      (Echoes artifact limits start fuel) := by
  induction budget generalizing least session checks with
  | zero => exact Ends.throws (.inr (shadow.not_done spent))
  | succ budget ih =>
      have pass (goOn : Bool) {session : Session Interpreter υ}
          (shadow : Shadow ε artifact limits start code (if goOn then again else last) least session) :
          Ends (do
            if goOn then
              let produced ← runRegion (Work.loopOperation ++ " body") .atMostOne work
              drop Work.loopOperation produced.toNat
              passes test work budget true) session
            (fun _ session' => Shadow ε artifact limits start code last least session')
            (Echoes artifact limits start fuel) := by
        cases goOn with
        | false => exact Ends.pure shadow
        | true =>
            refine (ends_runRegion h₂ quiet short repeats lays₂ shadow _ (by decide)).bind ?_
            rintro _ session₁ ⟨rfl, shadow₁, value, stack⟩
            refine (ends_drop_one stack _).bind ?_
            rintro _ _ rfl
            exact (ih (by omega) true (returns stack shadow₁)).weaken fun _ _ left =>
              left.mono (Nat.le_succ least)
      cases checks with
      | false => exact pass true shadow
      | true =>
          refine (ends_runRegion h₁ quiet short tests lays₁ shadow _ (by decide)).bind ?_
          rintro _ session₁ ⟨-, shadow₁, value, stack⟩
          refine (ends_pop stack _).bind ?_
          rintro value _ ⟨rfl, rfl⟩
          exact pass _ (goes stack shadow₁)

theorem loop (h₁ : Shadowed fuel 0 1 condition test) (h₂ : Shadowed fuel 0 1 body work)
    (checkFirst : Bool) : Shadowed fuel 0 0 (.loop condition body checkFirst)
      (Interpreter.loop fuel test work checkFirst) where
  runs := .loop fuel h₁.runs h₂.runs checkFirst
  shadows {artifact limits start code ip least ops session} quiet short holds lays shadow enough := by
    refine shadow.ends_either (ends_nested shadow fun entered => ?_)
    cases checkFirst with
    | true =>
        obtain ⟨tested, repeated, lays₁, lays₂, rfl⟩ := lays
        have fits := holds.right.le_size
        have leave := holds.right.head
        have repeats : code.Holds (ip + tested.length + 1) repeated := holds.right.tail.left
        have drop := holds.right.tail.right.head
        have back := holds.right.tail.right.tail.head
        simp only [List.length_append, List.length_cons, List.length_nil] at fits ⊢
        refine ends_passes h₁ h₂ quiet short holds.left lays₁ repeats lays₂
          (fun {_ _ value _} stack shadow => ?_) (fun stack shadow => ?_)
          (Nat.le_add_left fuel least) true entered
        · have jumped := Shadow.step_conditional quiet shadow (by omega) (by omega) leave nofun stack
          rw [show ip + (tested.length + (repeated.length + (0 + 1 + 1) + 1)) =
            ip + (tested.length + repeated.length + 3) by omega]
          cases truthy : value.isTruthy <;> simpa [truthy] using jumped.mono (Nat.le_succ _)
        · have dropped := Shadow.step_pop quiet shadow drop stack
          rw [show ip + tested.length + 1 + repeated.length + 1 =
            ip + (tested.length + repeated.length + 2) by omega] at dropped back
          exact (Shadow.step_always quiet dropped (by omega) (by omega) back).mono (Nat.le_succ _)
    | false =>
        obtain ⟨repeated, tested, lays₂, lays₁, rfl⟩ := lays
        have fits := holds.right.le_size
        have drop := holds.right.head
        have tests : code.Holds (ip + repeated.length + 1) tested := holds.right.tail.left
        have back := holds.right.tail.right.head
        simp only [List.length_append, List.length_cons, List.length_nil] at fits ⊢
        refine ends_passes h₁ h₂ quiet short tests lays₁ holds.left lays₂
          (fun {_ _ value _} stack shadow => ?_) (fun stack shadow => ?_)
          (Nat.le_add_left fuel least) false entered
        · rw [show ip + repeated.length + 1 + tested.length =
            ip + (repeated.length + 1 + tested.length) by omega] at shadow back
          have jumped := Shadow.step_conditional quiet shadow (by omega) (by omega) back nofun stack
          rw [show ip + (repeated.length + (tested.length + (0 + 1) + 1)) =
            ip + (repeated.length + 1 + tested.length) + 1 by omega]
          cases truthy : value.isTruthy <;> simpa [truthy] using jumped.mono (Nat.le_succ _)
        · exact Shadow.step_pop quiet shadow drop stack

end Loop

/-! ## Aggregates -/

section Elements

variable {element : Nat → Action ε} {part : Nat → Work Interpreter υ Unit} {total : Nat}

/-- The elements of an aggregate, one after the other. -/
theorem ends_elements (construct : String) {parts : List Op} {first : Nat}
    (h : ∀ index, first ≤ index → index < first + total →
      Shadowed fuel 0 1 (element index) (part index))
    (quiet : start.Quiet artifact limits) (short : code.ops.size < 2 ^ 31)
    (holds : code.Holds ip parts)
    (lays : LaysEach (fun index => (element index).Lays artifact .script) first total parts)
    (shadow : Shadow ε artifact limits start code ip least session) :
    Ends (Work.forEachIndex (fun index => do
        let _ ← runRegion construct .one (part index)) first total) session
      (fun _ session' => Shadow ε artifact limits start code (ip + parts.length) least session')
      (Echoes artifact limits start fuel) := by
  induction total generalizing first ip parts session with
  | zero =>
      obtain rfl : parts = [] := lays
      exact Ends.pure shadow
  | succ total ih =>
      obtain ⟨ops₁, ops₂, lays₁, lays₂, rfl⟩ := lays
      have one : Ends (do let _ ← runRegion construct .one (part first)) session
          (fun _ session' => Shadow ε artifact limits start code (ip + ops₁.length) least session')
          (Echoes artifact limits start fuel) := by
        refine (ends_runRegion (h first (Nat.le_refl _) (by omega)) quiet short holds.left lays₁ shadow _
          (by decide)).bind ?_
        rintro _ session₁ ⟨-, shadow₁, -⟩
        exact Ends.pure shadow₁
      refine one.bind fun _ session₁ shadow₁ => ?_
      rw [List.length_append, ← Nat.add_assoc]
      exact ih (fun index low high => h index (by omega) (by omega)) holds.right lays₂ shadow₁

theorem array (h : ∀ index < total, Shadowed fuel 0 1 (element index) (part index))
    (few : total < 2 ^ 31) :
    Shadowed fuel 0 1 (.array total element) (Interpreter.objectArray fuel total part) where
  runs := .objectArray fuel (fun index inside => (h index inside).runs) few
  shadows {artifact limits start code ip least ops session} quiet short holds lays shadow _ := by
    obtain ⟨parts, each, rfl⟩ := lays
    have inside : ∀ index, 0 ≤ index → index < 0 + total →
        Shadowed fuel 0 1 (element index) (part index) := fun index _ high => h index (by omega)
    have elements := (Runs.nested (.elements (Work.arrayOperation ++ " element") 0 total
      fun index low high => (inside index low high).runs)).ends shadow.live (Nat.zero_le _)
    have straight : (Op.makeArray total.toUInt32).Straight total 1 :=
      ⟨Program.toNat_toUInt32_short few, rfl, rfl, rfl⟩
    refine shadow.ends_either (((ends_nested shadow fun entered => ends_elements _ inside quiet short
      holds.left each entered).ensured elements.ensures).bind ?_)
    rintro _ session₁ ⟨shadow₁, scene⟩
    have length := scene.stack.length
    rw [List.length_append, ← Nat.add_assoc]
    exact shadow₁.ends_perform quiet holds.right.head (.bare trivial) straight (by omega) fuel _

end Elements

end Parts

end BlockScript.Interpreter.Shadowed
