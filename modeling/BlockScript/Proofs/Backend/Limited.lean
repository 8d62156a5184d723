import BlockScript.Proofs.Backend.Nested
import BlockScript.Proofs.Machine.Limited
import BlockScript.Proofs.Node.Plain

/-!
# The limit on operations and the script

The immediate backend executes the operations of the script one by one, outside any body. They
are not counted, so the limit on operations binds only the bodies that they call. There it
binds all of them together: a script whose bodies keep the limit does the same as without it,
and a script whose bodies would execute more fails when they have executed as many as the limit
allows.
-/

namespace BlockScript.Interpreter

variable {υ α γ : Type} {most fuel : Nat}

/-- The same session under a limit on operations. -/
def within (most : Nat) (session : Session Interpreter υ) : Session Interpreter υ :=
  { session with backend := { session.backend with limits := session.backend.limits.within most } }

/-- The operations that bodies have executed so far. -/
def counted (session : Session Interpreter υ) : Nat := session.backend.world.steps

/-- The limits stay, and what is counted is never taken back. -/
def Counts (session session' : Session Interpreter υ) : Prop :=
  session'.backend.limits = session.backend.limits ∧ counted session ≤ counted session'

instance : IsPreorder (Session Interpreter υ) Counts where
  refl _ := ⟨rfl, Nat.le_refl _⟩
  trans _ _ _ h₁ h₂ := ⟨h₂.1.trans h₁.1, Nat.le_trans h₁.2 h₂.2⟩

/-- The bodies of the script have exceeded the limit. -/
def Exceeded (most : Nat) :
    EStateM.Result (Halt CompileError) (Session Interpreter υ) α → Prop
  | .error (.failure (.runtime error _)) session => error.Exceeds most ∧ counted session = most + 1
  | _ => False

/-- Under the limit the computation comes to the same as long as its bodies keep the limit; if they
do not, it fails because of that. -/
structure Obeys (most : Nat) (action : Work Interpreter υ α) : Prop where
  counts : Moves Counts action
  bounds {session : Session Interpreter υ} : session.backend.limits.maxSteps = none →
    counted session ≤ most →
    Ends action session
      (fun value session' =>
        if counted session' ≤ most then action (within most session) = .ok value (within most session')
        else Exceeded most (action (within most session)))
      fun halt session' =>
        if counted session' ≤ most then action (within most session) = .error halt (within most session')
        else Exceeded most (action (within most session))

namespace Obeys

/-- A computation that neither looks at the limits nor counts anything. -/
theorem of_blind {action : Work Interpreter υ α}
    (h : ∀ session, Ends action session
      (fun value session' => session'.backend.limits = session.backend.limits ∧
        counted session' = counted session ∧
        action (within most session) = .ok value (within most session'))
      fun halt session' => session'.backend.limits = session.backend.limits ∧
        counted session' = counted session ∧
        action (within most session) = .error halt (within most session')) : Obeys most action where
  counts session := (h session).mono
    (fun _ _ ⟨limits, same, _⟩ => ⟨limits, Nat.le_of_eq same.symm⟩)
    fun _ _ ⟨limits, same, _⟩ => ⟨limits, Nat.le_of_eq same.symm⟩
  bounds {session} _ room := (h session).mono
    (fun _ _ ⟨_, same, again⟩ => by rwa [if_pos (same ▸ room)])
    fun _ _ ⟨_, same, again⟩ => by rwa [if_pos (same ▸ room)]

theorem pure (value : α) : Obeys most (Pure.pure value : Work Interpreter υ α) :=
  .of_blind fun _ => Ends.pure ⟨rfl, rfl, rfl⟩

theorem throws (halt : Halt CompileError) : Obeys most (throw halt : Work Interpreter υ α) :=
  .of_blind fun _ => Ends.throws ⟨rfl, rfl, rfl⟩

/-- It does not matter what was to be computed, nor what else the session holds. -/
theorem exceeded_error {result : EStateM.Result (Halt CompileError) (Session Interpreter υ) α}
    (h : Exceeded most result) : ∃ halt session, result = .error halt session ∧
      ∀ (γ : Type) (session' : Session Interpreter υ), counted session' = counted session →
        Exceeded most (.error halt session' :
          EStateM.Result (Halt CompileError) (Session Interpreter υ) γ) := by
  cases result with
  | ok value session => exact h.elim
  | error halt session =>
      refine ⟨halt, session, rfl, fun γ session' same => ?_⟩
      rcases halt with error | _
      · cases error with
        | runtime error line => exact ⟨h.1, same.trans h.2⟩
        | _ => exact h.elim
      · exact h.elim

theorem bind {first : Work Interpreter υ α} {next : α → Work Interpreter υ γ}
    (h₁ : Obeys most first) (h₂ : ∀ value, Obeys most (next value)) :
    Obeys most (first >>= next) where
  counts := h₁.counts.bind fun value => (h₂ value).counts
  bounds {session} unlimited room := by
    have stops (exceeded : Exceeded most (first (within most session))) :
        Exceeded most ((first >>= next) (within most session)) := by
      obtain ⟨halt, session', fails, exceeded⟩ := exceeded_error exceeded
      rw [run_bind_error fails]
      exact exceeded γ _ rfl
    have begins := h₁.bounds unlimited room
    apply Ends.bind
    · apply begins.ensured (h₁.counts session).ensures |>.mono
      · exact fun _ _ => id
      · intro halt session' fails
        split at fails
        · rw [if_pos ‹_›, run_bind_error fails]
        · rw [if_neg ‹_›]
          exact stops fails
    · intro value middle ⟨again, limits, grows⟩
      by_cases kept : counted middle ≤ most
      · rw [if_pos kept] at again
        rw [run_bind_ok again]
        exact (h₂ value).bounds (limits ▸ unlimited) kept
      -- What has exceeded the limit before is not taken back.
      · rw [if_neg kept] at again
        apply ((h₂ value).counts middle).mono
        · intro _ _ later
          rw [if_neg fun kept' => kept (Nat.le_trans later.2 kept')]
          exact stops again
        · intro _ _ later
          rw [if_neg fun kept' => kept (Nat.le_trans later.2 kept')]
          exact stops again

/-- The session may be looked at, where the limits do not decide what is done next. -/
theorem get {next : Session Interpreter υ → Work Interpreter υ α}
    (h : ∀ session, Obeys most (next session))
    (blind : ∀ session, next (within most session) = next session) :
    Obeys most (MonadStateOf.get >>= next) where
  counts session := (h session).counts session
  bounds {session} unlimited room := by
    have again : (MonadStateOf.get >>= next) (within most session) = next session (within most session) :=
      congrFun (blind session) _
    rw [again]
    exact (h session).bounds unlimited room

/-- What would come after a refusal is not done. -/
theorem refuses (kind : Violation) (next : α → Work Interpreter υ γ) :
    Obeys most (Work.violate kind >>= next) :=
  .of_blind fun _ => ⟨rfl, rfl, rfl⟩

theorem fails (error : CompileError) (next : α → Work Interpreter υ γ) :
    Obeys most (Work.fail error >>= next) :=
  .of_blind fun _ => ⟨rfl, rfl, rfl⟩

theorem ite {c : Prop} [Decidable c] {yes no : Work Interpreter υ α} (h₁ : Obeys most yes)
    (h₂ : Obeys most no) : Obeys most (if c then yes else no) := by
  split
  · exact h₁
  · exact h₂

theorem modifies {f : Session Interpreter υ → Session Interpreter υ}
    (limits : ∀ session, (f session).backend.limits = session.backend.limits)
    (counts : ∀ session, counted (f session) = counted session)
    (again : ∀ session, f (within most session) = within most (f session)) :
    Obeys most (modify f : Work Interpreter υ Unit) :=
  .of_blind fun session => Ends.modifies
    ⟨limits session, counts session, congrArg (EStateM.Result.ok ()) (again session)⟩

theorem onBench (action : BenchM α) :
    Obeys most (Work.onBench action : Work Interpreter υ α) := by
  apply Obeys.of_blind
  intro session
  apply Work.ends_onBench
  apply Ends.intro
  · exact fun _ _ run => ⟨rfl, rfl, Work.onBench_ok run⟩
  · exact fun _ _ run => ⟨rfl, rfl, Work.onBench_error run⟩

theorem cleaning {action : Work Interpreter υ α} (h : Obeys most action) (f : Bench → Bench) :
    Obeys most (action.cleaning f) where
  counts session := Work.ends_cleaning ((h.counts session).mono (fun _ _ => id) fun _ _ => id)
  bounds {session} unlimited room := by
    have stops (exceeded : Exceeded most (action (within most session))) :
        Exceeded most (action.cleaning f (within most session)) := by
      obtain ⟨halt, session', fails, exceeded⟩ := exceeded_error exceeded
      simp only [Work.cleaning, fails]
      exact exceeded α _ rfl
    apply Work.ends_cleaning
    apply (h.bounds unlimited room).mono
    · intro value session' again
      split at again
      · rw [if_pos ‹_›]
        simp only [Work.cleaning, again]
      · rw [if_neg ‹_›]
        exact stops again
    · intro halt session' again
      split at again
      · rw [if_pos ‹_›]
        simp only [Work.cleaning, again]
        rfl
      · rw [if_neg ‹_›]
        exact stops again

theorem lax : Lax (β := Interpreter) (υ := υ)
    (fun {α} (action : Work Interpreter υ α) => Obeys most action) where
  pure := .pure
  bind := .bind
  bench := .get (fun _ => .pure _) fun _ => rfl
  fail _ := .throws _
  breakOff := .throws _
  onBench _ := .onBench _
  modifyBench _ := .modifies (fun _ => rfl) (fun _ => rfl) fun _ => rfl
  cleaning f h := h.cleaning f

/-! ## The steps of the script -/

theorem execute (enough : Machine.ample most ≤ fuel) (op : Op) (line : Option UInt32) :
    Obeys most (execute fuel op line : Work Interpreter υ Unit) where
  counts session := by
    apply ends_execute
    apply (Machine.ends_complete_counted session.bench.program session.backend.limits fuel op _).mono
    · exact fun _ _ counted => ⟨rfl, Nat.le_of_add_right_le counted⟩
    · exact fun _ _ counted => ⟨rfl, Nat.le_of_add_right_le counted⟩
  bounds {session} unlimited room := by
    obtain ⟨bench, ⟨limits, world, top, script, result⟩, client⟩ := session
    have bounded : Machine.Bounds most _ _ _ (top, world) :=
      Machine.bounds_complete bench.program unlimited enough op room
    -- What the operation comes to under the limit is reported as it is without.
    have stops (exceeded : Machine.Exceeded most (fun state => state.2.steps)
        (Machine.complete bench.program (limits.within most) fuel op (top, world))) :
        Exceeded most (Interpreter.execute fuel op line
          (within most ⟨bench, ⟨limits, world, top, script, result⟩, client⟩)) := by
      unfold Interpreter.execute within
      dsimp only
      cases ends : Machine.complete bench.program (limits.within most) fuel op (top, world) with
      | ok flow state => exact (ends ▸ exceeded).elim
      | error halt state =>
          rw [ends] at exceeded
          cases halt with
          | failure error => exact exceeded
          | outOfFuel => exact exceeded.elim
    apply ends_execute
    apply bounded.mono
    · intro flow state ⟨_, again⟩
      split at again
      · rw [if_pos (show counted _ ≤ most from ‹_›)]
        simp only [Interpreter.execute, within, again]
      · rw [if_neg (show ¬counted _ ≤ most from ‹_›)]
        exact stops again
    · intro halt state ⟨_, again⟩
      split at again
      · rw [if_pos (show counted _ ≤ most from ‹_›)]
        simp only [Interpreter.execute, within, again]
        cases halt <;> rfl
      · rw [if_neg (show ¬counted _ ≤ most from ‹_›)]
        exact stops again

theorem stack : Obeys most (stack : Work Interpreter υ (List Value)) :=
  .get (fun _ => .pure _) fun _ => rfl

theorem setStack (values : List Value) : Obeys most (setStack values : Work Interpreter υ Unit) :=
  .modifies (fun _ => rfl) (fun _ => rfl) fun _ => rfl

theorem pop (operation : String) : Obeys most (pop operation : Work Interpreter υ Value) := by
  apply stack.bind
  intro values
  cases values with
  | nil => exact lax.compositional.violate _
  | cons value rest => exact (setStack rest).bind fun _ => .pure value

theorem perform (enough : Machine.ample most ≤ fuel) (operation : String) (op : Op) :
    Obeys most (perform fuel operation op : Work Interpreter υ Unit) := by
  have steps := (@lax υ most).compositional.toSequenced
  have opens : Obeys most (ensureOpen : Work Interpreter υ Unit) :=
    steps.bench.bind fun _ => ite (steps.violate _) (.pure ())
  have recorded : Obeys most (recording : Work Interpreter υ Bool) := steps.bench.bind fun _ => .pure _
  apply opens.bind
  intro _
  apply recorded.bind
  intro _
  apply ite (.onBench _)
  apply stack.bind
  intro values
  apply ite (.refuses _ _)
  exact steps.bench.bind fun _ => execute enough op _

theorem startScript : Obeys most (startScript : Work Interpreter υ Unit) := by
  apply Obeys.get
  · intro session
    apply ite (.refuses _ _)
    exact (onBench _).bind fun _ => .modifies (fun _ => rfl) (fun _ => rfl) fun _ => rfl
  · exact fun _ => rfl

theorem endScript : Obeys most (endScript : Work Interpreter υ Unit) := by
  have steps := (@lax υ most).compositional.toSequenced
  have forgets : Obeys most (modify fun session => { session with
      backend := { session.backend with script := none } } : Work Interpreter υ Unit) :=
    .modifies (fun _ => rfl) (fun _ => rfl) fun _ => rfl
  have keeps (values : List Value) : Obeys most (modify fun session => { session with
      backend := { session.backend with result := some (values.head?.getD .nil) } } :
      Work Interpreter υ Unit) :=
    .modifies (fun _ => rfl) (fun _ => rfl) fun _ => rfl
  apply steps.bench.bind
  intro bench
  apply ite (.refuses _ _)
  apply Obeys.get
  · intro session
    split
    · exact steps.violate _
    · apply forgets.bind
      intro _
      dsimp only
      split
      · exact .fails _ _
      · apply Obeys.bind (lax.modifyBench _)
        intro _
        apply stack.bind
        intro values
        apply ite (.fails _ _)
        exact (setStack []).bind fun _ => keeps values
  · exact fun _ => rfl

theorem immediate (enough : Machine.ample most ≤ fuel) : Immediate (υ := υ) fuel
    (fun {α} (action : Work Interpreter υ α) => Obeys most action) where
  toEnclosing := lax.enclosing
  look _ := .get (fun _ => .pure _) fun _ => rfl
  pop := pop
  collapse operation _ := perform enough operation _
  perform operation _ _ _ := perform enough operation _
  intern _ := .onBench _
  checkScopeDepth _ := .onBench _
  emitYield _ _ := .onBench _
  nested := lax.nested
  startScript := startScript
  endScript := endScript

/-- An operation obeys the limit if its nested code does. -/
theorem issue (enough : Machine.ample most ≤ fuel) (operation : Operation (Session Interpreter υ) α)
    (parts : ∀ part, operation.Has part → Obeys most part) :
    Obeys most (operation.issue (contract υ fuel)) := by
  apply (immediate enough).issue parts
  · exact fun inner controls => lax.compositional.control inner fun part has =>
      parts part (operation.has_of_controls controls has)
  · exact fun line _ => (immediate enough).mark (fun _ => .onBench _) (fun _ => lax.modifyBench _) line

end Obeys

/-! ## Scripts -/

/-- A program tree is run as its operations are issued. -/
def interpret (fuel : Nat) (node : Node) : Work Interpreter Notes Unit :=
  (node.program : Action Empty).run (contract Notes fuel) Empty.elim

theorem obeys_interpret (enough : Machine.ample most ≤ fuel) (node : Node) :
    Obeys most (interpret fuel node) := by
  have body : Obeys most ((node.action : Action Empty).run (contract Notes fuel) Empty.elim) :=
    (Node.plain_action node).holds (.pure ()) (fun h₁ h₂ => h₁.bind fun _ => h₂)
      (fun operation _ parts => .issue enough operation parts) Empty.elim
  apply Obeys.startScript.bind
  intro _
  exact body.bind fun _ => .endScript

/-- The limit on operations binds the bodies that a script calls, all of them together. If without
it they execute no more than it allows, then under it the script does just the same; otherwise it
fails because the limit is exceeded. All that the bodies execute is counted, and each operation of
the script comes to an end. -/
theorem limit_binds_bodies (node : Node) (config : Config) {limits : Limits}
    (unlimited : limits.maxSteps = none) (owner : Nat) (enough : Machine.ample most ≤ fuel) :
    let start (limits : Limits) : Session Interpreter Notes := new config limits owner {}
    Ends (interpret fuel node) (start limits)
      (fun _ session =>
        if counted session ≤ most then
          interpret fuel node (start (limits.within most)) = .ok () (within most session)
        else Exceeded most (interpret fuel node (start (limits.within most))))
      (fun halt session =>
        if counted session ≤ most then
          interpret fuel node (start (limits.within most)) = .error halt (within most session)
        else Exceeded most (interpret fuel node (start (limits.within most)))) ∧
    (∀ session, interpret fuel node (start (limits.within most)) = .ok () session →
      counted session ≤ most) ∧
    ∀ program op state,
      Ends (Machine.complete program (limits.within most) fuel op) state
        (fun _ after => state.2.steps +
          Machine.called program (limits.within most) fuel op state ≤ after.2.steps)
        fun halt after => halt ≠ .outOfFuel ∧ state.2.steps +
          Machine.called program (limits.within most) fuel op state ≤ after.2.steps := by
  intro start
  have compared : Ends (interpret fuel node) (start limits) _ _ :=
    (obeys_interpret enough node).bounds unlimited (Nat.zero_le most)
  refine ⟨compared, ?_, ?_⟩
  · intro session run
    have never {result : EStateM.Result (Halt CompileError) (Session Interpreter Notes) Unit}
        (exceeded : Exceeded most result) : result ≠ .ok () session := by
      rintro rfl
      exact exceeded
    cases free : interpret fuel node (start limits) with
    | ok value session' =>
        have again := compared.ok free
        split at again
        · rename_i kept
          have same : EStateM.Result.ok () (within most session') = .ok () session := again.symm.trans run
          cases same
          exact kept
        · exact absurd run (never again)
    | error halt session' =>
        have again := compared.error free
        split at again
        · exact nomatch again.symm.trans run
        · exact absurd run (never again)
  · intro program op state
    have counts := Machine.ends_complete_counted program (limits.within most) fuel op state
    apply Ends.intro
    · exact fun _ _ run => counts.ok run
    · intro halt after run
      constructor
      · rintro rfl
        exact Machine.complete_ends rfl enough program op state after run
      · exact counts.error run

/-- A method of four operations that is called twice. -/
def twiceCalled : Node :=
  .seq [.method "idle" 0 0 (.seq [.nil, .nil]), .call none "idle" [], .call none "idle" []]

theorem twiceCalled_exceeds : Exceeded 7 (interpret (Machine.ample 7) twiceCalled
    (new .strict (Limits.within {} 7) 0 {})) := by
  have outcome : ((interpret (Machine.ample 7) twiceCalled).session? (new .strict {} 0 {})).map
      counted = some 8 := by decide +kernel
  have unlimited : ({} : Limits).maxSteps = none := rfl
  have bound := limit_binds_bodies twiceCalled .strict unlimited 0 (Nat.le_refl (Machine.ample 7))
  -- Otherwise the script would be run again wherever its outcome is looked at.
  generalize interpret (Machine.ample 7) twiceCalled = script at outcome bound ⊢
  obtain ⟨compared, -⟩ := bound
  obtain ⟨session, ends, count⟩ := Option.map_eq_some_iff.mp outcome
  obtain ⟨value, run⟩ := Work.run_of_session? ends
  have exceeded := compared.ok run
  rw [if_neg (by omega)] at exceeded
  exact exceeded

/-- Three statements that call nothing. -/
def statements : Node := .seq [.nil, .nil, .nil]

/-- A loop that never ends. -/
def forever : Node := .loop (.bool true) .nil true

/-- A session under this limit whose script was opened. -/
def foreverOpened : Session Interpreter Notes :=
  match startScript (new .strict (Limits.within {} 1) 0 {}) with
  | .ok _ session | .error _ session => session

/-- The same session inside a region, as a loop runs in it. -/
def foreverInside : Session Interpreter Notes :=
  { foreverOpened with bench := foreverOpened.bench.enterRegion }

/-- Each pass of the loop ends as it began. -/
theorem passes_forever (fuel budget : Nat) :
    passes ((contract Notes fuel).primitive .loadTrue) ((contract Notes fuel).primitive .loadNil)
      budget true foreverInside = .error .outOfFuel foreverInside := by
  induction budget with
  | zero => rfl
  | succ budget ih => exact ih

/-- A script whose operations call nothing executes as many of them as it likes under any limit, and
a loop of the script may go on for ever. -/
theorem script_escapes_limit :
    (∀ fuel, interpret fuel statements (new .strict (Limits.within {} 1) 0 {}) =
        (do
          startScript
          execute fuel .pushNil none
          execute fuel .pop none
          execute fuel .pushNil none
          execute fuel .pop none
          execute fuel .pushNil none
          endScript : Work Interpreter Notes Unit) (new .strict (Limits.within {} 1) 0 {})) ∧
      (∀ fuel, ∃ session, interpret fuel statements (new .strict (Limits.within {} 1) 0 {}) =
        .ok () session ∧ counted session = 0) ∧
      ∀ fuel, ∃ session, interpret fuel forever (new .strict (Limits.within {} 1) 0 {}) =
        .error .outOfFuel session := by
  refine ⟨fun fuel => rfl, fun fuel => ⟨_, rfl, rfl⟩, fun fuel => ?_⟩
  let region := passes ((contract Notes fuel).primitive .loadTrue)
    ((contract Notes fuel).primitive .loadNil) fuel true
  let left : Session Interpreter Notes :=
    { foreverInside with bench := foreverInside.bench.exitRegion.abandon 1 }
  have breaks : region.cleaning (fun bench => bench.exitRegion.abandon 1) foreverInside =
      .error .outOfFuel left := by
    have ends : region foreverInside = .error .outOfFuel foreverInside := passes_forever fuel fuel
    simp only [Work.cleaning, ends]
    rfl
  -- The region is entered once the script is open, and what comes after it is not done.
  have nested : Work.nested region foreverOpened = .error .outOfFuel left := by
    have stops : (region.cleaning (fun bench => bench.exitRegion.abandon 1) >>= fun value => do
        Work.modifyBench Bench.exitRegion
        return value) foreverInside = .error .outOfFuel left := run_bind_error breaks
    exact stops
  have whole : ((Work.nested region >>= fun _ => (contract Notes fuel).primitive .loadNil) >>=
      fun _ => endScript) foreverOpened = .error .outOfFuel left :=
    run_bind_error (run_bind_error nested)
  exact ⟨left, whole⟩

end BlockScript.Interpreter
