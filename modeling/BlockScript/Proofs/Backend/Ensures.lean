import BlockScript.Backend.Recorder

/-!
# Computations that succeed

`Ensures action state post` says that the computation, if it succeeds from the state, ends
with a value and a state that satisfy the post condition. Failures are left open: a backend
that failed hands over no program, so what it leaves behind does not matter. The lemmas
follow the way in which the operations of a backend are put together.
-/

namespace BlockScript

variable {ε σ α β : Type}

theorem run_bind_ok {first : EStateM ε σ α} {next : α → EStateM ε σ β} {state state' : σ} {value : α}
    (h : first state = .ok value state') : (first >>= next) state = next value state' := by
  change EStateM.bind first next state = _
  rw [EStateM.bind, h]

theorem run_get {state : σ} : (get : EStateM ε σ σ) state = .ok state state :=
  rfl

theorem run_bind_error {first : EStateM ε σ α} {next : α → EStateM ε σ β} {state state' : σ}
    {error : ε} (h : first state = .error error state') :
    (first >>= next) state = .error error state' := by
  change EStateM.bind first next state = _
  rw [EStateM.bind, h]

/-- What succeeds has succeeded step by step. -/
theorem run_of_bind {first : EStateM ε σ α} {next : α → EStateM ε σ β} {state state' : σ} {value : β}
    (h : (first >>= next) state = .ok value state') :
    ∃ between middle, first state = .ok between middle ∧ next between middle = .ok value state' := by
  cases run : first state with
  | ok between middle => exact ⟨between, middle, rfl, (run_bind_ok run).symm.trans h⟩
  | error error middle => cases (run_bind_error run).symm.trans h

/-- Whatever the computation succeeds with satisfies the post condition. -/
def Ensures (action : EStateM ε σ α) (state : σ) (post : α → σ → Prop) : Prop :=
  ∀ value state', action state = .ok value state' → post value state'

namespace Ensures

variable {action : EStateM ε σ α} {state : σ} {post : α → σ → Prop}

theorem pure {value : α} (h : post value state) :
    Ensures (Pure.pure value : EStateM ε σ α) state post := by
  intro value' state' run
  cases run
  exact h

theorem mono {post' : α → σ → Prop} (h : Ensures action state post)
    (weaker : ∀ value state', post value state' → post' value state') :
    Ensures action state post' :=
  fun value state' run => weaker value state' (h value state' run)

theorem bind {next : α → EStateM ε σ β} {post' : β → σ → Prop} (first : Ensures action state post)
    (rest : ∀ value state', post value state' → Ensures (next value) state' post') :
    Ensures (action >>= next) state post' := by
  intro value' state'' run
  change EStateM.bind action next state = _ at run
  unfold EStateM.bind at run
  cases hresult : action state with
  | error error state' =>
      rw [hresult] at run
      cases run
  | ok value state' =>
      rw [hresult] at run
      exact rest value state' (first value state' hresult) value' state'' run

/-- What comes last is enough. -/
theorem last {next : α → EStateM ε σ β} {post : β → σ → Prop}
    (rest : ∀ value state', Ensures (next value) state' post) :
    Ensures (action >>= next) state post :=
  bind (fun _ _ _ => trivial : Ensures action state fun _ _ => True)
    fun value state' _ => rest value state'

/-- What a computation needs to begin with is enough. -/
theorem first {next : α → EStateM ε σ β} {needed : Prop}
    (h : Ensures action state fun _ _ => needed) :
    Ensures (action >>= next) state fun _ _ => needed :=
  h.bind fun _ _ holds _ _ _ => holds

/-- What comes after a computation that does not succeed does not matter. -/
theorem stop {next : α → EStateM ε σ β} {post : β → σ → Prop}
    (h : Ensures action state fun _ _ => False) : Ensures (action >>= next) state post :=
  h.bind fun _ _ impossible => impossible.elim

theorem map (h : Ensures action state post) (f : α → β) :
    Ensures (f <$> action) state fun value state' => ∃ value', value = f value' ∧
      post value' state' :=
  h.bind fun value' _ hpost => pure ⟨value', rfl, hpost⟩

theorem get {next : σ → EStateM ε σ β} {post : β → σ → Prop}
    (h : Ensures (next state) state post) : Ensures (MonadStateOf.get >>= next) state post := h

theorem modifies {f : σ → σ} {post : Unit → σ → Prop} (h : post () (f state)) :
    Ensures (modify f : EStateM ε σ Unit) state post := by
  intro value state' run
  cases run
  exact h

theorem throws {error : ε} : Ensures (throw error : EStateM ε σ α) state post := by
  intro value state' run
  cases run

theorem ite {c : Prop} [Decidable c] {yes no : EStateM ε σ α}
    (h₁ : c → Ensures yes state post) (h₂ : ¬c → Ensures no state post) :
    Ensures (if c then yes else no) state post := by
  by_cases h : c
  · rw [if_pos h]
    exact h₁ h
  · rw [if_neg h]
    exact h₂ h

end Ensures

/-! ## Computations of a session -/

section Session

variable {υ : Type} {session : Session β υ}

theorem Work.ensures_onBench {action : BenchM α} {post : α → Session β υ → Prop}
    (h : Ensures action session.bench fun value bench => post value { session with bench }) :
    Ensures (Work.onBench action) session post := by
  intro value session' run
  unfold Work.onBench at run
  cases hresult : action session.bench with
  | error error bench => simp only [hresult] at run; cases run
  | ok value' bench =>
      simp only [hresult] at run
      cases run
      exact h _ _ hresult

/-- Only the bench changes. -/
theorem Work.ensures_runs {action : BenchM α} {post : α → Bench → Prop}
    (h : Ensures action session.bench post) : Ensures (Work.onBench action : Work β υ α) session
      fun value session' => ∃ bench, post value bench ∧ session' = { session with bench } :=
  Work.ensures_onBench (h.mono fun _ bench hpost => ⟨bench, hpost, rfl⟩)

theorem Work.ensures_cleaning {action : Work β υ α} {cleanUp : Bench → Bench}
    {post : α → Session β υ → Prop} (h : Ensures action session post) :
    Ensures (action.cleaning cleanUp) session post := by
  intro value session' run
  unfold Work.cleaning at run
  cases hresult : action session with
  | error error state => simp only [hresult] at run; cases run
  | ok value' state =>
      simp only [hresult] at run
      cases run
      exact h _ _ hresult

end Session

/-- Where a computation that succeeds ends. -/
def Work.session? (action : Work β υ α) (session : Session β υ) : Option (Session β υ) :=
  match action session with
  | .ok _ session' => some session'
  | .error _ _ => none

theorem Work.run_of_session? {action : Work β υ α} {session session' : Session β υ}
    (h : action.session? session = some session') : ∃ value, action session = .ok value session' := by
  unfold Work.session? at h
  split at h
  · cases h
    exact ⟨_, ‹_›⟩
  · cases h

/-- The program that is handed over after a computation that succeeds. -/
def Recorder.recorded? {υ : Type} (action : Work Recorder υ α) (session : Session Recorder υ) :
    Option Program :=
  (action.session? session).bind fun session' => (program session').toOption

theorem Recorder.run_of_recorded? {υ : Type} {action : Work Recorder υ α}
    {session : Session Recorder υ} {recorded : Program}
    (h : recorded? action session = some recorded) : ∃ value session',
      action session = .ok value session' ∧ program session' = .ok recorded := by
  obtain ⟨session', ends, handed⟩ := Option.bind_eq_some_iff.mp h
  obtain ⟨value, run⟩ := Work.run_of_session? ends
  refine ⟨value, session', run, ?_⟩
  cases finished : program session' with
  | error error =>
      rw [finished] at handed
      cases handed
  | ok handedOver =>
      rw [finished] at handed
      cases handed
      rfl

/-! ## Parts of operations -/

/-- One more level of nesting, if there is room. -/
def Bench.enter : BenchM Unit := fun bench =>
  match bench.units.enter with
  | .ok units => .ok () { bench with units }
  | .error error => .error error bench

/-- A unit for a script that is executed and not recorded. -/
def Bench.openScript : BenchM UnitHandle := fun bench =>
  match bench.units.open .script mainName none with
  | .ok (handle, units) => .ok handle { bench with units }
  | .error error => .error error bench

/-- The end of a recorded script in which no other unit is open. -/
def Recorder.closeScript {υ : Type} (before : Bench) : Work Recorder υ Unit := do
  match (← get).backend.script with
  | .opened handle =>
    setScript .ended
    let _ ← Work.onBench (Bench.closeUnit handle .script)
  | _ => Work.fail (.violation .noOpenUnit before.line)

/-- A refused operation does not succeed. -/
theorem Recorder.ensures_checked {υ : Type} {operation : Work Recorder υ α}
    {session : Session Recorder υ} {post : α → Session Recorder υ → Prop}
    (h : Ensures operation session post) : Ensures (checked operation) session post := by
  intro value session' run
  unfold checked at run
  cases hpoisoned : session.backend.poisoned with
  | some error => simp only [hpoisoned] at run; cases run
  | none =>
      simp only [hpoisoned] at run
      cases hresult : operation session with
      | error halt state => cases halt <;> simp only [hresult] at run <;> cases run
      | ok value' state =>
          simp only [hresult] at run
          cases run
          exact h _ _ hresult

/-- A program is handed over if nothing is remembered as a failure and the script has ended. -/
theorem Recorder.program_ok {υ : Type} {session : Session Recorder υ} {program : Program}
    (h : Recorder.program session = .ok program) :
    session.backend.poisoned = none ∧ session.backend.script = .ended ∧
      program = session.bench.program ∧
      (session.bench.config.verifyUnits = true → program.verify = .ok ()) := by
  unfold Recorder.program at h
  cases hpoisoned : session.backend.poisoned with
  | some error => simp [hpoisoned] at h
  | none =>
      cases hscript : session.backend.script with
      | notStarted | opened => simp [hpoisoned, hscript] at h
      | ended =>
          simp only [hpoisoned, hscript] at h
          split at h
          · cases hverify : session.bench.program.verify with
            | error error =>
                rw [hverify] at h
                cases h
            | ok value =>
                rw [hverify] at h
                cases h
                exact ⟨rfl, rfl, rfl, fun _ => hverify⟩
          · rename_i unverified
            exact ⟨rfl, rfl, (Except.ok.inj h).symm, fun verify => absurd verify unverified⟩

end BlockScript
