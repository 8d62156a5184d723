import Mathlib.Order.Defs.Unbundled
import BlockScript.Proofs.Backend.Ensures

/-!
# Computations that succeed or fail

A backend may be used further after an operation has failed, so what a failure leaves behind
matters as much as what a success does. `Ends action state done failed` says what either
outcome satisfies. `Moves R action` is the common case: whatever the outcome, the state
before and the one after are related. The lemmas follow the way in which operations are put
together, as those for `Ensures` do.
-/

namespace BlockScript

section Ends

variable {ε σ α β : Type}

/-- A success satisfies the first post condition, and a failure the second one. -/
def Ends (action : EStateM ε σ α) (state : σ) (done : α → σ → Prop) (failed : ε → σ → Prop) :
    Prop :=
  match action state with
  | .ok value state' => done value state'
  | .error error state' => failed error state'

namespace Ends

variable {action : EStateM ε σ α} {state : σ} {done done' : α → σ → Prop}
  {failed failed' : ε → σ → Prop}

theorem ok (h : Ends action state done failed) {value : α} {state' : σ}
    (run : action state = .ok value state') : done value state' := by
  unfold Ends at h
  rwa [run] at h

theorem error (h : Ends action state done failed) {error : ε} {state' : σ}
    (run : action state = .error error state') : failed error state' := by
  unfold Ends at h
  rwa [run] at h

theorem intro (ok : ∀ value state', action state = .ok value state' → done value state')
    (error : ∀ error state', action state = .error error state' → failed error state') :
    Ends action state done failed := by
  unfold Ends
  cases run : action state with
  | ok value state' => exact ok value state' run
  | error halt state' => exact error halt state' run

theorem mono (h : Ends action state done failed)
    (ok : ∀ value state', done value state' → done' value state')
    (error : ∀ error state', failed error state' → failed' error state') :
    Ends action state done' failed' :=
  intro (fun _ _ run => ok _ _ (h.ok run)) fun _ _ run => error _ _ (h.error run)

/-- Only what a success satisfies is weakened. -/
theorem weaken (h : Ends action state done failed)
    (ok : ∀ value state', done value state' → done' value state') :
    Ends action state done' failed :=
  h.mono ok fun _ _ => id

theorem ensures (h : Ends action state done failed) : Ensures action state done :=
  fun _ _ run => h.ok run

/-- What a success satisfies may be shown on its own. -/
theorem ensured {post : α → σ → Prop} (h : Ends action state done failed)
    (h' : Ensures action state post) :
    Ends action state (fun value state' => done value state' ∧ post value state') failed :=
  intro (fun value state' run => ⟨h.ok run, h' value state' run⟩) fun _ _ run => h.error run

theorem pure {value : α} (h : done value state) :
    Ends (Pure.pure value : EStateM ε σ α) state done failed := h

theorem throws {error : ε} (h : failed error state) :
    Ends (throw error : EStateM ε σ α) state done failed := h

theorem bind {next : α → EStateM ε σ β} {done' : β → σ → Prop}
    (first : Ends action state done failed)
    (rest : ∀ value state', done value state' → Ends (next value) state' done' failed) :
    Ends (action >>= next) state done' failed := by
  change Ends (EStateM.bind action next) state done' failed
  unfold Ends EStateM.bind
  cases run : action state with
  | error error state' => exact first.error run
  | ok value state' => exact rest value state' (first.ok run)

/-- What comes after a failure does not matter. -/
theorem stops {error : ε} {next : α → EStateM ε σ β} {done : β → σ → Prop}
    (h : failed error state) :
    Ends ((throw error : EStateM ε σ α) >>= next) state done failed := h

/-- Nor does what comes after something that never succeeds. -/
theorem halts {next : α → EStateM ε σ β} {done : β → σ → Prop}
    (h : Ends action state (fun _ _ => False) failed) : Ends (action >>= next) state done failed :=
  h.bind fun _ _ never => never.elim

theorem get {next : σ → EStateM ε σ β} {done : β → σ → Prop}
    (h : Ends (next state) state done failed) :
    Ends (MonadStateOf.get >>= next) state done failed := h

/-- A change that something follows. -/
theorem changes {f : σ → σ} {next : Unit → EStateM ε σ β} {done : β → σ → Prop}
    (h : Ends (next ()) (f state) done failed) :
    Ends ((modify f : EStateM ε σ Unit) >>= next) state done failed := h

theorem modifies {f : σ → σ} {done : Unit → σ → Prop} (h : done () (f state)) :
    Ends (modify f : EStateM ε σ Unit) state done failed := h

theorem ite {c : Prop} [Decidable c] {yes no : EStateM ε σ α}
    (h₁ : c → Ends yes state done failed) (h₂ : ¬c → Ends no state done failed) :
    Ends (if c then yes else no) state done failed := by
  by_cases h : c
  · rw [if_pos h]
    exact h₁ h
  · rw [if_neg h]
    exact h₂ h

end Ends

/-- Whatever the outcome, the states before and after are related. -/
def Moves (R : σ → σ → Prop) (action : EStateM ε σ α) : Prop :=
  ∀ state, Ends action state (fun _ state' => R state state') fun _ state' => R state state'

namespace Moves

variable {R S : σ → σ → Prop} {action : EStateM ε σ α}

theorem ok (h : Moves R action) {state state' : σ} {value : α}
    (run : action state = .ok value state') : R state state' :=
  (h state).ok run

theorem error (h : Moves R action) {state state' : σ} {halt : ε}
    (run : action state = .error halt state') : R state state' :=
  (h state).error run

theorem mono (h : Moves R action) (weaker : ∀ state state', R state state' → S state state') :
    Moves S action :=
  fun state => (h state).mono (fun _ => weaker state) fun _ => weaker state

theorem modifies {f : σ → σ} (h : ∀ state, R state (f state)) :
    Moves R (modify f : EStateM ε σ Unit) :=
  fun state => Ends.modifies (h state)

theorem ite {c : Prop} [Decidable c] {yes no : EStateM ε σ α} (h₁ : c → Moves R yes)
    (h₂ : ¬c → Moves R no) : Moves R (if c then yes else no) :=
  fun state => Ends.ite (fun h => h₁ h state) fun h => h₂ h state

theorem get {next : σ → EStateM ε σ β} (h : ∀ state, Moves R (next state)) :
    Moves R (MonadStateOf.get >>= next) :=
  fun state => h state state

variable [IsPreorder σ R]

theorem pure (value : α) : Moves R (Pure.pure value : EStateM ε σ α) :=
  fun state => Ends.pure (refl_of R state)

theorem throws (error : ε) : Moves R (throw error : EStateM ε σ α) :=
  fun state => Ends.throws (refl_of R state)

/-- What was reached before is carried on to the outcome. -/
theorem after {state state' : σ} (reached : R state state') (h : Moves R action) :
    Ends action state' (fun _ => R state) fun _ => R state :=
  (h state').mono (fun _ _ => trans_of R reached) fun _ _ => trans_of R reached

theorem bind {next : α → EStateM ε σ β} (h₁ : Moves R action) (h₂ : ∀ value, Moves R (next value)) :
    Moves R (action >>= next) :=
  fun state => (h₁ state).bind fun value _ reached => (h₂ value).after reached

/-- A computation that changes nothing. -/
theorem reads (h : Moves Eq action) : Moves R action :=
  h.mono fun state _ same => same ▸ refl_of R state

end Moves

end Ends

/-! ## Computations of a session -/

section Session

variable {β υ α : Type} {session : Session β υ}

namespace Work

theorem onBench_ok {action : BenchM α} {session : Session β υ} {value : α} {bench : Bench}
    (h : action session.bench = .ok value bench) :
    onBench action session = .ok value { session with bench } := by
  obtain ⟨before, backend, client⟩ := session
  simp only [onBench, h]

theorem onBench_error {action : BenchM α} {session : Session β υ} {error : CompileError}
    {bench : Bench} (h : action session.bench = .error error bench) :
    onBench action session = .error (.failure error) { session with bench } := by
  obtain ⟨before, backend, client⟩ := session
  simp only [onBench, h]

theorem ends_onBench {action : BenchM α} {done : α → Session β υ → Prop}
    {failed : Halt CompileError → Session β υ → Prop}
    (h : Ends action session.bench (fun value bench => done value { session with bench })
      fun error bench => failed (.failure error) { session with bench }) :
    Ends (onBench action) session done failed := by
  obtain ⟨bench, backend, client⟩ := session
  unfold Ends onBench
  cases run : action bench with
  | error error bench' => simpa only [run] using h.error run
  | ok value bench' => simpa only [run] using h.ok run

theorem ends_fail {error : CompileError} {done : α → Session β υ → Prop}
    {failed : Halt CompileError → Session β υ → Prop} (h : failed (.failure error) session) :
    Ends (fail error : Work β υ α) session done failed := h

theorem ends_violate {kind : Violation} {done : α → Session β υ → Prop}
    {failed : Halt CompileError → Session β υ → Prop}
    (h : failed (.failure (session.bench.violation kind)) session) :
    Ends (violate kind : Work β υ α) session done failed := h

/-- A failure is followed by the clean-up, whatever it was. -/
theorem ends_cleaning {action : Work β υ α} {cleanUp : Bench → Bench}
    {done : α → Session β υ → Prop} {failed : Halt CompileError → Session β υ → Prop}
    (h : Ends action session done fun halt session' =>
      failed halt { session' with bench := cleanUp session'.bench }) :
    Ends (action.cleaning cleanUp) session done failed := by
  unfold Ends cleaning
  cases run : action session with
  | error error session' => exact h.error run
  | ok value session' => exact h.ok run

/-- After nested code as many units must be open as before it. -/
theorem ends_ensureSameUnit {construct : String} {before : Nat}
    {done : Unit → Session β υ → Prop} {failed : Halt CompileError → Session β υ → Prop}
    (same : session.bench.units.size = before → done () session)
    (leaked : session.bench.units.size ≠ before →
      failed (.failure (session.bench.violation (.callbackLeakedUnit construct))) session) :
    Ends (ensureSameUnit construct before) session done failed := by
  refine Ends.get (Ends.ite (fun h => ?_) fun h => ?_)
  · exact ends_violate (leaked h)
  · exact Ends.pure (same (Classical.not_not.mp h))

end Work

/-- A refused operation changes nothing, and a failure of the operation may be remembered. -/
theorem Recorder.ends_checked {operation : Work Recorder υ α} {session : Session Recorder υ}
    {done : α → Session Recorder υ → Prop}
    {failed : Halt CompileError → Session Recorder υ → Prop}
    (refused : ∀ error, session.backend.poisoned = some error →
      failed (.failure (.aborted error)) session)
    (h : session.backend.poisoned = none → Ends operation session done fun halt session' =>
      match halt with
      | .failure error =>
        failed halt { session' with backend := session'.backend.poison error }
      | .outOfFuel => failed halt session') :
    Ends (checked operation) session done failed := by
  unfold Ends checked
  cases poisoned : session.backend.poisoned with
  | some error => exact refused error poisoned
  | none =>
      have h := h poisoned
      cases run : operation session with
      | ok value session' => exact h.ok run
      | error halt session' =>
          cases halt with
          | failure error => exact h.error run
          | outOfFuel => exact h.error run

/-! ## What happens to the bench -/

/-- The benches of two sessions are related. -/
def Session.Related (R : Bench → Bench → Prop) (session session' : Session β υ) : Prop :=
  R session.bench session'.bench

variable {R : Bench → Bench → Prop}

theorem Work.moves_onBench {action : BenchM α} (h : Moves R action) :
    Moves (Session.Related R) (onBench action : Work β υ α) :=
  fun session => ends_onBench (h session.bench)

variable [IsPreorder Bench R]

instance : IsPreorder (Session β υ) (Session.Related R) where
  refl session := refl_of R session.bench
  trans _ _ _ := trans_of R

/-- The relation is not about the state that the backend has beside the bench. -/
class Session.IgnoresBackend (S : Session β υ → Session β υ → Prop) : Prop where
  backend : ∀ (session : Session β υ) (backend : β), S session { session with backend }

instance : Session.IgnoresBackend (β := β) (υ := υ) (Session.Related R) where
  backend session _ := refl_of R session.bench

namespace Work

variable {S : Session β υ → Session β υ → Prop} [IsPreorder (Session β υ) S]

theorem moves_bench : Moves S (bench : Work β υ Bench) :=
  .reads fun _ => Ends.get (Ends.pure rfl)

theorem moves_fail (error : CompileError) : Moves S (fail error : Work β υ α) :=
  .throws _

theorem moves_violate (kind : Violation) : Moves S (violate kind : Work β υ α) :=
  moves_bench.bind fun _ => moves_fail _

end Work

end Session

end BlockScript
