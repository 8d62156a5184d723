import BlockScript.Proofs.Backend.Fragment

/-!
# What the immediate backend installs

An operation that fails in a unit that is recorded is not undone there. What it has appended is
still code in which every jump has a target and all ways to an operation arrive with the same
depth, except for jumps past nested code that was never completed. So what is installed passes
the verifier, even when callers go on after failures, unless such a torn jump stands in it.
-/

namespace BlockScript.Interpreter

variable {υ α : Type}

/-- The elements of an aggregate are recorded without jumps. -/
theorem conserves_emitArray (count : Nat)
    {element : Nat → Work Interpreter (Journal Interpreter υ) Unit}
    (elements : ∀ index, Moves Session.Conserves (element index)) :
    Moves Session.Conserves (Work.emitArray count element) := by
  have steps : Sequenced (β := Interpreter) (υ := Journal Interpreter υ)
      (fun {α} (action : Work Interpreter (Journal Interpreter υ) α) =>
        Moves Session.Conserves action) := Moves.sequenced
  refine Work.conserves_nested (.bind (steps.forEachIndex (fun index => ?_) 0 count) fun _ =>
    Work.conserves_onBench fun _ => Bench.conserves_emit _ rfl rfl)
  exact (steps.runRegion (Work.conserves_onBench fun _ => Bench.conserves_appending.target) _ _
    (elements index)).bind fun _ => .pure ()

/-- An operation that jumps, when its reply is noted. -/
theorem conserves_jumping {operation : Control (Session Interpreter (Journal Interpreter υ))}
    (jumps : operation.name ∈ Control.jumping)
    (conserves : ∀ part, operation.Has part → Moves Session.Conserves part)
    (inside : ∀ part, operation.Has part → Moves Session.Inside part) (fuel : Nat) :
    Moves Session.Conserves (Work.journaled operation.name (operation.issue (contract _ fuel))) := by
  obtain ⟨live, lives, issues⟩ := (conserves_immediate fuel).live Work.conserves_nested conserves
  intro before
  let start := before.note (before.event operation.name before.client.events.length .issued)
  have replies {session : Session Interpreter (Journal Interpreter υ)} (occasion : Occasion)
      (reached : start.Conserves session) : before.Conserves
        (session.note (session.event operation.name before.client.events.length occasion)) :=
    trans_of Session.Conserves (before.conserves_note rfl)
      (trans_of Session.Conserves reached (session.conserves_note rfl))
  refine Work.ends_journaled ?_
  rw [issues]
  have opens : Ends ensureOpen start (fun _ session => session = start)
      fun _ session => session = start :=
    Ends.get (Ends.ite (fun _ => Work.ends_violate rfl) fun _ => Ends.pure rfl)
  refine (opens.mono (fun _ _ => id) ?_).bind ?_
  · rintro halt _ rfl
    exact replies (.failed halt) (refl_of Session.Conserves _)
  rintro _ _ rfl
  refine Ends.get (Ends.ite (fun recorded => ?_) fun _ => ?_)
  · obtain ⟨⟨slot, first⟩, found⟩ := Option.isSome_iff_exists.mp recorded
    obtain ⟨unit, outer, began, payload⟩ := Bench.recording?_eq_some.mp found
    by_cases numbered : before.bench.units.Numbered
    case neg => exact Ends.intro (fun _ _ _ h => absurd h numbered) fun _ _ _ h => absurd h numbered
    have fragment : Fragment start unit outer slot [] first start := .begin numbered began payload
    refine (fragment.ends_control jumps conserves inside).mono ?_ ?_
    · rintro _ session ⟨builder, carries, completed⟩
      exact replies .succeeded fun _ => completed.completes payload carries
    · rintro halt session ⟨builder, carries, broken⟩
      exact Fragment.breaks jumps broken payload carries
  · exact (lives start).mono (fun _ _ => replies .succeeded) fun halt _ => replies (.failed halt)

theorem conserves_contract {nests : Work Interpreter (Journal Interpreter υ) Unit → Prop}
    (inside : ∀ part, nests part → Moves Session.Inside part) (fuel : Nat) :
    (contract (Journal Interpreter υ) fuel).journaled.Keeps nests Session.Conserves := by
  intro α operation parts
  rw [operation.issue_journaled]
  cases operation with
  | control inner =>
      have conserves (part : Work Interpreter (Journal Interpreter υ) Unit) (has : inner.Has part) :
          Moves Session.Conserves part := (parts part has).2
      rcases inner.jumps_or_array with jumps | ⟨count, element, rfl⟩
      · exact conserves_jumping jumps conserves (fun part has => inside part (parts part has).1) fuel
      · exact Work.conserves_journaled ((conserves_immediate fuel).control Work.conserves_nested
          (conserves_emitArray count fun index => conserves _ ⟨index, rfl⟩) conserves) _
  | _ =>
      exact Work.conserves_journaled ((conserves_immediate fuel).issue
        (fun part has => (parts part has).2) (fun _ controls => controls.elim)
        fun line _ => conserves_mark fuel line) _

/-- The code is in the code table, or it was when something was noted. -/
def Installed (session : Session Interpreter (Journal Interpreter υ)) (code : Code) : Prop :=
  code ∈ session.bench.program.code ∨
    ∃ event ∈ session.client.events, code ∈ event.bench.program.code

/-- Callers may go on after failures, as long as nested code ends no unit that it has not begun.
What is installed is verified even so and needs as much stack as it says, unless a jump stands in
it that an operation has appended and not aimed because it failed. -/
theorem installed_verifies {config : Config} (checks : config.checkStack = true) (limits : Limits)
    (owner fuel : Nat) (own : υ) {manner : Manner Interpreter (Journal Interpreter υ)}
    (inside : ∀ part, manner.nests part → Moves Session.Inside part)
    {action : Work Interpreter (Journal Interpreter υ) α}
    (client : Client (contract _ fuel).journaled manner.journaled action) :
    Ends action (new config limits owner ⟨[], own⟩)
      (fun _ session => ∀ code, Installed session code → code.Passes (Torn session.client.events))
      fun _ session => ∀ code, Installed session code → code.Passes (Torn session.client.events) := by
  have own_change (f : Journal Interpreter υ → Journal Interpreter υ)
      (changes : manner.journaled.changes f) (session : Session Interpreter (Journal Interpreter υ)) :
      session.Conserves { session with client := f session.client } := by
    obtain ⟨change, rfl⟩ := changes
    exact fun numbered => ⟨List.suffix_rfl, numbered, .refl Recording.Carries.refl _,
      fun _ _ _ _ _ unspoilt => ⟨unspoilt.bench, unspoilt.tables⟩⟩
  have operations : (contract (Journal Interpreter υ) fuel).journaled.Keeps manner.journaled.nests
      Session.Conserves := conserves_contract inside fuel
  have conserves := client.moves operations own_change
  refine (conserves (new config limits owner ⟨[], own⟩)).mono ?_ ?_ <;>
  · intro _ session conserved
    have conserved := conserved ⟨fun _ member => (nomatch member), List.nodup_nil⟩
    have unspoilt := conserved.unspoilt _ (fun _ => id) [] (List.nil_subset _) (List.nil_subset _)
      ⟨⟨checks, fun _ member => (nomatch member), fun _ member => (nomatch member)⟩,
        fun _ member => (nomatch member)⟩
    rintro code (current | ⟨event, noted, earlier⟩)
    · exact unspoilt.bench.table code current
    · exact unspoilt.tables event noted code earlier

/-- Every check on the stack, but units are not verified as they close. -/
def unverified : Config := { Config.strict with verifyUnits := false }

/-- A method is completed after a branch in it has broken off. -/
def interrupted : Work Interpreter (Journal Interpreter Unit) Unit := do
  let backend := (contract (Journal Interpreter Unit) 0).journaled
  Operation.startScript.issue backend
  let handle ← (Operation.beginMethod "m" 0 0).issue backend
  (Operation.primitive .loadTrue).issue backend
  let branch : Operation (Session Interpreter (Journal Interpreter Unit)) Unit :=
    .control (.branch (Work.fail (.artifact "broken off")) (pure ()))
  Work.rescue (branch.issue backend) fun _ => pure ()
  (Operation.endMethod handle).issue backend

theorem interrupted_verifies : ∃ session,
    interrupted (new unverified {} 0 ⟨[], ()⟩) = .ok () session ∧
      session.bench.program.code.size = 1 ∧
      ∀ code, Installed session code → code.Passes (Torn session.client.events) := by
  let manner : Manner Interpreter (Journal Interpreter Unit) := { nests := Moves Session.Inside }
  have client : Client (contract (Journal Interpreter Unit) 0).journaled manner.journaled
      interrupted := by
    have flat {α : Type} (operation : Operation (Session Interpreter (Journal Interpreter Unit)) α)
        (none : ∀ part, ¬operation.Has part) : Client _ manner.journaled
          (operation.issue (contract (Journal Interpreter Unit) 0).journaled) :=
      .issue (fun part has => absurd has (none part)) fun part has => absurd has (none part)
    refine (flat .startScript fun _ => id).bind fun _ =>
      (flat (.beginMethod "m" 0 0) fun _ => id).bind fun handle =>
      (flat (.primitive .loadTrue) fun _ => id).bind fun _ => .bind ?_ fun _ =>
        flat (.endMethod handle) fun _ => id
    refine .rescue (.issue ?_ ?_) fun _ => .pure ()
    · rintro part (rfl | rfl)
      · exact Moves.throws (R := Session.Inside) _
      · exact Moves.pure (R := Session.Inside) ()
    · rintro part (rfl | rfl)
      · exact .raise trivial
      · exact .pure ()
  have checks : unverified.checkStack = true := rfl
  have passes := installed_verifies checks {} 0 0 () (fun _ => id) client
  have outcome : (match interrupted (new unverified {} 0 ⟨[], ()⟩) with
      | .ok _ session => some session.bench.program.code.size
      | .error _ _ => none) = some 1 := by decide +kernel
  cases run : interrupted (new unverified {} 0 ⟨[], ()⟩) with
  | error halt session => simp [run] at outcome
  | ok value session => exact ⟨session, rfl, by simpa [run] using outcome, passes.ok run⟩

/-- What is installed for a method in which an arm of a branch has failed. -/
def methodWithBrokenBranch : Option Code :=
  let failing : Action Empty := .branch (.primitive .consume) .skip
  let script : Action Empty := .seq .startScript <| .seq (.beginMethod "m" "m" 0 0) <|
    .seq (.primitive .loadTrue) <| .seq (.rescue failing fun _ => .skip) (.endMethod "m")
  match script.run (contract Notes 0) Empty.elim (new unverified {} 0 {}) with
  | .ok _ session => session.bench.program.code[0]?
  | .error _ _ => none

/-- The jump of the branch leads back to the start, where the depth is another one. -/
theorem broken_branch_rejected :
    (methodWithBrokenBranch.map fun code => (code.ops, code.verify.toOption)) =
      some (#[.pushTrue, .jumpIfFalse 0, .pushNil, .ret], none) := by
  decide +kernel

end BlockScript.Interpreter
