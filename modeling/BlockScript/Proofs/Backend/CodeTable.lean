import BlockScript.Proofs.Backend.Integrity
import BlockScript.Proofs.Backend.Nested

/-!
# The code table of the immediate backend

Every operation of the backend keeps sessions sound, at any depth of nested code, and so does
every caller, also one that goes on after failures. What is noted on the way can therefore be
vouched for: in every state between operations the empty slots are those of the units that are
being recorded, what is shared lies where it is said to lie, and every position that the method
table, a block, an installed code object or an open unit refers to holds a finished code object
that stays the same as long as the reference does. So no operation fails with an error of the
machine itself.

The exception is a unit whose code object equals one that was recorded inside it: the later slot
is then taken for both and given back, and the reference to it dangles.
-/

namespace BlockScript

variable {υ α : Type}

namespace Interpreter

/-! ## The script -/

/-- The script is opened where no unit is open, and the backend keeps its handle. -/
theorem Sound.startScript {bench : Bench} {backend : Interpreter} (h : Sound bench backend)
    (fresh : backend.script = none) {handle : UnitHandle} {units : UnitStack (Option Recording)}
    (hopen : bench.units.open .script mainName none = .ok (handle, units)) :
    Sound { bench with units } { backend with script := some handle } := by
  obtain ⟨grounded, keeps⟩ := h.grounded.openExecuted hopen
  refine ⟨grounded, ?_, h.anchored.mono (keeps.stands.retains (List.append_nil _).symm
    (List.append_nil _).symm), h.alive⟩
  obtain ⟨rfl, rfl⟩ := UnitStack.open_ok hopen
  have only {unit : OpenUnit (Option Recording)} {outer : List (OpenUnit (Option Recording))}
      (suffix : (unit :: outer) <:+ ⟨bench.units.nextId, .script, mainName, none⟩ :: bench.units.units) :
      unit = ⟨bench.units.nextId, .script, mainName, none⟩ ∧ outer = [] := by
    rw [h.none_open fresh] at suffix
    rcases List.suffix_cons_iff.mp suffix with heq | suffix
    · exact List.cons.inj heq
    · cases List.suffix_nil.mp suffix
  refine ⟨fun unit outer suffix => ?_, fun unit suffix => ?_⟩
  · obtain ⟨rfl, rfl⟩ := only suffix
    exact ⟨fun _ => rfl, fun _ => rfl⟩
  · obtain ⟨rfl, -⟩ := only suffix
    exact ⟨_, rfl, rfl, rfl, rfl⟩

theorem secures_startScript :
    Secure (startScript : Work Interpreter (Journal Interpreter υ) Unit) := by
  refine .step fun session => Ends.get (Ends.ite (fun _ => ?_) fun fresh => ?_)
  · exact (Work.ends_violate (.beside rfl rfl fun sound _ =>
      ⟨sound, CompileError.Static.harmless trivial⟩)).halts
  · have ended : session.backend.script = none := by
      have unset := (Bool.or_eq_false_iff.mp (Bool.not_eq_true _ ▸ fresh)).1
      exact Option.isNone_iff_eq_none.mp (by simpa using unset)
    have opens : Ends (Work.onBench Bench.openScript) session
        (fun handle session' => ∃ units,
          session.bench.units.open .script mainName none = .ok (handle, units) ∧
          session' = { session with bench := { session.bench with units } })
        fun halt session' => session' = session ∧ halt.Harmless := by
      refine Work.ends_onBench ?_
      unfold Ends Bench.openScript
      cases hopen : session.bench.units.open .script mainName none with
      | error error => exact ⟨rfl, (UnitStack.checked_open _ _ _ _ error hopen).harmless⟩
      | ok result => exact ⟨_, rfl, rfl⟩
    refine (opens.mono (fun _ _ => id) ?_).bind ?_
    · rintro halt _ ⟨rfl, harmless⟩
      exact .beside rfl rfl fun sound _ => ⟨sound, harmless⟩
    · rintro handle _ ⟨units, hopen, rfl⟩
      exact Ends.modifies ⟨rfl, (Bench.lasts_open hopen).upholds, fun _ sound _ =>
        ⟨sound.startScript ended hopen, trivial⟩⟩

/-- No unit is left when the script is closed, and the handle that the backend keeps closes it. -/
theorem Sound.endScript {bench : Bench} {backend : Interpreter} (h : Sound bench backend)
    (alone : ¬1 < bench.units.size) {handle : UnitHandle} (script : backend.script = some handle)
    (line : Option UInt32) :
    (∀ error, bench.units.close handle .script line = .error error →
      Sound bench { backend with script := none }) ∧
    ∀ unit units, bench.units.close handle .script line = .ok (unit, units) →
      Sound { bench with units } { backend with script := none } := by
  have unstaged {stack : UnitStack (Option Recording)} (empty : stack.units = []) :
      stack.Staged none := by
    refine ⟨fun unit outer suffix => ?_, fun unit suffix => ?_⟩ <;>
    · rw [empty] at suffix
      cases List.suffix_nil.mp suffix
  refine ⟨fun error refused => ?_, fun unit units closed => ?_⟩
  · have empty : bench.units.units = [] := by
      cases hunits : bench.units.units with
      | nil => rfl
      | cons unit outer =>
          -- The script is the innermost unit, so its handle would have closed it.
          obtain rfl : outer = [] := by
            rw [UnitStack.size, hunits] at alone
            exact List.eq_nil_of_length_eq_zero (by simpa using alone)
          obtain ⟨handle', known, owner, id, kind⟩ :=
            h.staged.outermost unit (hunits ▸ List.suffix_rfl)
          cases script.symm.trans known
          rw [← kind, UnitStack.close_eq hunits owner id] at refused
          cases refused
    exact ⟨h.grounded, unstaged empty, h.anchored, h.alive⟩
  · obtain ⟨-, -, kind, hunits, heq⟩ := UnitStack.close_ok closed
    have empty : units.units = [] := by
      rw [UnitStack.size, hunits] at alone
      exact List.eq_nil_of_length_eq_zero (by simpa using alone)
    have executed : unit.payload = none :=
      (h.staged.executed unit _ (hunits ▸ List.suffix_rfl)).mpr empty
    have sustained : bench.Sustained { bench with units } :=
      heq ▸ h.grounded.discard (show _ = [unit] ++ _ from hunits)
        (by simp [Bench.slots, Bench.place, executed])
    have sound := h.follow sustained
    exact ⟨sound.grounded, unstaged empty, sound.anchored, sound.alive⟩

theorem secures_takeResult (checks : Bool) (line : Option UInt32) :
    Secure (takeResult checks line : Work Interpreter (Journal Interpreter υ) Unit) := by
  have sets (values : List Value) : Secure (do
      setStack []
      modify fun session => { session with
        backend := { session.backend with result := some (values.head?.getD .nil) } } :
      Work Interpreter (Journal Interpreter υ) Unit) := by
    refine .step fun session => Ends.changes (Ends.modifies (.beside rfl rfl fun sound _ => ?_))
    have alive := sound.alive
    exact ⟨⟨sound.grounded, sound.staged, sound.anchored,
      ⟨by simp, alive.frame, alive.self, alive.block⟩⟩, trivial⟩
  have scripted := secures_scripted (υ := υ) 0
  exact scripted.bind scripted.stack fun values =>
    Sequenced.ite (scripted.bind (scripted.fail trivial) fun _ => sets values) (sets values)

theorem secures_endScript :
    Secure (endScript : Work Interpreter (Journal Interpreter υ) Unit) := by
  have refuses (kind : Violation) {next : Unit → Work Interpreter (Journal Interpreter υ) Unit} :
      Secure (Work.violate kind >>= next) := .stop kind
  refine fun session => Ends.get (Ends.ite (fun _ => refuses _ session) fun alone => Ends.get ?_)
  cases script : session.backend.script with
  | none =>
      simp only
      exact (Secures.violate _ : Secure (Work.violate .noOpenUnit)) session
  | some handle =>
      simp only
      refine Ends.changes ?_
      cases closed : session.bench.units.close handle .script session.bench.currentLine with
      | error error =>
          have static := (UnitStack.checked_close _ _ _ _ error closed).harmless
          have ended : Steps (fun _ => True) session (fun _ => (Halt.failure error).Harmless)
              { session with backend := { session.backend with script := none } } :=
            .beside rfl rfl fun sound _ => ⟨(sound.endScript alone script _).1 _ closed, static⟩
          exact (Work.ends_fail ended.asserts).halts
      | ok result =>
          obtain ⟨unit, units⟩ := result
          refine Ends.changes ?_
          have ended : Steps (fun _ => True) session (fun _ => True) { session with
              bench := { session.bench with units }
              backend := { session.backend with script := none } } :=
            ⟨rfl, (lasts_closeScript closed).upholds, fun _ sound _ =>
              ⟨(sound.endScript alone script _).2 _ _ closed, trivial⟩⟩
          exact (secures_takeResult _ _ _).mono (fun _ _ reached => reached ∘ ended.asserts)
            fun _ _ reached => reached ∘ ended.asserts

/-! ## All operations -/

/-- Every operation keeps sessions sound, if a unit that it closes was noted before. -/
theorem secures_issue {operation : Operation (Watched υ) α}
    (parts : ∀ part, operation.Has part → Observed part) (fuel : Nat) :
    Secures Heeds (operation.issue (contract _ fuel)) fun _ _ => True := by
  have secured {action : Work Interpreter (Journal Interpreter υ) α} (h : Secure action) :
      Secures Heeds action fun _ _ => True := h.strengthen
  cases operation with
  | startScript => exact secured secures_startScript
  | endScript => exact secured secures_endScript
  | beginMethod name arity localCount =>
      refine secured (Secures.ensureOpen.bind fun _ => ?_)
      exact (secures_openUnit (by nofun) _ _ _ _).mono (fun _ => And.left) fun _ _ _ => trivial
  | endMethod handle =>
      exact (secures_closeUnit handle .method).bind fun _ => .pure fun _ _ => trivial
  | primitive p => exact secured (secures_primitive fuel p)
  | invoke name shape block =>
      exact secured (secures_invoke (fun given h => parts _ ⟨given, h, rfl⟩) fuel name shape)
  | control inner =>
      have inside (part : Work Interpreter (Journal Interpreter υ) Unit) (has : inner.Has part) :
          Secure part := (parts part has).secure
      exact secured ((secures_scripted fuel).control .nested
        (Secures.compositional.control inner inside) inside)
  | closure scope arity body => exact secured (secures_closure (parts _ rfl) fuel scope arity)
  | defineMethod name arity localCount body =>
      exact secured (secures_defineMethod (parts _ rfl) fuel name arity localCount)

/-- What is noted now is vouched for. -/
theorem Asserts.note {known : Prop} {session : Watched υ} (h : Asserts (fun _ => known) session)
    (operation : String) (since : Nat) {occasion : Occasion}
    (harmless : ∀ halt, occasion = .failed halt → known → halt.Harmless) :
    Asserts (fun _ => known) (session.note (session.event operation since occasion)) := by
  refine ⟨h.order, ?_, h.trusted.cons fun clean => ?_, fun clean => h.holds clean.2⟩
  · intro event member
    rcases List.mem_cons.mp member with rfl | member
    · exact .refl h.order.proper
    · exact h.past event member
  · obtain ⟨sound, holds⟩ := h.holds clean
    refine ⟨sound.integral, ?_, fun halt failed => harmless halt failed holds⟩
    intro past member inner inner' outer target before after refers
    obtain ⟨earlier, vouched⟩ := h.trusted.past clean past member
    exact vouched.integral.unchanged (h.past past member) before after refers

/-- An operation that is noted when it is issued and when it replies is observed. -/
theorem observed_journaled {operation : Work Interpreter (Journal Interpreter υ) α}
    (h : Secures Heeds operation fun _ _ => True) (name : String) :
    Observed (Work.journaled name operation) where
  secure session := by
    have issued (start : Asserts (fun _ => True) session) : Asserts Heeds
        (session.note (session.event name session.client.events.length .issued)) :=
      (start.note name _ (by nofun)).imp fun _ _ => ⟨_, _, rfl, rfl⟩
    refine Work.ends_journaled ((h _).mono (fun value session' reached start => ?_)
      fun halt session' reached start => ?_)
    · exact (reached (issued start)).note name _ (by nofun)
    · refine (reached (issued start)).note name _ ?_
      rintro _ ⟨⟩ harmless
      exact harmless
  noted session := by
    refine Work.ends_journaled (Ends.intro ?_ ?_) <;>
    · exact fun _ _ _ => .inr ⟨_, _, rfl, rfl⟩

/-! ## Callers -/

/-- Whatever a caller does that makes up no errors of the machine itself. -/
theorem observed_client {fuel : Nat} {manner : Manner Interpreter (Journal Interpreter υ)}
    (raised : ∀ error, manner.raises error → (Halt.failure error).Harmless)
    {action : Work Interpreter (Journal Interpreter υ) α}
    (client : Client (contract _ fuel).journaled manner.journaled action) : Observed action := by
  induction client with
  | pure value => exact ⟨.pure fun _ _ => trivial, .pure value⟩
  | bind _ _ first next =>
      exact ⟨first.secure.bind fun value => (next value).secure,
        first.noted.bind fun value => (next value).noted⟩
  | look => exact ⟨fun _ => id, fun session => refl_of Noted session⟩
  | keep allowed =>
      obtain ⟨change, rfl⟩ := allowed
      refine ⟨fun session => Ends.modifies fun start => ?_, .modifies fun session => .inl ⟨rfl, rfl⟩⟩
      exact ⟨start.order, start.past, start.trusted, start.holds⟩
  | raise allowed =>
      refine ⟨.step fun session => Work.ends_fail (.beside rfl rfl fun sound _ => ?_), .throws _⟩
      exact ⟨sound, raised _ allowed⟩
  | rescue _ _ body handler =>
      refine ⟨fun session => Work.ends_rescue ((body.secure session).mono (fun _ _ => id) ?_),
        Work.moves_rescue body.noted fun error => (handler error).noted⟩
      rintro (error | _) session' reached
      · exact ((handler error).secure session').mono
          (fun _ _ reached' start => reached' ((reached start).imp fun _ => trivial))
          fun _ _ reached' start => reached' ((reached start).imp fun _ => trivial)
      · exact reached
  | issue _ _ parts =>
      rw [Operation.issue_journaled]
      exact observed_journaled (secures_issue parts fuel) _

/-! ## New sessions -/

section New

variable {config : Config} (limit : config.maxPoolEntries ≤ UInt32.size)
  (strict : config.verifyUnits = true)

include limit strict

theorem grounded_new (owner : Nat) : (Bench.new config owner true).Grounded where
  proper := Bench.proper_new config owner true
  tabled := Bench.tabled_new limit owner true
  verifies := strict
  constants := Nat.zero_le _
  pooled position code found := by simp [Program.code?, Bench.new, Program.empty] at found
  verified position code found := by simp [Program.code?, Bench.new, Program.empty] at found
  installed inner outer places position code found := by
    obtain ⟨-, found⟩ := Bench.seen_eq_some.mp found
    simp [Program.code?, Bench.new, Program.empty] at found
  opened inner unit outer slot builder units := by simp [Bench.new, UnitStack.new] at units

theorem sound_new (limits : Limits) (owner : Nat) (own : υ) :
    Sound (new config limits owner own).bench (new config limits owner own).backend := by
  have grounded := grounded_new limit strict owner
  have complete := grounded.complete rfl
  have closed : World.new.Closed (Bench.new config owner true).program
      (Bench.new config owner true).program.reach := World.closed_new
  have grows := World.new.heap.grows_newFrame (.new 0 [] none)
  have frame_alive : (Frame.new 0 [] none).Alive World.new.heap :=
    Frame.alive_new (by simp) (by simp)
  have anchored := (closed.withHeap (closed.heap.newFrame frame_alive) grows
    fun _ => .inl).anchored complete
  have empty : Bench.slots (Bench.new config owner true).places = [] := rfl
  refine ⟨grounded, ⟨?_, ?_⟩, (Bench.seen_of_slots empty).symm ▸ anchored, by simp [new], ?_,
    closed.main.mono grows, by simp [new]⟩
  · exact fun unit outer suffix => by cases List.suffix_nil.mp suffix
  · exact fun unit suffix => by cases List.suffix_nil.mp suffix
  · change World.new.heap.frames.size < (World.new.heap.frames.push _).size
    simp

/-- Nothing was noted yet. -/
theorem asserts_new (limits : Limits) (owner : Nat) (own : υ) :
    Asserts (fun _ => True) (new config limits owner ⟨[], own⟩) where
  order := ⟨Bench.proper_new config owner true, Bench.tabled_new limit owner true⟩
  past := by simp [new]
  trusted event earlier suffix := by cases List.suffix_nil.mp suffix
  holds _ := ⟨sound_new limit strict limits owner _, trivial⟩

end New

/-! ## The code table between operations -/

/-- Whatever a caller does with a new session, and however it goes on after failures, every state
between operations is vouched for up to which no unit was closed or discarded that clashed. -/
theorem code_table_trusted {config : Config} (limit : config.maxPoolEntries ≤ UInt32.size)
    (strict : config.verifyUnits = true) (limits : Limits) (owner fuel : Nat) (own : υ)
    {manner : Manner Interpreter (Journal Interpreter υ)}
    (raised : ∀ error, manner.raises error → (Halt.failure error).Harmless)
    {action : Work Interpreter (Journal Interpreter υ) α}
    (client : Client (contract _ fuel).journaled manner.journaled action) :
    Ends action (new config limits owner ⟨[], own⟩)
      (fun _ session => Trusted session.client.events)
      fun _ session => Trusted session.client.events := by
  have start := asserts_new limit strict limits owner own
  exact ((observed_client raised client).secure _).mono (fun _ _ reached => (reached start).trusted)
    fun _ _ reached => (reached start).trusted

/-- A block is made. -/
def makesBlock : Operation (Watched Unit) Unit :=
  .closure (.ofBlock []) 0 ((Operation.primitive .loadNil).issue (contract _ 0).journaled)

/-- A method that makes the block breaks off, and the script makes it again. -/
def undeterred : Work Interpreter (Journal Interpreter Unit) Unit := do
  Operation.startScript.issue (contract _ 0).journaled
  Work.rescue
    ((Operation.defineMethod "m" 0 0 do
      makesBlock.issue (contract _ 0).journaled
      Work.fail (.artifact "broken off")).issue (contract _ 0).journaled)
    fun _ => makesBlock.issue (contract _ 0).journaled

theorem client_undeterred : Client (contract _ 0).journaled
    ({ raises := (· = .artifact "broken off") } : Manner _ (Journal Interpreter Unit)).journaled
    undeterred := by
  have makes : Client (contract _ 0).journaled
      ({ raises := (· = .artifact "broken off") } : Manner _ (Journal Interpreter Unit)).journaled
      (makesBlock.issue (contract _ 0).journaled) := by
    refine .issue (fun _ _ => trivial) ?_
    rintro _ rfl
    exact .issue (fun _ has => has.elim) fun _ has => has.elim
  refine .bind (.issue (fun _ has => has.elim) fun _ has => has.elim) fun _ => .rescue ?_ fun _ => makes
  refine .issue (fun _ _ => trivial) ?_
  rintro _ rfl
  exact makes.bind fun _ => .raise rfl

theorem undeterred_trusted : ∃ session event earlier,
    undeterred (new .strict {} 0 ⟨[], ()⟩) = .ok () session ∧
      session.client.events = event :: earlier ∧ event.Vouched earlier := by
  have outcome : (match undeterred (new .strict {} 0 ⟨[], ()⟩) with
      | .ok _ session => decide (session.client.events.length = 12 ∧
          Clean session.client.events session.bench)
      | .error _ _ => false) = true := by decide +kernel
  cases run : undeterred (new .strict {} 0 ⟨[], ()⟩) with
  | error halt session => simp [run] at outcome
  | ok value session =>
      rw [run] at outcome
      obtain ⟨length, clean⟩ := of_decide_eq_true outcome
      obtain ⟨event, earlier, heq⟩ := List.exists_cons_of_length_eq_add_one length
      have raised (error : CompileError) (made : error = .artifact "broken off") :
          (Halt.failure error).Harmless := by
        subst made
        rintro _ _ ⟨⟩
      have trusted := (code_table_trusted (by decide) rfl {} 0 0 () raised client_undeterred).ok run
      rw [heq] at clean
      exact ⟨session, event, earlier, rfl, heq, trusted event earlier (heq ▸ List.suffix_rfl) clean.2⟩

/-- A method is recorded inside another one, and both come to the same. -/
def twins : Action Empty :=
  .seq .startScript (.method "m" 0 0 (.seq (.beginMethod "m" "m" 0 0) (.endMethod "m")))

/-- How an action ends that fails while it runs. -/
def runtimeFailure (action : Action Empty) : Option (ErrorKind × String) :=
  match action.run (contract Notes 0) Empty.elim (new .strict {} 0 {}) with
  | .error (.failure (.runtime error _)) _ => some (error.kind, error.message)
  | _ => none

/-- The outer method is given the slot of the inner one, which is given back. -/
theorem twins_dangle : runtimeFailure twins = some (.internal, "no code object 1") := by
  decide +kernel

end Interpreter

end BlockScript
