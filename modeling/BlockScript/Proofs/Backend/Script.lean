import BlockScript.Proofs.Backend.Following

/-!
# Every caller keeps to the bracket of the script

Opening the script needs a backend that has none yet, and ending it leaves a backend that has
had one, unless the immediate backend gives the script up. Every other operation leaves the
outermost unit as it is. So the journal of every caller is `Backend.Bracketed`.
-/

namespace BlockScript

variable {υ α : Type}

/-! ## Opening and closing the script -/

namespace Interpreter

/-- The script is closed while it is the only unit. -/
structure ClosesScript (session : Session Interpreter υ) (units : UnitStack (Option Recording)) :
    Prop where
  alone : session.bench.units.size ≤ 1
  closed : ∃ handle unit, session.backend.script = some handle ∧
    session.bench.units.close handle .script session.bench.currentLine = .ok (unit, units)

/-- How the script is not ended: it stays open, or it is forgotten since it cannot be closed, or
it is closed but has left too many values. -/
inductive NotEnded (session : Session Interpreter υ) (halt : Halt CompileError) :
    Session Interpreter υ → Prop
  | refused : NotEnded session halt session
  | forgotten {handle : UnitHandle} (alone : session.bench.units.size ≤ 1)
      (script : session.backend.script = some handle)
      (stuck : ∀ unit units, session.bench.units.close handle .script session.bench.currentLine ≠
        .ok (unit, units)) :
      NotEnded session halt { session with backend := { session.backend with script := none } }
  | surplus {units : UnitStack (Option Recording)} (closes : ClosesScript session units)
      (many : 1 < session.backend.top.stack.length) (checks : session.bench.config.checkStack = true)
      (reported : halt = .failure (.violation (.unbalancedUnit describeMain
        session.backend.top.stack.length) session.bench.currentLine)) :
      NotEnded session halt { session with
        bench := { session.bench with units }
        backend := { session.backend with script := none } }

/-- The script is ended with the value that it has left. -/
theorem ends_endScript (session : Session Interpreter υ) : Ends endScript session
    (fun _ session' => ∃ units, ClosesScript session units ∧ session' = { session with
      bench := { session.bench with units }
      backend := { session.backend with
        script := none
        top := { session.backend.top with stack := [] }
        result := some (session.backend.top.stack.head?.getD .nil) } })
    fun halt => NotEnded session halt := by
  refine Ends.get (Ends.ite (fun _ => (Work.ends_violate .refused).halts) fun several =>
    Ends.get ?_)
  have alone : session.bench.units.size ≤ 1 := Nat.le_of_not_lt several
  split
  · exact Work.ends_violate .refused
  · rename_i handle script
    refine Ends.changes ?_
    cases closed : session.bench.units.close handle .script session.bench.currentLine with
    | error error =>
        simp only [closed]
        exact (Work.ends_fail (.forgotten alone script (by simp [closed]))).halts
    | ok result =>
        have closes : ClosesScript session result.2 := ⟨alone, handle, result.1, script, closed⟩
        simp only [closed]
        refine Ends.changes (Ends.get (Ends.ite (fun many => ?_) fun _ => ?_))
        · obtain ⟨many, checks⟩ := Bool.and_eq_true_iff.mp many
          exact Ends.stops (.surplus closes (of_decide_eq_true many) checks rfl)
        · exact Ends.changes (Ends.modifies ⟨result.2, closes, rfl⟩)

end Interpreter

namespace Backend

variable {backend : Backend} {session : backend.Noted υ}

/-- The recorded script may also be opened in the block of a call. -/
theorem follows_startScript_recording (session : recording.Noted υ) :
    Ends (Work.journaled "start_script" Recorder.startScript) session
      (fun _ => recording.Follows session) fun _ => recording.Follows session := by
  refine Work.ends_journaled (Recorder.ends_checked
    (fun _ _ => .failed (refl_of (Follows recording) _) _) fun _ => Ends.get (Ends.ite
      (fun _ => Ends.stops (.failed (Recorder.follows_poison _ _) _)) fun fresh => ?_))
  have free : session.backend.script = .notStarted := Classical.not_not.mp fresh
  have lasts : Moves (Bench.Lasts false) (Bench.openUnit .script mainName 0 0 []) :=
    Bench.moves_openUnit (fun _ => rfl) mainName 0 0 []
  have units := session.bench.ends_openUnit_units .script mainName 0 0 []
  have opens : Ends (Work.onBench (Bench.openUnit .script mainName 0 0 []))
      (issued session "start_script")
      (fun _ session' => ∃ bench', session' = { issued session "start_script" with bench := bench' } ∧
        session.bench.Lasts false bench' ∧
        ∃ unit, bench'.units.units = unit :: session.bench.units.units ∧ unit.kind = .script)
      fun _ session' => Follows recording (issued session "start_script") session' := by
    refine Work.ends_onBench (Ends.intro (fun _ bench' run => ?_) fun _ bench' run => ?_)
    · exact ⟨bench', rfl, lasts.ok run, units.ok run⟩
    · exact .of_bench (lasts.error run).proper fun proper rooted =>
        rooted.steady (.of_units (units.error run)) ((lasts.error run) proper).units.owner
  refine Ends.mono (opens.bind ?_) (fun _ _ => id) fun halt session' reached => ?_
  · rintro handle _ ⟨bench', rfl, lasts, unit, opened, hkind⟩
    refine Ends.modifies (.started rfl free ScriptState.noConfusion fun brackets => ?_)
    refine ⟨lasts.proper brackets.proper, fun id kind root => ?_⟩
    have rooted := (brackets.issued "start_script").rooted
    by_cases empty : session.bench.units.units = []
    · rw [empty] at opened
      rw [Bench.root?_of_single opened, hkind] at root
      cases root
      exact .inl rfl
    · exact rooted id kind ((Bench.sameRoot_opened opened empty).symm.trans root)
  · cases halt with
    | failure error =>
        exact .failed (trans_of (Follows recording) reached (Recorder.follows_poison error session')) _
    | outOfFuel => exact .failed reached _

/-- The executed script is opened as it is. -/
theorem ends_openScript (bench : Bench) : Ends (fun bench : Bench =>
      match bench.units.open .script mainName none with
      | .ok (handle, units) => .ok handle { bench with units }
      | .error error => .error error bench) bench
    (fun handle bench' => ∃ units, bench.units.open .script mainName none = .ok (handle, units) ∧
      bench' = { bench with units })
    fun (_ : CompileError) bench' => bench' = bench := by
  unfold Ends
  cases opened : bench.units.open .script mainName none with
  | error error => simp only [opened]
  | ok result =>
      simp only [opened]
      exact ⟨result.2, rfl, rfl⟩

theorem follows_startScript_immediate {fuel : Nat} (session : (immediate fuel).Noted υ) :
    Ends (Work.journaled "start_script" Interpreter.startScript) session
      (fun _ => (immediate fuel).Follows session) fun _ => (immediate fuel).Follows session := by
  refine Work.ends_journaled (Ends.get (Ends.ite
    (fun _ => (Work.ends_violate (.failed (refl_of (Follows (immediate fuel)) _) _)).halts)
    fun fresh => ?_))
  obtain ⟨unopened, unfinished⟩ := not_or.mp (Bool.or_eq_true_iff.not.mp fresh)
  have free : (immediate fuel).MayStart session.backend :=
    ⟨Option.not_isSome_iff_eq_none.mp unopened, Option.not_isSome_iff_eq_none.mp unfinished⟩
  have opens : Ends (Work.onBench fun bench : Bench =>
      match bench.units.open .script mainName none with
      | .ok (handle, units) => .ok handle { bench with units }
      | .error error => .error error bench) (issued session "start_script")
      (fun handle session' => ∃ units,
        session.bench.units.open .script mainName none = .ok (handle, units) ∧
        session' = { issued session "start_script" with bench := { session.bench with units } })
      fun halt session' => (immediate fuel).Follows session (session'.note
        (session'.event "start_script" session.client.events.length (.failed halt))) := by
    refine Work.ends_onBench ((ends_openScript session.bench).mono ?_ ?_)
    · rintro handle _ ⟨units, opened, rfl⟩
      exact ⟨units, opened, rfl⟩
    · rintro _ _ rfl
      exact .failed (refl_of (Follows (immediate fuel)) _) _
  refine opens.bind ?_
  rintro handle _ ⟨units, opened, rfl⟩
  refine Ends.modifies (.started rfl free (fun taken => nomatch taken.1) fun brackets => ?_)
  refine ⟨(Bench.lasts_open opened).proper brackets.proper, ?_⟩
  obtain ⟨root, -⟩ := brackets.rooted
  have empty : session.bench.units.units = [] := by
    rw [free.1] at root
    exact Bench.root?_eq_none.mp root
  obtain ⟨rfl, heq⟩ := UnitStack.open_ok opened
  have single : units.units = [⟨session.bench.units.nextId, .script, mainName, none⟩] := by
    rw [heq, empty]
  refine ⟨by simp [Bench.root?, single], ?_⟩
  have owner : units.owner = session.bench.units.owner := by rw [heq]
  rintro _ ⟨⟩
  exact owner.symm

/-- The recorded script may be closed while it is the only unit. -/
theorem follows_endScript_recording (session : recording.Noted υ) :
    Ends (Work.journaled "end_script" Recorder.endScript) session
      (fun _ => recording.Follows session) fun _ => recording.Follows session := by
  refine Work.ends_journaled (Recorder.ends_checked
    (fun _ _ => .failed (refl_of (Follows recording) _) _) fun _ => Ends.get (Ends.ite
      (fun _ => (Work.ends_violate (.failed (Recorder.follows_poison _ _) _)).halts)
      fun _ => Ends.get ?_))
  have lasts (handle : UnitHandle) : Moves (Bench.Lasts false) (Bench.closeUnit handle .script) :=
    Bench.moves_closeUnit handle .script
  have closes (handle : UnitHandle) := session.bench.ends_closeUnit_units handle .script
  -- The script has ended in any case, so it is not opened again.
  have replies {state : Recorder} {bench' : Bench} {occasion : Occasion}
      (ended : state.script = .ended) (lasts : session.bench.Lasts false bench')
      (closed : bench' = session.bench ∨ session.bench.Closes .script bench')
      (attended : occasion = .succeeded → session.bench.Occupied) :
      Follows recording session (Session.note ⟨bench', state, (issued session "end_script").client⟩
        (Session.event ⟨bench', state, (issued session "end_script").client⟩ "end_script"
          session.client.events.length occasion)) := by
    refine .reply List.suffix_rfl (fun brackets => ?_) (fun _ => by simp)
      fun _ succeeded => ⟨attended succeeded, fun goes_on => absurd rfl goes_on⟩
    have brackets' := brackets.issued "end_script"
    refine ⟨brackets'.bracketed, lasts.proper brackets.proper, ?_,
      fun free => ScriptState.noConfusion (free.symm.trans ended)⟩
    rcases closed with rfl | closed
    · exact brackets'.rooted
    · exact Rooted.closing brackets'.rooted (.inr rfl) closed
        ((lasts brackets.proper).units.owner)
  split
  · rename_i handle _
    refine Ends.changes (Ends.bind (Work.ends_onBench (Ends.intro (fun _ bench' run => ?_)
      fun _ bench' run => ?_)) fun _ _ reached => Ends.pure reached)
    · have closed := (closes handle).ok run
      obtain ⟨unit, hunits, -⟩ := id closed
      exact replies rfl ((lasts handle).ok run) (.inr closed) fun _ => by
        simp [Bench.Occupied, hunits]
    · exact replies (Recorder.poison_script _ _) ((lasts handle).error run) ((closes handle).error run)
        fun succeeded => by cases succeeded
  · exact Work.ends_fail (.failed (Recorder.follows_poison _ _) _)

/-- The only unit is the script, which its handle closes. -/
theorem Brackets.closable {fuel : Nat} {session : (immediate fuel).Noted υ}
    (h : (immediate fuel).Brackets session) (alone : session.bench.units.size ≤ 1)
    {handle : UnitHandle} (script : session.backend.script = some handle) (line : Option UInt32) :
    ∃ unit units, session.bench.units.close handle .script line = .ok (unit, units) := by
  obtain ⟨root, owner⟩ := h.rooted
  rw [script] at root
  obtain ⟨unit, outer, hunits⟩ := List.exists_cons_of_ne_nil fun empty =>
    Option.some_ne_none _ (root.symm.trans (Bench.root?_eq_none.mpr empty))
  have single : session.bench.units.units = [unit] := by
    rw [UnitStack.size, hunits, List.length_cons] at alone
    rw [hunits, List.length_eq_zero_iff.mp (by omega : outer.length = 0)]
  obtain ⟨id, kind⟩ := Prod.mk.inj (Option.some.inj ((Bench.root?_of_single single).symm.trans root))
  have closes := UnitStack.close_eq single (owner handle script).symm id line
  exact ⟨unit, _, kind ▸ closes⟩

/-- When the script has left too many values, it is given up. -/
theorem follows_endScript_immediate {fuel : Nat} (session : (immediate fuel).Noted υ) :
    Ends (Work.journaled "end_script" Interpreter.endScript) session
      (fun _ => (immediate fuel).Follows session) fun _ => (immediate fuel).Follows session := by
  have ends := Interpreter.ends_endScript (issued session "end_script")
  -- Afterwards no unit is open, and the backend has no script.
  have closed {units : UnitStack (Option Recording)}
      (closes : Interpreter.ClosesScript (issued session "end_script") units) :
      session.bench.Occupied ∧ units.units = [] ∧
        session.bench.Lasts true { session.bench with units } := by
    obtain ⟨alone, handle, unit, -, closed⟩ := closes
    refine ⟨?_, ?_, Interpreter.lasts_closeScript closed⟩ <;>
      obtain ⟨-, -, -, hunits, -⟩ := UnitStack.close_ok closed
    · exact fun empty => List.cons_ne_nil _ _ (hunits.symm.trans empty)
    · have length : (unit :: units.units).length ≤ 1 := hunits ▸ alone
      exact List.length_eq_zero_iff.mp (Nat.le_zero.mp (Nat.le_of_succ_le_succ length))
  refine Work.ends_journaled (ends.mono ?_ ?_)
  · rintro _ _ ⟨units, closes, rfl⟩
    obtain ⟨occupied, empty, lasts⟩ := closed closes
    refine .reply List.suffix_rfl (fun brackets => ?_) (fun _ => by simp)
      fun _ _ => ⟨occupied, fun goes_on => absurd rfl goes_on⟩
    refine ⟨(brackets.issued "end_script").bracketed, lasts.proper brackets.proper,
      ⟨?_, by rintro _ ⟨⟩⟩, fun free => by cases free.2⟩
    exact Bench.root?_eq_none.mpr empty
  · rintro halt _ failed
    cases failed with
    | refused => exact .failed (refl_of (Follows (immediate fuel)) _) _
    | forgotten alone script stuck =>
        refine .reply List.suffix_rfl (fun brackets => ?_) (fun succeeded => by cases succeeded)
          fun _ succeeded => by cases succeeded
        obtain ⟨unit, units, closes⟩ := brackets.closable alone script session.bench.currentLine
        exact absurd closes (stuck unit units)
    | surplus closes many checks reported =>
        obtain ⟨occupied, empty, lasts⟩ := closed closes
        refine .reply List.suffix_rfl (fun brackets => ?_) (fun succeeded => by cases succeeded)
          fun _ succeeded => by cases succeeded
        refine ⟨(brackets.issued "end_script").bracketed, lasts.proper brackets.proper,
          ⟨?_, by rintro _ ⟨⟩⟩, fun _ => .of_gaveUp ⟨rfl, checks, _, _, many, congrArg Occasion.failed reported⟩
            fun started => Occasion.noConfusion started.2⟩
        exact Bench.root?_eq_none.mpr empty

/-! ## Every caller -/

/-- After a method was closed some unit is still open: the method was not the outermost one. -/
theorem Brackets.ensures_endMethod (h : backend.Brackets session) (handle : UnitHandle) :
    Ensures ((Operation.endMethod handle).issue (backend.contract (Journal backend.State υ))) session
      fun _ session' => session.bench.Occupied ∧ session'.bench.Occupied := by
  have closes : Ensures (do let _ ← Work.onBench (Bench.closeUnit handle .method) :
      Work backend.State (Journal backend.State υ) Unit) session fun _ session' =>
      session.bench.Occupied ∧ session'.bench.Occupied := by
    have closed : Ensures (Work.onBench (Bench.closeUnit handle .method)) session
        fun _ session' => session.bench.Closes .method session'.bench :=
      Work.ensures_onBench (Bench.ends_closeUnit_units _ handle .method).ensures
    refine closed.bind fun _ session' closed => Ensures.pure ?_
    obtain ⟨unit, hunits, hkind⟩ := closed
    have occupied : session.bench.Occupied := by simp [Bench.Occupied, hunits]
    refine ⟨occupied, fun empty => ?_⟩
    rw [empty] at hunits
    have root := Bench.root?_of_single hunits
    rw [hkind] at root
    have rooted := h.rooted
    cases backend with
    | recording => simpa using rooted unit.id .method root
    | immediate fuel => simpa using rooted.1.symm.trans root
  cases backend with
  | recording => exact Recorder.ensures_checked closes
  | immediate fuel => exact closes

/-- What is said of the journal and what is said of the bench. -/
def Keeps (backend : Backend) (session session' : backend.Noted υ) : Prop :=
  backend.Follows session session' ∧ session.Lasts backend.executes session'

instance : IsPreorder (backend.Noted υ) backend.Keeps where
  refl session := ⟨refl_of backend.Follows session, refl_of (Bench.Lasts _) session.bench⟩
  trans _ _ _ h₁ h₂ :=
    ⟨trans_of backend.Follows h₁.1 h₂.1, trans_of (Bench.Lasts _) h₁.2 h₂.2⟩

theorem keeps_contract (nests : Work backend.State (Journal backend.State υ) Unit → Prop) :
    (backend.contract (Journal backend.State υ)).journaled.Keeps nests backend.Keeps := by
  intro α operation parts
  rw [Operation.issue_journaled]
  have follows (part : Work backend.State (Journal backend.State υ) Unit) (has : operation.Has part) :
      Moves backend.Follows part :=
    (parts part has).2.mono fun _ _ => And.left
  have lasts (part : Work backend.State (Journal backend.State υ) Unit) (has : operation.Has part) :
      Moves (Session.Lasts backend.executes) part :=
    (parts part has).2.mono fun _ _ => And.right
  intro session
  have benches := Work.moves_journaled (backend.lasts_contract (fun _ => True) operation
    fun part has => ⟨trivial, lasts part has⟩) operation.name session
  suffices Ends (Work.journaled operation.name (operation.issue (backend.contract _))) session
      (fun _ => backend.Follows session) fun _ => backend.Follows session from
    Ends.intro (fun _ _ run => ⟨this.ok run, benches.ok run⟩)
      fun _ _ run => ⟨this.error run, benches.error run⟩
  by_cases script : operation.SetsScript
  · cases operation with
    | startScript =>
        cases backend with
        | recording => exact follows_startScript_recording session
        | immediate fuel => exact follows_startScript_immediate session
    | endScript =>
        cases backend with
        | recording => exact follows_endScript_recording session
        | immediate fuel => exact follows_endScript_immediate session
    | _ => exact script.elim
  · refine follows_journaled (Operation.name_ne_start script) ?_ fun brackets => ?_
    · cases backend with
      | recording =>
          refine Recorder.follows_issue script follows fun empty named => ?_
          exact ⟨_, List.mem_cons_self .., named, rfl, empty⟩
      | immediate fuel => exact Interpreter.follows_issue script follows
    · have brackets' := brackets.issued operation.name
      by_cases stays : operation.Stays
      · exact (ensures_issue_occupied stays lasts brackets'.proper).mono
          fun _ _ ⟨occupied, left⟩ => ⟨occupied, fun _ => left⟩
      · cases operation with
        | startScript => exact absurd trivial script
        | endScript => exact absurd trivial script
        | endMethod handle =>
            exact (brackets'.ensures_endMethod handle).mono
              fun _ _ ⟨occupied, left⟩ => ⟨occupied, fun _ => left⟩
        | _ => exact absurd trivial stays

/-- Nothing has happened yet. -/
theorem brackets_new (backend : Backend) (config : Config) (limits : Limits) (owner : Nat) (own : υ) :
    backend.Brackets (backend.new config limits owner ⟨[], own⟩) where
  bracketed := by
    have none_noted : (backend.new config limits owner ⟨[], own⟩ : backend.Noted υ).client.events = [] := by
      cases backend <;> rfl
    rw [none_noted]
    exact ⟨fun _ _ _ _ _ split => by simp at split, fun _ _ _ split => by simp at split⟩
  ready _ := by
    have none_noted : (backend.new config limits owner ⟨[], own⟩ : backend.Noted υ).client.events = [] := by
      cases backend <;> rfl
    rw [none_noted]
    exact fun _ _ _ split => by simp at split
  proper := by
    cases backend with
    | recording => exact Bench.proper_new config owner false
    | immediate fuel => exact Bench.proper_new config owner true
  rooted := by
    cases backend with
    | recording => exact fun id kind root => by cases root
    | immediate fuel => exact ⟨rfl, nofun⟩

/-- Whatever a caller does, also with failures of operations and in nested code, the script is
opened once, and other operations are carried out while it is open. The exceptions are a script
that the immediate backend has given up, since it left too many values, and the block of a call
that is issued to the bytecode backend while no unit is open. -/
theorem script_bracketed (backend : Backend)
    {manner : Manner backend.State (Journal backend.State υ)}
    {action : Work backend.State (Journal backend.State υ) α}
    (client : Client (backend.contract (Journal backend.State υ)).journaled manner.journaled action)
    (config : Config) (limits : Limits) (owner : Nat) (own : υ) :
    Ends action (backend.new config limits owner ⟨[], own⟩)
      (fun _ session => backend.Bracketed session.client.events)
      fun _ session => backend.Bracketed session.client.events := by
  have keeps : Moves backend.Keeps action := by
    refine client.moves (keeps_contract _) ?_
    rintro _ ⟨change, rfl⟩ session
    exact ⟨⟨List.suffix_rfl, fun h => ⟨h.bracketed, h.ready, h.proper, h.rooted⟩⟩,
      refl_of (Bench.Lasts _) session.bench⟩
  have fresh := brackets_new backend config limits owner own
  exact (keeps _).mono (fun _ _ kept => (kept.1.brackets fresh).bracketed)
    fun _ _ kept => (kept.1.brackets fresh).bracketed

/-- A caller that goes on after its script could not be ended, and opens it again. -/
def reopening : Work Interpreter (Journal Interpreter Unit) Unit := do
  let backend := (Interpreter.contract (Journal Interpreter Unit) 1).journaled
  Operation.startScript.issue backend
  (Operation.primitive .loadNil).issue backend
  (Operation.primitive .loadNil).issue backend
  Work.rescue (Operation.endScript.issue backend) fun _ => pure ()
  Operation.startScript.issue backend

theorem reopening_given_up : ∃ session,
    reopening ((immediate 1).new .strict {} 0 ⟨[], ()⟩) = .ok () session ∧
    ∃ event ∈ session.client.events, (immediate 1).GaveUp event := by
  have outcome : (match reopening ((immediate 1).new .strict {} 0 ⟨[], ()⟩) with
      | .ok _ session => some (session.client.events.map fun event => decide event.Started)
      | .error _ _ => none) =
      some (true :: (List.replicate 7 false ++ true :: [false])) := by decide +kernel
  cases run : reopening ((immediate 1).new .strict {} 0 ⟨[], ()⟩) with
  | error halt session => simp [run] at outcome
  | ok value session =>
      simp only [run, Option.some.injEq] at outcome
      obtain ⟨second, rest, split, again, outcome⟩ := List.map_eq_cons_iff.mp outcome
      obtain ⟨between, rest', split', -, outcome⟩ := List.map_eq_append_iff.mp outcome
      obtain ⟨first, before, split'', once, -⟩ := List.map_eq_cons_iff.mp outcome
      have issues {α : Type} (operation : Operation ((immediate 1).Noted Unit) α)
          (flat : ∀ part, ¬operation.Has part) :
          Client ((immediate 1).contract (Journal Interpreter Unit)).journaled
            (Manner.journaled {}) (operation.issue _) :=
        .issue (fun part has => absurd has (flat part)) fun part has => absurd has (flat part)
      have client : Client ((immediate 1).contract (Journal Interpreter Unit)).journaled
          (Manner.journaled {}) reopening :=
        .bind (issues .startScript fun _ => id) fun _ =>
          .bind (issues (.primitive .loadNil) fun _ => id) fun _ =>
          .bind (issues (.primitive .loadNil) fun _ => id) fun _ =>
          .bind (.rescue (issues .endScript fun _ => id) fun _ => .pure ()) fun _ =>
          issues .startScript fun _ => id
      have bracketed := (script_bracketed (immediate 1) client .strict {} 0 ()).ok run
      have started : second.Started ∧ first.Started :=
        ⟨of_decide_eq_true again, of_decide_eq_true once⟩
      obtain ⟨event, mem, gaveUp⟩ := bracketed.once [] second between first before
        (by rw [split, split', split'']; rfl) started.1 started.2
      refine ⟨session, rfl, event, ?_, gaveUp⟩
      rw [split, split']
      exact List.mem_cons_of_mem _ (List.mem_append_left _ mem)

/-- A caller that passes a block to a call while no unit is open. -/
def straying : Work Recorder (Journal Recorder Unit) Unit := do
  let backend := (Recorder.contract (Journal Recorder Unit)).journaled
  let block : BlockBody (recording.Noted Unit) :=
    { scope := .ofBlock [], arity := 0, body := (Operation.primitive .loadNil).issue backend }
  (Operation.invoke "f" .name (some block)).issue backend

/-- The operations that succeed with the units that are open then, the first one first. -/
def successes (backend : Backend) (action : Work backend.State (Journal backend.State Unit) Unit) :
    List (String × List String) :=
  let session := match action (backend.new .strict {} 0 ⟨[], ()⟩) with
    | .ok _ session | .error _ session => session
  (session.client.events.filter fun event => event.occasion = .succeeded).reverse.map fun event =>
    (event.operation, event.bench.units.units.map (·.name))

/-- The script is opened twice, and an operation is carried out outside it. -/
theorem bracket_broken :
    successes (immediate 1) reopening = [("start_script", ["<main>"]), ("load_nil", ["<main>"]),
      ("load_nil", ["<main>"]), ("start_script", ["<main>"])] ∧
    successes recording straying = [("load_nil", ["block"])] := by
  decide +kernel

end Backend

end BlockScript
