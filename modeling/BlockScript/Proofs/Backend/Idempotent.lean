import Mathlib.Data.List.Chain
import BlockScript.Proofs.Backend.Recalled

/-!
# Recording is idempotent

A body that is recorded a second time, under the same name and on the same line, gets the code
object that it got at first, and the code table is as long as before: its own slot is given back in
favour of the first one. For that all code objects that the first recording refers to must still be
there.

So among any number of passes over the same body, at most one for each line makes the table longer,
whatever happens between them. There is one exception to what a loop may rely on. A unit whose code
object equals one that was recorded inside it gives back the slot that it refers to from then on, so
each pass over a body with such a unit refers to another slot and is recorded anew.
-/

namespace BlockScript

variable {υ : Type}

namespace Interpreter

/-! ## Passes over a body -/

/-- A body was recorded successfully. -/
structure Pass (υ : Type) where
  before : Watched υ
  after : Watched υ
  slot : UInt32

namespace Pass

/-- The line that was current in the beginning. -/
def line (pass : Pass υ) : Option UInt32 := pass.before.bench.currentLine

/-- The code table has become longer. -/
def Grows (pass : Pass υ) : Prop :=
  pass.before.bench.program.code.size < pass.after.bench.program.code.size

instance (pass : Pass υ) : Decidable pass.Grows := inferInstanceAs (Decidable (_ < _))

/-- The slots that the pass resulted in and that it referred to meanwhile have not been given
back. -/
def Kept (pass : Pass υ) (later : Bench) : Prop :=
  pass.after.bench.Survives later pass.slot ∧ ∀ event ∈ pass.after.client.events,
    pass.before.client.events.length ≤ event.since → event.Survives later

instance (pass : Pass υ) (later : Bench) : Decidable (pass.Kept later) :=
  inferInstanceAs (Decidable (_ ∧ ∀ event ∈ pass.after.client.events, _ → _))

end Pass

/-- From some bench on a body is recorded any number of times, with whatever else in between. -/
structure Repeated (start : Bench) (record : Work Interpreter (Journal Interpreter υ) UInt32)
    (passes : List (Pass υ)) : Prop where
  records : ∀ pass ∈ passes, record pass.before = .ok pass.slot pass.after
  first : ∀ pass ∈ passes.head?, start.Reaches pass.before.bench
  next : passes.IsChain fun earlier later => earlier.after.bench.Reaches later.before.bench

namespace Repeated

variable {start : Bench} {record : Work Interpreter (Journal Interpreter υ) UInt32}
  {passes rest : List (Pass υ)} {pass : Pass υ}

theorem tail (h : Repeated start record (pass :: rest)) :
    Repeated pass.after.bench record rest where
  records later member := h.records later (List.mem_cons_of_mem _ member)
  first := (List.isChain_cons.mp h.next).1
  next := (List.isChain_cons.mp h.next).2

theorem reached (h : Repeated start record passes) (leads : Moves Leads record) :
    ∀ pass ∈ passes, start.Reaches pass.before.bench := by
  induction passes generalizing start with
  | nil => exact fun _ member => absurd member List.not_mem_nil
  | cons pass rest ih =>
      intro later member
      have first := h.first pass rfl
      rcases List.mem_cons.mp member with rfl | member
      · exact first
      · have recorded := (leads.ok (h.records pass (List.mem_cons_self ..))).reaches
        exact trans_of Bench.Reaches (trans_of Bench.Reaches first recorded)
          (ih h.tail later member)

/-- What holds of a pass and a later one holds of any two passes. -/
theorem pairwise (h : Repeated start record passes) (leads : Moves Leads record)
    {R : Pass υ → Pass υ → Prop}
    (two : ∀ earlier later : Pass υ, start.Reaches earlier.before.bench →
      record earlier.before = .ok earlier.slot earlier.after →
      earlier.after.bench.Reaches later.before.bench →
      record later.before = .ok later.slot later.after → R earlier later) :
    passes.Pairwise R := by
  induction passes generalizing start with
  | nil => exact .nil
  | cons pass rest ih =>
      have first := h.first pass rfl
      have recorded := h.records pass (List.mem_cons_self ..)
      refine .cons (fun later member => ?_) (ih h.tail fun earlier later reached => ?_)
      · exact two pass later first recorded (h.tail.reached leads later member)
          (h.tail.records later member)
      · exact two earlier later (trans_of Bench.Reaches
          (trans_of Bench.Reaches first (leads.ok recorded).reaches) reached)

end Repeated

/-! ## Two passes -/

section Recorded

variable {config : Config} (limit : config.maxPoolEntries ≤ UInt32.size) {owner fuel : Nat}
  {kind : UnitKind} (inner : kind ≠ .script) {name : String} {arity localCount : Nat}
  {locals : List String} {body : Body}

/-- A body is recorded in a unit of its own. -/
def recordBody (fuel : Nat) (kind : UnitKind) (name : String) (arity localCount : Nat)
    (locals : List String) (body : Body) : Work Interpreter (Journal Interpreter υ) UInt32 :=
  Work.recordUnit kind name arity localCount locals (body.run (contract _ fuel).journaled)

include limit inner

theorem leads_recordBody : Moves Leads (recordBody fuel kind name arity localCount locals body :
    Work Interpreter (Journal Interpreter υ) UInt32) := by
  let rerun : Rerun := ⟨Bench.new config 0 true, Bench.tabled_new limit 0 true, 0, True⟩
  have replays : rerun.Replays (υ := υ) (body.run (contract _ fuel).journaled)
    (body.run (contract _ fuel).journaled) := .run fuel body
  exact leads_enclosing.recordUnit inner name arity localCount locals replays.leads

/-- The later one of two passes that begin on the same line has the same result. -/
theorem recalls_pass (earlier later : Pass υ)
    (reached : (Bench.new config owner true).Reaches earlier.before.bench)
    (records : recordBody fuel kind name arity localCount locals body earlier.before =
      .ok earlier.slot earlier.after)
    (between : earlier.after.bench.Reaches later.before.bench)
    (again : recordBody fuel kind name arity localCount locals body later.before =
      .ok later.slot later.after)
    (line : later.line = earlier.line) (kept : earlier.Kept later.before.bench) :
    later.slot = earlier.slot ∧
      later.after.bench.program.code.size = later.before.bench.program.code.size := by
  have new : (Bench.new config owner true).InOrder :=
    ⟨Bench.proper_new config owner true, Bench.tabled_new limit owner true⟩
  have passed : earlier.before.bench.Reaches later.before.bench :=
    trans_of Bench.Reaches ((leads_recordBody limit inner).ok records).reaches between
  obtain ⟨order, made, sharing⟩ := reached.regards new
  obtain ⟨order', made', sharing'⟩ := passed.regards order
  let rerun : Rerun := ⟨later.before.bench, order'.tabled, earlier.before.client.events.length,
    earlier.line.isSome⟩
  have beside : rerun.Beside earlier.before.bench later.before.bench := by
    constructor
    · exact made'
    · exact sharing
    · exact sharing'.trans sharing
    · rfl
    · exact fun _ _ => id
    · exact Nat.le_refl _
    · cases known : earlier.line with
      | some current => exact .inl (congrArg Option.isSome known)
      | none =>
          -- Without a line in the unit that is open, it is the last one that was set.
          have last {bench : Bench} (unset : bench.currentLine = none) : bench.line = none :=
            (Option.or_eq_none_iff.mp unset).2
          exact .inr ((last (line.trans known)).trans (last known).symm)
  have ready : rerun.Ready earlier.before later.before :=
    ⟨Nat.le_refl _, order, order', beside, line, id⟩
  obtain ⟨-, -, -, same⟩ := ready.records inner (.run fuel body) records again
    ⟨between.keepsPool, kept.2⟩
  exact same kept.1

/-- A body that is recorded again on the same line, while the slots of the earlier recording have
not been given back, gets the slot that it got then, and the code table is as long as before. So at
most one pass for each line makes the table longer. -/
theorem recording_idempotent {passes : List (Pass υ)}
    (h : Repeated (Bench.new config owner true)
      (recordBody fuel kind name arity localCount locals body) passes) :
    passes.Pairwise (fun earlier later =>
      later.line = earlier.line → earlier.Kept later.before.bench → later.slot = earlier.slot ∧
        later.after.bench.program.code.size = later.before.bench.program.code.size) ∧
    (passes.Pairwise (fun earlier later =>
        later.line = earlier.line → earlier.Kept later.before.bench) →
      ((passes.filter fun pass => pass.Grows).map Pass.line).Nodup) := by
  have recalls := h.pairwise (leads_recordBody limit inner) (recalls_pass limit inner)
  refine ⟨recalls, fun kept => ?_⟩
  refine List.pairwise_map.mpr (List.pairwise_filter.mpr ((recalls.and kept).imp ?_))
  rintro earlier later ⟨same, remains⟩ - grows line
  have size := (same line.symm (remains line.symm)).2
  exact absurd (of_decide_eq_true grows) (Nat.not_lt.mpr (Nat.le_of_eq size))

end Recorded

/-! ## A loop -/

section Loop

variable (record : Work Interpreter (Journal Interpreter υ) UInt32)

/-- Record a body after each of these steps, as long as everything succeeds. -/
def passesAfter : List (Work Interpreter (Journal Interpreter υ) Unit) → Watched υ → List (Pass υ)
  | [], _ => []
  | step :: steps, session =>
    match step session with
    | .error _ _ => []
    | .ok _ before =>
      match record before with
      | .error _ _ => []
      | .ok slot after => ⟨before, after, slot⟩ :: passesAfter steps after

theorem repeated_passesAfter {fuel : Nat} {manner : Manner Interpreter (Journal Interpreter υ)}
    {start : Bench} {session : Watched υ} (reached : start.Reaches session.bench)
    {steps : List (Work Interpreter (Journal Interpreter υ) Unit)}
    (clients : ∀ step ∈ steps, Client (contract _ fuel).journaled manner.journaled step) :
    Repeated start record (passesAfter record steps session) := by
  have none : Repeated start record [] := ⟨by simp, by simp, .nil⟩
  induction steps generalizing start session with
  | nil => exact none
  | cons step steps ih =>
      unfold passesAfter
      cases stepped : step session with
      | error halt before =>
          simp only
          exact none
      | ok value before =>
          have onward := (leads_client (clients step (List.mem_cons_self ..))).ok stepped
          cases recorded : record before with
          | error halt after =>
              simp only [recorded]
              exact none
          | ok slot after =>
              simp only [recorded]
              have later := ih (refl_of Bench.Reaches after.bench)
                (fun step member => clients step (List.mem_cons_of_mem _ member))
                ⟨by simp, by simp, .nil⟩
              constructor
              · intro pass member
                rcases List.mem_cons.mp member with rfl | member
                · exact recorded
                · exact later.records pass member
              · rintro _ ⟨⟩
                exact trans_of Bench.Reaches reached onward.reaches
              · exact List.isChain_cons.mpr ⟨later.first, later.next⟩

end Loop

/-- The steps and passes of a new script. -/
def scriptPasses (body : Body) (steps : List (Work Interpreter (Journal Interpreter Unit) Unit)) :
    List (Pass Unit) :=
  passesAfter (recordBody 0 .closure "block in <main>" 0 0 [] body)
    (Operation.startScript.issue (contract _ 0).journaled :: steps) (new .strict {} 0 ⟨[], ()⟩)

/-- The script comes to a line. -/
def comesTo (line : UInt32) : Work Interpreter (Journal Interpreter Unit) Unit :=
  (Operation.primitive (.line line)).issue (contract _ 0).journaled

/-- A block inside a block. -/
def blockInBlock : Body := .closure (.ofBlock []) 0 (.primitive .loadNil)

theorem repeated_scriptPasses (body : Body)
    {steps : List (Work Interpreter (Journal Interpreter Unit) Unit)}
    {manner : Manner Interpreter (Journal Interpreter Unit)}
    (clients : ∀ step ∈ steps, Client (contract _ 0).journaled manner.journaled step) :
    Repeated (Bench.new .strict 0 true)
      (recordBody 0 .closure "block in <main>" 0 0 [] body) (scriptPasses body steps) := by
  have new : (Bench.new .strict 0 true).Reaches
      (new .strict {} 0 (⟨[], ()⟩ : Journal Interpreter Unit)).bench := refl_of Bench.Reaches _
  have started : ∀ step ∈ Operation.startScript.issue (contract _ 0).journaled :: steps,
      Client (contract _ 0).journaled manner.journaled step := by
    intro step member
    rcases List.mem_cons.mp member with rfl | member
    · exact .issue (fun _ => False.elim) fun _ => False.elim
    · exact clients step member
  exact repeated_passesAfter _ new started

/-- A block inside a block is recorded before the first line, and then on two lines. -/
def blockPasses : List (Pass Unit) := scriptPasses blockInBlock ([1, 1, 2, 1].map comesTo)

theorem blocks_recorded_once :
    blockPasses.map Pass.line = [none, some 1, some 1, some 2, some 1] ∧
    blockPasses.Pairwise (fun earlier later => later.line = earlier.line →
      later.slot = earlier.slot ∧
        later.after.bench.program.code.size = later.before.bench.program.code.size) ∧
    ((blockPasses.filter fun pass => pass.Grows).map Pass.line).Nodup := by
  have repeated : Repeated (Bench.new .strict 0 true)
      (recordBody 0 .closure "block in <main>" 0 0 [] blockInBlock) blockPasses := by
    have clients : ∀ step ∈ [1, 1, 2, 1].map comesTo, Client (contract _ 0).journaled
        ({} : Manner Interpreter (Journal Interpreter Unit)).journaled step := by
      intro step member
      obtain ⟨line, -, rfl⟩ := List.mem_map.mp member
      exact .issue (fun _ => False.elim) fun _ => False.elim
    exact repeated_scriptPasses _ clients
  have kept : blockPasses.Pairwise fun earlier later =>
      later.line = earlier.line → earlier.Kept later.before.bench := by decide +kernel
  obtain ⟨recalls, once⟩ := recording_idempotent (by decide)
    (show UnitKind.closure ≠ .script by nofun) repeated
  refine ⟨by decide +kernel, (recalls.and kept).imp ?_, once kept⟩
  exact fun ⟨same, remains⟩ line => same line (remains line)

/-- A method is recorded inside another one, and both come to the same. -/
def twinMethods : Body := .define "m" 0 0 (.unit "m" 0 0 .skip)

/-- The passes of a script, with what is in the code table before and after each of them. -/
def sizes (passes : List (Pass Unit)) : List (Option UInt32 × Nat × Nat) :=
  passes.map fun pass =>
    (pass.line, pass.before.bench.program.code.size, pass.after.bench.program.code.size)

/-- The outer method is given the slot of the inner one, which is given back, so the block around
them refers to another slot each time. -/
theorem twins_recorded_anew : sizes (scriptPasses twinMethods ([1, 1, 1].map comesTo)) =
    [(none, 0, 1), (some 1, 1, 2), (some 1, 2, 3), (some 1, 3, 4)] := by
  decide +kernel

end Interpreter

end BlockScript
