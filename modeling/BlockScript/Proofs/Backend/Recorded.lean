import BlockScript.Proofs.Backend.Steady

/-!
# Recorded programs never break the machine

The verifier looks neither at the constants that operations refer to nor at how far outward
they look for locals. A program that was recorded from an empty bench needs no such check:
on a scoped bench every operation finds what it refers to. So a machine that runs the
program is safe with the reach that its slots had while they were recorded, and no operation
excuses an error of the machine itself.
-/

namespace BlockScript

/-- The operation that comes next finds its constants, with the kind it needs, its code
objects and the frame that it looks for, and execution has not failed with an error of the
machine itself. -/
def Machine.Resolved (program : Program) (machine : Machine) : Prop :=
  match machine.focus with
  | .run code ip activation => ∃ op, code.ops[ip]? = some op ∧ op.Pooled program.constants ∧
      (∀ target, op.codeRef? = some target → program.Has target) ∧
      machine.world.heap.Deep activation.frame op.outward
  | .fail error => error.kind ≠ .internal
  | _ => True

theorem Op.Links.has {program : Program} {reach : UInt32 → Nat} {around : Nat} {op : Op}
    (h : op.Links program reach around) {target : UInt32} (ref : op.codeRef? = some target) :
    program.Has target := by
  cases op with
  | makeClosure code =>
      cases ref
      exact h.1
  | defineMethod name code =>
      cases ref
      exact h.1
  | send name argc receiver block => exact (h target ref).1
  | _ => cases ref

namespace Bench

variable {bench : Bench} {reach : UInt32 → Nat}

theorem scoped_new {config : Config} (limit : config.maxPoolEntries ≤ UInt32.size)
    (owner : Nat) : (Bench.new config owner false).Scoped reach where
  sharing := rfl
  limit := limit
  constants := Nat.zero_le _
  fresh := by simp [UnitStack.Fresh, Bench.new, UnitStack.new]
  opened := by
    intro unit outer suffix
    cases List.suffix_nil.mp suffix
  installed := by simp [Bench.new, Program.empty, Program.code?]

namespace Scoped

variable (h : bench.Scoped reach)

include h

theorem linked (verified : bench.program.verify = .ok ()) : bench.program.Linked reach where
  verified := (Program.linked_of_verify verified).verified
  links position code hcode op member := (h.installed position code hcode op member).links

/-- No operation lacks what would excuse an error of the machine itself. -/
theorem excuses_nothing (error : RuntimeError) : ¬bench.program.Excuses reach error := by
  rintro ⟨position, code, op, hcode, member, ⟨unpooled, -⟩ | ⟨missing, -⟩⟩
  · exact unpooled (h.installed position code hcode op member).pooled
  · exact absurd (h.installed position code hcode op member).outward (Nat.not_le_of_lt missing)

theorem resolved {machine : Machine} (safe : machine.Safe bench.program reach) :
    machine.Resolved bench.program := by
  obtain ⟨focus, waiting, world⟩ := machine
  cases focus with
  | run code ip activation =>
      obtain ⟨⟨-, position, hcode, deep⟩, height⟩ := safe.focus
      obtain ⟨op, hop, -⟩ := Verifier.heightAt_step height
      have fits := h.installed position code hcode op (Array.mem_of_getElem? hop)
      exact ⟨op, hop, fits.pooled, fun target ref => fits.links.has ref, deep.le fits.outward⟩
  | fail error => exact fun kind => h.excuses_nothing error (safe.focus kind)
  | _ => trivial

end Scoped

end Bench

namespace Recorder

/-- Whatever was recorded, operation by operation without a failure, a fresh machine accepts
it, and in every state that it reaches the next operation finds what it refers to; it never
fails with an error of the machine itself. -/
theorem recorded_resolved {ε : Type} {action : Action ε} (straight : action.Straight)
    {onExtra : ε → Work Recorder Notes Unit} {owner : Nat} {session : Session Recorder Notes}
    (recorded : action.run (contract Notes) onExtra (new .strict owner {}) = .ok () session)
    {program : Program} (finished : Recorder.program session = .ok program) (limits : Limits) :
    ∃ vm main, (Vm.new limits).load program = .ok vm ∧ program.main? = some main ∧
      (∀ fuel, Machine.runMain vm.program vm.limits fuel vm.world =
        Machine.run vm.program vm.limits fuel (Machine.start main vm.world)) ∧
      (∀ count, ((Machine.step vm.program vm.limits)^[count]
        (Machine.start main vm.world)).Resolved program) ∧
      ∀ fuel error, (vm.runMain fuel).1 = .error (.failure error) → error.kind ≠ .internal := by
  have inside : (new .strict owner ({} : Notes)).bench.Scoped fun _ => 0 :=
    Bench.scoped_new (by decide) owner
  obtain ⟨reach, grows, start, script⟩ := Action.steady_run straight _ _ inside _ _ recorded
  obtain ⟨-, ended, rfl, verify⟩ := program_ok finished
  have verified := verify (by rw [grows.config]; rfl)
  have nonempty : 0 < session.bench.program.code.size := by
    refine (script ?_).resolve_left fun started => started rfl
    rw [ended]
    exact ScriptState.noConfusion
  have flat : reach 0 = 0 := (start rfl).resolve_left (Nat.ne_of_gt nonempty)
  have linked := grows.fits.linked verified
  have hmain : session.bench.program.main? = some session.bench.program.code[0] :=
    Array.getElem?_eq_getElem nonempty
  have safe := Machine.start_safe World.closed_new hmain flat
  refine ⟨{ Vm.new limits with program := session.bench.program }, _, ?_, hmain,
    fun fuel => Machine.runMain_eq hmain fuel _,
    fun count => grows.fits.resolved (Machine.steps_safe linked safe count), ?_⟩
  · simp only [Vm.load, verified]
  · intro fuel error failed kind
    simp only [Vm.runMain, Vm.apply, Machine.runMain_eq hmain] at failed
    split at failed
    · cases failed
    · rename_i world hresult
      cases failed
      exact grows.fits.excuses_nothing error (Machine.run_safe linked safe hresult kind)

end Recorder

/-- A method whose block reads the method's argument, and a call of it. -/
def Action.reader : Action Empty :=
  .seq .startScript (.seq
    (.method "echo" 1 1 (.seq (.primitive (.fixnum 2))
      (.callBlock "times" .property (.ofBlock []) 0 (.primitive (.retrieveLocal 0 1)))))
    (.seq (.primitive (.fixnum 7)) (.seq (.call "echo" (.function 1)) .endScript)))

/-- What is recorded for it. -/
def Program.reader : Program where
  code := #[
    { name := "<main>", kind := .script, maxStack := 1
      ops := #[.defineMethod 1 1, .pushFixnum 7, .send 1 1 false none, .ret] },
    { name := "echo", kind := .method, arity := 1, localCount := 1, maxStack := 1
      ops := #[.pushFixnum 2, .send 0 0 true (some 2), .ret] },
    { name := "block in echo", kind := .closure, maxStack := 1
      ops := #[.getOuter 0 1, .ret] }]
  constants := ⟨#[.name "times", .name "echo"]⟩

theorem Recorder.reader_resolved : ∃ main, Program.reader.main? = some main ∧
    ∀ count, ((Machine.step Program.reader {})^[count] (Machine.start main .new)).Resolved
      Program.reader := by
  have outcome : recorded? (Action.reader.run (contract Notes) Empty.elim) (new .strict 0 {}) =
      some Program.reader := by decide +kernel
  obtain ⟨value, session, recorded, finished⟩ := run_of_recorded? outcome
  have straight : Action.reader.Straight :=
    ⟨trivial, ⟨trivial, trivial⟩, trivial, trivial, trivial⟩
  obtain ⟨vm, main, loaded, hmain, -, reached, -⟩ := recorded_resolved straight recorded finished {}
  obtain ⟨-, rfl⟩ := Vm.load_ok loaded
  exact ⟨main, hmain, reached⟩

end BlockScript
