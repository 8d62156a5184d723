import Mathlib.Control.Monad.Basic
import BlockScript.Proofs.Machine.Completed
import BlockScript.Proofs.Machine.Related

/-!
# Machines that load several programs

Loading a program replaces the code table and leaves the world as it is, with the blocks and
the methods that earlier programs have made. `Vm.Lived` goes through the states of a machine that
loads programs and runs them. In each of them a block or a method stems from a code object of the
program that was loaded when it was made, at a position that may hold something else by now.
Where each program that is loaded extends those before it, nothing goes stale.
-/

namespace BlockScript

/-! ## What a program adds to a world -/

/-- The body that a block or method of that arity runs. -/
def Program.Denotes (program : Program) (position : UInt32) (arity : Nat) (body : Code) : Prop :=
  program.code? position = some body ∧ body.arity.toNat = arity

/-- Some name is bound to the method. -/
def World.Binds (world : World) (method : Method) : Prop :=
  ∃ name, world.methods.get? name = some method

/-- Blocks stay, and blocks and methods that are new denote bodies of the program. -/
structure World.Keeps (program : Program) (world after : World) : Prop where
  procs : ∀ cell proc, world.heap.proc? cell = some proc → after.heap.proc? cell = some proc
  made : ∀ cell proc, after.heap.proc? cell = some proc → world.heap.proc? cell = none →
    ∃ body, program.Denotes proc.code proc.arity body
  methods : ∀ position arity, after.Binds (.compiled position arity) →
    world.Binds (.compiled position arity) ∨ ∃ body, program.Denotes position arity body

namespace World.Keeps

variable {program : Program} {world after later : World}

theorem same (procs : after.heap.procs = world.heap.procs)
    (methods : after.methods = world.methods) : world.Keeps program after where
  procs cell proc h := by rwa [Heap.proc?, procs]
  made cell proc h none := by
    rw [Heap.proc?, procs] at h
    cases h.symm.trans none
  methods position arity h := by
    rw [Binds, methods] at h
    exact .inl h

theorem trans (first : world.Keeps program after) (second : after.Keeps program later) :
    world.Keeps program later where
  procs cell proc h := second.procs cell proc (first.procs cell proc h)
  made cell proc h none := by
    cases between : after.heap.proc? cell with
    | none => exact second.made cell proc h between
    | some old =>
        cases (second.procs cell old between).symm.trans h
        exact first.made cell proc between none
  methods position arity h :=
    (second.methods position arity h).elim (first.methods position arity) .inr

/-- A name is bound to what was a method before, or to a method of the program. -/
theorem binds (name : String) {method : Method}
    (h : ∀ position arity, method = .compiled position arity →
      world.Binds method ∨ ∃ body, program.Denotes position arity body) :
    world.Keeps program { world with methods := world.methods.set name method } where
  procs _ _ := id
  made cell proc h none := by cases h.symm.trans none
  methods position arity := by
    rintro ⟨other, found⟩
    rw [Table.get?_set] at found
    split at found
    · cases found
      exact h position arity rfl
    · exact .inl ⟨other, found⟩

theorem addProc (activation : Activation) {position : UInt32} {body : Code}
    (code : program.code? position = some body) :
    world.Keeps program (world.addProc (activation.close position body)) where
  procs cell proc := (world.heap.grows_newProc _).procs cell.index proc
  made cell proc h none := by
    have pushed : (world.heap.procs.push (activation.close position body))[cell.index]? =
        some proc := h
    rw [Array.getElem?_push] at pushed
    split at pushed
    · cases pushed
      exact ⟨body, code, rfl⟩
    · cases pushed.symm.trans none
  methods _ _ := .inl

end World.Keeps

/-- What a step does keeps the blocks and the methods. -/
theorem Program.relates_keeps (program : Program) : program.Relates (World.Keeps program) where
  refl world := .same rfl rfl
  trans := .trans
  counts world calls steps := .same rfl rfl
  answers effect := by cases effect <;> exact .same rfl rfl
  stores stored := by
    cases stored with
    | method name defines code =>
        apply World.Keeps.binds
        rintro position arity ⟨⟩
        exact .inr ⟨_, code, rfl⟩
    | renamed name bound => exact .binds name fun _ _ _ => .inl ⟨_, bound⟩
    | builtin name old => exact .binds name nofun
    | _ => exact .same rfl rfl
  frames world frame := .same rfl rfl
  closes world activation _ _ code := .addProc activation code

/-! ## Loads -/

/-- A program that was loaded, and the world that it was loaded into. -/
structure Load where
  program : Program
  world : World

/-- The states of a machine that loads programs and runs them, also within a run. The loads
come with them, the latest first. -/
inductive Vm.Lived (limits : Limits) : List Load → Vm → Prop where
  | new : Lived limits [] (.new limits)
  | load {loads : List Load} {vm loaded : Vm} {program : Program} (lived : Lived limits loads vm)
      (accepted : vm.load program = .ok loaded) : Lived limits (⟨program, vm.world⟩ :: loads) loaded
  | runMain {loads : List Load} {vm : Vm} (lived : Lived limits loads vm) (fuel : Nat) :
      Lived limits loads (vm.runMain fuel).2

/-- Something was added under one of the loads, and has been there at each later one. -/
inductive Load.Stems (there fresh : World → Prop) (denotes : Program → Prop) : List Load → Prop where
  | here {load : Load} {loads : List Load} (new : fresh load.world) (h : denotes load.program) :
      Stems there fresh denotes (load :: loads)
  | earlier {load : Load} {loads : List Load} (old : there load.world)
      (rest : Stems there fresh denotes loads) : Stems there fresh denotes (load :: loads)

/-- The block in a cell was made of the body. -/
def Load.MakesBlock (loads : List Load) (cell : Ref .proc) (proc : Proc) (body : Code) : Prop :=
  Stems (fun world => world.heap.proc? cell = some proc) (fun world => world.heap.proc? cell = none)
    (fun program => program.Denotes proc.code proc.arity body) loads

/-- The method was defined as the body. -/
def Load.Defines (loads : List Load) (position : UInt32) (arity : Nat) (body : Code) : Prop :=
  Stems (fun world => world.Binds (.compiled position arity)) (fun _ => True)
    (fun program => program.Denotes position arity body) loads

namespace Load.Stems

variable {there fresh : World → Prop} {loads : List Load}

theorem exists_load {denotes : Program → Prop} (h : Stems there fresh denotes loads) :
    ∃ load ∈ loads, denotes load.program := by
  induction h with
  | here _ h => exact ⟨_, List.mem_cons_self .., h⟩
  | earlier _ _ ih =>
      obtain ⟨load, member, h⟩ := ih
      exact ⟨load, List.mem_cons_of_mem _ member, h⟩

theorem body {denotes : Code → Program → Prop}
    (h : Stems there fresh (fun program => ∃ body, denotes body program) loads) :
    ∃ body, Stems there fresh (denotes body) loads := by
  induction h with
  | here new h =>
      obtain ⟨body, h⟩ := h
      exact ⟨body, .here new h⟩
  | earlier old _ ih =>
      obtain ⟨body, h⟩ := ih
      exact ⟨body, .earlier old h⟩

end Load.Stems

/-- The later program has the code objects of the earlier one where that has them. -/
def Program.Precedes (program later : Program) : Prop :=
  ∀ position code, program.code? position = some code → later.code? position = some code

/-- Each program extends those that were loaded before it. -/
abbrev Load.Extending (loads : List Load) : Prop :=
  loads.Pairwise fun later earlier => earlier.program.Precedes later.program

namespace World.Closed

theorem extend {world : World} {program later : Program} {reach : UInt32 → Nat}
    (closed : world.Closed program reach) (keeps : program.Precedes later) :
    world.Closed later reach where
  heap := closed.heap
  main := closed.main
  globals := closed.globals
  constants := closed.constants
  procs proc member := (closed.procs proc member).imp_left fun ⟨body, h⟩ => ⟨body, keeps _ _ h⟩
  methods name position arity bound :=
    (closed.methods name position arity bound).imp_left fun ⟨body, h⟩ => ⟨body, keeps _ _ h⟩

theorem runMain {vm : Vm} (closed : vm.world.Closed vm.program fun _ => 0)
    (verified : vm.program.verify = .ok ()) (fuel : Nat) :
    (vm.runMain fuel).2.world.Closed vm.program fun _ => 0 := by
  have linked := Program.linked_of_verify verified
  unfold Vm.runMain Vm.apply
  dsimp only
  cases main : vm.program.main? with
  | none =>
      rw [Machine.runMain_missing main]
      exact ⟨closed.heap, closed.main, closed.globals, closed.constants, closed.procs,
        closed.methods⟩
  | some code =>
      have left := @Machine.run_leaves _ _ vm.limits linked _
        (Machine.start_safe closed main rfl) fuel
      rw [Machine.runMain_eq main]
      split <;>
      · rename_i run
        rw [run] at left
        exact left.1

end World.Closed

namespace Vm.Lived

variable {limits : Limits} {loads : List Load} {vm : Vm}

theorem runMain_program (vm : Vm) (fuel : Nat) : (vm.runMain fuel).2.program = vm.program := by
  unfold Vm.runMain Vm.apply
  dsimp only
  split <;> rfl

/-- The program is the one that was loaded last, and only that has changed the world since. -/
theorem latest (lived : Lived limits loads vm) :
    match loads with
    | [] => vm.program = .empty
    | latest :: _ => vm.program = latest.program ∧ latest.world.Keeps vm.program vm.world := by
  induction lived with
  | new => rfl
  | load lived accepted ih =>
      obtain ⟨-, rfl⟩ := Vm.load_ok accepted
      exact ⟨rfl, .same rfl rfl⟩
  | @runMain loads vm lived fuel ih =>
      have kept := Vm.runMain_related vm.program.relates_keeps fuel
      cases loads with
      | nil => rwa [runMain_program]
      | cons load loads =>
          rw [runMain_program]
          exact ⟨ih.1, ih.2.trans kept⟩

/-- What no fresh machine has, and runs add for what their program denotes, stems from a load. -/
theorem stems {there fresh : World → Prop} {denotes : Program → Prop}
    (initially : ¬there .new) (nothing : ¬denotes .empty)
    (adds : ∀ {program world after}, World.Keeps program world after → there after →
      there world ∨ fresh world ∧ denotes program)
    (older : ∀ {program world after}, World.Keeps program world after → fresh after → fresh world)
    (lived : Lived limits loads vm) (h : there vm.world) :
    Load.Stems there fresh denotes loads := by
  induction lived with
  | new => exact absurd h initially
  | load lived accepted ih =>
      obtain ⟨-, rfl⟩ := Vm.load_ok accepted
      exact .earlier h (ih h)
  | @runMain loads vm lived fuel ih =>
      rcases adds (Vm.runMain_related vm.program.relates_keeps fuel) h with before | ⟨new, h⟩
      · exact ih before
      · have latest := lived.latest
        cases loads with
        | nil => exact absurd (latest ▸ h) nothing
        | cons load loads =>
            obtain ⟨same, kept⟩ := latest
            exact .here (older kept new) (same ▸ h)

theorem blocks_stem (lived : Lived limits loads vm) {cell : Ref .proc} {proc : Proc}
    (h : vm.world.heap.proc? cell = some proc) : ∃ body, Load.MakesBlock loads cell proc body := by
  apply Load.Stems.body
  apply lived.stems _ _ _ _ h
  · simp [World.new, Heap.proc?, Heap.newObject, Heap.empty]
  · simp [Program.Denotes, Program.code?, Program.empty]
  · intro program world after kept found
    cases before : world.heap.proc? cell with
    | none => exact .inr ⟨rfl, kept.made cell proc found before⟩
    | some old =>
        cases (kept.procs cell old before).symm.trans found
        exact .inl rfl
  · intro program world after kept none
    cases before : world.heap.proc? cell with
    | none => rfl
    | some old => cases (kept.procs cell old before).symm.trans none

theorem methods_stem (lived : Lived limits loads vm) {position : UInt32} {arity : Nat}
    (h : vm.world.Binds (.compiled position arity)) :
    ∃ body, Load.Defines loads position arity body := by
  apply Load.Stems.body
  apply lived.stems _ _ _ (fun _ => id) h
  · rintro ⟨name, found⟩
    simp [World.new] at found
  · simp [Program.Denotes, Program.code?, Program.empty]
  · intro program world after kept found
    exact (kept.methods position arity found).imp_right fun new => ⟨trivial, new⟩

/-! ## Programs that extend the earlier ones -/

theorem latest_precedes (lived : Lived limits loads vm) {program : Program}
    (all : ∀ load ∈ loads, load.program.Precedes program) : vm.program.Precedes program := by
  have latest := lived.latest
  cases loads with
  | nil =>
      rw [latest]
      simp [Program.Precedes, Program.code?, Program.empty]
  | cons load loads =>
      rw [latest.1]
      exact all load (List.mem_cons_self ..)

/-- A world stays closed if the code that it may refer to keeps its positions. -/
theorem closed (lived : Lived limits loads vm) (extending : Load.Extending loads) :
    vm.program.verify = .ok () ∧ vm.world.Closed vm.program fun _ => 0 := by
  induction lived with
  | new => exact ⟨rfl, World.closed_new⟩
  | load lived accepted ih =>
      obtain ⟨verified, rfl⟩ := Vm.load_ok accepted
      obtain ⟨later, earlier⟩ := List.pairwise_cons.mp extending
      exact ⟨verified, (ih earlier).2.extend (lived.latest_precedes later)⟩
  | @runMain loads vm lived fuel ih =>
      obtain ⟨verified, closed⟩ := ih extending
      rw [runMain_program]
      exact ⟨verified, closed.runMain verified fuel⟩

end Vm.Lived

/-- Every block and every method, in each state of a machine that loads any programs and runs
them, stems from a code object of the program that was loaded when it was made. Where each program
extends those before it, that is what its position denotes in the code table as it is, and no run
fails for want of a code object. -/
theorem Vm.references_stem {limits : Limits} {loads : List Load} {vm : Vm}
    (lived : Vm.Lived limits loads vm) :
    (∀ cell proc, vm.world.heap.proc? cell = some proc →
      ∃ body, Load.MakesBlock loads cell proc body) ∧
    (∀ name position arity, vm.world.methods.get? name = some (.compiled position arity) →
      ∃ body, Load.Defines loads position arity body) ∧
    (Load.Extending loads →
      (∀ cell proc body, Load.MakesBlock loads cell proc body →
        vm.program.code? proc.code = some body) ∧
      (∀ position arity body, Load.Defines loads position arity body →
        vm.program.code? position = some body) ∧
      ∀ main, vm.program.main? = some main → ∀ fuel error,
        (vm.runMain fuel).1 = .error (.failure error) → ¬error.Malformed) := by
  refine ⟨fun _ _ => lived.blocks_stem, fun name _ _ bound => lived.methods_stem ⟨name, bound⟩, ?_⟩
  intro extending
  have keeps : ∀ load ∈ loads, load.program.Precedes vm.program := by
    have latest := lived.latest
    cases loads with
    | nil => simp
    | cons first rest =>
        rw [latest.1]
        exact List.forall_mem_cons.mpr ⟨fun _ _ => id, (List.pairwise_cons.mp extending).1⟩
  refine ⟨?_, ?_, ?_⟩
  · intro cell proc body made
    obtain ⟨load, member, found, -⟩ := made.exists_load
    exact keeps load member _ _ found
  · intro position arity body defined
    obtain ⟨load, member, found, -⟩ := defined.exists_load
    exact keeps load member _ _ found
  · intro main hmain fuel error failed malformed
    obtain ⟨verified, closed⟩ := lived.closed extending
    have linked := Program.linked_of_verify verified
    simp only [Vm.runMain, Vm.apply, Machine.runMain_eq hmain] at failed
    split at failed
    · cases failed
    · rename_i world result
      cases failed
      exact (Machine.run_safe linked (Machine.start_safe closed hmain rfl) result
        malformed.1).not_malformed malformed

/-- A script that defines a method. -/
def Program.definer : Program where
  code := #[
    { name := "<main>", kind := .script, maxStack := 1
      ops := #[.defineMethod 0 1, .pushNil, .ret] },
    { name := "m", kind := .method, maxStack := 1, ops := #[.pushFixnum 1, .ret] }]
  constants := ⟨#[.name "m"]⟩

/-- A program that was run is loaded once more: its method still has the body that it was
defined as. -/
theorem Vm.definer_reloaded : ∃ loads vm, Vm.Lived {} loads vm ∧ loads.length = 2 ∧
    vm.world.methods.get? "m" = some (.compiled 1 0) ∧
    (∃ body, Load.Defines loads 1 0 body ∧ vm.program.code? 1 = some body) ∧
    ∀ fuel error, (vm.runMain fuel).1 = .error (.failure error) → ¬error.Malformed := by
  let ran := ((⟨.definer, {}, .new⟩ : Vm).runMain 10).2
  have first : Vm.Lived {} [⟨.definer, .new⟩] ⟨.definer, {}, .new⟩ := .load .new rfl
  have accepted : ran.load .definer = .ok { ran with program := .definer } := by
    unfold Vm.load
    rfl
  have again := (first.runMain 10).load accepted
  obtain ⟨-, methods, sound⟩ := references_stem again
  obtain ⟨-, defined, runs⟩ := sound (List.pairwise_pair.mpr fun _ _ => id)
  have bound : ran.world.methods.get? "m" = some (.compiled 1 0) := by decide +kernel
  obtain ⟨body, stems⟩ := methods "m" 1 0 bound
  exact ⟨_, _, again, rfl, bound, ⟨body, stems, defined 1 0 body stems⟩, runs _ rfl⟩

/-- A script that calls a method which it does not define. -/
def Program.caller : Program where
  code := #[
    { name := "<main>", kind := .script, maxStack := 1, ops := #[.send 0 0 false none, .ret] }]
  constants := ⟨#[.name "m"]⟩

/-- The same with another body beside the script. -/
def Program.bystander : Program where
  code := Program.caller.code.push
    { name := "other", kind := .method, maxStack := 1, ops := #[.pushFixnum 2, .ret] }
  constants := Program.caller.constants

/-- A method outlives the program that defined it. Its position denotes nothing in a program with
fewer code objects, and something else in one with others. -/
theorem Vm.reload_misdirects :
    let defined := ((Vm.new {}).run 10 .definer).2
    defined.world.methods.get? "m" = some (.compiled 1 0) ∧
    (defined.run 10 .caller).1 =
      .error (.failure ⟨.internal, "no code object 1", #["<main>"]⟩) ∧
    (defined.run 10 .bystander).1 = .ok (.fixnum 2) := by
  decide +kernel

end BlockScript
