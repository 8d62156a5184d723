import BlockScript.Proofs.Backend.Control
import BlockScript.Proofs.Backend.Scoped
import BlockScript.Proofs.Code.Alike

/-!
# What is recorded for an action

`Action.Lays` says which operations recording an action appends to a unit. Jumps are relative, so
the operations do not depend on where they stand. Positions of constants and code objects are
looked up in a program; a block or method body is a code object that is laid out in the same way.

The relation fixes everything but these positions. So two programs that the same action was
recorded into mirror each other, whichever backend recorded it.
-/

namespace BlockScript

/-- What the code of a unit depends on around it. -/
structure Site where
  /-- The name of the unit. -/
  name : String
  /-- How many frames outward a local may be. -/
  reach : Nat
  /-- A method is around the code. -/
  yields : Bool

namespace Site

/-- The script. -/
def script : Site := ⟨mainName, 0, false⟩

/-- A method. -/
def method (name : String) : Site := ⟨name, 0, true⟩

/-- A block inside the unit. -/
def closure (site : Site) : Site := ⟨"block in " ++ site.name, site.reach + 1, site.yields⟩

end Site

/-- The head of the code object that a unit is recorded into. -/
def Code.headOf (kind : UnitKind) (name : String) (arity localCount : Nat) (locals : List String) :
    Code :=
  (Builder.new name kind arity localCount locals true).code

/-- Some of the operations refer to the code object. -/
def Op.Refer (ops : List Op) (slot : UInt32) : Prop := ∃ op ∈ ops, op.codeRef? = some slot

/-- A slot holds the code object of a unit: its head, a body that is laid out as the relation
says, and the operation that returns the value of the body. -/
def Program.Files (program : Program) (head : Code) (lays : List Op → Prop) (slot : UInt32) :
    Prop :=
  ∃ code ops, program.code? slot = some code ∧ code.head = head ∧ lays ops ∧
    code.ops.toList = ops ++ [.ret]

/-- The operations of an operation without nested code. -/
def Primitive.Form.Lays (program : Program) (site : Site) (ops : List Op) : Form → Prop
  | .op fixed => ops = [fixed]
  | .pooled constant make => ∃ position, program.constants.get? position = some constant ∧
      ops = [make position]
  | .access index depth assign => depth ≤ site.reach ∧ ops = [Bench.localOp index depth assign]
  | .aliasMethod newName oldName => ∃ new old,
      program.constants.get? new = some (.name newName) ∧
      program.constants.get? old = some (.name oldName) ∧ ops = [.aliasMethod new old]
  | .yield hasArgs => site.yields = true ∧ ops = [.yield (if hasArgs then 1 else 0)]
  | .line _ => ops = []

/-- The operations of several pieces of code in order. -/
def LaysEach (lays : Nat → List Op → Prop) : (first count : Nat) → List Op → Prop
  | _, 0, ops => ops = []
  | first, count + 1, ops => ∃ ops₁ ops₂, lays first ops₁ ∧ LaysEach lays (first + 1) count ops₂ ∧
      ops = ops₁ ++ ops₂

namespace Action

variable {ε : Type}

/-- The operations of an action, where nested code leaves one value each time. Only what a program
tree becomes is recorded. -/
def Lays (program : Program) : Action ε → Site → List Op → Prop
  | skip, _, ops => ops = []
  | seq first next, site, ops => ∃ ops₁ ops₂,
      first.Lays program site ops₁ ∧ next.Lays program site ops₂ ∧ ops = ops₁ ++ ops₂
  | primitive p, site, ops => p.form.Lays program site ops
  | call name shape, _, ops => ∃ position,
      program.constants.get? position = some (.name name) ∧
      ops = [.send position shape.argc.toUInt32 shape.hasReceiver none]
  | callBlock name shape scope arity body, site, ops => ∃ slot position,
      program.Files (.headOf .closure site.closure.name arity scope.size scope.names)
        (body.Lays program site.closure) slot ∧
      program.constants.get? position = some (.name name) ∧
      ops = [.send position shape.argc.toUInt32 shape.hasReceiver (some slot)]
  | array count element, site, ops => ∃ parts,
      LaysEach (fun index => (element index).Lays program site) 0 count parts ∧
      ops = parts ++ [.makeArray count.toUInt32]
  | branch onTrue onFalse, site, ops => ∃ yes no,
      onTrue.Lays program site yes ∧ onFalse.Lays program site no ∧
      ops = Control.jump .ifFalse 0 (yes.length + 2) ::
        (yes ++ Control.jump .always (yes.length + 1) (yes.length + 2 + no.length) :: no)
  | logical connective right, site, ops => ∃ ops₁, right.Lays program site ops₁ ∧
      ops = .dup :: Control.jump (Work.skipWhen connective) 1 (ops₁.length + 3) :: .pop :: ops₁
  | loop condition body true, site, ops => ∃ tested repeated,
      condition.Lays program site tested ∧ body.Lays program site repeated ∧
      ops = tested ++
        Control.jump .ifFalse tested.length (tested.length + repeated.length + 3) ::
        (repeated ++ [.pop, Control.jump .always (tested.length + repeated.length + 2) 0])
  | loop condition body false, site, ops => ∃ repeated tested,
      body.Lays program site repeated ∧ condition.Lays program site tested ∧
      ops = repeated ++ .pop ::
        (tested ++ [Control.jump .ifTrue (repeated.length + 1 + tested.length) 0])
  | closure scope arity body, site, ops => ∃ slot,
      program.Files (.headOf .closure site.closure.name arity scope.size scope.names)
        (body.Lays program site.closure) slot ∧
      ops = [.makeClosure slot]
  | method name arity localCount body, _, ops => ∃ slot position,
      program.Files (.headOf .method name arity localCount []) (body.Lays program (.method name))
        slot ∧
      program.constants.get? position = some (.name name) ∧ ops = [.defineMethod position slot]
  | _, _, _ => False

end Action

theorem Action.lays_seq_assoc {ε : Type} (program : Program) (first second third : Action ε)
    (site : Site) (ops : List Op) : (Action.seq (.seq first second) third).Lays program site ops ↔
      (Action.seq first (.seq second third)).Lays program site ops := by
  constructor
  · rintro ⟨_, ops₃, ⟨ops₁, ops₂, h₁, h₂, rfl⟩, h₃, rfl⟩
    exact ⟨ops₁, _, h₁, ⟨ops₂, ops₃, h₂, h₃, rfl⟩, List.append_assoc ..⟩
  · rintro ⟨ops₁, _, h₁, ⟨ops₂, ops₃, h₂, h₃, rfl⟩, rfl⟩
    exact ⟨_, ops₃, ⟨ops₁, ops₂, h₁, h₂, rfl⟩, h₃, (List.append_assoc ..).symm⟩

/-! ## References -/

namespace Op

variable {op : Op} {ops ops' : List Op} {slot : UInt32}

theorem Refer.mono (h : Op.Refer ops slot) (sub : ops ⊆ ops') : Op.Refer ops' slot := by
  obtain ⟨op, member, ref⟩ := h
  exact ⟨op, sub member, ref⟩

theorem refer_append : Op.Refer (ops ++ ops') slot ↔ Op.Refer ops slot ∨ Op.Refer ops' slot := by
  simp only [Refer, List.mem_append, or_and_right, exists_or]

theorem refer_cons : Op.Refer (op :: ops) slot ↔ op.codeRef? = some slot ∨ Op.Refer ops slot := by
  simp only [Refer, List.exists_mem_cons_iff]

theorem not_refer_nil : ¬Op.Refer [] slot := by
  rintro ⟨_, member, _⟩
  cases member

/-- What refers to nothing may be left out. -/
theorem refer_cons_none (none : op.codeRef? = none) :
    Op.Refer (op :: ops) slot ↔ Op.Refer ops slot := by
  rw [refer_cons, none]
  exact or_iff_right nofun

theorem refer_single : Op.Refer [op] slot ↔ op.codeRef? = some slot := by
  rw [refer_cons]
  exact or_iff_left not_refer_nil

end Op

theorem Control.codeRef?_jump (kind : JumpKind) (source target : Nat) :
    (Control.jump kind source target).codeRef? = none := by
  cases kind <;> rfl

section Installed

variable {program : Program} {ops : List Op} {slot : UInt32}

/-- The slot holds a code object that was recorded to its end. -/
def Program.Installed (program : Program) (slot : UInt32) : Prop :=
  ∃ code, program.code? slot = some code ∧ code.ops ≠ #[]

theorem Program.Files.installed {head : Code} {lays : List Op → Prop}
    (h : program.Files head lays slot) : program.Installed slot := by
  obtain ⟨code, ops, found, -, -, whole⟩ := h
  refine ⟨code, found, fun empty => ?_⟩
  simp [empty] at whole

theorem Primitive.Form.Lays.not_refer {p : Primitive} {site : Site}
    (h : p.form.Lays program site ops) : ¬Op.Refer ops slot := by
  intro ref
  cases p with
  | line line =>
      obtain rfl : ops = [] := h
      exact Op.not_refer_nil ref
  | aliasMethod newName oldName =>
      obtain ⟨_, _, _, _, rfl⟩ := h
      cases Op.refer_single.mp ref
  | yield hasArgs =>
      obtain ⟨-, rfl⟩ := h
      cases Op.refer_single.mp ref
  | retrieveLocal index depth | assignLocal index depth =>
      obtain ⟨-, rfl⟩ := h
      rw [Op.refer_single, Bench.codeRef?_localOp] at ref
      cases ref
  | string | symbol | bignum | retrieveConstant | assignConstant | retrieveIvar | assignIvar
  | retrieveGlobal | assignGlobal =>
      obtain ⟨_, _, rfl⟩ := h
      cases Op.refer_single.mp ref
  | _ =>
      cases h
      cases Op.refer_single.mp ref

theorem LaysEach.part {lays : Nat → List Op → Prop} {first count index : Nat}
    (h : LaysEach lays first count ops) (low : first ≤ index) (inside : index < first + count) :
    ∃ ops', lays index ops' := by
  induction count generalizing first ops with
  | zero => omega
  | succ count ih =>
      obtain ⟨ops₁, ops₂, h₁, h₂, rfl⟩ := h
      by_cases here : index = first
      · exact ⟨ops₁, here ▸ h₁⟩
      · exact ih h₂ (by omega) (by omega)

theorem LaysEach.installed {lays : Nat → List Op → Prop}
    (each : ∀ index ops, lays index ops → Op.Refer ops slot → program.Installed slot)
    {first count : Nat} (h : LaysEach lays first count ops) (ref : Op.Refer ops slot) :
    program.Installed slot := by
  induction count generalizing first ops with
  | zero =>
      obtain rfl : ops = [] := h
      exact absurd ref Op.not_refer_nil
  | succ count ih =>
      obtain ⟨ops₁, ops₂, h₁, h₂, rfl⟩ := h
      exact (Op.refer_append.mp ref).elim (each _ _ h₁) (ih h₂)

/-- What is laid out refers to installed code objects only. -/
theorem Action.Lays.installed {ε : Type} {action : Action ε} {site : Site}
    (h : action.Lays program site ops) (ref : Op.Refer ops slot) : program.Installed slot := by
  induction action generalizing site ops with
  | skip =>
      obtain rfl : ops = [] := h
      exact absurd ref Op.not_refer_nil
  | primitive p => exact absurd ref (Primitive.Form.Lays.not_refer h)
  | seq first next ih₁ ih₂ =>
      obtain ⟨ops₁, ops₂, h₁, h₂, rfl⟩ := h
      exact (Op.refer_append.mp ref).elim (ih₁ h₁) (ih₂ h₂)
  | call name shape =>
      obtain ⟨_, _, rfl⟩ := h
      cases Op.refer_single.mp ref
  | callBlock name shape scope arity body ih =>
      obtain ⟨found, _, files, _, rfl⟩ := h
      cases Op.refer_single.mp ref
      exact files.installed
  | array count element ih =>
      obtain ⟨parts, each, rfl⟩ := h
      rcases Op.refer_append.mp ref with ref | ref
      · exact each.installed (fun index _ lays => ih index lays) ref
      · cases Op.refer_single.mp ref
  | branch onTrue onFalse ih₁ ih₂ =>
      obtain ⟨yes, no, h₁, h₂, rfl⟩ := h
      rw [Op.refer_cons_none (Control.codeRef?_jump ..), Op.refer_append,
        Op.refer_cons_none (Control.codeRef?_jump ..)] at ref
      exact ref.elim (ih₁ h₁) (ih₂ h₂)
  | logical connective right ih =>
      obtain ⟨ops₁, h₁, rfl⟩ := h
      rw [Op.refer_cons_none rfl, Op.refer_cons_none (Control.codeRef?_jump ..),
        Op.refer_cons_none rfl] at ref
      exact ih h₁ ref
  | loop condition body checkFirst ih₁ ih₂ =>
      cases checkFirst with
      | true =>
          obtain ⟨tested, repeated, h₁, h₂, rfl⟩ := h
          rw [Op.refer_append, Op.refer_cons_none (Control.codeRef?_jump ..), Op.refer_append,
            Op.refer_cons_none rfl, Op.refer_cons_none (Control.codeRef?_jump ..)] at ref
          exact ref.elim (ih₁ h₁) fun ref => ref.elim (ih₂ h₂) fun ref => absurd ref Op.not_refer_nil
      | false =>
          obtain ⟨repeated, tested, h₂, h₁, rfl⟩ := h
          rw [Op.refer_append, Op.refer_cons_none rfl, Op.refer_append,
            Op.refer_cons_none (Control.codeRef?_jump ..)] at ref
          exact ref.elim (ih₂ h₂) fun ref => ref.elim (ih₁ h₁) fun ref => absurd ref Op.not_refer_nil
  | closure scope arity body ih =>
      obtain ⟨found, files, rfl⟩ := h
      cases Op.refer_single.mp ref
      exact files.installed
  | method name arity localCount body ih =>
      obtain ⟨found, _, files, _, rfl⟩ := h
      cases Op.refer_single.mp ref
      exact files.installed
  | _ => exact h.elim

end Installed

/-! ## Other programs with the same code objects -/

/-- The other program has the same constants, and the same code objects in the slots that
are kept, which refer to such slots only. -/
structure Program.Carries (program other : Program) (kept : UInt32 → Prop) : Prop where
  constants : ∀ position constant, program.constants.get? position = some constant →
    other.constants.get? position = some constant
  code : ∀ slot code, kept slot → program.code? slot = some code → code.ops ≠ #[] →
    other.code? slot = some code
  closed : ∀ slot code, kept slot → program.code? slot = some code →
    ∀ ref, Op.Refer code.ops.toList ref → kept ref

section Carry

variable {program other : Program} {kept : UInt32 → Prop} {ops : List Op}

theorem Program.Files.carry (carries : program.Carries other kept) {head : Code}
    {lays lays' : List Op → Prop} {slot : UInt32} (h : program.Files head lays slot)
    (inside : ∀ ops, lays ops → (∀ ref, Op.Refer ops ref → kept ref) → lays' ops)
    (member : kept slot) : other.Files head lays' slot := by
  obtain ⟨installed, there, nonempty⟩ := h.installed
  obtain ⟨code, ops, found, same, lays, whole⟩ := h
  obtain rfl : installed = code := Option.some.inj (there.symm.trans found)
  refine ⟨installed, ops, carries.code slot _ member there nonempty, same, ?_, whole⟩
  refine inside ops lays fun ref refers => carries.closed slot _ member there ref ?_
  rw [whole]
  exact refers.mono (List.subset_append_left _ _)

theorem Primitive.Form.Lays.carry (carries : program.Carries other kept) {form : Form}
    {site : Site} (h : form.Lays program site ops) : form.Lays other site ops := by
  cases form with
  | pooled constant make =>
      obtain ⟨position, found, whole⟩ := h
      exact ⟨position, carries.constants _ _ found, whole⟩
  | aliasMethod newName oldName =>
      obtain ⟨new, old, found, found', whole⟩ := h
      exact ⟨new, old, carries.constants _ _ found, carries.constants _ _ found', whole⟩
  | _ => exact h

theorem LaysEach.carry {lays lays' : Nat → List Op → Prop}
    (each : ∀ index ops, lays index ops → (∀ ref, Op.Refer ops ref → kept ref) → lays' index ops)
    {first count : Nat} (h : LaysEach lays first count ops)
    (refs : ∀ ref, Op.Refer ops ref → kept ref) : LaysEach lays' first count ops := by
  induction count generalizing first ops with
  | zero => exact h
  | succ count ih =>
      obtain ⟨ops₁, ops₂, h₁, h₂, rfl⟩ := h
      refine ⟨ops₁, ops₂, ?_, ?_, rfl⟩
      · exact each _ _ h₁ fun ref h => refs ref (h.mono (List.subset_append_left ..))
      · exact ih h₂ fun ref h => refs ref (h.mono (List.subset_append_right ..))

/-- What is laid out in one program is laid out in one that carries what it refers to. -/
theorem Action.Lays.carry {ε : Type} (carries : program.Carries other kept) {action : Action ε}
    {site : Site} (h : action.Lays program site ops) (refs : ∀ ref, Op.Refer ops ref → kept ref) :
    action.Lays other site ops := by
  induction action generalizing site ops with
  | skip => exact h
  | primitive p => exact Primitive.Form.Lays.carry carries h
  | seq first next ih₁ ih₂ =>
      obtain ⟨ops₁, ops₂, h₁, h₂, rfl⟩ := h
      exact ⟨ops₁, ops₂, ih₁ h₁ fun ref h => refs ref (h.mono (by simp)),
        ih₂ h₂ fun ref h => refs ref (h.mono (by simp)), rfl⟩
  | call name shape =>
      obtain ⟨position, found, whole⟩ := h
      exact ⟨position, carries.constants _ _ found, whole⟩
  | callBlock name shape scope arity body ih =>
      obtain ⟨slot, position, files, found, rfl⟩ := h
      have member := refs slot (Op.refer_single.mpr rfl)
      exact ⟨slot, position, files.carry carries (fun _ => ih) member,
        carries.constants _ _ found, rfl⟩
  | array count element ih =>
      obtain ⟨parts, each, rfl⟩ := h
      exact ⟨parts, each.carry (fun index _ => ih index) fun ref h => refs ref (h.mono (by simp)),
        rfl⟩
  | branch onTrue onFalse ih₁ ih₂ =>
      obtain ⟨yes, no, h₁, h₂, rfl⟩ := h
      exact ⟨yes, no, ih₁ h₁ fun ref h => refs ref (h.mono (by simp)),
        ih₂ h₂ fun ref h => refs ref (h.mono (by simp +contextual [List.subset_def])), rfl⟩
  | logical connective right ih =>
      obtain ⟨ops₁, h₁, rfl⟩ := h
      exact ⟨ops₁, ih h₁ fun ref h => refs ref (h.mono (by simp +contextual [List.subset_def])), rfl⟩
  | loop condition body checkFirst ih₁ ih₂ =>
      cases checkFirst with
      | true =>
          obtain ⟨tested, repeated, h₁, h₂, rfl⟩ := h
          exact ⟨tested, repeated, ih₁ h₁ fun ref h => refs ref (h.mono (by simp)),
            ih₂ h₂ fun ref h => refs ref (h.mono (by simp +contextual [List.subset_def])), rfl⟩
      | false =>
          obtain ⟨repeated, tested, h₂, h₁, rfl⟩ := h
          exact ⟨repeated, tested, ih₂ h₂ fun ref h => refs ref (h.mono (by simp)),
            ih₁ h₁ fun ref h => refs ref (h.mono (by simp +contextual [List.subset_def])), rfl⟩
  | closure scope arity body ih =>
      obtain ⟨slot, files, rfl⟩ := h
      have member := refs slot (Op.refer_single.mpr rfl)
      exact ⟨slot, files.carry carries (fun _ => ih) member, rfl⟩
  | method name arity localCount body ih =>
      obtain ⟨slot, position, files, found, rfl⟩ := h
      have member := refs slot (Op.refer_single.mpr rfl)
      exact ⟨slot, position, files.carry carries (fun _ => ih) member,
        carries.constants _ _ found, rfl⟩
  | _ => exact h

end Carry

/-! ## Two programs -/

section Alike

variable {ε : Type} {program other : Program} {ops ops' : List Op}

/-- In both programs the slots hold what was recorded for the same body. -/
def Program.Twins (ε : Type) (program other : Program) (slot slot' : UInt32) : Prop :=
  ∃ (head : Code) (body : Action ε) (site : Site),
    program.Files head (body.Lays program site) slot ∧
    other.Files head (body.Lays other site) slot'

/-- The operations are alike one by one. -/
abbrev Op.AllAlike (ε : Type) (program other : Program) : List Op → List Op → Prop :=
  List.Forall₂ (Op.Alike program other (program.Twins ε other))

theorem Op.AllAlike.single {op op' : Op}
    (alike : Op.Alike program other (program.Twins ε other) op op') :
    Op.AllAlike ε program other [op] [op'] :=
  .cons alike .nil

theorem Op.AllAlike.jump (kind : JumpKind) (source target : Nat)
    (rest : Op.AllAlike ε program other ops ops') : Op.AllAlike ε program other
      (Control.jump kind source target :: ops) (Control.jump kind source target :: ops') :=
  .cons (.bare (by cases kind <;> trivial)) rest

theorem Op.bare_localOp (index depth : Nat) (assign : Bool) :
    (Bench.localOp index depth assign).Bare := by
  cases assign <;> simp only [Bench.localOp] <;> split <;> trivial

theorem Program.sameText {position position' : UInt32} {constant : Constant} {text : String}
    (named : constant.text? = some text) (h : program.constants.get? position = some constant)
    (h' : other.constants.get? position' = some constant) :
    program.SameText other position position' :=
  ⟨text, by simp [Pool.text?, h, named], by simp [Pool.text?, h', named]⟩

theorem Primitive.Form.Lays.alike (p : Primitive) {site : Site}
    (h : p.form.Lays program site ops) (h' : p.form.Lays other site ops') :
    Op.AllAlike ε program other ops ops' := by
  have pooled (constant : Constant) (text : String) (make : UInt32 → Op)
      (named : constant.text? = some text)
      (alike : ∀ i j, program.SameText other i j →
        Op.Alike program other (program.Twins ε other) (make i) (make j))
      (h : Form.Lays program site ops (.pooled constant make))
      (h' : Form.Lays other site ops' (.pooled constant make)) :
      Op.AllAlike ε program other ops ops' := by
    obtain ⟨position, found, rfl⟩ := h
    obtain ⟨position', found', rfl⟩ := h'
    exact .single (alike _ _ (Program.sameText named found found'))
  have bare {op : Op} (h : ops = [op]) (h' : ops' = [op]) (bare : op.Bare) :
      Op.AllAlike ε program other ops ops' := by
    rw [h, h']
    exact .single (.bare bare)
  cases p with
  | bignum value =>
      obtain ⟨position, found, rfl⟩ := h
      obtain ⟨position', found', rfl⟩ := h'
      exact .single (.pushBignum value found found')
  | string text => exact pooled _ text _ rfl (fun _ _ => .pushString) h h'
  | symbol name => exact pooled _ name _ rfl (fun _ _ => .pushSymbol) h h'
  | retrieveConstant name => exact pooled _ name _ rfl (fun _ _ => .getConst) h h'
  | assignConstant name => exact pooled _ name _ rfl (fun _ _ => .setConst) h h'
  | retrieveIvar name => exact pooled _ name _ rfl (fun _ _ => .getIvar) h h'
  | assignIvar name => exact pooled _ name _ rfl (fun _ _ => .setIvar) h h'
  | retrieveGlobal name => exact pooled _ name _ rfl (fun _ _ => .getGlobal) h h'
  | assignGlobal name => exact pooled _ name _ rfl (fun _ _ => .setGlobal) h h'
  | aliasMethod newName oldName =>
      obtain ⟨new, old, hnew, hold, rfl⟩ := h
      obtain ⟨new', old', hnew', hold', rfl⟩ := h'
      exact .single (.aliasMethod (Program.sameText rfl hnew hnew') (Program.sameText rfl hold hold'))
  | yield hasArgs => exact bare h.2 h'.2 trivial
  | assignLocal index depth | retrieveLocal index depth =>
      exact bare h.2 h'.2 (Op.bare_localOp ..)
  | line line =>
      obtain rfl : ops = [] := h
      obtain rfl : ops' = [] := h'
      exact .nil
  | _ => exact bare h h' trivial

/-- A single operation that is laid out in both programs. -/
theorem Primitive.Form.Lays.alike_single (p : Primitive) {site : Site} {op op' : Op}
    (h : p.form.Lays program site [op]) (h' : p.form.Lays other site [op']) :
    op.Alike program other (program.Twins ε other) op' :=
  (List.forall₂_cons.mp (Primitive.Form.Lays.alike p h h')).1

theorem LaysEach.alike {lays lays' : Nat → List Op → Prop}
    (each : ∀ index ops ops', lays index ops → lays' index ops' →
      Op.AllAlike ε program other ops ops')
    {first count : Nat} (h : LaysEach lays first count ops) (h' : LaysEach lays' first count ops') :
    Op.AllAlike ε program other ops ops' := by
  induction count generalizing first ops ops' with
  | zero =>
      obtain rfl : ops = [] := h
      obtain rfl : ops' = [] := h'
      exact .nil
  | succ count ih =>
      obtain ⟨ops₁, ops₂, h₁, h₂, rfl⟩ := h
      obtain ⟨ops₁', ops₂', h₁', h₂', rfl⟩ := h'
      exact List.rel_append (each _ _ _ h₁ h₁') (ih h₂ h₂')

/-- Recording an action into two programs gives alike operations. -/
theorem Action.Lays.alike {action : Action ε} {site : Site} (h : action.Lays program site ops)
    (h' : action.Lays other site ops') : Op.AllAlike ε program other ops ops' := by
  induction action generalizing site ops ops' with
  | skip =>
      obtain rfl : ops = [] := h
      obtain rfl : ops' = [] := h'
      exact .nil
  | primitive p => exact Primitive.Form.Lays.alike p h h'
  | seq first next ih₁ ih₂ =>
      obtain ⟨ops₁, ops₂, h₁, h₂, rfl⟩ := h
      obtain ⟨ops₁', ops₂', h₁', h₂', rfl⟩ := h'
      exact List.rel_append (ih₁ h₁ h₁') (ih₂ h₂ h₂')
  | call name shape =>
      obtain ⟨position, found, rfl⟩ := h
      obtain ⟨position', found', rfl⟩ := h'
      exact .single (.send _ _ (Program.sameText rfl found found'))
  | callBlock name shape scope arity body ih =>
      obtain ⟨slot, position, files, found, rfl⟩ := h
      obtain ⟨slot', position', files', found', rfl⟩ := h'
      exact .single (.sendBlock _ _ (Program.sameText rfl found found') ⟨_, body, _, files, files'⟩)
  | array count element ih =>
      obtain ⟨parts, each, rfl⟩ := h
      obtain ⟨parts', each', rfl⟩ := h'
      exact List.rel_append (each.alike (fun index _ _ => ih index) each') (Op.AllAlike.single (.bare trivial))
  | branch onTrue onFalse ih₁ ih₂ =>
      obtain ⟨yes, no, h₁, h₂, rfl⟩ := h
      obtain ⟨yes', no', h₁', h₂', rfl⟩ := h'
      have alike₁ := ih₁ h₁ h₁'
      have alike₂ := ih₂ h₂ h₂'
      rw [alike₁.length_eq, alike₂.length_eq]
      exact Op.AllAlike.jump _ _ _ (List.rel_append alike₁ (Op.AllAlike.jump _ _ _ alike₂))
  | logical connective right ih =>
      obtain ⟨ops₁, h₁, rfl⟩ := h
      obtain ⟨ops₁', h₁', rfl⟩ := h'
      have alike := ih h₁ h₁'
      rw [alike.length_eq]
      exact .cons (.bare trivial) (Op.AllAlike.jump _ _ _ (.cons (.bare trivial) alike))
  | loop condition body checkFirst ih₁ ih₂ =>
      cases checkFirst with
      | true =>
          obtain ⟨tested, repeated, h₁, h₂, rfl⟩ := h
          obtain ⟨tested', repeated', h₁', h₂', rfl⟩ := h'
          have alike₁ := ih₁ h₁ h₁'
          have alike₂ := ih₂ h₂ h₂'
          rw [alike₁.length_eq, alike₂.length_eq]
          refine List.rel_append alike₁ (Op.AllAlike.jump _ _ _ (List.rel_append alike₂ ?_))
          exact .cons (.bare trivial) (Op.AllAlike.jump _ _ _ .nil)
      | false =>
          obtain ⟨repeated, tested, h₂, h₁, rfl⟩ := h
          obtain ⟨repeated', tested', h₂', h₁', rfl⟩ := h'
          have alike₁ := ih₁ h₁ h₁'
          have alike₂ := ih₂ h₂ h₂'
          rw [alike₁.length_eq, alike₂.length_eq]
          refine List.rel_append alike₂ (.cons (.bare trivial) ?_)
          exact List.rel_append alike₁ (Op.AllAlike.jump _ _ _ .nil)
  | closure scope arity body ih =>
      obtain ⟨slot, files, rfl⟩ := h
      obtain ⟨slot', files', rfl⟩ := h'
      exact .single (.makeClosure ⟨_, body, _, files, files'⟩)
  | method name arity localCount body ih =>
      obtain ⟨slot, position, files, found, rfl⟩ := h
      obtain ⟨slot', position', files', found', rfl⟩ := h'
      exact .single (.defineMethod (Program.sameText rfl found found') ⟨_, body, _, files, files'⟩)
  | _ => exact h.elim

end Alike

/-- Two programs mirror each other where the same bodies were recorded. -/
theorem Program.mirrors_twins (ε : Type) (program other : Program) :
    program.Mirrors other (program.Twins ε other) := by
  rintro i j ⟨head, body, site, ⟨code, ops, found, same, lays, whole⟩,
    ⟨code', ops', found', same', lays', whole'⟩⟩
  refine ⟨code, code', found, found', same.trans same'.symm, ?_⟩
  rw [whole, whole']
  exact List.rel_append (lays.alike lays') (Op.AllAlike.single (.bare trivial))

/-- A program that carries everything has the same twins. -/
theorem Program.Twins.carry {ε : Type} {program other other' : Program} {slot slot' : UInt32}
    (h : program.Twins ε other slot slot') (carries : other.Carries other' fun _ => True) :
    program.Twins ε other' slot slot' := by
  obtain ⟨head, body, site, files, files'⟩ := h
  exact ⟨head, body, site, files,
    files'.carry carries (fun _ lays _ => lays.carry carries fun _ _ => trivial) trivial⟩

end BlockScript

/-! ## Operations at the end of a code object

What a builder holds after operations were appended: the operations that it held, the new ones,
and nothing else about the unit has changed. A jump that waits among the new operations is aimed
by replacing it.
-/

namespace BlockScript.Builder

variable {builder builder' builder'' : Builder} {ops ops' : List Op}

/-- The operations were appended. -/
structure Appends (builder builder' : Builder) (ops : List Op) : Prop where
  ops : builder'.code.ops.toList = builder.code.ops.toList ++ ops
  head : builder'.code.head = builder.code.head

namespace Appends

theorem refl (builder : Builder) : builder.Appends builder [] := ⟨(List.append_nil _).symm, rfl⟩

theorem trans (h₁ : builder.Appends builder' ops) (h₂ : builder'.Appends builder'' ops') :
    builder.Appends builder'' (ops ++ ops') :=
  ⟨by rw [h₂.ops, h₁.ops, List.append_assoc], h₂.head.trans h₁.head⟩

theorem emit {operation : String} {op : Op} (run : builder.emit operation op = .ok builder') :
    builder.Appends builder' [op] := by
  refine ⟨toList_of_emit run, ?_⟩
  obtain ⟨_, -, rfl⟩ := emit_ok run
  rfl

/-- A change that leaves the code as it is. -/
theorem same (h : builder.Appends builder' ops) (code : builder''.code = builder'.code) :
    builder.Appends builder'' ops :=
  ⟨code ▸ h.ops, code ▸ h.head⟩

theorem setLine (builder : Builder) (line : UInt32) : builder.Appends (builder.setLine line) [] :=
  ⟨(List.append_nil _).symm, rfl⟩

theorem label (h : builder.Appends builder' ops) : builder'.label = builder.label + ops.length := by
  rw [Builder.label, Builder.label, ← Array.length_toList, h.ops, List.length_append,
    Array.length_toList]

/-- The jump that waits among the appended operations is aimed at their end. -/
theorem patchHere {all : List Op} (h : builder.Appends builder' all) {op : Op}
    (parts : all = ops ++ op :: ops') {ip : Nat} (waits : ip = builder.label + ops.length)
    (kind : JumpKind) : builder.Appends (builder'.patchHere ⟨ip, kind⟩)
      (ops ++ Control.jump kind ops.length (ops.length + 1 + ops'.length) :: ops') := by
  subst parts
  subst waits
  rw [patchHere_eq]
  refine ⟨?_, h.head⟩
  have target : builder'.label = builder.label + (ops.length + 1 + ops'.length) := by
    rw [h.label, List.length_append, List.length_cons]
    omega
  have length : builder.code.ops.toList.length = builder.label := Array.length_toList
  show (Array.setIfInBounds _ (builder.label + ops.length) _).toList = _
  rw [Array.toList_setIfInBounds, h.ops, target, offset_add, ← length,
    List.set_append_right _ _ (by omega), Nat.add_sub_cancel_left,
    List.set_append_right _ _ (Nat.le_refl _), Nat.sub_self]
  rfl

end Appends

end BlockScript.Builder
