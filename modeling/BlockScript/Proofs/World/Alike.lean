import Mathlib.Data.List.Forall2
import BlockScript.Machine.Basic
import BlockScript.Proofs.Value.Shown

/-!
# Worlds that differ in where code objects are

The same program may be run from two code tables that number its code objects differently.
Two such runs make the same cells and the same values; only the blocks and methods refer to
other positions, which a relation pairs. Besides, one of the runs may be inside more calls,
none of which was given a block, and may have executed more operations.

`Agrees` compares two computations: both succeed with related values, or both fail with the
same kind and message, and either way the states they leave are related again.
-/

namespace BlockScript

/-- The errors say the same. They may have left different frames. -/
def RuntimeError.Same (error other : RuntimeError) : Prop :=
  error.kind = other.kind ∧ error.message = other.message

@[simp] theorem RuntimeError.Same.refl (error : RuntimeError) : error.Same error := ⟨rfl, rfl⟩

theorem RuntimeError.Same.leaving {error other : RuntimeError} (h : error.Same other)
    (place place' : String) : (error.leaving place).Same (other.leaving place') := h

/-! ## Computations that agree -/

/-- Both succeed with related values or both fail with the same error, in related states. -/
def Agrees {α β σ τ : Type} (values : α → β → Prop) (states : σ → τ → Prop)
    (action : EStateM RuntimeError σ α) (other : EStateM RuntimeError τ β) (state : σ) (state' : τ) :
    Prop :=
  match action state, other state' with
  | .ok value state, .ok value' state' => values value value' ∧ states state state'
  | .error error state, .error error' state' => error.Same error' ∧ states state state'
  | _, _ => False

namespace Agrees

variable {α β γ δ σ τ : Type} {values values' : α → β → Prop} {states : σ → τ → Prop}
  {action : EStateM RuntimeError σ α} {other : EStateM RuntimeError τ β} {state : σ} {state' : τ}

/-- The results of computations that agree. -/
theorem cases (h : Agrees values states action other state state') :
    (∃ value value' after after', action state = .ok value after ∧
      other state' = .ok value' after' ∧ values value value' ∧ states after after') ∨
    (∃ error error' after after', action state = .error error after ∧
      other state' = .error error' after' ∧ error.Same error' ∧ states after after') := by
  unfold Agrees at h
  split at h
  · exact .inl ⟨_, _, _, _, ‹_›, ‹_›, h⟩
  · exact .inr ⟨_, _, _, _, ‹_›, ‹_›, h⟩
  · exact h.elim

theorem mono (h : Agrees values states action other state state')
    (weaker : ∀ value value', values value value' → values' value value') :
    Agrees values' states action other state state' := by
  obtain ⟨value, value', after, after', run, run', same, kept⟩ |
    ⟨error, error', after, after', run, run', same, kept⟩ := h.cases
  · rw [Agrees, run, run']
    exact ⟨weaker _ _ same, kept⟩
  · rw [Agrees, run, run']
    exact ⟨same, kept⟩

theorem pure {value : α} {value' : β} (kept : states state state') (same : values value value') :
    Agrees values states (Pure.pure value) (Pure.pure value') state state' := ⟨same, kept⟩

theorem throws (kept : states state state') (error : RuntimeError) :
    Agrees values states (throw error) (throw error) state state' := ⟨.refl error, kept⟩

/-- What comes second may use how the first computation went. -/
theorem bind_run {next : α → EStateM RuntimeError σ γ} {next' : β → EStateM RuntimeError τ δ}
    {values' : γ → δ → Prop} (h : Agrees values states action other state state')
    (rest : ∀ value value' after after', action state = .ok value after → values value value' →
      states after after' → Agrees values' states (next value) (next' value') after after') :
    Agrees values' states (action >>= next) (other >>= next') state state' := by
  change Agrees values' states (EStateM.bind action next) (EStateM.bind other next') state state'
  obtain ⟨value, value', after, after', run, run', same, kept⟩ |
    ⟨error, error', after, after', run, run', same, kept⟩ := h.cases
  · simp only [Agrees, EStateM.bind, run, run']
    exact rest value value' after after' run same kept
  · simp only [Agrees, EStateM.bind, run, run']
    exact ⟨same, kept⟩

theorem bind {next : α → EStateM RuntimeError σ γ} {next' : β → EStateM RuntimeError τ δ}
    {values' : γ → δ → Prop} (h : Agrees values states action other state state')
    (rest : ∀ value value' after after', values value value' → states after after' →
      Agrees values' states (next value) (next' value') after after') :
    Agrees values' states (action >>= next) (other >>= next') state state' :=
  h.bind_run fun value value' after after' _ => rest value value' after after'

theorem get {next : σ → EStateM RuntimeError σ α} {next' : τ → EStateM RuntimeError τ β}
    (h : Agrees values states (next state) (next' state') state state') :
    Agrees values states (MonadStateOf.get >>= next) (MonadStateOf.get >>= next') state state' := h

theorem modifies {f : σ → σ} {f' : τ → τ} (h : states (f state) (f' state')) :
    Agrees Eq states (modify f) (modify f') state state' := ⟨rfl, h⟩

theorem ite {c : Prop} [Decidable c] {yes no : EStateM RuntimeError σ α}
    {yes' no' : EStateM RuntimeError τ β} (h₁ : c → Agrees values states yes yes' state state')
    (h₂ : ¬c → Agrees values states no no' state state') :
    Agrees values states (if c then yes else no) (if c then yes' else no') state state' := by
  by_cases h : c
  · simp only [if_pos h]
    exact h₁ h
  · simp only [if_neg h]
    exact h₂ h

end Agrees

/-! ## Worlds -/

/-- What refers to code objects in a world, and what counts the calls and operations. -/
structure World.Labels where
  procs : Array Proc
  methods : Table Method
  calls : Array Call
  steps : Nat

namespace World

/-- The labels of a world. -/
def labels (world : World) : Labels :=
  ⟨world.heap.procs, world.methods, world.calls, world.steps⟩

/-- The world with other labels. -/
def relabel (world : World) (labels : Labels) : World :=
  { world with
    heap := world.heap.withProcs labels.procs
    methods := labels.methods
    calls := labels.calls
    steps := labels.steps }

@[simp] theorem labels_relabel (world : World) (labels : Labels) :
    (world.relabel labels).labels = labels := rfl

theorem relabel_labels (world : World) : world.relabel world.labels = world := rfl

end World

/-- The blocks differ at most in the position of their code. -/
structure Proc.Alike (twins : UInt32 → UInt32 → Prop) (proc other : Proc) : Prop where
  code : twins proc.code other.code
  rest : other = { proc with code := other.code }

/-- The methods differ at most in the position of their code. -/
inductive Method.Alike (twins : UInt32 → UInt32 → Prop) : Method → Method → Prop where
  | compiled {code other : UInt32} (arity : Nat) (paired : twins code other) :
      Alike twins (.compiled code arity) (.compiled other arity)
  | builtin (name : String) : Alike twins (.builtin name) (.builtin name)

/-- The labels point to paired code objects. The calls of the second run are the innermost
ones of the first, and the others have no block. -/
structure World.Labels.Alike (twins : UInt32 → UInt32 → Prop) (labels other : Labels) : Prop where
  procs : List.Forall₂ (Proc.Alike twins) labels.procs.toList other.procs.toList
  methods (name : String) :
    Option.Rel (Method.Alike twins) (labels.methods.get? name) (other.methods.get? name)
  calls : ∃ outer, (∀ call ∈ outer, call.block = none) ∧
    labels.calls.toList = outer ++ other.calls.toList
  steps : other.steps ≤ labels.steps

/-- The worlds are the same but for their labels, which are alike. -/
structure World.Alike (twins : UInt32 → UInt32 → Prop) (world other : World) : Prop where
  rest : other = world.relabel other.labels
  labels : world.labels.Alike twins other.labels

namespace World.Alike

variable {twins twins' : UInt32 → UInt32 → Prop} {world other : World}

theorem mono (h : world.Alike twins other) (wider : ∀ i j, twins i j → twins' i j) :
    world.Alike twins' other where
  rest := h.rest
  labels :=
    { procs := h.labels.procs.imp fun _ _ alike => ⟨wider _ _ alike.code, alike.rest⟩
      methods := fun name => by
        have alike := h.labels.methods name
        revert alike
        generalize world.labels.methods.get? name = method
        generalize other.labels.methods.get? name = method'
        intro alike
        cases alike with
        | none => exact .none
        | some alike =>
            cases alike with
            | compiled arity paired => exact .some (.compiled arity (wider _ _ paired))
            | builtin original => exact .some (.builtin original)
      calls := h.labels.calls
      steps := h.labels.steps }

/-! ### What is the same -/

section Same

variable (h : world.Alike twins other)

include h

theorem heap : other.heap = world.heap.withProcs other.heap.procs := congrArg World.heap h.rest

theorem procs : List.Forall₂ (Proc.Alike twins) world.heap.procs.toList other.heap.procs.toList :=
  h.labels.procs

theorem methods (name : String) :
    Option.Rel (Method.Alike twins) (world.methods.get? name) (other.methods.get? name) :=
  h.labels.methods name

theorem calls : ∃ outer, (∀ call ∈ outer, call.block = none) ∧
    world.calls.toList = outer ++ other.calls.toList :=
  h.labels.calls

theorem steps : other.steps ≤ world.steps := h.labels.steps

theorem output : other.output = world.output := by
  rw [h.rest]
  rfl

theorem constants : other.constants = world.constants := by
  rw [h.rest]
  rfl

theorem global : other.global = world.global := by
  rw [h.rest]
  rfl

theorem string : other.heap.string = world.heap.string := by
  rw [h.heap]
  rfl

theorem array : other.heap.array = world.heap.array := by
  rw [h.heap]
  rfl

theorem object : other.heap.object = world.heap.object := by
  rw [h.heap]
  rfl

theorem frame : other.heap.frame = world.heap.frame := by
  rw [h.heap]
  rfl

theorem className : Value.className other.heap = Value.className world.heap := by
  rw [h.heap]
  exact Value.className_withProcs _ _

theorem equals : Value.equals other.heap = Value.equals world.heap := by
  rw [h.heap]
  exact Value.equals_withProcs _ _

theorem spread : Run.spread other.heap = Run.spread world.heap := by
  rw [h.heap]
  rfl

theorem ancestor? (depth : Nat) (cell : Ref .frame) :
    other.heap.ancestor? depth cell = world.heap.ancestor? depth cell := by
  induction depth generalizing cell with
  | zero => rfl
  | succ depth ih => simp only [Heap.ancestor?, h.frame, ih]

/-- A text that shows no block is the same. -/
theorem text (rendering : Rendering) {value : Value}
    (blind : rendering.showsProc world.heap value = false) :
    rendering.text other.heap value = rendering.text world.heap value := by
  rw [h.heap]
  exact Rendering.text_withProcs _ _ blind

theorem proc? (cell : Ref .proc) :
    Option.Rel (Proc.Alike twins) (world.heap.proc? cell) (other.heap.proc? cell) := by
  have related := h.procs
  have size : world.heap.procs.size = other.heap.procs.size := by
    simpa using related.length_eq
  by_cases inside : cell.index < world.heap.procs.size
  · have one := related.get (i := cell.index) (by simpa) (by simpa using size ▸ inside)
    simp only [Heap.proc?, Array.getElem?_eq_getElem inside,
      Array.getElem?_eq_getElem (size ▸ inside : cell.index < other.heap.procs.size)]
    exact .some (by simpa using one)
  · simp only [Heap.proc?, Array.getElem?_eq_none (Nat.le_of_not_lt inside),
      Array.getElem?_eq_none (size ▸ Nat.le_of_not_lt inside)]
    exact .none

theorem blockGiven : other.blockGiven = world.blockGiven := by
  obtain ⟨outer, blockless, calls⟩ := h.calls
  have last : ∀ calls : Array Call, calls.back? = calls.toList.getLast? := by simp
  rw [World.blockGiven, World.blockGiven, last, last, calls, List.getLast?_append]
  cases inner : other.calls.toList.getLast? with
  | some call => rfl
  | none =>
      cases found : outer.getLast? with
      | none => rfl
      | some call => simp [blockless call (List.mem_of_getLast? found)]

theorem calls_size : other.calls.size ≤ world.calls.size := by
  obtain ⟨outer, -, calls⟩ := h.calls
  have length := congrArg List.length calls
  simp only [List.length_append, Array.length_toList] at length
  omega

end Same

/-! ### What keeps worlds alike -/

/-- A change that neither reads nor changes the labels. -/
theorem changes (h : world.Alike twins other) {f : World → World}
    (commutes : ∀ world labels, f (world.relabel labels) = (f world).relabel labels) :
    (f world).Alike twins (f other) := by
  have kept (world : World) : (f world).labels = world.labels := by
    have own := commutes world world.labels
    rw [relabel_labels] at own
    exact own ▸ rfl
  refine ⟨?_, ?_⟩
  · rw [kept, ← commutes, ← h.rest]
  · rw [kept, kept]
    exact h.labels

/-- Other labels that are alike. -/
theorem relabel (h : world.Alike twins other) (labels labels' : Labels)
    (alike : labels.Alike twins labels') :
    (world.relabel labels).Alike twins (other.relabel labels') where
  rest := by
    rw [h.rest]
    rfl
  labels := alike

theorem count (h : world.Alike twins other) : world.count.Alike twins other.count :=
  h.relabel { world.labels with steps := world.steps + 1 }
    { other.labels with steps := other.steps + 1 }
    { h.labels with steps := Nat.succ_le_succ h.labels.steps }

theorem beginCall (h : world.Alike twins other) (call : Call) :
    (world.beginCall call).Alike twins (other.beginCall call) := by
  obtain ⟨outer, blockless, calls⟩ := h.calls
  refine h.relabel { world.labels with calls := world.calls.push call }
    { other.labels with calls := other.calls.push call }
    { h.labels with calls := ⟨outer, blockless, ?_⟩ }
  rw [Array.toList_push, Array.toList_push, calls, List.append_assoc]

theorem endCall (h : world.Alike twins other) : world.endCall.Alike twins other.endCall := by
  obtain ⟨outer, blockless, calls⟩ := h.calls
  refine h.relabel { world.labels with calls := world.calls.pop }
    { other.labels with calls := other.calls.pop } { h.labels with calls := ?_ }
  rw [Array.toList_pop, Array.toList_pop, calls]
  by_cases none : other.calls.toList = []
  · refine ⟨outer.dropLast, fun call member => blockless call (List.dropLast_subset _ member), ?_⟩
    simp [none]
  · exact ⟨outer, blockless, List.dropLast_append_of_ne_nil none⟩

theorem setMethod (h : world.Alike twins other) {method method' : Method}
    (alike : method.Alike twins method') (name : String) :
    World.Alike twins { world with methods := world.methods.set name method }
      { other with methods := other.methods.set name method' } := by
  refine h.relabel { world.labels with methods := world.methods.set name method }
    { other.labels with methods := other.methods.set name method' }
    { h.labels with methods := fun found => ?_ }
  simp only [Table.get?_set]
  split
  · exact .some alike
  · exact h.methods found

theorem newProc (h : world.Alike twins other) {proc proc' : Proc}
    (alike : proc.Alike twins proc') :
    World.Alike twins { world with heap := (world.heap.newProc proc).2 }
      { other with heap := (other.heap.newProc proc').2 } := by
  have grown : List.Forall₂ (Proc.Alike twins) (world.heap.procs.push proc).toList
      (other.heap.procs.push proc').toList := by
    rw [Array.toList_push, Array.toList_push]
    exact List.rel_append h.procs (.cons alike .nil)
  exact h.relabel { world.labels with procs := world.heap.procs.push proc }
    { other.labels with procs := other.heap.procs.push proc' }
    { h.labels with procs := grown }

end World.Alike

/-! ## Steps of a computation on worlds -/

namespace Run

variable {α : Type} {twins : UInt32 → UInt32 → Prop} {world other : World}
  (h : world.Alike twins other)

include h

/-- A computation that neither reads nor changes the labels. -/
theorem agrees_changes {f : World → α × World} (commutes : ∀ world labels,
    f (world.relabel labels) = ((f world).1, (f world).2.relabel labels)) :
    Agrees Eq (World.Alike twins) (modifyGet f : Run α) (modifyGet f) world other := by
  have same : (f world).1 = (f other).1 := by
    rw [h.rest, commutes]
  exact ⟨same, h.changes (f := fun world => (f world).2)
    fun world labels => congrArg Prod.snd (commutes world labels)⟩

theorem agrees_modify {f : World → World}
    (commutes : ∀ world labels, f (world.relabel labels) = (f world).relabel labels) :
    Agrees Eq (World.Alike twins) (modify f : Run Unit) (modify f) world other :=
  .modifies (h.changes commutes)

theorem agrees_alloc {make : Heap → α × Heap} (commutes : ∀ heap procs,
    make (heap.withProcs procs) = ((make heap).1, (make heap).2.withProcs procs)) :
    Agrees Eq (World.Alike twins) (alloc make) (alloc make) world other := by
  refine agrees_changes h fun world labels => ?_
  have made := commutes world.heap labels.procs
  simp only [World.relabel, made]

theorem agrees_modifyHeap {f : Heap → Heap}
    (commutes : ∀ heap procs, f (heap.withProcs procs) = (f heap).withProcs procs) :
    Agrees Eq (World.Alike twins) (modifyHeap f) (modifyHeap f) world other := by
  refine agrees_modify h fun world labels => ?_
  have made := commutes world.heap labels.procs
  simp only [World.relabel, made]

theorem agrees_newString (text : String) :
    Agrees Eq (World.Alike twins) (newString text) (newString text) world other :=
  (agrees_alloc h fun _ _ => rfl).bind fun _ _ _ _ same kept => .pure kept (same ▸ rfl)

theorem agrees_newArray (items : Array Value) :
    Agrees Eq (World.Alike twins) (newArray items) (newArray items) world other :=
  (agrees_alloc h fun _ _ => rfl).bind fun _ _ _ _ same kept => .pure kept (same ▸ rfl)

theorem agrees_newObject (className : String) :
    Agrees Eq (World.Alike twins) (newObject className) (newObject className) world other :=
  (agrees_alloc h fun _ _ => rfl).bind fun _ _ _ _ same kept => .pure kept (same ▸ rfl)

theorem agrees_newInteger (n : Int) :
    Agrees Eq (World.Alike twins) (newInteger n) (newInteger n) world other :=
  .ite (fun _ => .pure h rfl) fun _ => agrees_alloc h fun _ _ => rfl

theorem agrees_intern (name : String) :
    Agrees Eq (World.Alike twins) (intern name) (intern name) world other :=
  agrees_changes h fun _ _ => rfl

theorem agrees_write (text : String) :
    Agrees Eq (World.Alike twins) (write text) (write text) world other :=
  agrees_modify h fun _ _ => rfl

theorem agrees_setGlobal (name : String) (value : Value) :
    Agrees Eq (World.Alike twins) (setGlobal name value) (setGlobal name value) world other :=
  agrees_modify h fun _ _ => rfl

theorem agrees_setConstant (name : String) (value : Value) :
    Agrees Eq (World.Alike twins) (setConstant name value) (setConstant name value) world other :=
  agrees_modify h fun _ _ => rfl

theorem agrees_setMethod {method method' : Method} (alike : method.Alike twins method')
    (name : String) :
    Agrees Eq (World.Alike twins) (setMethod name method) (setMethod name method') world other :=
  .modifies (h.setMethod alike name)

theorem agrees_newProc {proc proc' : Proc} (alike : proc.Alike twins proc') :
    Agrees Eq (World.Alike twins) (alloc (·.newProc proc)) (alloc (·.newProc proc')) world other := by
  refine ⟨?_, h.newProc alike⟩
  have size : world.heap.procs.size = other.heap.procs.size := by
    simpa using h.procs.length_eq
  exact congrArg Ref.mk size

theorem agrees_notConvertible {values : α → α → Prop} (expected : String) (value : Value) :
    Agrees values (World.Alike twins) (notConvertible expected value : Run α)
      (notConvertible expected value) world other := by
  refine .get ?_
  rw [h.className]
  exact .throws h _

theorem agrees_expectArgs (args : List Value) (expected : Nat) :
    Agrees Eq (World.Alike twins) (expectArgs args expected) (expectArgs args expected) world
      other :=
  .ite (fun _ => .pure h rfl) fun _ => .throws h _

theorem agrees_requireBlock (block : Option (Ref .proc)) :
    Agrees Eq (World.Alike twins) (requireBlock block) (requireBlock block) world other := by
  cases block with
  | some cell => exact .pure h rfl
  | none => exact .throws h _

end Run

end BlockScript
