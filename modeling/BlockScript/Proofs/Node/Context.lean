import BlockScript.Proofs.Contract.Client
import BlockScript.Proofs.Node.Plain
import Mathlib.Logic.Function.Basic

/-!
# Where an operation of a script stands

An operation of a script is found in it from the outside: each layer around it is what comes before
or after it, or an operation that it is nested code of. The bodies of methods and blocks are no
layers, since they are units of their own.

What is known of the current line is passed on from one part of a program to the next. Nested code
may be skipped or repeated when it is executed, and is recorded just once. So something is known of
the line after it only where it comes to the same in both ways. A body is recorded on the way and
has to leave the line as it was, since the immediate backend sets the line for the script, too.
-/

namespace BlockScript

variable {α γ : Type}

/-- What is known of the current line. -/
abbrev Known := Option UInt32 → Prop

namespace Known

/-- Nothing. -/
def any : Known := fun _ => True

/-- The line itself. -/
def exactly (line : Option UInt32) : Known := (· = line)

/-- No less is known. -/
def Implies (known weaker : Known) : Prop := ∀ line, known line → weaker line

theorem Implies.refl (known : Known) : known.Implies known := fun _ => id

theorem implies_any (known : Known) : known.Implies .any := fun _ _ => trivial

end Known

namespace Action

variable {ε : Type}

/-- From what is known of the current line before the action follows what is known after it, when it
is recorded as well as when it is executed. -/
inductive Settles : Action ε → (known known' : Known) → Prop
  | silent {action : Action ε} (silent : action.Silent) (known : Known) : Settles action known known
  | mark (line : UInt32) (known : Known) :
      Settles (primitive (.line line)) known (.exactly (some line))
  | seq {first next : Action ε} {known middle known' : Known} (h₁ : Settles first known middle)
      (h₂ : Settles next middle known') : Settles (seq first next) known known'
  /-- Either arm is executed; the second one is recorded after the first one. -/
  | branch {onTrue onFalse : Action ε} {known known' : Known} (h₁ : Settles onTrue known known')
      (h₂ : Settles onFalse known known') (h₃ : Settles onFalse known' known') :
      Settles (branch onTrue onFalse) known known'
  | logical (connective : Connective) {right : Action ε} {known : Known}
      (h : Settles right known known) : Settles (logical connective right) known known
  /-- A test is executed last, the body is recorded last. -/
  | loopFirst {condition body : Action ε} {known known' : Known}
      (h₁ : Settles condition known known') (h₂ : Settles body known' known')
      (again : known'.Implies known) : Settles (loop condition body true) known known'
  | loopLast {condition body : Action ε} {known middle known' : Known}
      (h₁ : Settles body known middle) (h₂ : Settles condition middle known')
      (again : known'.Implies known) : Settles (loop condition body false) known known'
  | array {count : Nat} {element : Nat → Action ε} (knows : Nat → Known)
      (each : ∀ index < count, Settles (element index) (knows index) (knows (index + 1))) :
      Settles (array count element) (knows 0) (knows count)
  | callBlock (name : String) (shape : Invocation) (scope : StaticScope) (arity : Nat)
      {body : Action ε} {known : Known} (h : Settles body known known) :
      Settles (callBlock name shape scope arity body) known known
  | closure (scope : StaticScope) (arity : Nat) {body : Action ε} {known : Known}
      (h : Settles body known known) : Settles (closure scope arity body) known known
  | method (name : String) (arity localCount : Nat) {body : Action ε} {known : Known}
      (h : Settles body known known) : Settles (method name arity localCount body) known known
  | any (action : Action ε) (known : Known) : Settles action known .any
  | consequence {action : Action ε} {known weaker stronger known' : Known}
      (h : Settles action weaker stronger) (before : known.Implies weaker)
      (after : stronger.Implies known') : Settles action known known'

end Action

/-! ## Layers -/

/-- A place for nested code in an operation, among the other pieces of it. -/
inductive Place (α : Type) where
  | onTrue (onFalse : α)
  | onFalse (onTrue : α)
  | right (connective : Connective)
  | condition (body : α) (checkFirst : Bool)
  | body (condition : α) (checkFirst : Bool)
  | element (count : Nat) (element : Nat → α) (index : Fin count)

/-- What is directly around a part of a program. -/
inductive Layer (α : Type) where
  /-- The part comes first. -/
  | first (next : α)
  /-- The part comes next. -/
  | next (first : α)
  | nested (place : Place α)

/-- This piece of nested code is put into another place of the operation. -/
def Place.Has : Place α → α → Prop
  | .onTrue other, part | .onFalse other, part | .condition other _, part | .body other _, part =>
    part = other
  | .right _, _ => False
  | .element _ elements index, part => ∃ other ≠ index.val, part = elements other

/-- This part stands beside the one that the layer is around. -/
def Layer.Has : Layer α → α → Prop
  | .first other, part | .next other, part => part = other
  | .nested place, part => place.Has part

def Place.map (f : α → γ) : Place α → Place γ
  | .onTrue other => .onTrue (f other)
  | .onFalse other => .onFalse (f other)
  | .right connective => .right connective
  | .condition other checkFirst => .condition (f other) checkFirst
  | .body other checkFirst => .body (f other) checkFirst
  | .element count elements index => .element count (fun other => f (elements other)) index

def Layer.map (f : α → γ) : Layer α → Layer γ
  | .first other => .first (f other)
  | .next other => .next (f other)
  | .nested place => .nested (place.map f)

theorem Place.has_map {f : α → γ} {place : Place α} {part : γ} (has : (place.map f).Has part) :
    ∃ other, place.Has other ∧ part = f other := by
  cases place with
  | right connective => exact has.elim
  | element count element index =>
      obtain ⟨other, apart, rfl⟩ := has
      exact ⟨_, ⟨other, apart, rfl⟩, rfl⟩
  | _ => exact ⟨_, rfl, has⟩

theorem Layer.has_map {f : α → γ} {layer : Layer α} {part : γ} (has : (layer.map f).Has part) :
    ∃ other, layer.Has other ∧ part = f other := by
  cases layer with
  | nested place => exact place.has_map has
  | _ => exact ⟨_, rfl, has⟩

/-! ## What is known where the part begins -/

section Enters

/-- From what is known before an operation follows what is known where this piece of its nested code
begins, when it is recorded as well as whenever it is executed. It is given how the pieces change
what is known. -/
def Place.Enters (moves : α → Known → Known → Prop) (part : α) :
    Place α → (known entry : Known) → Prop
  | .onTrue _, known, entry | .right _, known, entry => entry = known
  | .onFalse other, known, entry => known.Implies entry ∧ moves other known entry
  | .condition other checkFirst, known, entry =>
    ∃ again, known.Implies (if checkFirst then entry else again) ∧ moves part entry again ∧
      moves other again entry
  | .body other checkFirst, known, entry =>
    ∃ again, known.Implies (if checkFirst then again else entry) ∧ moves part entry again ∧
      moves other again entry
  | .element _ elements index, known, entry =>
    ∃ knows : Nat → Known, knows 0 = known ∧ knows index = entry ∧
      ∀ other < index.val, moves (elements other) (knows other) (knows (other + 1))

/-- The same of any layer around a part. -/
def Layer.Enters (moves : α → Known → Known → Prop) (part : α) :
    Layer α → (known entry : Known) → Prop
  | .first _, known, entry => entry = known
  | .next other, known, entry => moves other known entry
  | .nested place, known, entry => place.Enters moves part known entry

variable {moves : α → Known → Known → Prop} {moves' : γ → Known → Known → Prop} {f : α → γ}
  {part : α} {part' : γ} {known entry : Known}

theorem Place.Enters.map {place : Place α} (enters : place.Enters moves part known entry)
    (h₁ : ∀ other, place.Has other → ∀ {known known'}, moves other known known' →
      moves' (f other) known known')
    (h₂ : ∀ {known'}, moves part entry known' → moves' part' entry known') :
    (place.map f).Enters moves' part' known entry := by
  cases place with
  | onTrue onFalse => exact enters
  | right connective => exact enters
  | onFalse onTrue => exact ⟨enters.1, h₁ _ rfl enters.2⟩
  | condition body checkFirst =>
      obtain ⟨again, start, tests, repeats⟩ := enters
      exact ⟨again, start, h₂ tests, h₁ _ rfl repeats⟩
  | body condition checkFirst =>
      obtain ⟨again, start, repeats, tests⟩ := enters
      exact ⟨again, start, h₂ repeats, h₁ _ rfl tests⟩
  | element count element index =>
      obtain ⟨knows, before, here, each⟩ := enters
      exact ⟨knows, before, here, fun other earlier =>
        h₁ _ ⟨other, Nat.ne_of_lt earlier, rfl⟩ (each other earlier)⟩

theorem Layer.Enters.map {layer : Layer α} (enters : layer.Enters moves part known entry)
    (h₁ : ∀ other, layer.Has other → ∀ {known known'}, moves other known known' →
      moves' (f other) known known')
    (h₂ : ∀ {known'}, moves part entry known' → moves' part' entry known') :
    (layer.map f).Enters moves' part' known entry := by
  cases layer with
  | first next => exact enters
  | next first => exact h₁ _ rfl enters
  | nested place => exact Place.Enters.map enters h₁ h₂

/-- That nothing is known is known everywhere. -/
theorem Layer.enters_any (layer : Layer α) (h : ∀ part, moves part .any .any) :
    layer.Enters moves part .any .any := by
  cases layer with
  | first next => exact rfl
  | next first => exact h first
  | nested place =>
      cases place with
      | onTrue onFalse => exact rfl
      | right connective => exact rfl
      | onFalse onTrue => exact ⟨.refl .any, h onTrue⟩
      | condition body checkFirst => exact ⟨.any, fun _ _ => by split <;> trivial, h part, h body⟩
      | body condition checkFirst =>
          exact ⟨.any, fun _ _ => by split <;> trivial, h part, h condition⟩
      | element count element index => exact ⟨fun _ => .any, rfl, rfl, fun other _ => h _⟩

end Enters

namespace Action

variable {ε : Type}

/-- The operation with the part in its place. -/
def atPlace : Place (Action ε) → Action ε → Action ε
  | .onTrue onFalse, part => branch part onFalse
  | .onFalse onTrue, part => branch onTrue part
  | .right connective, part => logical connective part
  | .condition body checkFirst, part => loop part body checkFirst
  | .body condition checkFirst, part => loop condition part checkFirst
  | .element count element index, part => array count (Function.update element index part)

/-- The part with what is directly around it. -/
def within : Layer (Action ε) → Action ε → Action ε
  | .first next, part => seq part next
  | .next first, part => seq first part
  | .nested place, part => atPlace place part

/-- The part with all that is around it, from the outside to the inside. -/
def inContext (context : List (Layer (Action ε))) (part : Action ε) : Action ε :=
  context.foldr within part

theorem plain_of_atPlace {place : Place (Action ε)} {part : Action ε}
    (plain : (atPlace place part).Plain) :
    part.Plain ∧ ∀ other, place.Has other → other.Plain := by
  cases place with
  | onTrue onFalse => exact ⟨plain.1, fun _ has => has ▸ plain.2⟩
  | onFalse onTrue => exact ⟨plain.2, fun _ has => has ▸ plain.1⟩
  | right connective => exact ⟨plain, fun _ has => has.elim⟩
  | condition body checkFirst => exact ⟨plain.1, fun _ has => has ▸ plain.2⟩
  | body condition checkFirst => exact ⟨plain.2, fun _ has => has ▸ plain.1⟩
  | element count element index =>
      have each (other : Nat) : (Function.update element index part other).Plain := plain other
      constructor
      · simpa using each index
      · rintro _ ⟨other, apart, rfl⟩
        simpa [apart] using each other

theorem plain_of_within {layer : Layer (Action ε)} {part : Action ε}
    (plain : (within layer part).Plain) :
    part.Plain ∧ ∀ other, layer.Has other → other.Plain := by
  cases layer with
  | first next => exact ⟨plain.1, fun _ has => has ▸ plain.2⟩
  | next first => exact ⟨plain.2, fun _ has => has ▸ plain.1⟩
  | nested place => exact plain_of_atPlace plain

/-- From what is known of the current line where the outermost layer begins follows what is known
where the operation begins. -/
inductive Leads (operation : Action ε) : List (Layer (Action ε)) → (known entry : Known) → Prop
  | here (known : Known) : Leads operation [] known known
  | inside {layer : Layer (Action ε)} {context : List (Layer (Action ε))}
      {known middle entry : Known}
      (enters : layer.Enters Settles (inContext context operation) known middle)
      (leads : Leads operation context middle entry) : Leads operation (layer :: context) known entry
  | weaken {context : List (Layer (Action ε))} {known weaker entry : Known}
      (leads : Leads operation context weaker entry) (implies : known.Implies weaker) :
      Leads operation context known entry

/-- Nothing needs to be known of the line where it is set further inside. -/
theorem Leads.marked {operation : Action ε} (layer : Layer (Action ε)) (known : Known)
    {context : List (Layer (Action ε))} {entry : Known}
    (leads : Leads operation context .any entry) : Leads operation (layer :: context) known entry :=
  .weaken (.inside (layer.enters_any fun part => .any part .any) leads) known.implies_any

/-- The action with its failures marked, so that they can be told from those of its surroundings. -/
def tagged (action : Action ε) : Action ε := rescue action fun error => fail (.aborted error)

end Action

end BlockScript
