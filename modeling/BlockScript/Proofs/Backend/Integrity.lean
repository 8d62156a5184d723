import BlockScript.Proofs.Backend.Scripted
import BlockScript.Proofs.Backend.Secured

/-!
# Operations of the immediate backend on sound sessions

At script level an operation is executed by the machine, and all code is settled then, since the
script is the only unit. Within a unit it is recorded, and what it refers to was settled when its
position was made. In both cases the session stays sound. A body that is recorded in a unit of
its own must be observed: the state that it leaves behind must be in the journal, so that one can
tell whether the unit clashes when it is closed.
-/

namespace BlockScript

variable {υ α γ : Type}

namespace Bench

variable {bench bench' : Bench} {position slot : UInt32}

/-- Growing the pool leaves the code as it is. -/
theorem Pools.code?_eq (h : bench.Pools bench') : bench'.program.code? = bench.program.code? := by
  rw [← seen_nil, ← seen_nil, seen_congr h.code]

theorem text_of_get? {pool : Pool} {constant : Constant} {text : String}
    (pooled : pool.get? position = some constant) (has : constant.text? = some text) :
    ∃ text, pool.text? position = some text := by
  refine ⟨text, ?_⟩
  rw [Pool.text?, pooled]
  exact has

theorem admits_localOp {index depth : Nat} {assign : Bool}
    (reachable : depth ≤ enclosing bench.units.units) :
    bench.Admits (localOp index depth assign) := by
  refine ⟨pooled_localOp .., Nat.le_trans (outward_localOp ..) reachable, fun target names => ?_⟩
  rw [codeRef?_localOp] at names
  cases names

theorem admits_makeClosure
    (settled : Settled bench.program.code? slot (enclosing bench.units.units + 1)) :
    bench.Admits (.makeClosure slot) := by
  refine ⟨trivial, Nat.zero_le _, ?_⟩
  rintro target ⟨⟩
  exact settled

theorem admits_defineMethod {name : String}
    (pooled : bench.program.constants.get? position = some (.name name))
    (settled : Settled bench.program.code? slot 0) : bench.Admits (.defineMethod position slot) := by
  refine ⟨text_of_get? pooled rfl, Nat.zero_le _, ?_⟩
  rintro target ⟨⟩
  exact settled

theorem admits_send {name : String} {argc : UInt32} {receiver : Bool} {block : Option UInt32}
    (pooled : bench.program.constants.get? position = some (.name name))
    (settled : ∀ code, block = some code →
      Settled bench.program.code? code (enclosing bench.units.units + 1)) :
    bench.Admits (.send position argc receiver block) :=
  ⟨text_of_get? pooled rfl, Nat.zero_le _, fun target names => settled target names⟩

end Bench

namespace Interpreter

variable {before : Watched υ → Prop} {after : α → Watched υ → Prop} {session : Watched υ}

/-! ## Looking at the state -/

namespace Secures

theorem bench {next : Bench → Work Interpreter (Journal Interpreter υ) α}
    (h : ∀ seen, Secures (fun session => session.bench = seen ∧ before session) (next seen) after) :
    Secures before (Work.bench >>= next) after := by
  refine fun session => Ends.get (Ends.mono (h session.bench session) ?_ ?_) <;>
  · intro _ _ reached start
    exact reached (start.imp fun holds => ⟨rfl, holds⟩)

theorem stack {next : List Value → Work Interpreter (Journal Interpreter υ) α}
    (h : ∀ seen, Secures (fun session => session.backend.top.stack = seen ∧ before session)
      (next seen) after) : Secures before (Interpreter.stack >>= next) after := by
  refine fun session => Ends.get (Ends.mono (h session.backend.top.stack session) ?_ ?_) <;>
  · intro _ _ reached start
    exact reached (start.imp fun holds => ⟨rfl, holds⟩)

/-- What comes after a breach of contract does not matter. -/
theorem stop {next : γ → Work Interpreter (Journal Interpreter υ) α} (kind : Violation) :
    Secures before (Work.violate kind >>= next) after := fun session =>
  (violate kind : Secures before (Work.violate kind : Work Interpreter (Journal Interpreter υ) α)
    after) session

theorem ensureOpen : Secures before (ensureOpen : Work Interpreter (Journal Interpreter υ) Unit)
    fun _ session => session.bench.units.units ≠ [] ∧ before session := by
  refine .bench fun bench => ?_
  refine .ite (fun _ => .violate _) fun opened => .pure ?_
  rintro session ⟨rfl, holds⟩
  exact ⟨by simpa using opened, holds⟩

/-- A constant joins the pool. -/
theorem intern {constant : Constant} {known : UInt32 → Watched υ → Prop}
    (h : ∀ (session : Watched υ) position bench', before session → session.bench.Pools bench' →
      bench'.program.constants.get? position = some constant →
        known position { session with bench := bench' }) : Secures before
    (Work.onBench (Bench.intern constant) : Work Interpreter (Journal Interpreter υ) UInt32) known :=
  .supported (Bench.moves_upholds (Bench.lasts_appending.intern constant))
    fun session sound holds => (sound.grounded.supports_intern constant).mono
      fun position bench' pools => h session position bench' holds pools.1 pools.2

/-- An operation is recorded or carried out. -/
theorem either {recorded live : Work Interpreter (Journal Interpreter υ) α}
    (h₁ : Secures before recorded after)
    (h₂ : Secures (fun session => session.bench.recording? = none ∧ before session) live after) :
    Secures before (do if ← recording then recorded else live) after := by
  refine fun session => Ends.get (Ends.ite (fun _ => h₁ session) fun idle => ?_)
  refine Ends.mono (h₂ session) ?_ ?_ <;>
  · intro _ _ reached start
    exact reached (start.imp fun holds => ⟨by simpa using idle, holds⟩)

end Secures

/-! ## Executing -/

/-- At script level nothing is being recorded, so all code is settled and an operation that finds
what it refers to is executed without an error of the machine itself. -/
theorem secures_execute (fuel : Nat) (op : Op) (line : Option UInt32) :
    Secures (fun session => session.bench.recording? = none ∧ session.bench.units.units ≠ [] ∧
        session.bench.Admits op ∧ op.pops ≤ session.backend.top.stack.length)
      (execute fuel op line : Work Interpreter (Journal Interpreter υ) Unit) fun _ _ => True := by
  refine .step fun session => ends_execute (Ends.intro ?_ ?_) <;>
  · intro _ state run
    refine .beside rfl rfl fun sound ⟨idle, opened, admits, enough⟩ => ?_
    obtain ⟨unit, hunits, executed, kind⟩ := sound.script_only idle opened
    have empty : Bench.slots session.bench.places = [] := by
      simp [Bench.places, hunits, Bench.slots, Bench.place, executed]
    have flat : enclosing session.bench.units.units = 0 := by
      rw [hunits, enclosing_cons, kind]
      rfl
    have anchored := sound.anchored
    rw [Bench.seen_of_slots empty] at anchored
    have finds := admits.finds
    rw [flat] at finds
    have ends := Machine.ends_complete_anchored (sound.grounded.complete empty) anchored
      sound.alive enough admits.pooled finds (Heap.deep_zero _ _) session.backend.limits fuel
    have rebuild (after : World.Anchored session.bench.program.code? state.2 ∧
        state.1.Alive state.2.heap) : Sound session.bench
          { session.backend with top := state.1, world := state.2 } :=
      ⟨sound.grounded, sound.staged, (Bench.seen_of_slots empty).symm ▸ after.1, after.2⟩
    first
    | exact ⟨rebuild (ends.ok run), trivial⟩
    | obtain ⟨anchored', alive', kind'⟩ := ends.error run
      refine ⟨rebuild ⟨anchored', alive'⟩, ?_⟩
      rintro error _ heq
      split at heq
      · cases heq
        exact kind' error rfl
      · cases heq

/-- An operation that finds what it refers to is recorded or executed. -/
theorem secures_perform (fuel : Nat) (operation : String) (op : Op) :
    Secures (fun session => session.bench.Admits op)
      (perform fuel operation op : Work Interpreter (Journal Interpreter υ) Unit)
      fun _ _ => True := by
  refine Secures.ensureOpen.bind fun _ => .either ?_ ?_
  · exact .supported (Bench.moves_upholds (Bench.moves_emit operation op))
      fun session sound holds => sound.grounded.supports_emit operation holds.2
  · refine .stack fun values => .ite (fun _ => .stop _) fun enough => .bench fun bench => ?_
    refine (secures_execute fuel op bench.currentLine).mono ?_ fun _ _ => id
    rintro session ⟨-, rfl, idle, opened, admits⟩
    exact ⟨idle, opened, admits, Nat.le_of_not_lt enough⟩

theorem secures_pop (operation : String) :
    Secure (pop operation : Work Interpreter (Journal Interpreter υ) Value) := by
  refine .stack fun values => ?_
  cases values with
  | nil => exact .violate _
  | cons value rest =>
      have takes : Secures (fun session => session.backend.top.stack = value :: rest ∧ True)
          (setStack rest : Work Interpreter (Journal Interpreter υ) Unit) fun _ _ => True := by
        refine .step fun session => Ends.modifies (.beside rfl rfl fun sound ⟨stack, _⟩ => ?_)
        have alive := sound.alive
        refine ⟨⟨sound.grounded, sound.staged, sound.anchored,
          ⟨fun other member => alive.stack other ?_, alive.frame, alive.self, alive.block⟩⟩, trivial⟩
        exact stack ▸ List.mem_cons_of_mem _ member
      exact takes.bind fun _ => .pure fun _ _ => trivial

theorem secures_plain (fuel : Nat) (operation : String) {op : Op} (plain : op.Plain) :
    Secure (perform fuel operation op : Work Interpreter (Journal Interpreter υ) Unit) :=
  (secures_perform fuel operation op).mono
    (fun session _ => Bench.admits_plain plain session.bench) fun _ _ => id

theorem secures_scripted (fuel : Nat) : Scripted (υ := Journal Interpreter υ) fuel
    (fun {α} (action : Work Interpreter (Journal Interpreter υ) α) => Secure action) where
  toSequenced := Secures.sequenced
  look _ := fun _ => id
  pop := secures_pop
  collapse operation count := secures_plain fuel operation (.makeArray count)

/-! ## Operations without nested code -/

section Primitives

variable {fuel : Nat} {operation : String}

theorem secures_pooled {constant : Constant} {op : UInt32 → Op}
    (admits : ∀ (bench : Bench) position,
      bench.program.constants.get? position = some constant → bench.Admits (op position)) :
    Secures before (do
      perform fuel operation (op (← Work.onBench (Bench.intern constant))) :
        Work Interpreter (Journal Interpreter υ) Unit) fun _ _ => True :=
  (Secures.intern fun _ position bench' _ _ pooled => admits bench' position pooled).bind
    fun position => secures_perform fuel operation (op position)

theorem secures_local (index depth : Nat) (assign : Bool) : Secure (do
    Work.onBench (Bench.checkScopeDepth depth)
    perform fuel operation (Bench.localOp index depth assign) :
      Work Interpreter (Journal Interpreter υ) Unit) := by
  have checks : Secures (fun _ => True)
      (Work.onBench (Bench.checkScopeDepth depth) : Work Interpreter (Journal Interpreter υ) Unit)
      fun _ session => session.bench.Admits (Bench.localOp index depth assign) := by
    refine .supported (Bench.moves_upholds (Bench.lasts_appending.checkScopeDepth depth))
      fun session sound _ => (sound.grounded.supports_checkScopeDepth depth).mono ?_
    rintro _ _ ⟨rfl, reachable⟩
    exact Bench.admits_localOp reachable
  exact checks.bind fun _ => secures_perform fuel operation _

theorem secures_alias (newName oldName : String) : Secure (do
    let new ← Work.onBench (Bench.intern (.name newName))
    let old ← Work.onBench (Bench.intern (.name oldName))
    perform fuel operation (.aliasMethod new old) :
      Work Interpreter (Journal Interpreter υ) Unit) := by
  have first : Secures (fun _ => True) (Work.onBench (Bench.intern (.name newName)) :
      Work Interpreter (Journal Interpreter υ) UInt32) fun new session =>
        session.bench.program.constants.get? new = some (.name newName) :=
    .intern fun _ _ _ _ _ pooled => pooled
  have second (new : UInt32) : Secures
      (fun session => session.bench.program.constants.get? new = some (.name newName))
      (Work.onBench (Bench.intern (.name oldName)) : Work Interpreter (Journal Interpreter υ) UInt32)
      fun old session => session.bench.Admits (.aliasMethod new old) :=
    .intern fun _ old _ known pools pooled =>
      ⟨⟨Bench.text_of_get? (pools.kept new _ known) rfl, Bench.text_of_get? pooled rfl⟩,
        Nat.zero_le _, by rintro target ⟨⟩⟩
  exact first.bind fun new => (second new).bind fun old => secures_perform fuel operation _

theorem secures_primitive (fuel : Nat) (p : Primitive) :
    Secure (primitive fuel p : Work Interpreter (Journal Interpreter υ) Unit) := by
  have scripted := secures_scripted (υ := υ) fuel
  have text {constant : Constant} {text : String} (has : constant.text? = some text) {op : UInt32 → Op}
      (pooled : ∀ pool position, (op position).Pooled pool ↔ ∃ text, pool.text? position = some text)
      (flat : ∀ position, (op position).outward = 0 ∧ (op position).codeRef? = none)
      (bench : Bench) (position : UInt32)
      (found : bench.program.constants.get? position = some constant) :
      bench.Admits (op position) := by
    refine ⟨(pooled _ _).mpr (Bench.text_of_get? found has), ?_, fun target names => ?_⟩
    · exact (flat position).1 ▸ Nat.zero_le _
    · rw [(flat position).2] at names
      cases names
  cases p with
  | consume | retrieveSelf | fixnum | toArray | loadFalse | loadTrue | loadNil | negate =>
      exact secures_plain fuel _ fun _ _ _ => ⟨trivial, Nat.zero_le _, trivial⟩
  | line line =>
      have sets : Secure (Work.modifyBench fun bench => { bench with line := some line } :
          Work Interpreter (Journal Interpreter υ) Unit) :=
        .modifyBench (fun _ => (Bench.lasts_rest _ _).upholds)
          fun bench grounded => grounded.rest grounded.constants (fun _ _ => id) _
      have appends : Secure (Work.onBench (Bench.setLine line) :
          Work Interpreter (Journal Interpreter υ) Unit) :=
        .supported (Bench.moves_upholds (Bench.moves_setLine line))
          fun _ sound _ => sound.grounded.supports_setLine line
      exact scripted.either (appends.bind fun _ => sets) sets
  | yield hasArgs =>
      exact Secures.ensureOpen.bind fun _ =>
        .supported (Bench.moves_upholds (Bench.lasts_appending.emitYield _ hasArgs))
          fun session sound _ => sound.grounded.supports_emitYield _ hasArgs
  | assignLocal index depth => exact secures_local index depth true
  | retrieveLocal index depth => exact secures_local index depth false
  | aliasMethod newName oldName => exact secures_alias newName oldName
  | bignum value =>
      refine secures_pooled fun bench position found => ⟨⟨value, found⟩, Nat.zero_le _, ?_⟩
      rintro target ⟨⟩
  | retrieveConstant name =>
      have reads : Secure (do
          perform fuel "retrieve_constant"
            (.getConst (← Work.onBench (Bench.intern (.name name)))) :
          Work Interpreter (Journal Interpreter υ) Unit) :=
        secures_pooled (text rfl (fun _ _ => Iff.rfl) fun _ => ⟨rfl, rfl⟩)
      have refuses : Secure (do
          Work.fail (.resolution .constant name (← Work.bench).currentLine)
          perform fuel "retrieve_constant"
            (.getConst (← Work.onBench (Bench.intern (.name name)))) :
          Work Interpreter (Journal Interpreter υ) Unit) :=
        scripted.bind scripted.bench fun _ => scripted.bind (scripted.fail trivial) fun _ => reads
      exact scripted.bind scripted.ensureOpen fun _ => scripted.bind scripted.recording fun recorded =>
        scripted.looks (fun _ world => (world.constants.get? name).isNone)
          fun unset => show Secure (if (!recorded && unset) = true then _ else _) from
            Sequenced.ite refuses reads
  | string | symbol | assignConstant | retrieveIvar | assignIvar | assignGlobal | retrieveGlobal =>
      exact secures_pooled (text rfl (fun _ _ => Iff.rfl) fun _ => ⟨rfl, rfl⟩)

end Primitives

/-! ## Units of their own -/

/-- If anything has changed that others can see, the state now is the last one that was noted. -/
def Noted (session session' : Watched υ) : Prop :=
  session'.bench = session.bench ∧ session'.client.events = session.client.events ∨
    ∃ event earlier, session'.client.events = event :: earlier ∧ event.bench = session'.bench

instance : IsPreorder (Watched υ) Noted where
  refl _ := .inl ⟨rfl, rfl⟩
  trans a b c h₁ h₂ := by
    rcases h₂ with ⟨bench, events⟩ | noted
    · rcases h₁ with ⟨bench', events'⟩ | ⟨event, earlier, first, now⟩
      · exact .inl ⟨bench.trans bench', events.trans events'⟩
      · exact .inr ⟨event, earlier, events.trans first, now.trans bench.symm⟩
    · exact .inr noted

/-- A bench that clashes is the last one that was noted. -/
def Heeds (session : Watched υ) : Prop := session.bench.Clashes →
  ∃ event earlier, session.client.events = event :: earlier ∧ event.bench = session.bench

/-- In a clean journal nothing that clashes goes away. -/
theorem Heeds.spares {session : Watched υ} (h : Heeds session) {bench : Bench}
    (clean : Clean session.client.events bench) : session.bench.Spares bench := by
  intro clashes
  obtain ⟨event, earlier, first, now⟩ := h clashes
  rw [first] at clean
  exact (now ▸ clean.1) clashes

/-- A computation that keeps sessions sound, and that the journal keeps up with. -/
structure Observed (action : Work Interpreter (Journal Interpreter υ) α) : Prop where
  secure : Secure action
  noted : Moves Noted action

theorem Observed.heeds {action : Work Interpreter (Journal Interpreter υ) α} (h : Observed action) :
    Secures (fun session => ¬session.bench.Clashes) action fun _ => Heeds := by
  refine fun session => Ends.intro (fun value session' run start => ?_) fun halt session' run start =>
    (h.secure session).error run (start.imp fun _ => trivial)
  have reached := (h.secure session).ok run (start.imp fun _ => trivial)
  refine ⟨reached.order, reached.past, reached.trusted, fun clean => ⟨(reached.holds clean).1, ?_⟩⟩
  rcases h.noted.ok run with ⟨bench, events⟩ | noted
  · rw [bench, events] at clean
    exact fun clashes => absurd (bench ▸ clashes) (start.holds clean).2
  · exact fun _ => noted

/-- The innermost unit is closed. Its position is settled for what its surroundings offer. -/
theorem secures_closeUnit (handle : UnitHandle) (kind : UnitKind) :
    Secures Heeds
      (Work.onBench (Bench.closeUnit handle kind) : Work Interpreter (Journal Interpreter υ) UInt32)
      fun slot session => Settled session.bench.program.code? slot
        (if kind = .closure then enclosing session.bench.units.units + 1 else 0) :=
  .onBench (Bench.moves_upholds (Bench.moves_closeUnit handle kind))
    fun _ sound heeds => (sound.grounded.supports_closeUnit handle kind).mono
      (fun _ _ reached clean => reached (heeds.spares clean)) fun _ _ => id

/-- A unit is opened inside another one. -/
theorem secures_openUnit {kind : UnitKind} (inner : kind ≠ .script) (name : String)
    (arity localCount : Nat) (locals : List String) :
    Secures (fun session => session.bench.units.units ≠ [])
      (Work.onBench (Bench.openUnit kind name arity localCount locals) :
        Work Interpreter (Journal Interpreter υ) UnitHandle)
      fun _ session => ¬session.bench.Clashes :=
  .supported (Bench.moves_upholds
    (Bench.moves_openUnit (absurd · inner) name arity localCount locals)) fun _ sound opened =>
      sound.grounded.supports_openUnit inner name arity localCount locals opened

section Units

variable {body : Work Interpreter (Journal Interpreter υ) Unit}

/-- The position of a unit that was recorded is settled for what its surroundings offer. -/
theorem secures_recordUnit (h : Observed body) {kind : UnitKind} (inner : kind ≠ .script)
    (name : String) (arity localCount : Nat) (locals : List String) :
    Secures (fun session => session.bench.units.units ≠ [])
      (Work.recordUnit kind name arity localCount locals body)
      fun slot session => Settled session.bench.program.code? slot
        (if kind = .closure then enclosing session.bench.units.units + 1 else 0) := by
  refine .bench fun bench => ?_
  have opens : Secures (fun session => session.bench = bench ∧ session.bench.units.units ≠ [])
      (Work.onBench (Bench.openUnit kind name arity localCount locals) :
        Work Interpreter (Journal Interpreter υ) UnitHandle)
      fun _ session => ¬session.bench.Clashes :=
    (secures_openUnit inner name arity localCount locals).mono (fun _ => And.right) fun _ _ => id
  refine opens.bind fun handle => .cleaning (h.heeds.bind fun _ => secures_closeUnit handle kind)
    (fun _ => (Bench.lasts_abandon _ _).upholds) fun _ grounded => grounded.abandon _

theorem secures_recordBlock (h : Observed body) (scope : StaticScope) (arity : Nat) :
    Secures (fun session => session.bench.units.units ≠ []) (Work.recordBlock scope arity body)
      fun slot session => Settled session.bench.program.code? slot
        (enclosing session.bench.units.units + 1) := by
  refine .bench fun bench => ?_
  exact (secures_recordUnit h (by nofun) _ _ _ _).mono (fun _ => And.right) fun _ _ settled => settled

theorem secures_recordBlock? {block : Option (BlockBody (Watched υ))}
    (h : ∀ given, block = some given → Observed given.body) :
    Secures (fun session => session.bench.units.units ≠ []) (Work.recordBlock? block)
      fun slot session => ∀ code, slot = some code →
        Settled session.bench.program.code? code (enclosing session.bench.units.units + 1) := by
  cases block with
  | none => exact .pure fun _ _ code names => nomatch (names : none = some code)
  | some given =>
      refine (secures_recordBlock (h given rfl) given.scope given.arity).bind fun slot => .pure ?_
      rintro session settled _ ⟨⟩
      exact settled

/-- A call, whose block is recorded first. -/
theorem secures_invoke {block : Option (BlockBody (Watched υ))}
    (h : ∀ given, block = some given → Observed given.body) (fuel : Nat) (name : String)
    (shape : Invocation) : Secure (invoke fuel name shape block) := by
  have emits (slot : Option UInt32) : Secures (fun session => ∀ code, slot = some code →
        Settled session.bench.program.code? code (enclosing session.bench.units.units + 1))
      (Work.onBench (Bench.emitSend Work.callOperation name shape slot) :
        Work Interpreter (Journal Interpreter υ) Unit) fun _ _ => True := by
    refine .supported (Bench.moves_upholds (Bench.lasts_appending.emitSend _ _ _ _))
      fun session sound settled => sound.grounded.supports_target.bind ?_
    rintro _ bench _ ⟨rfl, -⟩
    refine (sound.grounded.supports_intern _).bind fun position bench' sustained pools => ?_
    refine sustained.grounded.supports_emit _ (Bench.admits_send pools.2 fun code names => ?_)
    rw [pools.1.code?_eq, pools.1.units]
    exact settled code names
  have interns (slot : Option UInt32) : Secures (fun session => ∀ code, slot = some code →
        Settled session.bench.program.code? code (enclosing session.bench.units.units + 1))
      (Work.onBench (Bench.intern (.name name)) : Work Interpreter (Journal Interpreter υ) UInt32)
      fun position session =>
        session.bench.Admits (.send position shape.argc.toUInt32 shape.hasReceiver slot) := by
    refine .intern fun session position bench' settled pools pooled =>
      Bench.admits_send pooled fun code names => ?_
    rw [pools.code?_eq, pools.units]
    exact settled code names
  refine Secures.ensureOpen.bind fun _ => .either ?_ ?_
  · exact ((secures_recordBlock? h).bind emits).mono (fun _ => And.left) fun _ _ => id
  · refine .stack fun values => .ite (fun _ => .stop _) fun _ => ?_
    refine ((secures_recordBlock? h).bind fun slot => (interns slot).bind fun position =>
      secures_perform fuel Work.callOperation _).mono ?_ fun _ _ => id
    exact fun _ holds => holds.2.2.1

theorem secures_closure (h : Observed body) (fuel : Nat) (scope : StaticScope) (arity : Nat) :
    Secure (closure fuel scope arity body) := by
  refine Secures.ensureOpen.bind fun _ => ?_
  refine ((secures_recordBlock h scope arity).mono (fun _ => And.left)
    fun _ _ => Bench.admits_makeClosure).bind fun slot => secures_perform fuel _ _

theorem secures_defineMethod (h : Observed body) (fuel : Nat) (name : String)
    (arity localCount : Nat) : Secure (defineMethod fuel name arity localCount body) := by
  refine Secures.ensureOpen.bind fun _ => ?_
  refine ((secures_recordUnit h (by nofun) name arity localCount []).mono (fun _ => And.left)
    fun _ _ settled => settled).bind fun slot => ?_
  have interns : Secures (fun session => Settled session.bench.program.code? slot 0)
      (Work.onBench (Bench.intern (.name name)) : Work Interpreter (Journal Interpreter υ) UInt32)
      fun position session => session.bench.Admits (.defineMethod position slot) := by
    refine .intern fun session position bench' settled pools pooled =>
      Bench.admits_defineMethod pooled ?_
    rw [pools.code?_eq]
    exact settled
  exact interns.bind fun position => secures_perform fuel _ _

end Units

end Interpreter

end BlockScript
