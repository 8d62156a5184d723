import BlockScript.Proofs.Backend.Grounded

/-!
# Operations on grounded benches

Every operation of a bench that appends only what finds what it refers to leaves a grounded
bench grounded, whether it succeeds or not. Its failures are failures of generating code: in
particular a slot is never missing when a unit is closed. A unit may only be opened inside
another one, and closed only if it does not clash with a code object recorded inside it; its
position is then settled for the frames that its surroundings offer.
-/

namespace BlockScript.Bench

variable {α γ : Type} {bench bench' : Bench} {slot : UInt32} {builder : Builder}

/-- Whatever the outcome, the bench that is left is grounded and came from this one, and a failure
is one of generating code. -/
def Supports (bench : Bench) (action : BenchM α) (after : α → Bench → Prop) : Prop :=
  Ends action bench (fun value bench' => bench.Sustained bench' ∧ after value bench')
    fun error bench' => bench.Sustained bench' ∧ error.Static

namespace Supports

variable {action : BenchM α} {after weaker : α → Bench → Prop}

theorem mono (h : bench.Supports action after)
    (implies : ∀ value bench', after value bench' → weaker value bench') :
    bench.Supports action weaker :=
  Ends.weaken h fun value bench' reached => reached.imp id (implies value bench')

theorem bind {next : α → BenchM γ} {after' : γ → Bench → Prop} (first : bench.Supports action after)
    (rest : ∀ value bench', bench.Sustained bench' → after value bench' →
      bench'.Supports (next value) after') : bench.Supports (action >>= next) after' :=
  Ends.bind first fun value bench' ⟨reached, h⟩ => Ends.mono (rest value bench' reached h)
    (fun _ _ => And.imp_left reached.trans) fun _ _ => And.imp_left reached.trans

theorem of_unmoved (grounded : bench.Grounded)
    (h : Ends action bench (fun value bench' => bench.Sustained bench' ∧ after value bench')
      bench.Unmoved) : bench.Supports action after := by
  refine h.mono (fun _ _ => id) ?_
  rintro error _ ⟨static, rfl⟩
  exact ⟨.refl grounded, static⟩

end Supports

/-- The pool has at most grown, and nothing else has changed. -/
structure Pools (bench bench' : Bench) : Prop where
  units : bench'.units = bench.units
  code : bench'.program.code = bench.program.code
  kept : ∀ position constant, bench.program.constants.get? position = some constant →
    bench'.program.constants.get? position = some constant

/-! ## Order -/

theorem upholds_build {action : Builder → Except CompileError (α × Builder)}
    (checked : ∀ builder, Checked (action builder)) : Moves Upholds (build action) := by
  refine fun bench => (ends_build checked).mono ?_ fun _ _ failed =>
    failed.2 ▸ refl_of Upholds bench
  rintro value _ ⟨slot, builder, builder', found, run, rfl⟩
  exact bench.upholds_setBuilder builder'

theorem upholds_modifyBuilder (f : Builder → Builder) : Moves Upholds (modifyBuilder f) := by
  intro bench
  cases found : bench.recording? with
  | some recording =>
      refine (ends_modifyBuilder found f).weaken ?_
      rintro _ _ rfl
      exact bench.upholds_setBuilder _
  | none =>
      unfold Ends
      rw [modifyBuilder_of_none found]
      exact refl_of Upholds bench

theorem upholds_enter : Moves Upholds (fun bench =>
    match bench.units.enter with
    | .ok units => .ok () { bench with units }
    | .error error => .error error bench) := by
  intro bench
  unfold Ends
  dsimp only
  cases entered : bench.units.enter with
  | error error => exact refl_of Upholds bench
  | ok units =>
      rw [UnitStack.enter_eq] at entered
      split at entered
      · cases entered
        exact bench.upholds_nesting _
      · cases entered

/-- A unit that is closed, unless that would clash, is installed as what it was finished as. -/
theorem InOrder.filed (order : bench.InOrder) {handle : UnitHandle} {kind : UnitKind}
    {installed : UInt32} (run : closeUnit handle kind bench = .ok installed bench')
    (spares : bench.Spares bench') : ∃ recording code, bench.recording? = some recording ∧
      recording.builder.finish = .ok code ∧ bench'.program.code? installed = some code := by
  obtain ⟨unit, units, slot, builder, code, closed, payload, finished, -, installs⟩ :=
    (ends_closeUnit handle kind).ok run
  obtain ⟨-, -, -, hunits, heq⟩ := UnitStack.close_ok closed
  have recording := recording?_eq_some.mpr ⟨unit, _, hunits, payload⟩
  refine ⟨_, code, recording, finished, ?_⟩
  have claimed : slot.toNat ∈ slots bench.places := by
    rw [places, hunits, List.map_cons, place, payload]
    exact mem_slots_cons.mpr (.inl rfl)
  cases installs with
  | fills inside =>
      exact (Program.getElem?_fill inside code _).trans (if_pos rfl)
  | shared recorded =>
      have early : installed ≤ slot := UInt32.not_lt.mp fun behind =>
        spares.apart order.proper hunits ⟨_, recording, _, recorded, behind, finished⟩
      show (bench.program.release slot).code[installed.toNat]? = _
      rw [Program.getElem?_release, if_pos (order.tabled.recorded_lt claimed recorded early)]
      exact (order.tabled.recorded _ recorded).1

/-! ## Grounded benches -/

namespace Grounded

variable (h : bench.Grounded)

include h

theorem supports_target : bench.Supports target fun builder bench' => bench' = bench ∧
    ∃ slot, bench.recording? = some ⟨slot, builder⟩ := by
  refine .of_unmoved h (ends_target.weaken ?_)
  rintro builder _ ⟨rfl, found⟩
  exact ⟨.refl h, rfl, found⟩

/-! ### Recording -/

theorem supports_build {action : Builder → Except CompileError (α × Builder)}
    (checked : ∀ builder, Checked (action builder))
    (all : ∀ builder value builder', builder.All bench.Admits →
      action builder = .ok (value, builder') → builder'.All bench.Admits) :
    bench.Supports (build action) fun _ _ => True := by
  refine .of_unmoved h ((ends_build checked).weaken ?_)
  rintro value _ ⟨slot, builder, builder', found, run, rfl⟩
  exact ⟨h.setBuilder found (all builder value builder' (h.recording found) run), trivial⟩

theorem supports_emit (operation : String) {op : Op} (admits : bench.Admits op) :
    bench.Supports (emit operation op) fun _ _ => True := by
  refine h.supports_build (fun builder => .bind (builder.checked_emit _ _) fun _ => .ok _) ?_
  intro builder _ builder' all run
  obtain ⟨_, hemit, heq⟩ := Verifier.bind_ok run
  cases heq
  exact all.emit admits hemit

theorem supports_emitJump (operation : String) (kind : JumpKind) :
    bench.Supports (build (·.emitJump operation kind)) fun _ _ => True :=
  h.supports_build (fun builder => builder.checked_emitJump _ _) fun _ _ _ all run =>
    all.emitJump (fun offset => admits_plain (Op.plain_jump kind offset) bench) run

theorem supports_emitJumpBack (operation : String) (kind : JumpKind) (label : Nat) :
    bench.Supports
      (build fun builder => return ((), ← builder.emitJumpBack operation kind label))
      fun _ _ => True := by
  refine h.supports_build (fun builder => .bind (builder.checked_emit _ _) fun _ => .ok _) ?_
  intro builder _ builder' all run
  obtain ⟨_, hemit, heq⟩ := Verifier.bind_ok run
  cases heq
  exact all.emit (admits_plain (Op.plain_jump kind _) bench) hemit

theorem supports_modifyBuilder {f : Builder → Builder}
    (all : ∀ builder, builder.All bench.Admits → (f builder).All bench.Admits) :
    bench.Supports (modifyBuilder f) fun _ _ => True := by
  cases found : bench.recording? with
  | some recording =>
      refine (ends_modifyBuilder found f).weaken ?_
      rintro _ _ rfl
      exact ⟨h.setBuilder found (all _ (h.recording found)), trivial⟩
  | none =>
      unfold Supports Ends
      rw [modifyBuilder_of_none found]
      exact ⟨.refl h, trivial⟩

theorem supports_setLine (line : UInt32) : bench.Supports (setLine line) fun _ _ => True := by
  refine h.supports_target.bind ?_
  rintro _ bench - ⟨rfl, -⟩
  exact h.supports_modifyBuilder fun _ all => all

theorem supports_intern (constant : Constant) :
    bench.Supports (intern constant) fun position bench' =>
      bench.Pools bench' ∧ bench'.program.constants.get? position = some constant := by
  refine .of_unmoved h (ends_intern.weaken ?_)
  rintro position _ ⟨constants, run, rfl⟩
  obtain ⟨room, pooled, kept⟩ := Pool.intern_ok run h.tabled.limit h.constants
  exact ⟨h.rest room kept bench.line, ⟨rfl, rfl, kept⟩, pooled⟩

theorem supports_checkScopeDepth (depth : Nat) :
    bench.Supports (checkScopeDepth depth) fun _ bench' =>
      bench' = bench ∧ depth ≤ enclosing bench.units.units := by
  refine .of_unmoved h (ends_checkScopeDepth.weaken ?_)
  rintro _ _ ⟨rfl, reachable⟩
  exact ⟨.refl h, rfl, reachable⟩

theorem supports_emitYield (operation : String) (hasArgs : Bool) :
    bench.Supports (emitYield operation hasArgs) fun _ _ => True := by
  refine Ends.get (Ends.ite (fun _ => ?_) fun _ => ?_)
  · exact Ends.stops ⟨.refl h, trivial⟩
  · refine h.supports_target.bind ?_
    rintro _ bench - ⟨rfl, -⟩
    exact h.supports_emit _ (admits_plain (.yield _) bench)

/-! ### Regions of control flow -/

/-- How many regions were entered does not matter. -/
theorem nesting (nesting : Nat) :
    bench.Sustained { bench with units := { bench.units with nesting } } := by
  obtain ⟨order, keeps⟩ := bench.upholds_nesting nesting ⟨h.proper, h.tabled⟩
  exact ⟨⟨order.proper, order.tabled, h.verifies, h.constants, h.pooled, h.verified, h.installed,
    h.opened⟩, keeps, fun _ staged => ⟨staged.executed, staged.outermost⟩⟩

theorem exitRegion : bench.Sustained bench.exitRegion := h.nesting _

theorem supports_enter : bench.Supports (fun bench =>
    match bench.units.enter with
    | .ok units => .ok () { bench with units }
    | .error error => .error error bench) fun _ _ => True := by
  unfold Supports Ends
  dsimp only
  cases entered : bench.units.enter with
  | error error => exact ⟨.refl h, bench.units.checked_enter error entered⟩
  | ok units =>
      rw [UnitStack.enter_eq] at entered
      split at entered
      · cases entered
        exact ⟨h.nesting _, trivial⟩
      · cases entered

/-! ### Units -/

/-- A unit is opened inside another one. No code object was recorded inside it yet. -/
theorem supports_openUnit {kind : UnitKind} (inner : kind ≠ .script) (name : String)
    (arity localCount : Nat) (locals : List String) (around : bench.units.units ≠ []) :
    bench.Supports (openUnit kind name arity localCount locals) fun _ bench' =>
      ¬bench'.Clashes := by
  refine ends_openUnit.mono ?_ ?_
  · rintro handle _ ⟨builder, units, room, empty, hopen, rfl⟩
    refine ⟨h.openRecorded inner empty room hopen around, ?_⟩
    rintro ⟨recording, found, entry, member, behind, -⟩
    obtain ⟨-, rfl⟩ := UnitStack.open_ok hopen
    cases found
    have inside := (Array.getElem?_eq_some_iff.mp (h.tabled.recorded entry member).1).1
    have next : bench.program.code.size.toUInt32.toNat = bench.program.code.size :=
      Program.toNat_toUInt32 (Nat.lt_of_lt_of_le room h.tabled.limit)
    rw [UInt32.lt_iff_toNat_lt, next] at behind
    exact Nat.lt_asymm inside behind
  · rintro error _ ⟨static, rfl | ⟨room, rfl⟩⟩
    · exact ⟨.refl h, static⟩
    · exact ⟨h.giveBack room, static⟩

/-- The innermost unit is closed, unless that would clash. Its position is settled for what its
surroundings offer. -/
theorem supports_closeUnit (handle : UnitHandle) (kind : UnitKind) :
    Ends (closeUnit handle kind) bench
      (fun installed bench' => bench.Spares bench' → bench.Sustained bench' ∧
        Settled bench'.program.code? installed
          (if kind = .closure then enclosing bench'.units.units + 1 else 0))
      fun error bench' => bench.Sustained bench' ∧ error.Static := by
  refine (ends_closeUnit handle kind).mono ?_ ?_
  · rintro installed bench' ⟨unit, units, slot, builder, code, closed, payload, finished, verifies, installs⟩
    obtain ⟨-, -, rfl, hunits, heq⟩ := UnitStack.close_ok closed
    obtain ⟨most, verified⟩ := verifies h.verifies
    obtain ⟨heights, verified, -⟩ := Code.verify_ok verified
    have offered := enclosing_cons unit units.units
    rw [heq] at installs offered
    intro spares
    cases installs with
    | fills inside =>
        have filled := h.fill hunits payload finished verified rfl rfl
        rwa [seen_nil, offered] at filled
    | shared recorded =>
        have early : installed ≤ slot := UInt32.not_lt.mp fun behind => spares.apart h.proper hunits
          ⟨_, recording?_eq_some.mpr ⟨unit, _, hunits, payload⟩, _, recorded, behind, finished⟩
        have shared := h.share hunits payload finished recorded early rfl
        rwa [seen_nil, offered] at shared
  · intro error bench' failed
    cases failed with
    | refused static => exact ⟨.refl h, static⟩
    | executed static closed payload =>
        obtain ⟨-, -, -, hunits, heq⟩ := UnitStack.close_ok closed
        rw [heq]
        refine ⟨h.discard (show _ = [_] ++ _ from hunits) ?_, static⟩
        simp [slots, place, payload]
    | discarded generated static closed payload =>
        obtain ⟨-, -, -, hunits, heq⟩ := UnitStack.close_ok closed
        rw [heq]
        refine ⟨h.release (show _ = [_] ++ _ from hunits) ?_ ?_, static (h.tabled.claimed _ ?_)⟩
        · simp [slots, place, payload]
        · simp [slots, place, payload]
        · rw [places, hunits, List.map_cons, place, payload]
          exact mem_slots_cons.mpr (.inl rfl)

end Grounded

end BlockScript.Bench
