import BlockScript.Artifact.Codec
import BlockScript.Proofs.Artifact.Decodes
import BlockScript.Proofs.Artifact.Index

/-!
# Artifacts are read back

The formats of the parts of a program are put together from the formats of numbers, texts and
lists. Every length has to fit the 64 bits in which the format counts; then each part is read
back, and so is the whole program.
-/

namespace BlockScript

/-! ## What the format can count -/

/-- A length that the format can write. -/
def Countable (length : Nat) : Prop := length < 2 ^ 64

instance (length : Nat) : Decidable (Countable length) := inferInstanceAs (Decidable (_ < _))

/-- The text or the digits of the constant can be counted. -/
def Constant.Fits : Constant → Prop
  | .name s | .string s | .symbol s => Countable s.utf8ByteSize
  | .bignum n => Countable (Artifact.Wire.magnitude n).length

instance : DecidablePred Constant.Fits
  | .name _ | .string _ | .symbol _ | .bignum _ => inferInstanceAs (Decidable (Countable _))

/-- The parts of the code object can be counted. -/
structure Code.Fits (code : Code) : Prop where
  name : Countable code.name.utf8ByteSize
  locals : Countable code.locals.length
  names : ∀ name ∈ code.locals, Countable name.utf8ByteSize
  ops : Countable code.ops.size
  lines : Countable code.lines.size

/-- The parts of the program can be counted. -/
structure Program.Fits (p : Program) : Prop where
  code : Countable p.code.size
  units : ∀ code ∈ p.code, code.Fits
  constants : Countable p.constants.size
  literals : ∀ constant ∈ p.constants.entries, constant.Fits

namespace Artifact

open Wire

variable {α : Type}

/-! ## The parts of a program -/

/-- The tag is read back, and selects how the operands after it are read. -/
theorem Decodes.tagged {tag : Nat} {next : UInt32 → Reader α} {operands : Bytes} {value : α}
    (h : Decodes (next tag.toUInt32) operands value) :
    Decodes (word.read >>= next) (Artifact.tagged tag operands) value :=
  (carries_word tag.toUInt32).bind h

theorem carries_unitKind (kind : UnitKind) : unitKind.Carries kind := by
  cases kind <;> exact .tagged (.pure _)

theorem carries_op (o : Op) : op.Carries o := by
  cases o with
  | pushNil | pushTrue | pushFalse | pushSelf | pop | dup | toArray | not | ret =>
      exact .tagged (.pure _)
  | pushFixnum value => exact .tagged ((carries_int64 value).returns rfl)
  | pushBignum operand | pushString operand | pushSymbol operand | getLocal operand
  | setLocal operand | getIvar operand | setIvar operand | getGlobal operand | setGlobal operand
  | getConst operand | setConst operand | makeArray operand | yield operand
  | makeClosure operand => exact .tagged ((carries_word operand).returns rfl)
  | getOuter first second | setOuter first second | defineMethod first second
  | aliasMethod first second =>
      exact .tagged ((carries_word first).bind ((carries_word second).returns rfl))
  | send name argc receiver block =>
      refine .tagged (.congr ((carries_word name).bind ((carries_word argc).bind
        ((carries_bool receiver).bind
          ((carries_option fun slot _ => carries_word slot).returns rfl)))) ?_)
      simp only [List.append_assoc]
  | jump offset | jumpIfFalse offset | jumpIfTrue offset =>
      exact .tagged ((carries_int32 offset).returns rfl)

theorem carries_constant {c : Constant} (fits : c.Fits) : constant.Carries c := by
  cases c with
  | name s | string s | symbol s => exact .tagged ((carries_text fits).returns rfl)
  | bignum n => exact .tagged ((carries_integer fits).returns rfl)

theorem carries_lineEntry (entry : LineEntry) : lineEntry.Carries entry :=
  (carries_word entry.ip).bind ((carries_word entry.line).returns rfl)

theorem carries_code {c : Code} (fits : c.Fits) : code.Carries c := by
  refine .congr ((carries_text fits.name).bind ((carries_unitKind c.kind).bind
    ((carries_word c.arity).bind ((carries_word c.localCount).bind
      ((carries_list fits.locals fun name mem => carries_text (fits.names name mem)).bind
        ((carries_array fits.ops fun o _ => carries_op o).bind
          ((carries_array fits.lines fun entry _ => carries_lineEntry entry).bind
            ((carries_word c.maxStack).returns rfl)))))))) ?_
  simp only [code, List.append_assoc]

theorem carries_program {p : Program} (fits : p.Fits) : program.Carries p :=
  (carries_array fits.code fun c mem => carries_code (fits.units c mem)).bind
    ((carries_array fits.constants fun c mem => carries_constant (fits.literals c mem)).returns rfl)

end Artifact

/-! ## Whole artifacts -/

/-- An artifact is read back with its constants where they were, whatever follows it, and is
unreadable when the end of it is missing. -/
theorem Program.ofBytes_toBytes {p : Program} {known : Pool.Indexed} (grown : known.Grown)
    (constants : p.constants = known.pool) (fits : p.Fits) :
    (∀ rest, ∃ loaded, Program.ofBytes (p.toBytes ++ rest) = .ok loaded ∧ loaded = p ∧
      Pool.Indexed.rebuild loaded.constants = known ∧
      ∀ (position : Nat) constant, p.constants.entries[position]? = some constant → ∀ limit,
        known.intern constant limit = .ok (position.toUInt32, known) ∧
        loaded.constants.intern constant limit = .ok (position.toUInt32, loaded.constants)) ∧
    ∀ part missing, part ++ missing = p.toBytes → missing ≠ [] →
      ∃ message, Program.ofBytes part = .error (.artifact message) := by
  have carries := Artifact.carries_program fits
  constructor
  · intro rest
    refine ⟨p, ?_, rfl, constants ▸ grown.rebuild_eq, fun position constant found limit => ?_⟩
    · rw [ofBytes, ofBytes?, toBytes, carries.exact rest]
      rfl
    · rw [constants] at found ⊢
      exact ⟨grown.intern_eq found limit, grown.pool_intern_eq found limit⟩
  · intro part missing split some_missing
    obtain ⟨fault, failed⟩ := carries.truncated part missing split some_missing
    exact ⟨fault.message, by rw [ofBytes, ofBytes?, failed]; rfl⟩

/-- A script with a literal of more than 64 bits and a jump backwards. -/
def Program.literal : Program where
  code := #[{ name := "<main>", kind := .script, ops := #[.pushBignum 0, .send 1 0 true (some 4),
    .jumpIfFalse (-2), .ret], lines := #[⟨0, 3⟩], maxStack := 1 }]
  constants := ⟨#[.bignum 73786976294838206460, .name "inspect"]⟩

theorem Program.literal_reads_back :
    (∃ loaded, Program.ofBytes (Program.literal.toBytes ++ [7]) = .ok loaded ∧
      loaded = Program.literal ∧
      loaded.constants.intern (.bignum 73786976294838206460) 0 = .ok (0, loaded.constants)) ∧
    ∃ message, Program.ofBytes Program.literal.toBytes.dropLast = .error (.artifact message) := by
  let one : Pool := ⟨#[.bignum 73786976294838206460]⟩
  have first : Pool.Indexed.intern {} (.bignum 73786976294838206460) 2 = .ok (0, .rebuild one) := rfl
  have second : (Pool.Indexed.rebuild one).intern (.name "inspect") 2 =
      .ok (1, .rebuild Program.literal.constants) := rfl
  have fits : Program.literal.Fits := {
    code := by decide
    units := by
      intro code mem
      obtain rfl : code = _ := List.mem_singleton.mp (Array.mem_toList_iff.mpr mem)
      exact ⟨by decide, by decide, nofun, by decide, by decide⟩
    constants := by decide
    literals := by
      intro constant mem
      have either : constant = .bignum 73786976294838206460 ∨ constant = .name "inspect" := by
        simpa [Program.literal] using mem
      rcases either with rfl | rfl
      · decide
      · decide }
  obtain ⟨reads, truncated⟩ := Program.ofBytes_toBytes (.intern (.intern .empty first) second) rfl fits
  obtain ⟨loaded, read, same, -, interns⟩ := reads [7]
  refine ⟨⟨loaded, read, same, (interns 0 _ rfl 0).2⟩, ?_⟩
  have written : Program.literal.toBytes ≠ [] := List.cons_ne_nil _ _
  exact truncated _ _ (List.dropLast_concat_getLast written) (List.cons_ne_nil _ _)

end BlockScript
