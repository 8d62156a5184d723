import BlockScript.Artifact.Wire
import Mathlib.Tactic.Ring

/-!
# Formats that are read back

A reader decodes a stretch of bytes when it takes exactly that stretch: whatever follows is left,
and it fails on every part of the stretch that breaks off before the end. Readers that decode
adjacent stretches can be run in a row, so it is enough to look at the formats one by one.
-/

namespace BlockScript.Artifact

variable {α γ : Type}

/-- The reader takes these bytes for this value, no more and no less. -/
structure Decodes (read : Reader α) (bytes : Bytes) (value : α) : Prop where
  exact : ∀ rest, read (bytes ++ rest) = .ok (value, rest)
  truncated : ∀ part missing, part ++ missing = bytes → missing ≠ [] →
    ∃ fault, read part = .error fault

namespace Decodes

variable {read : Reader α} {next : α → Reader γ} {bytes bytes' : Bytes} {value : α} {result : γ}

/-- Nothing is read, so nothing can be missing. -/
theorem pure (value : α) : Decodes (Pure.pure value) [] value where
  exact _ := rfl
  truncated _ _ split some_missing := absurd (List.append_eq_nil_iff.mp split).2 some_missing

/-- What is missing is missing from the first stretch, or the first one is complete. -/
theorem bind (h : Decodes read bytes value) (h' : Decodes (next value) bytes' result) :
    Decodes (read >>= next) (bytes ++ bytes') result where
  exact rest := by
    rw [List.append_assoc]
    change (read (bytes ++ (bytes' ++ rest)) >>= fun taken => next taken.1 taken.2) = _
    rw [h.exact]
    exact h'.exact rest
  truncated part missing split some_missing := by
    change ∃ fault, (read part >>= fun taken => next taken.1 taken.2) = .error fault
    rcases List.append_eq_append_iff.mp split with ⟨left, first, second⟩ | ⟨part', second, first⟩
    · by_cases complete : left = []
      · obtain rfl : bytes = part := by simpa [complete] using first
        obtain ⟨fault, failed⟩ := h'.truncated [] missing (by simpa [complete] using second)
          some_missing
        have taken := h.exact []
        rw [List.append_nil] at taken
        exact ⟨fault, by rw [taken]; exact failed⟩
      · obtain ⟨fault, failed⟩ := h.truncated part left first.symm complete
        exact ⟨fault, by rw [failed]; rfl⟩
    · obtain ⟨fault, failed⟩ := h'.truncated part' missing first.symm some_missing
      exact ⟨fault, by rw [second, h.exact]; exact failed⟩

theorem returns (h : Decodes read bytes value) {f : α → γ} (same : f value = result) :
    Decodes (do return f (← read)) bytes result := by
  have whole : Decodes (do return f (← read)) (bytes ++ []) (f value) := h.bind (.pure _)
  rwa [List.append_nil, same] at whole

/-- The same bytes, bracketed in another way. -/
theorem congr (h : Decodes read bytes value) (same : bytes = bytes') : Decodes read bytes' value :=
  same ▸ h

theorem readByte (byte : UInt8) : Decodes Wire.readByte [byte] byte where
  exact _ := rfl
  truncated part missing split some_missing := by
    rcases List.append_eq_singleton_iff.mp split with ⟨rfl, -⟩ | ⟨-, rfl⟩
    · exact ⟨_, rfl⟩
    · exact absurd rfl some_missing

/-- One byte in front. -/
theorem cons {next : UInt8 → Reader γ} {byte : UInt8} (h : Decodes (next byte) bytes result) :
    Decodes (Wire.readByte >>= next) (byte :: bytes) result :=
  (readByte byte).bind h

theorem readBytes (bytes : Bytes) : Decodes (Wire.readBytes bytes.length) bytes bytes where
  exact rest := by simp [Wire.readBytes, List.splitAt_eq]
  truncated part missing split some_missing := by
    have short : ¬bytes.length ≤ part.length := by
      have positive := List.length_pos_iff.mpr some_missing
      have length := congrArg List.length split
      rw [List.length_append] at length
      omega
    exact ⟨.endOfInput, if_neg short⟩

/-- A byte that ends a number, or one that is continued. -/
theorem toNat_group {n : Nat} (small : n < 256) : n.toUInt8.toNat = n :=
  UInt8.toNat_ofNat_of_lt' small

/-- The groups that may be used are enough for the number, so its last byte is reached. -/
theorem readGroups {topGroup : Nat} (small : topGroup < 128) {groups n : Nat}
    (fits : n < 128 ^ groups * (topGroup + 1)) :
    Decodes (Wire.readGroups topGroup (groups + 1)) (Wire.writeGroups (groups + 1) n) n := by
  have last {groups n : Nat} (byte : n < 128) (top : groups = 0 → n ≤ topGroup) :
      Decodes (Wire.readGroups topGroup (groups + 1)) [n.toUInt8] n := by
    refine .cons ?_
    have legal : ¬(groups = 0 ∧ topGroup < n) := fun ⟨all, more⟩ => Nat.not_lt.mpr (top all) more
    simp only [toNat_group (Nat.lt_trans byte (by decide : 128 < 256)), byte, legal, if_true, if_false]
    exact .pure n
  induction groups generalizing n with
  | zero =>
      have bound : n ≤ topGroup := Nat.lt_succ_iff.mp (by simpa using fits)
      have byte : n < 128 := Nat.lt_of_le_of_lt bound small
      rw [Wire.writeGroups, if_pos byte]
      exact last byte fun _ => bound
  | succ groups ih =>
      rw [Wire.writeGroups]
      split
      · rename_i byte
        exact last byte nofun
      · have group : n % 128 + 128 < 256 := by omega
        have rest : n / 128 < 128 ^ groups * (topGroup + 1) := by
          rw [Nat.div_lt_iff_lt_mul (by decide)]
          calc n < 128 ^ (groups + 1) * (topGroup + 1) := fits
            _ = 128 ^ groups * (topGroup + 1) * 128 := by ring
        refine .cons ?_
        simp only [toNat_group group, if_neg (by omega : ¬n % 128 + 128 < 128)]
        exact (ih rest).returns (by omega)

/-- Several values in a row. -/
theorem readMany {write : α → Bytes} {values : List α}
    (h : ∀ value ∈ values, Decodes read (write value) value) :
    Decodes (Wire.readMany read values.length) (values.flatMap write) values := by
  induction values with
  | nil => exact .pure []
  | cons value values ih =>
      rw [List.flatMap_cons]
      exact (h value (List.mem_cons_self ..)).bind
        ((ih fun value mem => h value (List.mem_cons_of_mem _ mem)).returns rfl)

end Decodes

/-! ## Formats -/

namespace Wire

/-- The format reads back what it writes for the value. -/
def Carries (wire : Wire α) (value : α) : Prop := Decodes wire.read (wire.write value) value

theorem readGroups_32 {n : Nat} (small : n < 2 ^ 32) :
    Decodes (readGroups 15 5) (writeGroups 5 n) n :=
  Decodes.readGroups (by decide) (by omega)

theorem readGroups_64 {n : Nat} (small : n < 2 ^ 64) :
    Decodes (readGroups 1 10) (writeGroups 10 n) n :=
  Decodes.readGroups (by decide) (by omega)

theorem carries_word (n : UInt32) : word.Carries n :=
  (readGroups_32 n.toNat_lt).returns UInt32.ofNat_toNat

theorem carries_length {n : Nat} (small : n < 2 ^ 64) : length.Carries n := readGroups_64 small

@[simp] theorem unfold_fold (n : Int) : unfold (fold n) = n := by
  unfold fold unfold
  split <;> split <;> omega

theorem fold_lt {n : Int} {bits : Nat} (lower : -2 ^ bits ≤ n) (upper : n < 2 ^ bits) :
    fold n < 2 ^ (bits + 1) := by
  have bound : ((2 ^ bits : Nat) : Int) = 2 ^ bits := by norm_cast
  rw [pow_succ]
  unfold fold
  split <;> omega

theorem carries_int32 (n : Int32) : int32.Carries n :=
  (readGroups_32 (fold_lt n.le_toInt n.toInt_lt)).returns (by simp)

theorem carries_int64 (n : Int64) : int64.Carries n :=
  (readGroups_64 (fold_lt n.le_toInt n.toInt_lt)).returns (by simp)

theorem carries_bool (b : Bool) : bool.Carries b := by
  cases b <;> exact .cons (.pure _)

theorem carries_option {wire : Wire α} {value? : Option α}
    (h : ∀ value, value? = some value → wire.Carries value) : (option wire).Carries value? := by
  cases value? with
  | none => exact .cons (.pure none)
  | some value => exact .cons ((h value rfl).returns rfl)

theorem carries_list {wire : Wire α} {values : List α} (small : values.length < 2 ^ 64)
    (h : ∀ value ∈ values, wire.Carries value) : wire.list.Carries values :=
  (carries_length small).bind (.readMany h)

theorem carries_array {wire : Wire α} {values : Array α} (small : values.size < 2 ^ 64)
    (h : ∀ value ∈ values, wire.Carries value) : wire.array.Carries values := by
  have listed : wire.list.Carries values.toList :=
    carries_list small fun value mem => h value (Array.mem_toList_iff.mp mem)
  exact listed.returns values.toArray_toList

/-! ### Text -/

theorem toList_loop (bytes : ByteArray) (position : Nat) (reversed : List UInt8) :
    ByteArray.toList.loop bytes position reversed =
      reversed.reverse ++ bytes.data.toList.drop position := by
  fun_induction ByteArray.toList.loop bytes position reversed with
  | case1 position reversed inside ih =>
      have inside : position < bytes.data.toList.length := by simpa using inside
      have byte : bytes.get! position = bytes.data.toList[position] :=
        getElem!_pos bytes.data position inside
      rw [ih, byte, List.reverse_cons, List.append_assoc, List.singleton_append,
        List.drop_eq_getElem_cons inside]
  | case2 position reversed past =>
      rw [List.drop_eq_nil_of_le (Nat.not_lt.mp past), List.append_nil]

theorem toList_bytes (bytes : ByteArray) : bytes.toList = bytes.data.toList :=
  toList_loop bytes 0 []

theorem fromUTF8?_toUTF8 (s : String) : String.fromUTF8? ⟨s.toUTF8.toList.toArray⟩ = some s := by
  rw [toList_bytes, Array.toArray_toList]
  exact dif_pos s.isValidUTF8

theorem carries_text {s : String} (small : s.utf8ByteSize < 2 ^ 64) : text.Carries s := by
  have size : s.toUTF8.toList.length = s.utf8ByteSize := by
    rw [toList_bytes]
    exact s.size_toByteArray
  have bytes : Decodes (readBytes s.utf8ByteSize) s.toUTF8.toList s.toUTF8.toList :=
    size ▸ .readBytes _
  refine (carries_length small).bind (Decodes.congr (bytes.bind ?_) (List.append_nil _))
  rw [fromUTF8?_toUTF8]
  exact .pure s

/-! ### Integers of any size -/

theorem ofDigits_digits {rounds n : Nat} (enough : n < 0x100000000 ^ rounds) :
    ofDigits (digits rounds n) = n := by
  induction rounds generalizing n with
  | zero => simp [digits, ofDigits, Nat.lt_one_iff.mp enough]
  | succ rounds ih =>
      rw [digits]
      split
      · rename_i zero
        exact zero.symm
      · have rest : n / 0x100000000 < 0x100000000 ^ rounds := by
          rw [Nat.div_lt_iff_lt_mul (by decide)]
          exact enough
        have low : n.toUInt32.toNat = n % 0x100000000 := UInt32.toNat_ofNat
        rw [ofDigits, ih rest, low]
        omega

theorem digits_enough (n : Nat) : n < 0x100000000 ^ (n.log2 / 32 + 1) := by
  have bits : n.log2 < 32 * (n.log2 / 32 + 1) := by omega
  rw [show 0x100000000 = 2 ^ 32 from rfl, ← pow_mul]
  exact Nat.lt_of_lt_of_le Nat.lt_log2_self (Nat.pow_le_pow_right (by decide) bits)

/-- The digits of the magnitude of an integer. -/
def magnitude (n : Int) : List UInt32 := digits (n.natAbs.log2 / 32 + 1) n.natAbs

theorem carries_integer {n : Int} (small : (magnitude n).length < 2 ^ 64) : integer.Carries n := by
  have signed {sign : Int} (value : sign * n.natAbs = n) :
      Decodes (do return sign * ofDigits (← word.list.read)) (word.list.write (magnitude n)) n := by
    have digits : word.list.Carries (magnitude n) := carries_list small fun d _ => carries_word d
    exact digits.returns (by rw [magnitude, ofDigits_digits (digits_enough _), value])
  refine .cons ?_
  rcases lt_trichotomy n 0 with negative | rfl | positive
  · simp only [if_pos negative]
    exact signed (by omega)
  · exact signed rfl
  · simp only [if_neg positive.not_gt, if_neg positive.ne']
    exact signed (by omega)

end Wire

end BlockScript.Artifact
