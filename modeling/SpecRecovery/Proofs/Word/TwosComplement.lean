import SpecRecovery.Proofs.Lowering.RangeFact

namespace SpecRecovery.Word

-- A mask of low bits leaves the rest of a division.
theorem toNat_and_lowMask (word : Word) (bits : Nat) :
    (word &&& lowMask bits).toNat = word.toNat % twoTo bits := by
  have hword := word.isLt
  by_cases hbits : sizeBits ≤ bits
  · have hle : 2 ^ 256 ≤ twoTo bits := twoTo_le_twoTo hbits
    rw [lowMask, if_pos hbits, max, BitVec.and_allOnes, Nat.mod_eq_of_lt (by omega)]
  · rw [BitVec.toNat_and, toNat_lowMask (Nat.lt_of_not_le hbits), twoTo_eq,
      Nat.and_two_pow_sub_one_eq_mod]

-- The signed reading of low bits is that of a narrow word of its own.
theorem toSigned_eq_toInt_setWidth (word : Word) {width : Nat} (hleast : 1 ≤ width)
    (hmost : width ≤ sizeBits) : word.toSigned width = (word.setWidth width).toInt := by
  have hlow : (word &&& lowMask width).toInteger = ((word.setWidth width).toNat : Int) := by
    rw [toInteger, toNat_and_lowMask, BitVec.toNat_setWidth, twoTo_eq]
  have hclamped : (if width = 0 then 1 else if sizeBits < width then sizeBits else width) =
      width := by
    rw [if_neg (by omega), if_neg (by omega)]
  have hdouble : 2 ^ width = 2 * twoTo (width - 1) := by
    rw [twoTo_eq, ← Nat.pow_succ']
    congr 1
    omega
  simp only [toSigned, hclamped, hlow]
  rw [BitVec.toInt_eq_toNat_cond, hdouble, twoTo_eq width, hdouble]
  split <;> split <;> omega

variable {bytes : Word} (value : Word)

theorem extendSign_of_le (h : 31 ≤ bytes.toNat) : extendSign bytes value = value := if_pos h

theorem toSigned_extendSign (h : bytes.toNat < 31) :
    (extendSign bytes value).toSigned sizeBits = value.toSigned (8 * (bytes.toNat + 1)) := by
  have hmost : 8 * (bytes.toNat + 1) ≤ sizeBits := by
    unfold sizeBits
    omega
  rw [toSigned_sizeBits, toInt_extendSign value h,
    toSigned_eq_toInt_setWidth value (by omega) hmost]
  rfl

-- From 31 on the interval takes in all words, as the extension leaves all of them alone.
theorem extendSign_eq_self_iff_within :
    extendSign bytes value = value ↔
      -twoTo (8 * bytes.toNat + 7) ≤ value.toSigned sizeBits ∧
        value.toSigned sizeBits < twoTo (8 * bytes.toNat + 7) := by
  rw [toSigned_sizeBits]
  by_cases h : bytes.toNat < 31
  · exact extendSign_eq_self_iff value h
  · have hwide : twoTo 255 ≤ twoTo (8 * bytes.toNat + 7) := twoTo_le_twoTo (by omega)
    have hsigned := signed_iff.mp (signed_toInt value)
    have hhalf : twoTo 255 = 2 ^ 255 := rfl
    have hself : extendSign bytes value = value := extendSign_of_le value (by omega)
    constructor
    · intro _
      omega
    · exact fun _ => hself

-- What was extended stays, because its reading is one of the low bytes already.
theorem extendSign_extendSign (bytes value : Word) :
    extendSign bytes (extendSign bytes value) = extendSign bytes value := by
  by_cases h : bytes.toNat < 31
  · rw [extendSign_eq_self_iff _ h]
    exact toInt_extendSign_bounds value h
  · exact extendSign_of_le _ (by omega)

-- The type of signed integers with the bytes below and up to the one of this index.
theorem isWellSized_signed {bytes : Word} (h : bytes.toNat ≤ 31) :
    (AbiType.int (8 * (bytes.toNat + 1))).isWellSized = true := by
  have hmost : 8 * (bytes.toNat + 1) ≤ sizeBits := by
    unfold sizeBits
    omega
  simp [AbiType.isWellSized, hmost]

-- Extending the sign of the low bytes leaves what they are in two's complement, and nothing changes
-- exactly if the word was in the range of these bytes. This is what the range facts about signed
-- atoms ask.
theorem sign_extension_exact (bytes value : Word) :
    (31 ≤ bytes.toNat → extendSign bytes value = value) ∧
    (bytes.toNat < 31 →
      (extendSign bytes value).toSigned sizeBits = value.toSigned (8 * (bytes.toNat + 1))) ∧
    extendSign bytes (extendSign bytes value) = extendSign bytes value ∧
    (extendSign bytes value = value ↔
      -twoTo (8 * bytes.toNat + 7) ≤ value.toSigned sizeBits ∧
        value.toSigned sizeBits < twoTo (8 * bytes.toNat + 7)) ∧
    (bytes.toNat ≤ 31 → ∀ (assignment : Assignment) (term : Machine.Expr),
      term.eval assignment = .ok value →
      (Lowerer.atomRange (.int (8 * (bytes.toNat + 1))) (8 * (bytes.toNat + 1)) true term).holds
        assignment = .ok (extendSign bytes value == value)) := by
  refine ⟨extendSign_of_le value, toSigned_extendSign value, extendSign_extendSign bytes value,
    extendSign_eq_self_iff_within value, fun hbytes assignment term hterm => ?_⟩
  have hfact := Lowerer.denotes_atomRange (isWellSized_signed hbytes) rfl true hterm
  have hbits : 8 * (bytes.toNat + 1) - 1 = 8 * bytes.toNat + 7 := by omega
  rw [hfact.1, if_pos rfl]
  congr 1
  rw [Bool.eq_iff_iff, AbiType.holds_of_isSigned rfl rfl, hbits, beq_iff_eq,
    extendSign_eq_self_iff_within, toSigned_sizeBits]

-- Calldata with a bit above the two bytes that are read, and the sign of these set.
def dirtyCalldata : Assignment := { Assignment.empty with calldata := .ofList [("delta", 0x18000)] }

theorem sign_extension_exact_dirty :
    (extendSign 1 0x18000).toSigned sizeBits = -32768 ∧
      (Lowerer.atomRange (.int 16) 16 true (.var "delta")).holds dirtyCalldata = .ok false ∧
      extendSign 31 0x18000 = 0x18000 ∧
      (Lowerer.atomRange (.int 256) 256 true (.var "delta")).holds dirtyCalldata = .ok true := by
  have hdelta : (Machine.Expr.var "delta").eval dirtyCalldata = .ok 0x18000 := by decide
  obtain ⟨-, hread, -, -, hfact⟩ := sign_extension_exact 1 0x18000
  obtain ⟨hkeep, -, -, -, hfull⟩ := sign_extension_exact 31 0x18000
  refine ⟨(hread (by decide)).trans (by decide), ?_, hkeep (by decide), ?_⟩
  · exact (hfact (by decide) dirtyCalldata (.var "delta") hdelta).trans (by decide)
  · exact (hfull (by decide) dirtyCalldata (.var "delta") hdelta).trans (by decide)

end SpecRecovery.Word
