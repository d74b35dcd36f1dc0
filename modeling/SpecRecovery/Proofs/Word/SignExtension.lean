import SpecRecovery.Proofs.Word.Integer
import SpecRecovery.Word

namespace SpecRecovery.Word

theorem toNat_lowMask {bits : Nat} (h : bits < 256) : (lowMask bits).toNat = twoTo bits - 1 := by
  have hlt : twoTo bits < 2 ^ 256 := Nat.pow_lt_pow_right (by decide) h
  have hbits : ¬sizeBits ≤ bits := Nat.not_le_of_lt h
  rw [lowMask, if_neg hbits, BitVec.toNat_ofNat]
  exact Nat.mod_eq_of_lt (by omega)

theorem getLsbD_lowMask {bits : Nat} (h : bits < 256) (index : Nat) :
    (lowMask bits).getLsbD index = decide (index < bits) := by
  rw [BitVec.getLsbD, toNat_lowMask h, twoTo_eq, Nat.testBit_two_pow_sub_one]

-- The low bytes as a narrow word of their own, whose sign bit fills the rest.
theorem extendSign_eq_signExtend {bytes : Word} (value : Word) (h : bytes.toNat < 31) :
    extendSign bytes value = (value.setWidth (8 * bytes.toNat + 7 + 1)).signExtend 256 := by
  apply BitVec.eq_of_getLsbD_eq
  intro index hindex
  have hmask : (lowMask (8 * bytes.toNat + 7 + 1))[index] =
      decide (index < 8 * bytes.toNat + 7 + 1) := by
    rw [← BitVec.getLsbD_eq_getElem, getLsbD_lowMask (by omega)]
  have hmsb : (value.setWidth (8 * bytes.toNat + 7 + 1)).msb =
      value.getLsbD (8 * bytes.toNat + 7) := by
    rw [BitVec.msb_eq_getLsbD_last, BitVec.getLsbD_setWidth]
    simp
  rw [BitVec.getLsbD_signExtend, hmsb, BitVec.getLsbD_setWidth, extendSign,
    if_neg (show ¬31 ≤ bytes.toNat by omega)]
  by_cases hsign : value.getLsbD (8 * bytes.toNat + 7) <;>
    by_cases hlow : index < 8 * bytes.toNat + 7 + 1 <;>
    simp [hsign, hlow, hindex, hmask]

theorem toInt_extendSign {bytes : Word} (value : Word) (h : bytes.toNat < 31) :
    (extendSign bytes value).toInt =
      (value.setWidth (8 * bytes.toNat + 7 + 1)).toInt := by
  rw [extendSign_eq_signExtend value h, BitVec.toInt_signExtend_of_le (by omega)]

theorem toInt_extendSign_bounds {bytes : Word} (value : Word) (h : bytes.toNat < 31) :
    -twoTo (8 * bytes.toNat + 7) ≤ (extendSign bytes value).toInt ∧
      (extendSign bytes value).toInt < twoTo (8 * bytes.toNat + 7) := by
  have hlow := BitVec.le_toInt (value.setWidth (8 * bytes.toNat + 7 + 1))
  have hhigh := BitVec.toInt_lt (x := value.setWidth (8 * bytes.toNat + 7 + 1))
  rw [toInt_extendSign value h]
  simpa only [twoTo_eq, Nat.cast_pow, Nat.cast_ofNat, Nat.add_sub_cancel] using
    And.intro hlow hhigh

-- A word is what its low bytes extend to exactly if these say all about it.
theorem extendSign_eq_self_iff {bytes : Word} (value : Word) (h : bytes.toNat < 31) :
    extendSign bytes value = value ↔
      -twoTo (8 * bytes.toNat + 7) ≤ value.toInt ∧ value.toInt < twoTo (8 * bytes.toNat + 7) := by
  constructor
  · intro hself
    have hbounds := toInt_extendSign_bounds value h
    rwa [hself] at hbounds
  · simp only [twoTo_eq, Nat.cast_pow, Nat.cast_ofNat]
    rintro ⟨hle, hlt⟩
    apply BitVec.eq_of_toInt_eq
    have hdvd : ((2 ^ (8 * bytes.toNat + 7 + 1) : Nat) : Int) ∣ 2 ^ 256 := by
      exact_mod_cast Nat.pow_dvd_pow 2 (show 8 * bytes.toNat + 7 + 1 ≤ 256 by omega)
    have hmod : (value.toNat : Int) % 2 ^ 256 = value.toInt % 2 ^ 256 := by
      rw [BitVec.toInt_eq_toNat_cond]
      split <;> omega
    have hsame : (value.toNat : Int).bmod (2 ^ (8 * bytes.toNat + 7 + 1)) =
        value.toInt.bmod (2 ^ (8 * bytes.toNat + 7 + 1)) := by
      rw [Int.bmod_def, Int.bmod_def, ← Int.emod_emod_of_dvd _ hdvd, hmod,
        Int.emod_emod_of_dvd _ hdvd]
    rw [toInt_extendSign value h, BitVec.toInt_setWidth, hsame]
    apply Int.bmod_eq_of_le
    · push_cast
      rw [pow_succ]
      omega
    · push_cast
      rw [pow_succ]
      omega

end SpecRecovery.Word
