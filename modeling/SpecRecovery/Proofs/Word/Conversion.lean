import SpecRecovery.Proofs.Word.TwosComplement

namespace SpecRecovery.Word

-- The signed reading of the lowest bits is what lies in the interval around zero among all integers
-- that leave the same remainder as the word.
theorem eq_toSigned_iff (word : Word) {width : Nat} (hleast : 1 ≤ width) (hmost : width ≤ sizeBits)
    (reading : Int) :
    reading = word.toSigned width ↔
      (-twoTo (width - 1) ≤ reading ∧ reading < twoTo (width - 1)) ∧
        reading ≡ word.toInteger [ZMOD twoTo width] := by
  have hread : word.toSigned width = word.toInteger.bmod (twoTo width) := by
    rw [toSigned_eq_toInt_setWidth word hleast hmost, BitVec.toInt_setWidth]
    rfl
  have hdouble : twoTo width = 2 * twoTo (width - 1) := by
    rw [twoTo_eq, twoTo_eq, ← Nat.pow_succ']
    congr 1
    omega
  have hpos := twoTo_pos (width - 1)
  rw [hread]
  constructor
  · rintro rfl
    have hlow := Int.le_bmod (x := word.toInteger) (twoTo_pos width)
    have hhigh := Int.bmod_lt (x := word.toInteger) (twoTo_pos width)
    refine ⟨by omega, Int.bmod_emod⟩
  · rintro ⟨hbounds, hsame⟩
    rw [← Int.emod_bmod, ← hsame, Int.emod_bmod]
    exact (Int.bmod_eq_of_le (by omega) (by omega)).symm

-- Words and the integers in their range are turned into each other without loss, whichever comes
-- first, and every width has exactly one signed reading of a word.
theorem conversions_exact (integer : Int) (word : Word) :
    ((∃ spelled, ofInteger? integer = some spelled) ↔
      0 ≤ integer ∧ integer < twoTo sizeBits) ∧
    (∀ spelled, ofInteger? integer = some spelled → spelled.toInteger = integer) ∧
    ofInteger? word.toInteger = some word ∧
    word.toInteger = numeral word.toBytes ∧
    ∀ width, 1 ≤ width → width ≤ sizeBits → ∀ reading : Int,
      reading = word.toSigned width ↔
        (-twoTo (width - 1) ≤ reading ∧ reading < twoTo (width - 1)) ∧
          reading ≡ word.toInteger [ZMOD twoTo width] := by
  refine ⟨⟨?_, ?_⟩, ?_, ?_, ?_, fun width => eq_toSigned_iff word⟩
  · rintro ⟨spelled, h⟩
    exact (ofInteger?_eq_some h).2
  · exact fun h => ⟨_, ofInteger?_of_unsigned h⟩
  · intro spelled h
    obtain ⟨rfl, hrange⟩ := ofInteger?_eq_some h
    exact toInteger_wrap hrange
  · rw [ofInteger?_of_unsigned (unsigned_toInteger word), wrap_toInteger]
  · rw [numeral_toBytes, toInteger]

-- The greatest word, the integer after it, and the least signed byte under bits that do not count.
theorem conversions_exact_edges :
    max.toInteger = 2 ^ 256 - 1 ∧ (¬∃ spelled, ofInteger? (2 ^ 256) = some spelled) ∧
      toSigned 0x5a80 8 = -128 ∧ max.toSigned 256 = -1 := by
  have hgreatest : ofInteger? (2 ^ 256 - 1) = some max := by decide
  obtain ⟨-, hback, -, -, hbyte⟩ := conversions_exact (2 ^ 256 - 1) 0x5a80
  obtain ⟨hfits, -, -, -, hfull⟩ := conversions_exact (2 ^ 256) max
  refine ⟨hback max hgreatest, fun h => absurd (hfits.mp h) (by decide), ?_, ?_⟩
  · exact ((hbyte 8 (by decide) (by decide) (-128)).mpr (by decide)).symm
  · exact ((hfull 256 (by decide) (by decide) (-1)).mpr (by decide)).symm

end SpecRecovery.Word
