import Mathlib.Data.List.Induction
import Mathlib.Tactic.Ring
import SpecRecovery.Word

namespace SpecRecovery.Word

-- The number whose digits to the base 256 are the bytes, the highest first.
def numeral (bytes : List UInt8) : Nat :=
  bytes.foldl (fun total byte => total * 256 + byte.toNat) 0

theorem numeral_append_byte (bytes : List UInt8) (byte : UInt8) :
    numeral (bytes ++ [byte]) = numeral bytes * 256 + byte.toNat := by
  simp [numeral, List.foldl_append]

theorem numeral_lt (bytes : List UInt8) : numeral bytes < 256 ^ bytes.length := by
  induction bytes using List.reverseRecOn with
  | nil => simp [numeral]
  | append_singleton bytes byte ih =>
      have hbyte := byte.toNat_lt
      rw [numeral_append_byte, List.length_append, List.length_singleton, Nat.pow_succ]
      omega

-- A byte is what is left after shifting away the later ones.
theorem numeral_shiftRight (bytes : List UInt8) {index : Nat} (h : index < bytes.length) :
    (numeral bytes >>> (8 * (bytes.length - 1 - index))) % 256 = bytes[index].toNat := by
  induction bytes using List.reverseRecOn with
  | nil => exact nomatch h
  | append_singleton bytes byte ih =>
      have hbyte := byte.toNat_lt
      rw [List.length_append, List.length_singleton] at h
      rw [numeral_append_byte, List.length_append, List.length_singleton]
      by_cases hlast : index = bytes.length
      · subst hlast
        simp
      · have hindex : index < bytes.length := by omega
        have hshift : 8 * (bytes.length + 1 - 1 - index) = 8 + 8 * (bytes.length - 1 - index) := by
          omega
        have hdrop : (numeral bytes * 256 + byte.toNat) >>> 8 = numeral bytes := by
          rw [Nat.shiftRight_eq_div_pow]
          omega
        rw [hshift, Nat.shiftRight_add, hdrop, ih hindex, List.getElem_append_left hindex]

@[simp] theorem length_lowBytes (count value : Nat) : (lowBytes count value).length = count := by
  simp [lowBytes]

@[simp] theorem length_toBytes (word : Word) : word.toBytes.length = sizeBytes :=
  length_lowBytes _ _

-- The digits to the base 256 that a number has at the last `count` places.
theorem numeral_lowBytes (count value : Nat) :
    numeral (lowBytes count value) = value % 256 ^ count := by
  unfold lowBytes
  induction count generalizing value with
  | zero => simp [numeral, Nat.mod_one]
  | succ count ih =>
      have hearlier : ((List.range count).map fun index =>
            UInt8.ofNat (value >>> (8 * (count + 1 - 1 - index)))) =
          (List.range count).map fun index =>
            UInt8.ofNat ((value >>> 8) >>> (8 * (count - 1 - index))) := by
        apply List.map_congr_left
        intro index hindex
        rw [List.mem_range] at hindex
        rw [← Nat.shiftRight_add]
        congr 2
        omega
      have hlast : (UInt8.ofNat (value >>> (8 * (count + 1 - 1 - count)))).toNat = value % 256 := by
        simp
      have hsplit : value % 256 ^ (count + 1) =
          value % 256 + 256 * (value / 256 % 256 ^ count) := by
        rw [Nat.pow_succ', Nat.mod_mul]
      have hshift : value >>> 8 = value / 256 := Nat.shiftRight_eq_div_pow value 8
      rw [List.range_succ, List.map_append, List.map_singleton, numeral_append_byte, hearlier, ih,
        hlast, hshift, hsplit]
      omega

-- A word is the number that its bytes spell, the highest first.
theorem numeral_toBytes (word : Word) : numeral word.toBytes = word.toNat := by
  rw [toBytes, numeral_lowBytes]
  exact Nat.mod_eq_of_lt word.isLt

-- Leading zeros do not count.
theorem numeral_replicate_zero_append (count : Nat) (bytes : List UInt8) :
    numeral (List.replicate count 0 ++ bytes) = numeral bytes := by
  induction count with
  | zero => rfl
  | succ count ih => rw [← ih, List.replicate_succ]; rfl

-- A number takes as few bytes as it can, but at least one.
theorem byteCount_le_iff {value count : Nat} (h : 0 < count) :
    byteCount value ≤ count ↔ value < 256 ^ count := by
  have hplaces : 256 ^ count = 2 ^ (8 * count) := (Nat.pow_mul 2 8 count).symm
  have hlog : value.log2 < 8 * count ↔ value < 256 ^ count := by
    by_cases hzero : value = 0
    · simp [hzero, h]
    · rw [hplaces, Nat.log2_lt hzero]
  rw [← hlog, byteCount]
  omega

-- Nothing of a number is lost in the bytes that it takes.
theorem numeral_lowBytes_byteCount (value : Nat) :
    numeral (lowBytes (byteCount value) value) = value := by
  have hlt : value < 256 ^ byteCount value := (byteCount_le_iff (Nat.succ_pos _)).mp le_rfl
  rw [numeral_lowBytes, Nat.mod_eq_of_lt hlt]

theorem toBytes_ofBytes {bytes : List UInt8} (h : bytes.length = sizeBytes) :
    (ofBytes bytes).toBytes = bytes := by
  have hlt : numeral bytes < 2 ^ 256 := by
    have hbound := numeral_lt bytes
    rwa [h] at hbound
  have hnat : (ofBytes bytes).toNat = numeral bytes := by
    rw [ofBytes, BitVec.toNat_ofNat]
    exact Nat.mod_eq_of_lt hlt
  apply List.ext_getElem
  · rw [length_toBytes, h]
  · intro index hindex hbytes
    have hdigit := numeral_shiftRight bytes hbytes
    rw [h] at hdigit
    simp only [toBytes, lowBytes, List.getElem_map, List.getElem_range, hnat]
    apply UInt8.toNat_inj.mp
    rw [UInt8.toNat_ofNat', hdigit]

end SpecRecovery.Word
