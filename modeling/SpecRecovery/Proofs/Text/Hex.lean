import Mathlib.Tactic.IntervalCases
import SpecRecovery.Proofs.Word.Bytes
import SpecRecovery.Text.Numeral

namespace SpecRecovery.Text

theorem hexValue?_hexDigit {value : Nat} (h : value < 16) :
    hexValue? (hexDigit value) = some value := by
  interval_cases value <;> rfl

theorem length_hexDigits (count value : Nat) : (hexDigits count value).length = count := by
  induction count generalizing value with
  | zero => rfl
  | succ count ih => simp [hexDigits, ih]

theorem foldlM_hexDigits {count value : Nat} (h : value < 16 ^ count) :
    (hexDigits count value).foldlM
      (fun total digit => (hexValue? digit).map (16 * total + ·)) 0 = some value := by
  induction count generalizing value with
  | zero =>
      have hzero : value = 0 := by simpa using h
      rw [hzero]
      rfl
  | succ count ih =>
      have hhigh : value / 16 < 16 ^ count := by
        rw [Nat.pow_succ] at h
        omega
      have hlow := hexValue?_hexDigit (Nat.mod_lt value (show 16 > 0 by decide))
      have hvalue : 16 * (value / 16) + value % 16 = value := Nat.div_add_mod value 16
      rw [hexDigits, List.foldlM_append, ih hhigh]
      simp [hlow, hvalue]

theorem hexValue?_of_mem_hexDigits {count value : Nat} :
    ∀ digit ∈ hexDigits count value, (hexValue? digit).isSome = true := by
  induction count generalizing value with
  | zero => exact List.forall_mem_nil _
  | succ count ih =>
      rw [hexDigits, List.forall_mem_append, List.forall_mem_singleton,
        hexValue?_hexDigit (Nat.mod_lt value (by decide))]
      exact ⟨ih, rfl⟩

-- A number with room in the digits is read back from them.
theorem numberOfHex?_hexDigits {count value : Nat} (hcount : 0 < count) (h : value < 16 ^ count) :
    numberOfHex? (hexDigits count value) = some value := by
  have hsome : (hexDigits count value).isEmpty = false := by
    rw [List.isEmpty_eq_false_iff_exists_mem]
    apply List.exists_mem_of_length_pos
    rwa [length_hexDigits]
  rw [numberOfHex?, hsome]
  exact foldlM_hexDigits h

theorem bytesOfHex?_append {first : List Char} {bytes : List UInt8}
    (hfirst : bytesOfHex? first = some bytes) (second : List Char) :
    bytesOfHex? (first ++ second) = (bytesOfHex? second).map (bytes ++ ·) := by
  fun_induction bytesOfHex? first generalizing bytes with
  | case1 =>
      obtain rfl := Option.some.inj hfirst
      simp
  | case2 => exact nomatch hfirst
  | case3 high low rest ih =>
      obtain ⟨one, hone, hfirst⟩ := Option.bind_eq_some_iff.mp hfirst
      obtain ⟨other, hother, hfirst⟩ := Option.bind_eq_some_iff.mp hfirst
      obtain ⟨later, hlater, hfirst⟩ := Option.bind_eq_some_iff.mp hfirst
      obtain rfl := Option.some.inj hfirst
      rw [List.cons_append, List.cons_append, bytesOfHex?, hone, hother, ih hlater]
      cases bytesOfHex? second <;> rfl

-- Pairs of digits are the bytes that make up the number.
theorem exists_bytesOfHex?_hexDigits {count value : Nat} (h : value < 256 ^ count) :
    ∃ bytes, bytesOfHex? (hexDigits (2 * count) value) = some bytes ∧ bytes.length = count ∧
      Word.numeral bytes = value := by
  induction count generalizing value with
  | zero =>
      have hzero : value = 0 := by simpa using h
      exact ⟨[], rfl, rfl, hzero.symm⟩
  | succ count ih =>
      have hhigh : value / 16 / 16 < 256 ^ count := by
        rw [Nat.pow_succ] at h
        omega
      obtain ⟨bytes, hbytes, hlength, hnumeral⟩ := ih hhigh
      have hdigits : hexDigits (2 * (count + 1)) value = hexDigits (2 * count) (value / 16 / 16) ++
          [hexDigit (value / 16 % 16), hexDigit (value % 16)] := by
        simp [Nat.mul_add, hexDigits]
      have hlast : bytesOfHex? [hexDigit (value / 16 % 16), hexDigit (value % 16)] =
          some [UInt8.ofNat (value % 256)] := by
        have hone := hexValue?_hexDigit (Nat.mod_lt (value / 16) (show 16 > 0 by decide))
        have hother := hexValue?_hexDigit (Nat.mod_lt value (show 16 > 0 by decide))
        have hbyte : 16 * (value / 16 % 16) + value % 16 = value % 256 := by omega
        rw [bytesOfHex?, hone, hother, ← hbyte]
        rfl
      refine ⟨bytes ++ [UInt8.ofNat (value % 256)], ?_, by simp [hlength], ?_⟩
      · rw [hdigits, bytesOfHex?_append hbytes, hlast]
        rfl
      · rw [Word.numeral_append_byte, hnumeral, UInt8.toNat_ofNat']
        omega

end SpecRecovery.Text
