import Mathlib.Data.BitVec
import Mathlib.Data.Int.ModEq
import Mathlib.Tactic.Linarith
import Mathlib.Tactic.Ring
import SpecRecovery.Operator
import SpecRecovery.Proofs.Word.Bytes

namespace SpecRecovery

theorem twoTo_eq (bits : Nat) : twoTo bits = 2 ^ bits := rfl

theorem twoTo_pos (bits : Nat) : 0 < twoTo bits := Nat.pow_pos (by decide)

theorem twoTo_le_twoTo {fewer more : Nat} (h : fewer ≤ more) : twoTo fewer ≤ twoTo more :=
  Nat.pow_le_pow_right (by decide) h

theorem twoTo_min (one other : Nat) : twoTo (min one other) = min (twoTo one) (twoTo other) := by
  rcases Nat.le_total one other with h | h
  · rw [Nat.min_eq_left h, Nat.min_eq_left (twoTo_le_twoTo h)]
  · rw [Nat.min_eq_right h, Nat.min_eq_right (twoTo_le_twoTo h)]

namespace Word

-- The integers that words stand for when all bits count as digits.
def Unsigned (value : Int) : Prop := 0 ≤ value ∧ value < twoTo sizeBits

-- The integers that words stand for in two's complement.
def Signed (value : Int) : Prop :=
  -twoTo (sizeBits - 1) ≤ value ∧ value < twoTo (sizeBits - 1)

instance (value : Int) : Decidable (Unsigned value) := inferInstanceAs (Decidable (_ ∧ _))

instance (value : Int) : Decidable (Signed value) := inferInstanceAs (Decidable (_ ∧ _))

-- The word that an integer leaves when all but its lowest 256 bits are lost.
def wrap (value : Int) : Word := BitVec.ofInt 256 value

theorem unsigned_iff {value : Int} :
    Unsigned value ↔ 0 ≤ value ∧ value < 2 ^ 256 := Iff.rfl

theorem signed_iff {value : Int} :
    Signed value ↔ -2 ^ 255 ≤ value ∧ value < 2 ^ 255 := Iff.rfl

theorem unsigned_toInteger (word : Word) : Unsigned word.toInteger := by
  have h := word.isLt
  rw [unsigned_iff]
  unfold toInteger
  omega

theorem signed_toInt (word : Word) : Signed word.toInt := by
  have h := word.isLt
  rw [signed_iff, BitVec.toInt_eq_toNat_cond]
  split <;> omega

@[simp] theorem wrap_toInteger (word : Word) : wrap word.toInteger = word := by
  simp [wrap, toInteger]

@[simp] theorem wrap_toInt (word : Word) : wrap word.toInt = word := BitVec.ofInt_toInt

theorem toNat_wrap (value : Int) : ((wrap value).toNat : Int) = value % 2 ^ 256 := by
  have h : 0 ≤ value % 2 ^ 256 := Int.emod_nonneg value (by decide)
  simpa [wrap, BitVec.toNat_ofInt] using h

theorem toInteger_wrap {value : Int} (h : Unsigned value) : (wrap value).toInteger = value := by
  rw [toInteger, toNat_wrap]
  exact Int.emod_eq_of_lt h.1 h.2

theorem toInt_wrap {value : Int} (h : Signed value) : (wrap value).toInt = value := by
  rw [signed_iff] at h
  rw [wrap, BitVec.toInt_ofInt, Int.bmod_def]
  split <;> omega

-- Two integers leave the same word exactly if they differ by a multiple of the number of words.
theorem wrap_eq_wrap_iff {left right : Int} :
    wrap left = wrap right ↔ (left - right) % 2 ^ 256 = 0 := by
  have hleft := toNat_wrap left
  have hright := toNat_wrap right
  constructor
  · intro h
    rw [h] at hleft
    omega
  · intro h
    apply BitVec.eq_of_toNat_eq
    omega

theorem wrap_injective_unsigned {left right : Int} (hl : Unsigned left) (hr : Unsigned right)
    (h : wrap left = wrap right) : left = right := by
  rw [← toInteger_wrap hl, ← toInteger_wrap hr, h]

theorem wrap_injective_signed {left right : Int} (hl : Signed left) (hr : Signed right)
    (h : wrap left = wrap right) : left = right := by
  rw [← toInt_wrap hl, ← toInt_wrap hr, h]

theorem wrap_add (left right : Int) : wrap (left + right) = wrap left + wrap right :=
  BitVec.ofInt_add left right

theorem wrap_mul (left right : Int) : wrap (left * right) = wrap left * wrap right :=
  BitVec.ofInt_mul left right

theorem wrap_sub (left right : Int) : wrap (left - right) = wrap left - wrap right := by
  rw [eq_sub_iff_add_eq, ← wrap_add, sub_add_cancel]

-- The bytes of an integer spell a word exactly if the integer is in the range of words.
theorem ofInteger?_eq (integer : Int) :
    ofInteger? integer = if Unsigned integer then some (wrap integer) else none := by
  have hcount : sizeBytes < byteCount integer.natAbs ↔ 2 ^ 256 ≤ integer.natAbs := by
    rw [← Nat.not_le, byteCount_le_iff (by decide), Nat.not_lt]
    rfl
  have hfails : (integer < 0 ∨ sizeBytes < byteCount integer.natAbs) ↔ ¬Unsigned integer := by
    rw [hcount, unsigned_iff]
    omega
  by_cases hrange : Unsigned integer
  · rw [ofInteger?, if_neg (mt hfails.mp (not_not_intro hrange)), if_pos hrange]
    by_cases hzero : integer = 0
    · rw [if_pos hzero, hzero]
      rfl
    · obtain ⟨value, rfl⟩ := Int.eq_ofNat_of_zero_le hrange.1
      rw [if_neg hzero, ofBytes, ← numeral, numeral_replicate_zero_append,
        numeral_lowBytes_byteCount]
      rfl
  · rw [ofInteger?, if_pos (hfails.mpr hrange), if_neg hrange]

theorem ofInteger?_eq_some {value : Int} {word : Word} (h : ofInteger? value = some word) :
    word = wrap value ∧ Unsigned value := by
  rw [ofInteger?_eq] at h
  split at h
  · next range => exact ⟨(Option.some.inj h).symm, range⟩
  · exact nomatch h

theorem ofInteger?_of_unsigned {value : Int} (h : Unsigned value) :
    ofInteger? value = some (wrap value) := by
  rw [ofInteger?_eq, if_pos h]

theorem lowMask_sizeBits : lowMask sizeBits = BitVec.allOnes 256 := rfl

-- All bits count at full width, so that nothing is masked away.
theorem toSigned_sizeBits (word : Word) : word.toSigned sizeBits = word.toInt := by
  have h := word.isLt
  have hw : twoTo (sizeBits - 1) = 2 ^ 255 ∧ twoTo sizeBits = 2 ^ 256 := ⟨rfl, rfl⟩
  simp only [toSigned, lowMask_sizeBits, BitVec.and_allOnes, show sizeBits ≠ 0 by decide, if_false,
    lt_irrefl, toInteger, hw.1, hw.2, BitVec.toInt_eq_toNat_cond]
  split <;> split <;> omega

-- Each round keeps the product of the result with the power that is still to be multiplied in.
theorem toNat_powerOnto (result base : Word) (exponent : Nat) :
    (powerOnto result base exponent).toNat =
      result.toNat * base.toNat ^ exponent % 2 ^ 256 := by
  induction exponent using Nat.strong_induction_on generalizing result base with
  | _ exponent ih =>
      unfold powerOnto
      by_cases hzero : exponent = 0
      · subst hzero
        simpa using (Nat.mod_eq_of_lt result.isLt).symm
      · have hsquare : base.toNat ^ exponent =
            (base.toNat * base.toNat) ^ (exponent / 2) * base.toNat ^ (exponent % 2) := by
          conv_lhs => rw [← Nat.div_add_mod exponent 2, pow_add, pow_mul, pow_two]
        rw [if_neg hzero, ih _ (by omega), hsquare, BitVec.toNat_mul]
        rcases Nat.mod_two_eq_zero_or_one exponent with heven | hodd
        · rw [if_neg (by omega), heven, pow_zero, mul_one]
          exact Nat.ModEq.mul_left _ ((Nat.mod_modEq _ _).pow _)
        · have hlast : result.toNat * ((base.toNat * base.toNat) ^ (exponent / 2) * base.toNat) =
              result.toNat * base.toNat * (base.toNat * base.toNat) ^ (exponent / 2) := by ring
          rw [if_pos hodd, hodd, pow_one, BitVec.toNat_mul, hlast]
          exact Nat.ModEq.mul (Nat.mod_modEq _ _) ((Nat.mod_modEq _ _).pow _)

theorem toNat_power (base exponent : Word) :
    (base.power exponent).toNat = base.toNat ^ exponent.toNat % 2 ^ 256 := by
  simp [power, toNat_powerOnto]

theorem wrap_pow (base : Int) (exponent : Word) :
    (wrap base).power exponent = wrap (base ^ exponent.toNat) := by
  apply BitVec.eq_of_toNat_eq
  zify
  rw [toNat_power, toNat_wrap]
  push_cast
  rw [toNat_wrap]
  exact (Int.mod_modEq base _).pow _

end Word

namespace Arithmetic

-- Arithmetic without bounds, where quotients are cut off towards zero and a division by zero gives
-- zero.
def onIntegers : Arithmetic → Int → Int → Int
  | add, left, right => left + right
  | sub, left, right => left - right
  | mul, left, right => left * right
  | div, dividend, divisor => if divisor = 0 then 0 else dividend.tdiv divisor
  | mod, dividend, divisor => if divisor = 0 then 0 else dividend.tmod divisor
  | exp, base, exponent => base ^ exponent.toNat

-- The machine computes what is left of the result without bounds, provided that it reads its
-- operands as they are meant.
theorem onWords_wrap (op : Arithmetic) {left right : Int}
    (h : op.readsUnsigned = true → Word.Unsigned left ∧ Word.Unsigned right) :
    op.onWords (Word.wrap left) (Word.wrap right) = Word.wrap (op.onIntegers left right) := by
  cases op with
  | add => exact (Word.wrap_add left right).symm
  | sub => exact (Word.wrap_sub left right).symm
  | mul => exact (Word.wrap_mul left right).symm
  | div =>
      obtain ⟨hl, hr⟩ := h rfl
      have hleft := Word.toInteger_wrap hl
      have hright := Word.toInteger_wrap hr
      rw [Word.toInteger] at hleft hright
      rw [← Word.wrap_toInteger (onWords _ _ _)]
      congr 1
      simp only [onWords, onIntegers, Word.toInteger, BitVec.toNat_udiv, Int.natCast_ediv, hleft,
        hright]
      split
      · next hzero => simp [hzero]
      · rw [Int.tdiv_eq_ediv_of_nonneg hl.1]
  | mod =>
      obtain ⟨hl, hr⟩ := h rfl
      have hleft := Word.toInteger_wrap hl
      have hright := Word.toInteger_wrap hr
      rw [Word.toInteger] at hleft hright
      have hzero : Word.wrap right = 0 ↔ right = 0 :=
        ⟨fun hw => Word.wrap_injective_unsigned hr ⟨le_rfl, by decide⟩ hw,
          fun hw => by rw [hw]; rfl⟩
      simp only [onWords, onIntegers, hzero]
      split
      · rfl
      · rw [← Word.wrap_toInteger (_ % _), Int.tmod_eq_emod_of_nonneg hl.1]
        simp only [Word.toInteger, BitVec.toNat_umod, Int.natCast_emod, hleft, hright]
  | exp =>
      have hright := Word.toInteger_wrap (h rfl).2
      rw [Word.toInteger] at hright
      have hexponent : (Word.wrap right).toNat = right.toNat := by omega
      rw [onWords, onIntegers, Word.wrap_pow, hexponent]

-- Quotients and remainders of words are words.
theorem unsigned_onIntegers {op : Arithmetic} {left right : Int} (hop : op = .div ∨ op = .mod)
    (hl : Word.Unsigned left) (hr : Word.Unsigned right) :
    Word.Unsigned (op.onIntegers left right) := by
  rw [Word.unsigned_iff] at hl hr ⊢
  rcases hop with rfl | rfl
  · simp only [onIntegers]
    split
    · omega
    · rw [Int.tdiv_eq_ediv_of_nonneg hl.1]
      have hnonneg := Int.ediv_nonneg hl.1 hr.1
      have hle := Int.ediv_le_self right hl.1
      omega
  · simp only [onIntegers]
    split
    · omega
    · next hzero =>
        rw [Int.tmod_eq_emod_of_nonneg hl.1]
        have hnonneg := Int.emod_nonneg left hzero
        have hlt := Int.emod_lt_of_pos left (show 0 < right by omega)
        omega

end Arithmetic

namespace Comparison

theorem onWords_wrap (op : Comparison) {left right : Int} (hl : Word.Unsigned left)
    (hr : Word.Unsigned right) :
    op.onWords (Word.wrap left) (Word.wrap right) = op.onIntegers left right := by
  have hleft := Word.toInteger_wrap hl
  have hright := Word.toInteger_wrap hr
  rw [Word.toInteger] at hleft hright
  rw [onWords, hleft, hright]

end Comparison

namespace Word

theorem ofBool_beq_zero (truth : Bool) : (ofBool truth == 0) = !truth := by
  cases truth <;> rfl

@[simp] theorem ofBool_inj (left right : Bool) : ofBool left = ofBool right ↔ left = right := by
  cases left <;> cases right <;> decide

theorem ofBool_and (left right : Bool) : ofBool left &&& ofBool right = ofBool (left && right) := by
  cases left <;> cases right <;> rfl

theorem ofBool_or (left right : Bool) : ofBool left ||| ofBool right = ofBool (left || right) := by
  cases left <;> cases right <;> rfl

-- Words and integers divide alike.
theorem toInteger_div (left right : Word) :
    (left / right).toInteger = Arithmetic.div.onIntegers left.toInteger right.toInteger := by
  have hleft := unsigned_toInteger left
  have hright := unsigned_toInteger right
  have hquotient := Arithmetic.onWords_wrap .div fun _ => ⟨hleft, hright⟩
  rw [wrap_toInteger, wrap_toInteger] at hquotient
  rw [← toInteger_wrap (Arithmetic.unsigned_onIntegers (.inl rfl) hleft hright), ← hquotient]
  rfl

end Word

end SpecRecovery
