import SpecRecovery.Lowering.Lowerer
import SpecRecovery.Proofs.Abi.Range
import SpecRecovery.Proofs.Machine.Denotation
import SpecRecovery.Proofs.Word.SignExtension

namespace SpecRecovery

namespace AbiType

variable {type : AbiType} {width : Nat}

theorem width_bounds (hsize : type.isWellSized = true) (hwidth : type.integerWidth = some width) :
    1 ≤ width ∧ width ≤ 256 := by
  cases type <;> simp_all [isWellSized, integerWidth, Word.sizeBits, addressBits] <;> omega

theorem width_of_isSigned (hsize : type.isWellSized = true)
    (hwidth : type.integerWidth = some width) (hsigned : type.isSigned = true) :
    8 ≤ width ∧ width % 8 = 0 := by
  cases type <;> simp_all [isWellSized, integerWidth, isSigned]

theorem holds_of_not_isSigned (hwidth : type.integerWidth = some width)
    (hsigned : type.isSigned = false) (value : Int) :
    type.holds value = true ↔ 0 ≤ value ∧ value < twoTo width := by
  cases type with
  | uint | address | bool =>
      obtain rfl := Option.some.inj hwidth
      simp [holds, integerRange, twoTo]
  | int => simp [isSigned] at hsigned
  | _ => simp [integerWidth] at hwidth

theorem holds_of_isSigned (hwidth : type.integerWidth = some width) (hsigned : type.isSigned = true)
    (value : Int) :
    type.holds value = true ↔ -twoTo (width - 1) ≤ value ∧ value < twoTo (width - 1) := by
  cases type with
  | int =>
      obtain rfl := Option.some.inj hwidth
      simp [holds, integerRange]
  | _ => simp [isSigned] at hsigned

-- The signed types that are narrower than a word hold what their low bytes extend to.
theorem holds_toInt (hsize : type.isWellSized = true) (hwidth : type.integerWidth = some width)
    (hsigned : type.isSigned = true) (hnarrow : width < 256) (word : Word) :
    type.holds word.toInt = (Word.extendSign (BitVec.ofNat 256 (width / 8 - 1)) word == word) := by
  obtain ⟨hbyte, hwhole⟩ := width_of_isSigned hsize hwidth hsigned
  have hbytes : (BitVec.ofNat 256 (width / 8 - 1)).toNat = width / 8 - 1 := by
    rw [BitVec.toNat_ofNat]
    omega
  have hbit : 8 * (width / 8 - 1) + 7 = width - 1 := by omega
  have hextend := Word.extendSign_eq_self_iff word
    (show (BitVec.ofNat 256 (width / 8 - 1)).toNat < 31 by omega)
  rw [hbytes, hbit] at hextend
  rw [Bool.eq_iff_iff, holds_of_isSigned hwidth hsigned, beq_iff_eq, hextend]

end AbiType

namespace Machine.Cond

variable {assignment : Assignment} {term : Expr} {word : Word}

theorem toNat_powerOfTwo {bits : Nat} (h : bits < 256) :
    (Word.lowMask bits + 1).toNat = twoTo bits := by
  have hpos := twoTo_pos bits
  have hlt : twoTo bits < 2 ^ 256 := Nat.pow_lt_pow_right (by decide) h
  have hone : (1 : Word).toNat = 1 := rfl
  rw [BitVec.toNat_add, Word.toNat_lowMask h, hone]
  omega

theorem eval_powerOfTwo (assignment : Assignment) (bits : Nat) :
    (Expr.powerOfTwo bits).eval assignment = .ok (Word.lowMask bits + 1) := rfl

theorem denotes_withinBits (h : term.eval assignment = .ok word) (bits : Nat) :
    (withinBits term bits).Denotes assignment (decide (word.toNat < twoTo bits)) := by
  have hlt := word.isLt
  unfold withinBits
  split
  · next hwide =>
      have hle : 2 ^ 256 ≤ twoTo bits := twoTo_le_twoTo hwide
      rw [decide_eq_true (by omega)]
      exact denotes_bool true
  · next hnarrow =>
      have hcompare := denotes_compare .lt h (eval_powerOfTwo assignment bits)
      rw [Comparison.onWords, toNat_powerOfTwo (Nat.lt_of_not_le hnarrow)] at hcompare
      simp only [Comparison.onIntegers, Nat.cast_lt] at hcompare
      exact hcompare

end Machine.Cond

namespace Lowerer

open Machine

variable {assignment : Assignment} {type : AbiType} {width : Nat}

-- The word of an atom tells whether the integer that it stands for is in the range.
theorem denotes_atomRange (hsize : type.isWellSized = true)
    (hwidth : type.integerWidth = some width) (signed : Bool) {term : Machine.Expr} {word : Word}
    (h : term.eval assignment = .ok word) :
    (atomRange type width signed term).Denotes assignment
      (type.holds (if signed then word.toInt else word.toInteger)) := by
  obtain ⟨hlow, hhigh⟩ := AbiType.width_bounds hsize hwidth
  have hword := word.isLt
  have hint := BitVec.toInt_eq_toNat_cond word
  have hpos := twoTo_pos (width - 1)
  unfold atomRange
  cases hsigned : type.isSigned <;> cases signed
  case false.false =>
    have hiff : type.holds word.toInteger = decide (word.toNat < twoTo width) := by
      rw [Bool.eq_iff_iff, AbiType.holds_of_not_isSigned hwidth hsigned, decide_eq_true_iff,
        Word.toInteger]
      omega
    exact hiff ▸ Cond.denotes_withinBits h width
  case false.true =>
    have hhalf : twoTo (Word.sizeBits - 1) = 2 ^ 255 := rfl
    have hiff : type.holds word.toInt =
        decide (word.toNat < twoTo (min width (Word.sizeBits - 1))) := by
      rw [Bool.eq_iff_iff, AbiType.holds_of_not_isSigned hwidth hsigned, decide_eq_true_iff,
        twoTo_min, hint]
      split <;> omega
    exact hiff ▸ Cond.denotes_withinBits h _
  case true.false =>
    have hbits : magnitudeBits width = width - 1 := if_neg (by omega)
    have hiff : type.holds word.toInteger = decide (word.toNat < twoTo (magnitudeBits width)) := by
      rw [Bool.eq_iff_iff, AbiType.holds_of_isSigned hwidth hsigned, decide_eq_true_iff, hbits,
        Word.toInteger]
      omega
    exact hiff ▸ Cond.denotes_withinBits h _
  case true.true =>
    dsimp only
    split
    · next hwide =>
        have hfull : width = 256 := Nat.le_antisymm hhigh hwide
        have hholds : type.holds word.toInt = true := by
          rw [AbiType.holds_of_isSigned hwidth hsigned, hfull]
          exact Word.signed_toInt word
        rw [if_pos rfl, hholds]
        exact Cond.denotes_bool true
    · next hnarrow =>
        rw [if_pos rfl, AbiType.holds_toInt hsize hwidth hsigned (Nat.lt_of_not_le hnarrow)]
        refine Cond.denotes_eqWords ?_ h
        rw [Machine.Expr.eval, h]
        rfl

section Arithmetic

variable {left right : Machine.Expr} {first second : Word}

theorem eval_arithmetic (op : Arithmetic) (hl : left.eval assignment = .ok first)
    (hr : right.eval assignment = .ok second) :
    (Machine.Expr.binary (.arithmetic op) left right).eval assignment =
      .ok (op.onWords first second) := by
  rw [Machine.Expr.eval, hl, hr]
  rfl

theorem le_add_iff (first second : Word) :
    first.toNat ≤ (first + second).toNat ↔ first.toNat + second.toNat < 2 ^ 256 := by
  have hfirst := first.isLt
  have hsecond := second.isLt
  rw [BitVec.toNat_add]
  omega

-- A product that wraps is too small to be divided back.
theorem mul_div_eq_iff {first : Word} (second : Word) (h : first ≠ 0) :
    first * second / first = second ↔ first.toNat * second.toNat < 2 ^ 256 := by
  have hpos : 0 < first.toNat := Nat.pos_of_ne_zero fun hzero => h (BitVec.eq_of_toNat_eq hzero)
  rw [← BitVec.toNat_inj, BitVec.toNat_udiv, BitVec.toNat_mul]
  constructor
  · intro hback
    have hle := Nat.div_mul_le_self (first.toNat * second.toNat % 2 ^ 256) first.toNat
    rw [hback, Nat.mul_comm] at hle
    exact Nat.lt_of_le_of_lt hle (Nat.mod_lt _ (by decide))
  · intro hfits
    rw [Nat.mod_eq_of_lt hfits, Nat.mul_div_cancel_left _ hpos]

theorem denotes_exact {op : Arithmetic} (hop : op ≠ .exp) (hl : left.eval assignment = .ok first)
    (hr : right.eval assignment = .ok second) :
    (exact op left right).Denotes assignment
      (decide (Word.Unsigned (op.onIntegers first.toInteger second.toInteger))) := by
  have hfirst := first.isLt
  have hsecond := second.isLt
  cases op with
  | add =>
      have hiff : decide (Word.Unsigned (first.toInteger + second.toInteger)) =
          Comparison.geq.onWords (first + second) first := by
        rw [Bool.eq_iff_iff, decide_eq_true_iff, Word.unsigned_iff]
        simp only [Comparison.onWords, Comparison.onIntegers, Word.toInteger, decide_eq_true_iff,
          Nat.cast_le, le_add_iff]
        omega
      exact hiff ▸ Cond.denotes_compare .geq (eval_arithmetic .add hl hr) hl
  | sub =>
      have hiff : decide (Word.Unsigned (first.toInteger - second.toInteger)) =
          Comparison.geq.onWords first second := by
        rw [Bool.eq_iff_iff, decide_eq_true_iff, Word.unsigned_iff]
        simp only [Comparison.onWords, Comparison.onIntegers, Word.toInteger, decide_eq_true_iff,
          Nat.cast_le]
        omega
      exact hiff ▸ Cond.denotes_compare .geq hl hr
  | mul =>
      have hiff : decide (Word.Unsigned (first.toInteger * second.toInteger)) =
          (first == 0 || first * second / first == second) := by
        rw [Bool.eq_iff_iff, decide_eq_true_iff, Word.unsigned_iff, Bool.or_eq_true, beq_iff_eq,
          beq_iff_eq]
        by_cases hzero : first = 0
        · simp [hzero, Word.toInteger]
        · rw [or_iff_right hzero, mul_div_eq_iff second hzero, Word.toInteger, Word.toInteger]
          norm_cast
          exact and_iff_right (Nat.zero_le _)
      have hproduct := eval_arithmetic .mul hl hr
      exact hiff ▸ (Cond.denotes_eqWords hl rfl).either
        (Cond.denotes_eqWords (eval_arithmetic .div hproduct hl) hr)
  | div =>
      have hunsigned := Arithmetic.unsigned_onIntegers (.inl rfl) (Word.unsigned_toInteger first)
        (Word.unsigned_toInteger second)
      rw [decide_eq_true hunsigned]
      exact Cond.denotes_bool true
  | mod =>
      have hunsigned := Arithmetic.unsigned_onIntegers (.inr rfl) (Word.unsigned_toInteger first)
        (Word.unsigned_toInteger second)
      rw [decide_eq_true hunsigned]
      exact Cond.denotes_bool true
  | exp => exact absurd rfl hop

theorem denotes_signedDifference {bits : Nat} (hbits : bits < 256)
    (hl : left.eval assignment = .ok first) (hr : right.eval assignment = .ok second) :
    (signedDifference bits left right).Denotes assignment
      (decide (-twoTo bits ≤ first.toInteger - second.toInteger ∧
        first.toInteger - second.toInteger < twoTo bits)) := by
  have hfirst := first.isLt
  have hsecond := second.isLt
  have hpos := twoTo_pos bits
  have hpower := Cond.toNat_powerOfTwo hbits
  have hbound := Cond.eval_powerOfTwo assignment bits
  have habove := (Cond.denotes_compare .geq hl hr).both
    (Cond.denotes_compare .lt (eval_arithmetic .sub hl hr) hbound)
  have hbelow := (Cond.denotes_compare .lt hl hr).both
    (Cond.denotes_compare .leq (eval_arithmetic .sub hr hl) hbound)
  have hsub : second.toNat ≤ first.toNat → (first - second).toNat = first.toNat - second.toNat :=
    BitVec.toNat_sub_of_le
  have hrev : first.toNat ≤ second.toNat → (second - first).toNat = second.toNat - first.toNat :=
    BitVec.toNat_sub_of_le
  have hiff : decide (-twoTo bits ≤ first.toInteger - second.toInteger ∧
      first.toInteger - second.toInteger < twoTo bits) =
      ((Comparison.geq.onWords first second &&
          Comparison.lt.onWords (first - second) (Word.lowMask bits + 1)) ||
        (Comparison.lt.onWords first second &&
          Comparison.leq.onWords (second - first) (Word.lowMask bits + 1))) := by
    rw [Bool.eq_iff_iff, decide_eq_true_iff]
    simp only [Comparison.onWords, Comparison.onIntegers, Bool.or_eq_true, Bool.and_eq_true,
      decide_eq_true_eq, Nat.cast_le, Nat.cast_lt, hpower, Word.toInteger]
    rcases Nat.lt_or_ge first.toNat second.toNat with hlt | hge
    · rw [hrev hlt.le]
      omega
    · rw [hsub hge]
      omega
  exact hiff ▸ habove.either hbelow

-- Unless it is a negative one, an integer of the type is a word of as many bits as the type has
-- from zero on.
theorem holds_iff_within (hsize : type.isWellSized = true)
    (hwidth : type.integerWidth = some width) {value : Int}
    (hnonneg : type.isSigned = true → 0 ≤ value) :
    type.holds value = true ↔
      Word.Unsigned value ∧ (Word.wrap value).toNat <
        twoTo (if type.isSigned then magnitudeBits width else width) := by
  obtain ⟨hlow, hhigh⟩ := AbiType.width_bounds hsize hwidth
  have hword (hunsigned : Word.Unsigned value) : ((Word.wrap value).toNat : Int) = value :=
    Word.toInteger_wrap hunsigned
  have hwords (bits : Nat) (hbits : bits ≤ 256) : twoTo bits ≤ 2 ^ 256 := twoTo_le_twoTo hbits
  rw [Word.unsigned_iff] at hword ⊢
  cases hsigned : type.isSigned with
  | true =>
      have hbits : magnitudeBits width = width - 1 := if_neg (by omega)
      have hfew := hwords (width - 1) (by omega)
      have hpos := twoTo_pos (width - 1)
      rw [AbiType.holds_of_isSigned hwidth hsigned, if_pos rfl, hbits]
      have hvalue := hnonneg hsigned
      constructor
      · rintro ⟨_, hlt⟩
        have hsame := hword ⟨hvalue, by omega⟩
        omega
      · rintro ⟨hunsigned, hlt⟩
        have hsame := hword hunsigned
        omega
  | false =>
      have hfew := hwords width hhigh
      rw [AbiType.holds_of_not_isSigned hwidth hsigned, if_neg Bool.false_ne_true]
      constructor
      · rintro ⟨hvalue, hlt⟩
        have hsame := hword ⟨hvalue, by omega⟩
        omega
      · rintro ⟨hunsigned, hlt⟩
        have hsame := hword hunsigned
        omega

theorem onIntegers_nonneg {op : Arithmetic} (hsub : op ≠ .sub) (hop : op ≠ .exp)
    (first second : Word) : 0 ≤ op.onIntegers first.toInteger second.toInteger := by
  have hfirst := Word.unsigned_toInteger first
  have hsecond := Word.unsigned_toInteger second
  cases op with
  | add => exact Int.add_nonneg hfirst.1 hsecond.1
  | sub => exact absurd rfl hsub
  | mul => exact Int.mul_nonneg hfirst.1 hsecond.1
  | div => exact (Arithmetic.unsigned_onIntegers (.inl rfl) hfirst hsecond).1
  | mod => exact (Arithmetic.unsigned_onIntegers (.inr rfl) hfirst hsecond).1
  | exp => exact absurd rfl hop

-- The result may wrap. Then the integer is out of the range of words and thereby out of every
-- range, because only differences are negative.
theorem denotes_arithmeticRange (hsize : type.isWellSized = true)
    (hwidth : type.integerWidth = some width) {op : Arithmetic} (hop : op ≠ .exp)
    (hl : left.eval assignment = .ok first) (hr : right.eval assignment = .ok second)
    {result : Except VerificationError Machine.Expr} {cond : Cond}
    (hresult : ∀ term, result = .ok term →
      term.eval assignment = .ok (op.onWords first second))
    (h : arithmeticRange type width op left right result = .ok cond) :
    cond.Denotes assignment (type.holds (op.onIntegers first.toInteger second.toInteger)) := by
  obtain ⟨hlow, hhigh⟩ := AbiType.width_bounds hsize hwidth
  have hbits : magnitudeBits width = width - 1 := if_neg (by omega)
  unfold arithmeticRange at h
  split at h
  · next hdifference =>
      rw [Bool.and_eq_true, decide_eq_true_iff] at hdifference
      obtain ⟨rfl, hsigned⟩ := hdifference
      obtain rfl := Except.ok.inj h
      have hiff : type.holds (Arithmetic.sub.onIntegers first.toInteger second.toInteger) =
          decide (-twoTo (width - 1) ≤ first.toInteger - second.toInteger ∧
            first.toInteger - second.toInteger < twoTo (width - 1)) := by
        rw [Bool.eq_iff_iff, AbiType.holds_of_isSigned hwidth hsigned, decide_eq_true_iff]
        rfl
      rw [hbits, hiff]
      exact denotes_signedDifference (by omega) hl hr
  · next hdifference =>
      obtain ⟨term, hterm, h⟩ := bind_eq_ok.mp h
      obtain rfl := Except.ok.inj h
      have hwithin := (denotes_exact hop hl hr).both
        (Cond.denotes_withinBits (hresult term hterm)
          (if type.isSigned then magnitudeBits width else width))
      have hwrap := op.onWords_wrap fun _ =>
        ⟨Word.unsigned_toInteger first, Word.unsigned_toInteger second⟩
      rw [Word.wrap_toInteger, Word.wrap_toInteger] at hwrap
      have hiff : type.holds (op.onIntegers first.toInteger second.toInteger) =
          (decide (Word.Unsigned (op.onIntegers first.toInteger second.toInteger)) &&
            decide ((op.onWords first second).toNat <
              twoTo (if type.isSigned then magnitudeBits width else width))) := by
        rw [Bool.eq_iff_iff, Bool.and_eq_true, decide_eq_true_iff, decide_eq_true_iff, hwrap]
        refine holds_iff_within hsize hwidth fun hsigned => onIntegers_nonneg ?_ hop first second
        rintro rfl
        exact hdifference (by rw [hsigned]; rfl)
      exact hiff ▸ hwithin

end Arithmetic

end Lowerer

end SpecRecovery
