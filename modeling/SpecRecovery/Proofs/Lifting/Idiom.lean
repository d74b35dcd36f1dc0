import SpecRecovery.Machine.Evaluation
import SpecRecovery.Proofs.Lifting.Check
import SpecRecovery.Proofs.Result
import SpecRecovery.Proofs.Spec.Agreement

namespace SpecRecovery

namespace Word

-- The complement of a word is what it lacks to the greatest one.
theorem complement_lt_iff (left right : Word) :
    (~~~left).toNat < right.toNat ↔ 2 ^ 256 ≤ left.toNat + right.toNat := by
  have hleft := left.isLt
  rw [BitVec.toNat_not]
  omega

-- The quotient of the greatest word is the last factor with which a product still fits.
theorem max_div_lt_iff {left : Word} (right : Word) (h : left ≠ 0) :
    (max / left).toNat < right.toNat ↔ 2 ^ 256 ≤ left.toNat * right.toNat := by
  have hpos : 0 < left.toNat := Nat.pos_of_ne_zero fun hzero => h (BitVec.eq_of_toNat_eq hzero)
  have hmax : max.toNat = 2 ^ 256 - 1 := BitVec.toNat_allOnes
  rw [BitVec.toNat_udiv, hmax, Nat.div_lt_iff_lt_mul hpos, Nat.mul_comm]
  omega

end Word

theorem AbiType.holds_uint256_iff {value : Int} :
    AbiType.uint256.holds value = true ↔ Word.Unsigned value := by
  simp [AbiType.holds, AbiType.uint256, AbiType.integerRange, Word.Unsigned]

namespace Idiom

open Machine Spec

-- What an overflow check finds out about the words of its operands.
def overflows : Idiom → Word → Word → Bool
  | additionOverflow, left, right => 2 ^ 256 ≤ left.toNat + right.toNat
  | multiplicationOverflow, left, right => 2 ^ 256 ≤ left.toNat * right.toNat

section Shapes

variable {assignment : Assignment} {left right : Word} {first second : Machine.Expr}

theorem overflows_addition (left right : Word) :
    Comparison.lt.onWords (~~~left) right = additionOverflow.overflows left right := by
  have hiff := Word.complement_lt_iff left right
  simp only [Comparison.onWords, Comparison.onIntegers, overflows, Nat.cast_lt, hiff]

theorem overflows_multiplication (left right : Word) :
    (left != 0 && Comparison.lt.onWords (Word.max / left) right) =
      multiplicationOverflow.overflows left right := by
  by_cases hzero : left = 0
  · simp [hzero, overflows]
  · have hiff := Word.max_div_lt_iff right hzero
    simp only [bne_iff_ne.mpr hzero, Bool.true_and, Comparison.onWords, Comparison.onIntegers,
      overflows, Nat.cast_lt, hiff]

theorem eval_lt {one other : Machine.Expr} {below above : Word}
    (hone : one.eval assignment = .ok below) (hother : other.eval assignment = .ok above) :
    (Machine.Expr.binary (.compare .lt) one other).eval assignment =
      .ok (Word.ofBool (Comparison.lt.onWords below above)) := by
  rw [Machine.Expr.eval, hone, hother]
  rfl

theorem holds_lt {one other : Machine.Expr} {below above : Word}
    (hone : one.eval assignment = .ok below) (hother : other.eval assignment = .ok above) :
    (Cond.lt one other).holds assignment = .ok (Comparison.lt.onWords below above) := by
  rw [Cond.lt, Cond.holds, hone, hother]
  rfl

-- An exclusive or with all ones is the complement, on whichever side they stand.
theorem eval_complement (h : first.eval assignment = .ok left) :
    (Machine.Expr.binary .xor first (.lit Word.max)).eval assignment = .ok (~~~left) := by
  rw [Machine.Expr.eval, h, Machine.Expr.eval]
  exact congrArg Except.ok BitVec.xor_allOnes

theorem eval_complementAfterOnes (h : first.eval assignment = .ok left) :
    (Machine.Expr.binary .xor (.lit Word.max) first).eval assignment = .ok (~~~left) := by
  rw [Machine.Expr.eval, h, Machine.Expr.eval]
  exact congrArg Except.ok BitVec.allOnes_xor

theorem eval_greatestOver (h : first.eval assignment = .ok left) :
    ((Machine.Expr.lit Word.max).div first).eval assignment = .ok (Word.max / left) := by
  rw [Machine.Expr.div, Machine.Expr.eval, h, Machine.Expr.eval]
  rfl

-- A word that checks an operation tells whether it overflows.
theorem ChecksExpr.eval {idiom : Idiom} {term : Machine.Expr}
    (h : idiom.ChecksExpr first second term) (hl : first.eval assignment = .ok left)
    (hr : second.eval assignment = .ok right) :
    term.eval assignment = .ok (Word.ofBool (idiom.overflows left right)) := by
  cases h with
  | sum => rw [eval_lt (eval_complement hl) hr, overflows_addition]
  | sumAfterOnes => rw [eval_lt (eval_complementAfterOnes hl) hr, overflows_addition]
  | product =>
      have hguard : (Machine.Expr.isZero (.isZero first)).eval assignment =
          .ok (Word.ofBool (left != 0)) := by
        rw [Machine.Expr.eval, Machine.Expr.eval, hl, bne, ← Word.ofBool_beq_zero]
        rfl
      rw [Machine.Expr.eval, hguard, eval_lt (eval_greatestOver hl) hr, ← overflows_multiplication,
        ← Word.ofBool_and]
      rfl

theorem holds_product {guard : Cond} (hguard : guard.holds assignment = .ok (left == 0))
    (hl : first.eval assignment = .ok left) (hr : second.eval assignment = .ok right) :
    (Cond.join .and (.neg guard) (.lt ((Machine.Expr.lit Word.max).div first) second)).holds
      assignment = .ok (multiplicationOverflow.overflows left right) := by
  rw [Cond.holds, Cond.holds, hguard, holds_lt (eval_greatestOver hl) hr,
    ← overflows_multiplication, bne]
  cases left == 0 <;> rfl

-- The same for a proposition.
theorem ChecksCond.holds {idiom : Idiom} {cond : Cond} (h : idiom.ChecksCond first second cond)
    (hl : first.eval assignment = .ok left) (hr : second.eval assignment = .ok right) :
    cond.holds assignment = .ok (idiom.overflows left right) := by
  cases h with
  | sum => rw [holds_lt (eval_complement hl) hr, overflows_addition]
  | sumAfterOnes => rw [holds_lt (eval_complementAfterOnes hl) hr, overflows_addition]
  | product =>
      refine holds_product ?_ hl hr
      rw [Cond.eqWords, Cond.holds, hl, Machine.Expr.eval]
      rfl
  | productAfterZero =>
      refine holds_product ?_ hl hr
      rw [Cond.eqWords, Cond.holds, hl, Machine.Expr.eval]
      exact congrArg Except.ok Bool.beq_comm

end Shapes

-- The sum or product of two words is a word exactly if it does not overflow.
theorem holds_sum (left right : Word) :
    AbiType.uint256.holds (left.toInteger + right.toInteger) =
      !additionOverflow.overflows left right := by
  rw [Bool.eq_iff_iff, AbiType.holds_uint256_iff, Word.unsigned_iff]
  simp only [overflows, Word.toInteger, Bool.not_eq_true', decide_eq_false_iff_not]
  omega

theorem holds_mul (left right : Word) :
    AbiType.uint256.holds (left.toInteger * right.toInteger) =
      !multiplicationOverflow.overflows left right := by
  rw [Bool.eq_iff_iff, AbiType.holds_uint256_iff, Word.unsigned_iff]
  simp only [overflows, Word.toInteger, Bool.not_eq_true', decide_eq_false_iff_not]
  norm_cast
  omega

-- No product with zero overflows, so that the guard for zero decides nothing.
theorem nonzero_and_overflows (left right : Word) :
    (left != 0 && multiplicationOverflow.overflows left right) =
      multiplicationOverflow.overflows left right := by
  by_cases hzero : left = 0
  · simp [hzero, overflows]
  · rw [bne_iff_ne.mpr hzero, Bool.true_and]

-- The range fact that an idiom is turned into says the same about the operands as integers.
theorem truth_conclusion (idiom : Idiom) {valuation : Valuation} {first second : IntExpr}
    {left right : Word} (hfirst : first.word valuation = left)
    (hleft : first.integer valuation = left.toInteger)
    (hright : second.integer valuation = right.toInteger) :
    (idiom.conclusion first second).truth valuation = idiom.overflows left right := by
  cases idiom with
  | additionOverflow =>
      rw [conclusion, IntExpr.add, BoolExpr.truth, BoolExpr.truth, IntExpr.integer, hleft, hright,
        Arithmetic.onIntegers, holds_sum, Bool.not_not]
  | multiplicationOverflow =>
      have hguard : (BoolExpr.intNeq first (.lit 0)).truth valuation = (left != 0) := by
        rw [BoolExpr.intNeq, BoolExpr.truth, Equation.truth, hfirst]
        rfl
      have hfact : (BoolExpr.inRange .uint256 (first.mul second)).truth valuation =
          !multiplicationOverflow.overflows left right := by
        rw [IntExpr.mul, BoolExpr.truth, IntExpr.integer, hleft, hright]
        exact holds_mul left right
      rw [conclusion, BoolExpr.implies, BoolExpr.truth, BoolExpr.truth, hguard, hfact,
        ← nonzero_and_overflows]
      cases left != 0 <;> simp [Connective.decided?]

-- A word is zero exactly if its number is, on whichever side zero stands.
theorem eval_equalsZero {valuation : Valuation} {first : IntExpr} {left : Word}
    (h : first.eval valuation = .ok left.toInteger) :
    (Equation.integer first (.lit 0)).eval valuation = .ok (left == 0) := by
  have hiff : left.toInteger = 0 ↔ left = 0 :=
    ⟨fun hzero => by rw [← Word.wrap_toInteger left, hzero]; rfl, fun hzero => hzero ▸ rfl⟩
  rw [Equation.eval, h]
  exact congrArg Except.ok (beq_eq_beq.mpr hiff)

theorem eval_zeroEquals {valuation : Valuation} {first : IntExpr} {left : Word}
    (h : first.eval valuation = .ok left.toInteger) :
    (Equation.integer (.lit 0) first).eval valuation = .ok (left == 0) := by
  rw [← eval_equalsZero h, Equation.eval, Equation.eval, h]
  exact congrArg Except.ok Bool.beq_comm

-- Where the operands have integer values, the fact has the truth of the check, and none of its
-- parts is left without a value.
theorem eval_conclusion (idiom : Idiom) {valuation : Valuation} {first second : IntExpr}
    {left right : Word} (hleft : first.eval valuation = .ok left.toInteger)
    (hright : second.eval valuation = .ok right.toInteger) :
    (idiom.conclusion first second).eval valuation = .ok (idiom.overflows left right) := by
  cases idiom with
  | additionOverflow =>
      rw [conclusion, IntExpr.add, BoolExpr.eval,
        BoolExpr.eval_inRange rfl (IntExpr.eval_arithmetic (by decide) hleft hright),
        Arithmetic.onIntegers, holds_sum]
      exact congrArg Except.ok (Bool.not_not _)
  | multiplicationOverflow =>
      have hguard : (BoolExpr.intNeq first (.lit 0)).eval valuation = .ok (left != 0) := by
        rw [BoolExpr.intNeq, BoolExpr.eval, eval_equalsZero hleft]
        rfl
      have hfact : (BoolExpr.inRange .uint256 (first.mul second)).eval valuation =
          .ok !multiplicationOverflow.overflows left right := by
        rw [IntExpr.mul,
          BoolExpr.eval_inRange rfl (IntExpr.eval_arithmetic (by decide) hleft hright),
          Arithmetic.onIntegers, holds_mul]
      rw [conclusion, BoolExpr.implies, BoolExpr.eval, BoolExpr.eval, hguard, hfact,
        ← nonzero_and_overflows]
      cases left != 0 <;> simp [Connective.decided?, bind, Except.bind, pure, Except.pure]

-- The check of a product that is left as it stands means the same as the fact that it is turned
-- into.
theorem eval_product {valuation : Valuation} {first second : IntExpr} {guard : BoolExpr}
    {left right : Word} (hguard : guard.eval valuation = .ok (left == 0))
    (hleft : first.eval valuation = .ok left.toInteger)
    (hright : second.eval valuation = .ok right.toInteger) :
    (BoolExpr.join .and (.neg guard)
      (.compare .lt (.arithmetic .div (.lit Word.max.toInteger) first) second)).eval valuation =
      .ok (multiplicationOverflow.overflows left right) := by
  have hquotient : (IntExpr.arithmetic .div (.lit Word.max.toInteger) first).eval valuation =
      .ok (Word.max / left).toInteger := by
    rw [IntExpr.eval_arithmetic (by decide) rfl hleft, Word.toInteger_div]
  rw [BoolExpr.eval, BoolExpr.eval, hguard, BoolExpr.eval, hquotient, hright,
    ← overflows_multiplication, bne]
  cases left == 0 <;> rfl

end Idiom

end SpecRecovery
