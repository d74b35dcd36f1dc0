import SpecRecovery.Proofs.Lowering.Meaning

namespace SpecRecovery

open Spec

-- The atoms of a vocabulary, with range facts about everything that surely has a value.
def Spec.Vocabulary.deciding (vocabulary : Vocabulary) : Vocabulary where
  atom := vocabulary.atom
  fact type value := type.integerRange.isSome = true ∧ value.isPower = false

theorem Spec.Vocabulary.deciding_decides (vocabulary : Vocabulary) :
    vocabulary.deciding.Decides := fun _ _ h => h

namespace Lowerer

variable {lowerer : Lowerer} {vocabulary : Vocabulary}

-- Operands of range facts are atoms.
theorem wellSigned_of_isOperand {value : IntExpr} (h : lowerer.isOperand value = true)
    (hbuilt : value.BuiltFrom vocabulary) : value.WellSigned vocabulary.deciding := by
  cases value with
  | arithmetic | ite => exact nomatch h
  | _ => exact hbuilt

theorem mentionsSigned_of_arithmeticRange {type : AbiType} {width : Nat} {op : Arithmetic}
    {left right : IntExpr} {first second : Machine.Expr}
    {leftTerm rightTerm : Except VerificationError Machine.Expr} {lowered : Machine.Cond}
    (h : arithmeticRange type width op first second
      (arithmetic op left right leftTerm rightTerm) = .ok lowered)
    (hop : op.readsUnsigned = true) :
    left.mentionsSigned = false ∧ right.mentionsSigned = false := by
  unfold arithmeticRange at h
  split at h
  · next hdifference =>
      rw [Bool.and_eq_true, decide_eq_true_iff] at hdifference
      obtain ⟨rfl, _⟩ := hdifference
      exact nomatch hop
  · obtain ⟨term, hterm, _⟩ := bind_eq_ok.mp h
    exact (arithmetic_eq_ok hterm).1 hop

-- Whatever is lowered keeps signed values out of unsigned operations.
mutual

theorem wellSigned_of_expr : (value : IntExpr) → value.BuiltFrom vocabulary →
    {term : Machine.Expr} → lowerer.expr value = .ok term → value.WellSigned vocabulary.deciding
  | .lit _, hbuilt, _, _ => hbuilt
  | .var _ _, hbuilt, _, _ => hbuilt
  | .env _, hbuilt, _, _ => hbuilt
  | .entry _ _, hbuilt, _, _ => hbuilt
  | .arithmetic op left right, hbuilt, term, h => by
      obtain ⟨hsigned, first, second, hfirst, hsecond, rfl⟩ := arithmetic_eq_ok h
      exact ⟨wellSigned_of_expr left hbuilt.1 hfirst, wellSigned_of_expr right hbuilt.2 hsecond,
        hsigned⟩
  | .ite condition first second, hbuilt, term, h => by
      obtain ⟨lowered, hlowered, h⟩ := bind_eq_ok.mp h
      obtain ⟨number, hnumber, h⟩ := bind_eq_ok.mp h
      obtain ⟨one, hone, h⟩ := bind_eq_ok.mp h
      obtain ⟨other, hother, h⟩ := bind_eq_ok.mp h
      exact ⟨wellSigned_of_cond condition hbuilt.1 hlowered,
        wellSigned_of_expr first hbuilt.2.1 hone, wellSigned_of_expr second hbuilt.2.2 hother⟩

theorem wellSigned_of_cond : (value : BoolExpr) → value.BuiltFrom vocabulary →
    {lowered : Machine.Cond} → lowerer.cond value = .ok lowered →
    value.WellSigned vocabulary.deciding
  | .lit _, _, _, _ => trivial
  | .join op left right, hbuilt, lowered, h => by
      obtain ⟨first, hfirst, h⟩ := bind_eq_ok.mp h
      obtain ⟨second, hsecond, h⟩ := bind_eq_ok.mp h
      exact ⟨wellSigned_of_cond left hbuilt.1 hfirst, wellSigned_of_cond right hbuilt.2 hsecond⟩
  | .neg value, hbuilt, lowered, h => by
      obtain ⟨inner, hinner, h⟩ := bind_eq_ok.mp h
      exact wellSigned_of_cond value hbuilt hinner
  | .compare op left right, hbuilt, lowered, h => by
      rw [cond] at h
      split at h
      · exact nomatch h
      · next hsigned =>
          obtain ⟨first, hfirst, h⟩ := bind_eq_ok.mp h
          obtain ⟨second, hsecond, h⟩ := bind_eq_ok.mp h
          exact ⟨wellSigned_of_expr left hbuilt.1 hfirst,
            wellSigned_of_expr right hbuilt.2 hsecond, by simpa using hsigned⟩
  | .eq equation, hbuilt, lowered, h => wellSigned_of_equation equation hbuilt h
  | .neq equation, hbuilt, lowered, h => by
      obtain ⟨inner, hinner, h⟩ := bind_eq_ok.mp h
      exact wellSigned_of_equation equation hbuilt hinner
  | .inRange type value, hbuilt, lowered, h => by
      rw [cond] at h
      split at h
      · next width hwidth =>
          have hrange : type.integerRange.isSome = true :=
            (AbiType.integerRange_isSome_iff type).mpr (by rw [hwidth]; rfl)
          have hvalue := wellSigned_of_range value hbuilt.1 h
          exact ⟨hvalue.1, hrange, hvalue.2⟩
      · exact nomatch h

theorem wellSigned_of_equation : (equation : Equation) → equation.BuiltFrom vocabulary →
    {lowered : Machine.Cond} → lowerer.equation equation = .ok lowered →
    equation.WellSigned vocabulary.deciding
  | .integer left right, hbuilt, lowered, h => by
      rw [equation] at h
      split at h
      · exact nomatch h
      · next hequatable =>
          obtain ⟨first, hfirst, h⟩ := bind_eq_ok.mp h
          obtain ⟨second, hsecond, h⟩ := bind_eq_ok.mp h
          exact ⟨wellSigned_of_expr left hbuilt.1 hfirst,
            wellSigned_of_expr right hbuilt.2 hsecond, by simpa using hequatable⟩
  | .boolean left right, hbuilt, lowered, h => by
      obtain ⟨one, hone, h⟩ := bind_eq_ok.mp h
      obtain ⟨first, hfirst, h⟩ := bind_eq_ok.mp h
      obtain ⟨other, hother, h⟩ := bind_eq_ok.mp h
      exact ⟨wellSigned_of_cond left hbuilt.1 hone, wellSigned_of_cond right hbuilt.2 hother⟩
  | .byteString _ _, _, _, h => nomatch h
  | .contract _ _, _, _, h => nomatch h

theorem wellSigned_of_range {type : AbiType} {width : Nat} : (value : IntExpr) →
    value.BuiltFrom vocabulary → {lowered : Machine.Cond} →
    lowerer.range type width value = .ok lowered →
    value.WellSigned vocabulary.deciding ∧ value.isPower = false
  | .lit _, hbuilt, _, _ => ⟨hbuilt, rfl⟩
  | .var _ _, hbuilt, _, _ => ⟨hbuilt, rfl⟩
  | .env _, hbuilt, _, _ => ⟨hbuilt, rfl⟩
  | .entry _ _, hbuilt, _, _ => ⟨hbuilt, rfl⟩
  | .arithmetic op left right, hbuilt, lowered, h => by
      obtain ⟨hop, hoperands, first, second, _, _, h⟩ := range_arithmetic_eq_ok.mp h
      refine ⟨⟨wellSigned_of_isOperand hoperands.1 hbuilt.1,
        wellSigned_of_isOperand hoperands.2 hbuilt.2, mentionsSigned_of_arithmeticRange h⟩, ?_⟩
      cases op <;> first | rfl | exact absurd rfl hop
  | .ite condition first second, hbuilt, lowered, h => by
      obtain ⟨truth, htruth, h⟩ := bind_eq_ok.mp h
      obtain ⟨one, hone, h⟩ := bind_eq_ok.mp h
      obtain ⟨other, hother, h⟩ := bind_eq_ok.mp h
      exact ⟨⟨wellSigned_of_cond condition hbuilt.1 htruth,
        (wellSigned_of_range first hbuilt.2.1 hone).1,
        (wellSigned_of_range second hbuilt.2.2 hother).1⟩, rfl⟩

end

end Lowerer

end SpecRecovery
