import SpecRecovery.Proofs.Lifting.Soundness

namespace SpecRecovery.Lifter

open Machine Spec

-- The words that an overflow check may be about: literals, values of the environment, and arguments
-- and stored variables of types without negative values.
def Accepts (lifter : Lifter) : Machine.Expr → Prop
  | .lit _ | .env _ => True
  | .var name => ∃ argument low high, lifter.interface.argument? name = some argument ∧
      argument.type.isElementary = true ∧ argument.type.integerRange = some (low, high) ∧ 0 ≤ low
  | .sload (.lit slot) .abstract => ∃ item low high, lifter.resolver.resolve slot = .ok item ∧
      item.type.integerRange = some (low, high) ∧ 0 ≤ low
  | _ => False

variable {lifter : Lifter} {term : Machine.Expr} {expr : IntExpr}

theorem any_nonneg_iff {type : AbiType} :
    (type.integerRange.any fun range => 0 ≤ range.1) = true ↔
      ∃ low high, type.integerRange = some (low, high) ∧ 0 ≤ low := by
  simp [Option.any_eq_true]

theorem accepts_iff : lifter.Accepts term ↔ ∃ expr, lifter.operand? term = .ok (some expr) := by
  simp only [operand?_eq_some_iff]
  constructor
  · intro h
    unfold Accepts at h
    split at h
    · exact ⟨_, .lit _, rfl⟩
    · exact ⟨_, .env _, rfl⟩
    · obtain ⟨argument, low, high, hargument, helementary, hrange⟩ := h
      exact ⟨_, .var hargument helementary, any_nonneg_iff.mpr ⟨low, high, hrange⟩⟩
    · obtain ⟨item, low, high, hitem, hrange⟩ := h
      exact ⟨_, .read hitem, any_nonneg_iff.mpr ⟨low, high, hrange⟩⟩
    · exact h.elim
  · rintro ⟨expr, hlifts, hunsigned⟩
    cases hlifts with
    | lit | env => trivial
    | @var name argument h helementary =>
        obtain ⟨low, high, hrange⟩ := any_nonneg_iff.mp hunsigned
        exact ⟨argument, low, high, h, helementary, hrange⟩
    | @read slot item h =>
        obtain ⟨low, high, hrange⟩ := any_nonneg_iff.mp hunsigned
        exact ⟨item, low, high, h, hrange⟩
    | _ => exact nomatch hunsigned

-- An accepted operand has the number of its word as its value, in or out of the range of its type.
theorem eval_of_operand? (assignment : Assignment)
    (h : lifter.operand? term = .ok (some expr)) :
    ∃ word : Word, term.eval assignment = .ok word ∧
      expr.eval (.ofStorage assignment lifter.resolver) = .ok word.toInteger := by
  obtain ⟨hlifts, hunsigned⟩ := operand?_eq_some_iff.mp h
  refine ⟨_, eval_of_lifts assignment hlifts, ?_⟩
  rw [← integer_of_isUnsigned assignment hlifts hunsigned]
  cases expr with
  | lit | var | env => rfl
  | entry timing item => cases timing <;> rfl
  | arithmetic | ite => exact nomatch hunsigned

-- An overflow check that is recognised, in either form, is exact: the machine and the fact that it
-- is turned into both find an overflow exactly if the sum or the product of the words of the
-- operands does not fit in a word. The operands need not inhabit their types. All checks of
-- operands that are accepted are recognised.
theorem overflow_checks_exact (lifter : Lifter) (idiom : Idiom) :
    (∀ term expr, lifter.exprByIdiom? idiom term = .ok (some expr) →
      ∃ left right, idiom.ChecksExpr left right term ∧ ∀ assignment, ∃ first second,
        left.eval assignment = .ok first ∧ right.eval assignment = .ok second ∧
        term.eval assignment = .ok (Word.ofBool (idiom.overflows first second)) ∧
        expr.eval (.ofStorage assignment lifter.resolver) =
          .ok (if idiom.overflows first second then 1 else 0)) ∧
    (∀ cond prop, lifter.condByIdiom? idiom cond = .ok (some prop) →
      ∃ left right, idiom.ChecksCond left right cond ∧ ∀ assignment, ∃ first second,
        left.eval assignment = .ok first ∧ right.eval assignment = .ok second ∧
        cond.holds assignment = .ok (idiom.overflows first second) ∧
        prop.eval (.ofStorage assignment lifter.resolver) =
          .ok (idiom.overflows first second)) ∧
    (∀ left right, lifter.Accepts left → lifter.Accepts right →
      (∀ term, idiom.ChecksExpr left right term →
        ∃ expr, lifter.exprByIdiom? idiom term = .ok (some expr)) ∧
      ∀ cond, idiom.ChecksCond left right cond →
        ∃ prop, lifter.condByIdiom? idiom cond = .ok (some prop)) := by
  refine ⟨fun term expr h => ?_, fun cond prop h => ?_, fun left right hleft hright => ?_⟩
  · obtain ⟨left, right, first, second, hchecks, hleft, hright, rfl⟩ :=
      exprByIdiom?_eq_some_iff.mp h
    refine ⟨left, right, hchecks, fun assignment => ?_⟩
    obtain ⟨one, hone, hfirst⟩ := eval_of_operand? assignment hleft
    obtain ⟨other, hother, hsecond⟩ := eval_of_operand? assignment hright
    refine ⟨one, other, hone, hother, hchecks.eval hone hother, ?_⟩
    rw [IntExpr.ofBool_eval, idiom.eval_conclusion hfirst hsecond]
    rfl
  · obtain ⟨left, right, first, second, hchecks, hleft, hright, rfl⟩ :=
      condByIdiom?_eq_some_iff.mp h
    refine ⟨left, right, hchecks, fun assignment => ?_⟩
    obtain ⟨one, hone, hfirst⟩ := eval_of_operand? assignment hleft
    obtain ⟨other, hother, hsecond⟩ := eval_of_operand? assignment hright
    exact ⟨one, other, hone, hother, hchecks.holds hone hother,
      idiom.eval_conclusion hfirst hsecond⟩
  · obtain ⟨first, hfirst⟩ := accepts_iff.mp hleft
    obtain ⟨second, hsecond⟩ := accepts_iff.mp hright
    exact ⟨fun term hchecks => ⟨_, exprByIdiom?_eq_some_iff.mpr
        ⟨left, right, first, second, hchecks, hfirst, hsecond, rfl⟩⟩,
      fun cond hchecks => ⟨_, condByIdiom?_eq_some_iff.mpr
        ⟨left, right, first, second, hchecks, hfirst, hsecond, rfl⟩⟩⟩

-- The amount and the counter have a sum that is just too great for a word, and a product that just
-- fits.
theorem overflow_checks_exact_counter :
    let valuation := Valuation.ofStorage counterAssignment counterLifter.resolver
    let total := Machine.Expr.sload (.lit 0) .abstract
    let check := Cond.lt (.binary .xor (.lit Word.max) (.var "amount")) total
    let product := Machine.Expr.binary .and (.isZero (.isZero total))
      (.binary (.compare .lt) ((Machine.Expr.lit Word.max).div total) (.var "amount"))
    (counterLifter.Accepts (.var "amount") ∧ counterLifter.Accepts total) ∧
    (∃ prop, counterLifter.condByIdiom? .additionOverflow check = .ok (some prop) ∧
      check.holds counterAssignment = .ok true ∧ prop.eval valuation = .ok true) ∧
    ∃ expr, counterLifter.exprByIdiom? .multiplicationOverflow product = .ok (some expr) ∧
      product.eval counterAssignment = .ok 0 ∧ expr.eval valuation = .ok 0 := by
  intro valuation total check product
  have hamount : counterLifter.Accepts (.var "amount") :=
    ⟨⟨"amount", .uint256⟩, 0, _, by decide, rfl, rfl, le_rfl⟩
  have htotal : counterLifter.Accepts total :=
    ⟨⟨"Counter", "total", .uint256⟩, 0, _, by decide +kernel, rfl, le_rfl⟩
  have hover : check.holds counterAssignment = .ok true := by decide +kernel
  have hfits : product.eval counterAssignment = .ok 0 := by decide +kernel
  obtain ⟨_, hsums, hsumFound⟩ := overflow_checks_exact counterLifter .additionOverflow
  obtain ⟨prop, hprop⟩ := (hsumFound _ _ hamount htotal).2 check (.sumAfterOnes _ _)
  obtain ⟨_, _, _, hsum⟩ := hsums check prop hprop
  obtain ⟨_, _, _, _, hmachine, hfact⟩ := hsum counterAssignment
  obtain ⟨hproducts, _, hproductFound⟩ :=
    overflow_checks_exact counterLifter .multiplicationOverflow
  obtain ⟨expr, hexpr⟩ := (hproductFound _ _ htotal hamount).1 product (.product _ _)
  obtain ⟨_, _, _, hproduct⟩ := hproducts product expr hexpr
  obtain ⟨one, other, _, _, hword, hinteger⟩ := hproduct counterAssignment
  refine ⟨⟨hamount, htotal⟩, ⟨prop, hprop, hover, ?_⟩, expr, hexpr, hfits, ?_⟩
  · rw [hfact, ← hmachine, hover]
  · rw [hinteger]
    cases hresult : Idiom.multiplicationOverflow.overflows one other with
    | false => rfl
    | true =>
        rw [hfits, hresult] at hword
        exact nomatch Except.ok.inj hword

end SpecRecovery.Lifter
