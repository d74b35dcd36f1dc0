import SpecRecovery.Proofs.Lifting.Idiom
import SpecRecovery.Proofs.Lifting.Relation
import SpecRecovery.Proofs.Spec.Canonical
import SpecRecovery.Proofs.Spec.Storage

namespace SpecRecovery

theorem AbiType.isSigned_of_range {type : AbiType}
    (h : (type.integerRange.any fun range => 0 ≤ range.1) = true) : type.isSigned = false := by
  cases type with
  | int size =>
      have hpos := twoTo_pos (size - 1)
      simp only [AbiType.integerRange, Option.any_some, decide_eq_true_eq] at h
      omega
  | _ => rfl

namespace Lifter

open Machine Spec

variable {lifter : Lifter} {term : Machine.Expr} {cond : Cond} {expr : IntExpr} {prop : BoolExpr}

theorem mentionsSigned_of_isUnsigned (h : isUnsigned expr = true) :
    expr.mentionsSigned = false := by
  cases expr with
  | lit | env => rfl
  | var name type => exact AbiType.isSigned_of_range h
  | entry timing item => exact AbiType.isSigned_of_range h
  | arithmetic | ite => exact nomatch h

-- The operands of an idiom stand for the numbers of their words.
theorem integer_of_isUnsigned (assignment : Assignment) (h : Lifts lifter term expr)
    (hunsigned : isUnsigned expr = true) :
    expr.integer (.ofStorage assignment lifter.resolver) =
      (expr.word (.ofStorage assignment lifter.resolver)).toInteger := by
  have hsigned := mentionsSigned_of_isUnsigned hunsigned
  cases h with
  | lit value => rw [IntExpr.integer, IntExpr.word, Word.wrap_toInteger]
  | var => exact interpret_unsigned _ hsigned
  | env => rfl
  | @read slot item h =>
      rw [word_pre_ofStorage assignment h, ← interpret_unsigned _ hsigned]
      exact preValue_ofStorage assignment h
  | _ => exact nomatch hunsigned

theorem truth_truthOf (valuation : Valuation) (expr : IntExpr) :
    (truthOf expr).truth valuation = (expr.word valuation != 0) := by
  unfold truthOf
  cases htruth : expr.truth? with
  | none => rfl
  | some condition =>
      rw [IntExpr.truth?_eq_some_iff.mp htruth, IntExpr.ofBool_word, Option.getD_some]
      cases condition.truth valuation <;> rfl

-- What a word is lifted to has that word, whatever wraps on the way.
theorem eval_of_lifts (assignment : Assignment) (h : Lifts lifter term expr) :
    term.eval assignment = .ok (expr.word (.ofStorage assignment lifter.resolver)) := by
  induction h with
  | idiom hshape hleft hfirst hright hsecond ihl ihr =>
      rw [(Idiom.operandsOfExpr?_eq_some_iff.mp hshape).eval ihl ihr, IntExpr.ofBool_word,
        Idiom.truth_conclusion _ rfl (integer_of_isUnsigned assignment hleft hfirst)
          (integer_of_isUnsigned assignment hright hsecond)]
  | lit value => rw [IntExpr.word, Word.wrap_toInteger, Machine.Expr.eval]; rfl
  | var h => rfl
  | env value => rfl
  | arithmetic _ _ _ ihl ihr => rw [Machine.Expr.eval, ihl, ihr]; rfl
  | compare _ _ _ ihl ihr => rw [Machine.Expr.eval, ihl, ihr, IntExpr.ofBool_word]; rfl
  | eq _ _ _ ihl ihr => rw [Machine.Expr.eval, ihl, ihr, IntExpr.ofBool_word]; rfl
  | isZero _ ih => rw [Machine.Expr.eval, ih, IntExpr.ofBool_word]; rfl
  | @ite condition first second truth one other _ _ _ ihc ihf ihs =>
      rw [Machine.Expr.eval, ihc, ihf, ihs, IntExpr.word, truth_truthOf]
      by_cases hzero : truth.word (.ofStorage assignment lifter.resolver) = 0
      · rw [hzero]
        rfl
      · rw [bne_iff_ne.mpr hzero]
        exact if_neg hzero
  | read h =>
      rw [word_pre_ofStorage assignment h, Machine.Expr.eval, Machine.Expr.eval]
      rfl

theorem holds_of_condLifts (assignment : Assignment) (h : CondLifts lifter cond prop) :
    cond.holds assignment = .ok (prop.truth (.ofStorage assignment lifter.resolver)) := by
  induction h with
  | idiom hshape hleft hfirst hright hsecond =>
      rw [(Idiom.operandsOfCond?_eq_some_iff.mp hshape).holds (eval_of_lifts assignment hleft)
          (eval_of_lifts assignment hright),
        Idiom.truth_conclusion _ rfl (integer_of_isUnsigned assignment hleft hfirst)
          (integer_of_isUnsigned assignment hright hsecond)]
  | bool value => rfl
  | eq hleft hright _ =>
      rw [Cond.holds, eval_of_lifts assignment hleft, eval_of_lifts assignment hright]
      rfl
  | compare hleft hright _ =>
      rw [Cond.holds, eval_of_lifts assignment hleft, eval_of_lifts assignment hright]
      rfl
  | neg _ ih => rw [Cond.holds, ih]; rfl
  | @join op left right first second _ _ ihl ihr =>
      rw [Cond.holds, ihl, ihr, BoolExpr.truth]
      cases hdecided : op.decided? (first.truth (.ofStorage assignment lifter.resolver)) <;>
        simp [hdecided, bind, Except.bind, pure, Except.pure]

-- The expressions that lifting writes: literals of words, variables of the storage before, and
-- range facts about a single sum or product of unsigned atoms.
def emitted (resolver : Resolver) : Vocabulary where
  atom
    | .lit value => Word.Unsigned value
    | .entry timing item => timing = .pre ∧ resolver.Lists item
    | _ => True
  fact type value :=
    type = .uint256 ∧ ∃ op left right, value = .arithmetic op left right ∧
      (op = .add ∨ op = .mul) ∧ isUnsigned left = true ∧ isUnsigned right = true

theorem emitted_decides (resolver : Resolver) : (emitted resolver).Decides := by
  rintro type value ⟨rfl, op, left, right, rfl, hop, _⟩
  refine ⟨rfl, ?_⟩
  rcases hop with rfl | rfl <;> rfl

theorem emitted_fact_canonical (resolver : Resolver) (type : AbiType) (value : IntExpr)
    (h : (emitted resolver).fact type value) : (emitted resolver).fact type value.canonical := by
  obtain ⟨htype, op, left, right, rfl, hop, hleft, hright⟩ := h
  have hstable : ∀ expr : IntExpr, isUnsigned expr = true → isUnsigned expr.canonical = true := by
    intro expr hexpr
    cases expr <;> exact hexpr
  exact ⟨htype, op, left.canonical, right.canonical, by rw [IntExpr.canonical], hop,
    hstable left hleft, hstable right hright⟩

theorem unsigned_zero : Word.Unsigned 0 := by decide

theorem unsigned_one : Word.Unsigned 1 := by decide

-- A vocabulary has a place for everything that lifting writes.
structure Allows (vocabulary : Vocabulary) (lifter : Lifter) : Prop where
  literal : ∀ value, Word.Unsigned value → vocabulary.atom (.lit value)
  argument : ∀ name argument, lifter.interface.argument? name = some argument →
    argument.type.isElementary = true → vocabulary.atom (.var name argument.type)
  environment : ∀ value, vocabulary.atom (.env value)
  stored : ∀ slot item, lifter.resolver.resolve slot = .ok item → vocabulary.atom (.pre item)
  fact : ∀ type value, (emitted lifter.resolver).fact type value → vocabulary.fact type value

theorem allows_emitted (lifter : Lifter) : Allows (emitted lifter.resolver) lifter where
  literal _ h := h
  argument _ _ _ _ := trivial
  environment _ := trivial
  stored slot _ h := ⟨rfl, Resolver.lists_iff.mpr ⟨slot, h⟩⟩
  fact _ _ h := h

section Allowed

variable {vocabulary : Vocabulary} (hallows : Allows vocabulary lifter)

include hallows

-- Zero can be compared with signed values and with others.
theorem wellSigned_zero (h : expr.WellSigned vocabulary) :
    (Equation.integer expr (.lit 0)).WellSigned vocabulary := by
  refine ⟨h, hallows.literal 0 unsigned_zero, ?_⟩
  simp [IntExpr.equatable, IntExpr.comparesWithSigned, IntExpr.mentionsSigned, twoTo_pos]

theorem wellSigned_ofBool (h : prop.WellSigned vocabulary) :
    (IntExpr.ofBool prop).WellSigned vocabulary :=
  ⟨h, hallows.literal 1 unsigned_one, hallows.literal 0 unsigned_zero⟩

theorem wellSigned_truthOf (h : expr.WellSigned vocabulary) :
    (truthOf expr).WellSigned vocabulary := by
  unfold truthOf
  cases htruth : expr.truth? with
  | none => exact wellSigned_zero hallows h
  | some condition =>
      rw [IntExpr.truth?_eq_some_iff.mp htruth] at h
      exact h.1

theorem wellSigned_conclusion (idiom : Idiom) {first second : IntExpr}
    (hfirst : first.WellSigned vocabulary) (hf : isUnsigned first = true)
    (hsecond : second.WellSigned vocabulary) (hs : isUnsigned second = true) :
    (idiom.conclusion first second).WellSigned vocabulary := by
  cases idiom with
  | additionOverflow =>
      refine ⟨⟨hfirst, hsecond, fun h => nomatch h⟩, hallows.fact _ _ ?_⟩
      exact ⟨rfl, _, _, _, rfl, .inl rfl, hf, hs⟩
  | multiplicationOverflow =>
      refine ⟨wellSigned_zero hallows hfirst, ⟨hfirst, hsecond, fun h => nomatch h⟩,
        hallows.fact _ _ ?_⟩
      exact ⟨rfl, _, _, _, rfl, .inr rfl, hf, hs⟩

-- Whatever is lifted keeps signed values apart and stays within the vocabulary.
theorem Lifts.wellSigned (h : Lifts lifter term expr) : expr.WellSigned vocabulary := by
  induction h with
  | idiom _ _ hfirst _ hsecond ihl ihr =>
      exact wellSigned_ofBool hallows (wellSigned_conclusion hallows _ ihl hfirst ihr hsecond)
  | lit value => exact hallows.literal _ (Word.unsigned_toInteger value)
  | var h helementary => exact hallows.argument _ _ h helementary
  | env value => exact hallows.environment value
  | arithmetic _ _ hsigned ihl ihr => exact ⟨ihl, ihr, hsigned⟩
  | compare _ _ hsigned ihl ihr => exact wellSigned_ofBool hallows ⟨ihl, ihr, hsigned⟩
  | eq _ _ hequatable ihl ihr => exact wellSigned_ofBool hallows ⟨ihl, ihr, hequatable⟩
  | isZero _ ih => exact wellSigned_ofBool hallows (wellSigned_zero hallows ih)
  | ite _ _ _ ihc ihf ihs => exact ⟨wellSigned_truthOf hallows ihc, ihf, ihs⟩
  | read h => exact hallows.stored _ _ h

theorem CondLifts.wellSigned (h : CondLifts lifter cond prop) : prop.WellSigned vocabulary := by
  induction h with
  | idiom _ hleft hfirst hright hsecond =>
      exact wellSigned_conclusion hallows _ (hleft.wellSigned hallows) hfirst
        (hright.wellSigned hallows) hsecond
  | bool _ => trivial
  | eq hleft hright hequatable =>
      exact ⟨hleft.wellSigned hallows, hright.wellSigned hallows, hequatable⟩
  | compare hleft hright hsigned =>
      exact ⟨hleft.wellSigned hallows, hright.wellSigned hallows, hsigned⟩
  | neg _ ih => exact ih
  | join _ _ ihl ihr => exact ⟨ihl, ihr⟩

end Allowed

theorem wellSigned_of_lifts (h : Lifts lifter term expr) :
    expr.WellSigned (emitted lifter.resolver) := h.wellSigned (allows_emitted lifter)

theorem wellSigned_of_condLifts (h : CondLifts lifter cond prop) :
    prop.WellSigned (emitted lifter.resolver) := h.wellSigned (allows_emitted lifter)

end Lifter

end SpecRecovery
