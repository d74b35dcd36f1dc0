import SpecRecovery.Proofs.Spec.Signedness
import SpecRecovery.Spec.Canonical

namespace SpecRecovery.Spec

theorem IntExpr.isLit_iff {expr : IntExpr} {value : Int} :
    expr.isLit value = true ↔ expr = .lit value := by
  cases expr <;> simp [IntExpr.isLit]

theorem IntExpr.truth?_eq_some_iff {expr : IntExpr} {condition : BoolExpr} :
    expr.truth? = some condition ↔ expr = .ofBool condition := by
  cases expr with
  | ite held first second =>
      simp only [IntExpr.truth?, IntExpr.ofBool, Option.ite_none_right_eq_some, Bool.and_eq_true,
        IntExpr.isLit_iff, Option.some.injEq, IntExpr.ite.injEq]
      exact ⟨fun ⟨⟨h1, h0⟩, h⟩ => ⟨h, h1, h0⟩, fun ⟨h, h1, h0⟩ => ⟨⟨h1, h0⟩, h⟩⟩
  | _ => simp [IntExpr.truth?, IntExpr.ofBool]

theorem IntExpr.ofBool_eval (valuation : Valuation) (condition : BoolExpr) :
    (IntExpr.ofBool condition).eval valuation =
      (condition.eval valuation).map fun truth => if truth then 1 else 0 := by
  rw [IntExpr.ofBool, IntExpr.eval]
  cases condition.eval valuation with
  | error => rfl
  | ok truth => cases truth <;> rfl

theorem IntExpr.ofBool_word (valuation : Valuation) (condition : BoolExpr) :
    (IntExpr.ofBool condition).word valuation = Word.ofBool (condition.truth valuation) := by
  rw [IntExpr.ofBool, IntExpr.word]
  cases condition.truth valuation <;> rfl

namespace BoolExpr

-- What is left of a comparison of a truth with the literal of the truth `literal`.
def resolved (condition : BoolExpr) (literal positive : Bool) : BoolExpr :=
  if literal = positive then condition else condition.negate

theorem ofTruthAndLiteral?_eq_some {truth literal : IntExpr} {positive : Bool}
    {answer : BoolExpr} (h : ofTruthAndLiteral? truth literal positive = some answer) :
    ∃ condition value, truth = .ofBool condition ∧ literal = .lit (if value then 1 else 0) ∧
      answer = resolved condition value positive := by
  unfold ofTruthAndLiteral? at h
  obtain ⟨condition, htruth, h⟩ := Option.bind_eq_some_iff.mp h
  rw [IntExpr.truth?_eq_some_iff] at htruth
  dsimp only at h
  split at h
  · next hone =>
      obtain rfl := Option.some.inj h
      refine ⟨condition, true, htruth, IntExpr.isLit_iff.mp hone, ?_⟩
      cases positive <;> rfl
  · split at h
    · next hzero =>
        obtain rfl := Option.some.inj h
        refine ⟨condition, false, htruth, IntExpr.isLit_iff.mp hzero, ?_⟩
        cases positive <;> rfl
    · exact nomatch h

-- An equation of integers stays what it is, unless it compares a truth with its literal.
theorem ofIntegers_cases (left right : IntExpr) (positive : Bool) :
    ofIntegers left right positive =
        (if positive then .eq (.integer left right) else .neq (.integer left right)) ∨
      ∃ condition value, ofIntegers left right positive = resolved condition value positive ∧
        ((left = .ofBool condition ∧ right = .lit (if value then 1 else 0)) ∨
          (right = .ofBool condition ∧ left = .lit (if value then 1 else 0))) := by
  unfold ofIntegers
  split
  · next answer hanswer =>
      rcases Option.or_eq_some_iff.mp hanswer with h | ⟨_, h⟩
      · obtain ⟨condition, value, htruth, hliteral, rfl⟩ := ofTruthAndLiteral?_eq_some h
        exact .inr ⟨condition, value, rfl, .inl ⟨htruth, hliteral⟩⟩
      · obtain ⟨condition, value, htruth, hliteral, rfl⟩ := ofTruthAndLiteral?_eq_some h
        exact .inr ⟨condition, value, rfl, .inr ⟨htruth, hliteral⟩⟩
  · exact .inl rfl

variable (valuation : Valuation)

theorem negate_eval (expr : BoolExpr) :
    expr.negate.eval valuation = (expr.eval valuation).map (!·) := by
  cases expr with
  | neg value =>
      rw [negate, BoolExpr.eval]
      cases value.eval valuation <;> simp [Except.map, bind, Except.bind, pure, Except.pure]
  | _ => rw [negate, BoolExpr.eval] <;> first | rfl | simp

theorem negate_truth (expr : BoolExpr) :
    expr.negate.truth valuation = !expr.truth valuation := by
  cases expr <;> simp [negate, BoolExpr.truth]

theorem resolved_eval (condition : BoolExpr) (literal positive : Bool) :
    (resolved condition literal positive).eval valuation =
      (condition.eval valuation).map fun truth => (truth == literal) == positive := by
  unfold resolved
  split
  · next h =>
      subst h
      cases condition.eval valuation with
      | error => rfl
      | ok truth => cases truth <;> cases literal <;> rfl
  · next h =>
      rw [negate_eval]
      cases condition.eval valuation with
      | error => rfl
      | ok truth => cases truth <;> cases literal <;> cases positive <;> first | rfl | simp at h

theorem resolved_truth (condition : BoolExpr) (literal positive : Bool) :
    (resolved condition literal positive).truth valuation =
      ((condition.truth valuation == literal) == positive) := by
  unfold resolved
  split
  · next h => subst h; cases condition.truth valuation <;> cases literal <;> rfl
  · next h =>
      rw [negate_truth]
      cases condition.truth valuation <;> cases literal <;> cases positive <;>
        first | rfl | simp at h

theorem ofIntegers_eval (left right : IntExpr) (positive : Bool) :
    (ofIntegers left right positive).eval valuation =
      ((Equation.integer left right).eval valuation).map (· == positive) := by
  rcases ofIntegers_cases left right positive with
    hsame | ⟨condition, value, hanswer, ⟨rfl, rfl⟩ | ⟨rfl, rfl⟩⟩
  · rw [hsame]
    cases positive <;> simp only [if_true, Bool.false_eq_true, if_false, BoolExpr.eval] <;>
      cases (Equation.integer left right).eval valuation <;>
        simp [Except.map, bind, Except.bind, pure, Except.pure]
  · rw [hanswer, resolved_eval, Equation.eval, IntExpr.ofBool_eval]
    cases condition.eval valuation with
    | error => rfl
    | ok truth => cases truth <;> cases value <;> rfl
  · rw [hanswer, resolved_eval, Equation.eval, IntExpr.ofBool_eval]
    cases condition.eval valuation with
    | error => rfl
    | ok truth => cases truth <;> cases value <;> rfl

theorem ofIntegers_truth (left right : IntExpr) (positive : Bool) :
    (ofIntegers left right positive).truth valuation =
      ((Equation.integer left right).truth valuation == positive) := by
  rcases ofIntegers_cases left right positive with
    hsame | ⟨condition, value, hanswer, ⟨rfl, rfl⟩ | ⟨rfl, rfl⟩⟩
  · rw [hsame]
    cases positive <;> simp [BoolExpr.truth]
  · rw [hanswer, resolved_truth, Equation.truth, IntExpr.ofBool_word]
    cases condition.truth valuation <;> cases value <;> rfl
  · rw [hanswer, resolved_truth, Equation.truth, IntExpr.ofBool_word]
    cases condition.truth valuation <;> cases value <;> rfl

end BoolExpr

-- The canonical form has the same value, or fails for the same reason.
mutual

theorem IntExpr.canonical_eval (valuation : Valuation) : (expr : IntExpr) →
    expr.canonical.eval valuation = expr.eval valuation
  | .lit _ | .var _ _ | .env _ | .entry _ _ => by rw [IntExpr.canonical]
  | .arithmetic op left right => by
      rw [IntExpr.canonical]
      cases op <;> simp only [IntExpr.eval, IntExpr.canonical_eval valuation left,
        IntExpr.canonical_eval valuation right]
  | .ite condition first second => by
      rw [IntExpr.canonical, IntExpr.eval, IntExpr.eval,
        BoolExpr.canonical_eval valuation condition, IntExpr.canonical_eval valuation first,
        IntExpr.canonical_eval valuation second]

theorem BoolExpr.canonical_eval (valuation : Valuation) : (expr : BoolExpr) →
    expr.canonical.eval valuation = expr.eval valuation
  | .lit _ => rfl
  | .join op left right => by
      rw [BoolExpr.canonical, BoolExpr.eval, BoolExpr.eval, BoolExpr.canonical_eval valuation left,
        BoolExpr.canonical_eval valuation right]
  | .neg value => by
      rw [BoolExpr.canonical, BoolExpr.negate_eval, BoolExpr.canonical_eval valuation value,
        BoolExpr.eval]
      cases value.eval valuation <;> rfl
  | .compare op left right => by
      rw [BoolExpr.canonical, BoolExpr.eval, BoolExpr.eval, IntExpr.canonical_eval valuation left,
        IntExpr.canonical_eval valuation right]
  | .eq equation => by
      rw [BoolExpr.canonical, Equation.canonical_eval valuation true equation, BoolExpr.eval]
      cases equation.eval valuation <;> simp [Except.map]
  | .neq equation => by
      rw [BoolExpr.canonical, Equation.canonical_eval valuation false equation, BoolExpr.eval]
      cases equation.eval valuation <;> simp [Except.map, bind, Except.bind, pure, Except.pure]
  | .inRange type value => by
      rw [BoolExpr.canonical, BoolExpr.eval, BoolExpr.eval, IntExpr.canonical_eval valuation value]

theorem Equation.canonical_eval (valuation : Valuation) (positive : Bool) :
    (equation : Equation) → (equation.canonical positive).eval valuation =
      (equation.eval valuation).map (· == positive)
  | .integer left right => by
      rw [Equation.canonical, BoolExpr.ofIntegers_eval, Equation.eval, Equation.eval,
        IntExpr.canonical_eval valuation left, IntExpr.canonical_eval valuation right]
  | .boolean left right => by
      rw [Equation.canonical]
      cases positive <;>
        simp only [if_true, Bool.false_eq_true, if_false, BoolExpr.eval, Equation.eval,
          BoolExpr.canonical_eval valuation left, BoolExpr.canonical_eval valuation right] <;>
        cases left.eval valuation <;> cases right.eval valuation <;>
        simp [Except.map, bind, Except.bind, pure, Except.pure]
  | .byteString left right => by
      rw [Equation.canonical]
      by_cases hsame : left = right <;> cases positive <;>
        simp [hsame, BoolExpr.eval, Equation.eval, Except.map, bind, Except.bind, pure, Except.pure,
          throw, throwThe, MonadExceptOf.throw]
  | .contract left right => by
      rw [Equation.canonical]
      by_cases hsame : left = right <;> cases positive <;>
        simp [hsame, BoolExpr.eval, Equation.eval, Except.map, bind, Except.bind, pure, Except.pure,
          throw, throwThe, MonadExceptOf.throw]

end

-- An expression of any kind denotes what its canonical form does, or fails for the same reason. The
-- canonical form of an equation says whether its truth is the one that is asked for.
theorem canonical_keeps_evaluation (valuation : Valuation) :
    (∀ expr : BoolExpr, expr.canonical.eval valuation = expr.eval valuation) ∧
      (∀ expr : IntExpr, expr.canonical.eval valuation = expr.eval valuation) ∧
      ∀ (equation : Equation) (positive : Bool), (equation.canonical positive).eval valuation =
        (equation.eval valuation).map (· == positive) := by
  refine ⟨BoolExpr.canonical_eval valuation, IntExpr.canonical_eval valuation, ?_⟩
  intro equation positive
  exact equation.canonical_eval valuation positive

-- To the machine the canonical form is the same too.
mutual

theorem IntExpr.canonical_word (valuation : Valuation) : (expr : IntExpr) →
    expr.canonical.word valuation = expr.word valuation
  | .lit _ | .var _ _ | .env _ | .entry _ _ => by rw [IntExpr.canonical]
  | .arithmetic op left right => by
      rw [IntExpr.canonical, IntExpr.word, IntExpr.word, IntExpr.canonical_word valuation left,
        IntExpr.canonical_word valuation right]
  | .ite condition first second => by
      rw [IntExpr.canonical, IntExpr.word, IntExpr.word,
        BoolExpr.canonical_truth valuation condition, IntExpr.canonical_word valuation first,
        IntExpr.canonical_word valuation second]

theorem IntExpr.canonical_integer (valuation : Valuation) : (expr : IntExpr) →
    expr.canonical.integer valuation = expr.integer valuation
  | .lit _ | .var _ _ | .env _ | .entry _ _ => by rw [IntExpr.canonical]
  | .arithmetic op left right => by
      rw [IntExpr.canonical, IntExpr.integer, IntExpr.integer,
        IntExpr.canonical_integer valuation left, IntExpr.canonical_integer valuation right]
  | .ite condition first second => by
      rw [IntExpr.canonical, IntExpr.integer, IntExpr.integer,
        BoolExpr.canonical_truth valuation condition, IntExpr.canonical_integer valuation first,
        IntExpr.canonical_integer valuation second]

theorem BoolExpr.canonical_truth (valuation : Valuation) : (expr : BoolExpr) →
    expr.canonical.truth valuation = expr.truth valuation
  | .lit _ => rfl
  | .join op left right => by
      rw [BoolExpr.canonical, BoolExpr.truth, BoolExpr.truth,
        BoolExpr.canonical_truth valuation left, BoolExpr.canonical_truth valuation right]
  | .neg value => by
      rw [BoolExpr.canonical, BoolExpr.negate_truth, BoolExpr.canonical_truth valuation value,
        BoolExpr.truth]
  | .compare op left right => by
      rw [BoolExpr.canonical, BoolExpr.truth, BoolExpr.truth,
        IntExpr.canonical_word valuation left, IntExpr.canonical_word valuation right]
  | .eq equation => by
      rw [BoolExpr.canonical, Equation.canonical_truth valuation true equation, BoolExpr.truth,
        beq_true]
  | .neq equation => by
      rw [BoolExpr.canonical, Equation.canonical_truth valuation false equation, BoolExpr.truth,
        beq_false]
  | .inRange type value => by
      rw [BoolExpr.canonical, BoolExpr.truth, BoolExpr.truth,
        IntExpr.canonical_integer valuation value]

theorem Equation.canonical_truth (valuation : Valuation) (positive : Bool) :
    (equation : Equation) →
    (equation.canonical positive).truth valuation = (equation.truth valuation == positive)
  | .integer left right => by
      rw [Equation.canonical, BoolExpr.ofIntegers_truth, Equation.truth, Equation.truth,
        IntExpr.canonical_word valuation left, IntExpr.canonical_word valuation right]
  | .boolean left right => by
      rw [Equation.canonical]
      cases positive <;>
        simp [BoolExpr.truth, Equation.truth, BoolExpr.canonical_truth valuation left,
          BoolExpr.canonical_truth valuation right]
  | .byteString left right => by
      rw [Equation.canonical]
      cases positive <;> simp [BoolExpr.truth, Equation.truth]
  | .contract left right => by
      rw [Equation.canonical]
      cases positive <;> simp [BoolExpr.truth, Equation.truth]

end

theorem IntExpr.canonical_mentionsSigned : (expr : IntExpr) →
    expr.canonical.mentionsSigned = expr.mentionsSigned
  | .lit _ | .var _ _ | .env _ | .entry _ _ => by rw [IntExpr.canonical]
  | .arithmetic _ left right => by
      rw [IntExpr.canonical, IntExpr.mentionsSigned, IntExpr.mentionsSigned,
        IntExpr.canonical_mentionsSigned left, IntExpr.canonical_mentionsSigned right]
  | .ite _ first second => by
      rw [IntExpr.canonical, IntExpr.mentionsSigned, IntExpr.mentionsSigned,
        IntExpr.canonical_mentionsSigned first, IntExpr.canonical_mentionsSigned second]

theorem IntExpr.canonical_comparesWithSigned (expr : IntExpr) :
    expr.canonical.comparesWithSigned = expr.comparesWithSigned := by
  unfold IntExpr.comparesWithSigned
  rw [expr.canonical_mentionsSigned]
  cases expr <;> rfl

theorem IntExpr.canonical_equatable (left right : IntExpr) :
    left.canonical.equatable right.canonical = left.equatable right := by
  unfold IntExpr.equatable
  rw [left.canonical_mentionsSigned, right.canonical_mentionsSigned,
    left.canonical_comparesWithSigned, right.canonical_comparesWithSigned]

variable {vocabulary : Vocabulary}

theorem BoolExpr.wellSigned_resolved {condition : BoolExpr} (literal positive : Bool)
    (h : condition.WellSigned vocabulary) :
    (resolved condition literal positive).WellSigned vocabulary := by
  unfold resolved
  split
  · exact h
  · cases condition <;> exact h

theorem BoolExpr.wellSigned_ofIntegers {left right : IntExpr} (positive : Bool)
    (h : (Equation.integer left right).WellSigned vocabulary) :
    (ofIntegers left right positive).WellSigned vocabulary := by
  rcases ofIntegers_cases left right positive with
    hsame | ⟨condition, value, hanswer, ⟨rfl, rfl⟩ | ⟨rfl, rfl⟩⟩
  · rw [hsame]
    cases positive <;> exact h
  · rw [hanswer]
    exact wellSigned_resolved value positive h.1.1
  · rw [hanswer]
    exact wellSigned_resolved value positive h.2.1.1

-- The canonical form keeps the signs apart, as it takes whole conditions out of equations and
-- leaves all else in place.
mutual

theorem IntExpr.wellSigned_canonical
    (hfact : ∀ type value, vocabulary.fact type value → vocabulary.fact type value.canonical) :
    (expr : IntExpr) → expr.WellSigned vocabulary → expr.canonical.WellSigned vocabulary
  | .lit _, h | .var _ _, h | .env _, h | .entry _ _, h => by rwa [IntExpr.canonical]
  | .arithmetic op left right, h => by
      rw [IntExpr.canonical, IntExpr.WellSigned, left.canonical_mentionsSigned,
        right.canonical_mentionsSigned]
      exact ⟨IntExpr.wellSigned_canonical hfact left h.1,
        IntExpr.wellSigned_canonical hfact right h.2.1, h.2.2⟩
  | .ite condition first second, h => by
      rw [IntExpr.canonical]
      exact ⟨BoolExpr.wellSigned_canonical hfact condition h.1,
        IntExpr.wellSigned_canonical hfact first h.2.1,
        IntExpr.wellSigned_canonical hfact second h.2.2⟩

theorem BoolExpr.wellSigned_canonical
    (hfact : ∀ type value, vocabulary.fact type value → vocabulary.fact type value.canonical) :
    (expr : BoolExpr) → expr.WellSigned vocabulary → expr.canonical.WellSigned vocabulary
  | .lit _, _ => trivial
  | .join op left right, h => by
      rw [BoolExpr.canonical]
      exact ⟨BoolExpr.wellSigned_canonical hfact left h.1,
        BoolExpr.wellSigned_canonical hfact right h.2⟩
  | .neg value, h => by
      rw [BoolExpr.canonical]
      have hvalue := BoolExpr.wellSigned_canonical hfact value h
      cases hform : value.canonical <;> rw [hform] at hvalue <;> exact hvalue
  | .compare op left right, h => by
      rw [BoolExpr.canonical, BoolExpr.WellSigned, left.canonical_mentionsSigned,
        right.canonical_mentionsSigned]
      exact ⟨IntExpr.wellSigned_canonical hfact left h.1,
        IntExpr.wellSigned_canonical hfact right h.2.1, h.2.2⟩
  | .eq equation, h => by
      rw [BoolExpr.canonical]
      exact Equation.wellSigned_canonical hfact true equation h
  | .neq equation, h => by
      rw [BoolExpr.canonical]
      exact Equation.wellSigned_canonical hfact false equation h
  | .inRange type value, h => by
      rw [BoolExpr.canonical]
      exact ⟨IntExpr.wellSigned_canonical hfact value h.1, hfact type value h.2⟩

theorem Equation.wellSigned_canonical
    (hfact : ∀ type value, vocabulary.fact type value → vocabulary.fact type value.canonical)
    (positive : Bool) :
    (equation : Equation) → equation.WellSigned vocabulary →
    (equation.canonical positive).WellSigned vocabulary
  | .integer left right, h => by
      rw [Equation.canonical]
      refine BoolExpr.wellSigned_ofIntegers positive ?_
      rw [Equation.WellSigned, left.canonical_equatable]
      exact ⟨IntExpr.wellSigned_canonical hfact left h.1,
        IntExpr.wellSigned_canonical hfact right h.2.1, h.2.2⟩
  | .boolean left right, h => by
      rw [Equation.canonical]
      have hparts := And.intro (BoolExpr.wellSigned_canonical hfact left h.1)
        (BoolExpr.wellSigned_canonical hfact right h.2)
      cases positive <;> exact hparts
  | .byteString _ _, h => h.elim
  | .contract _ _, h => h.elim

end

-- A conjunction holds exactly if all of its parts do.
theorem BoolExpr.truth_conjuncts (valuation : Valuation) (expr : BoolExpr) :
    (∀ part ∈ expr.conjuncts, part.truth valuation = true) ↔ expr.truth valuation = true := by
  fun_induction BoolExpr.conjuncts expr with
  | case1 left right ihl ihr =>
      rw [List.forall_mem_append, ihl, ihr, BoolExpr.truth]
      cases left.truth valuation <;> simp [Connective.decided?]
  | case2 other => rw [List.forall_mem_singleton]

theorem BoolExpr.wellSigned_conjuncts {vocabulary : Vocabulary} (expr : BoolExpr)
    (h : expr.WellSigned vocabulary) : ∀ part ∈ expr.conjuncts, part.WellSigned vocabulary := by
  fun_induction BoolExpr.conjuncts expr with
  | case1 left right ihl ihr => exact List.forall_mem_append.mpr ⟨ihl h.1, ihr h.2⟩
  | case2 other => exact List.forall_mem_singleton.mpr h

end SpecRecovery.Spec
