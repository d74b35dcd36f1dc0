import SpecRecovery.Proofs.Spec.Canonical
import SpecRecovery.Proofs.Spec.Parts

namespace SpecRecovery.Spec

-- Whether one side is an integer that stands for a truth and the other one a literal for a truth.
def IntExpr.ComparesTruth (truth literal : IntExpr) : Prop :=
  (∃ condition, truth = .ofBool condition) ∧ (literal = .lit 0 ∨ literal = .lit 1)

def Equation.Reducible : Equation → Prop
  | .integer left right => left.ComparesTruth right ∨ right.ComparesTruth left
  | _ => False

-- What can be written more simply: a negation of a negation, and whether a truth, written as an
-- integer, equals the literal of a truth on either side.
def BoolExpr.Reducible : BoolExpr → Prop
  | .neg (.neg _) => True
  | .eq equation => equation.Reducible
  | .neq equation => equation.Reducible
  | _ => False

-- Nothing at any depth can be written more simply.
def IntExpr.Normal (expr : IntExpr) : Prop := ∀ part ∈ expr.booleans, ¬part.Reducible

def BoolExpr.Normal (expr : BoolExpr) : Prop := ∀ part ∈ expr.booleans, ¬part.Reducible

def Equation.Normal (equation : Equation) : Prop := ∀ part ∈ equation.booleans, ¬part.Reducible

namespace IntExpr

theorem normal_ite {condition : BoolExpr} {first second : IntExpr} :
    (ite condition first second).Normal ↔ condition.Normal ∧ first.Normal ∧ second.Normal := by
  simp only [Normal, BoolExpr.Normal, booleans, List.forall_mem_append]

theorem normal_arithmetic {op : Arithmetic} {left right : IntExpr} :
    (arithmetic op left right).Normal ↔ left.Normal ∧ right.Normal := by
  simp only [Normal, booleans, List.forall_mem_append]

theorem normal_ofBool {condition : BoolExpr} : (ofBool condition).Normal ↔ condition.Normal := by
  rw [ofBool, normal_ite]
  simp [Normal, booleans]

end IntExpr

namespace Equation

theorem normal_integer {left right : IntExpr} :
    (integer left right).Normal ↔ left.Normal ∧ right.Normal := by
  simp only [Normal, IntExpr.Normal, booleans, List.forall_mem_append]

theorem normal_boolean {left right : BoolExpr} :
    (boolean left right).Normal ↔ left.Normal ∧ right.Normal := by
  simp only [Normal, BoolExpr.Normal, booleans, List.forall_mem_append]

end Equation

namespace BoolExpr

theorem normal_join {op : Connective} {left right : BoolExpr} :
    (join op left right).Normal ↔ left.Normal ∧ right.Normal := by
  simp only [Normal, booleans, List.forall_mem_cons, List.forall_mem_append, Reducible,
    not_false_eq_true, true_and]

theorem normal_compare {op : Comparison} {left right : IntExpr} :
    (compare op left right).Normal ↔ left.Normal ∧ right.Normal := by
  simp only [Normal, IntExpr.Normal, booleans, List.forall_mem_cons, List.forall_mem_append,
    Reducible, not_false_eq_true, true_and]

theorem normal_inRange {type : AbiType} {value : IntExpr} :
    (inRange type value).Normal ↔ value.Normal := by
  simp only [Normal, IntExpr.Normal, booleans, List.forall_mem_cons, Reducible, not_false_eq_true,
    true_and]

theorem normal_neg {value : BoolExpr} :
    (neg value).Normal ↔ (∀ inner, value ≠ neg inner) ∧ value.Normal := by
  have hreducible : ¬(neg value).Reducible ↔ ∀ inner, value ≠ neg inner := by
    cases value <;> simp [Reducible]
  simp only [Normal, booleans, List.forall_mem_cons, hreducible]

theorem normal_eq {equation : Equation} :
    (eq equation).Normal ↔ ¬equation.Reducible ∧ equation.Normal := by
  simp only [Normal, Equation.Normal, booleans, List.forall_mem_cons, Reducible]

theorem normal_neq {equation : Equation} :
    (neq equation).Normal ↔ ¬equation.Reducible ∧ equation.Normal := by
  simp only [Normal, Equation.Normal, booleans, List.forall_mem_cons, Reducible]

theorem normal_equation {equation : Equation} (positive : Bool) :
    (if positive then eq equation else neq equation).Normal ↔
      ¬equation.Reducible ∧ equation.Normal := by
  cases positive with
  | true => exact normal_eq
  | false => exact normal_neq

-- The helpers give normal forms if they are given normal forms.
theorem normal_negate {value : BoolExpr} (h : value.Normal) : value.negate.Normal := by
  cases value with
  | neg inner => exact (normal_neg.mp h).2
  | _ => exact normal_neg.mpr ⟨by simp, h⟩

theorem normal_resolved {condition : BoolExpr} (literal positive : Bool) (h : condition.Normal) :
    (resolved condition literal positive).Normal := by
  unfold resolved
  split
  · exact h
  · exact normal_negate h

theorem ofTruthAndLiteral?_eq_none_iff {truth literal : IntExpr} {positive : Bool} :
    ofTruthAndLiteral? truth literal positive = none ↔ ¬truth.ComparesTruth literal := by
  constructor
  · rintro hnone ⟨⟨condition, rfl⟩, rfl | rfl⟩ <;> exact nomatch hnone
  · intro h
    cases hanswer : ofTruthAndLiteral? truth literal positive with
    | none => rfl
    | some answer =>
        obtain ⟨condition, value, htruth, hliteral, _⟩ := ofTruthAndLiteral?_eq_some hanswer
        refine absurd ⟨⟨condition, htruth⟩, ?_⟩ h
        cases value with
        | false => exact .inl hliteral
        | true => exact .inr hliteral

theorem normal_ofIntegers {left right : IntExpr} (positive : Bool) (hleft : left.Normal)
    (hright : right.Normal) : (ofIntegers left right positive).Normal := by
  unfold ofIntegers
  split
  · next answer hanswer =>
      rcases Option.or_eq_some_iff.mp hanswer with h | ⟨_, h⟩
      · obtain ⟨condition, value, rfl, _, rfl⟩ := ofTruthAndLiteral?_eq_some h
        exact normal_resolved value positive (IntExpr.normal_ofBool.mp hleft)
      · obtain ⟨condition, value, rfl, _, rfl⟩ := ofTruthAndLiteral?_eq_some h
        exact normal_resolved value positive (IntExpr.normal_ofBool.mp hright)
  · next hnone =>
      rw [Option.or_eq_none_iff, ofTruthAndLiteral?_eq_none_iff,
        ofTruthAndLiteral?_eq_none_iff] at hnone
      rw [normal_equation, Equation.normal_integer]
      exact ⟨not_or.mpr hnone, hleft, hright⟩

theorem ofIntegers_eq_self {left right : IntExpr} (positive : Bool)
    (h : ¬(Equation.integer left right).Reducible) :
    ofIntegers left right positive =
      if positive then eq (.integer left right) else neq (.integer left right) := by
  obtain ⟨hleft, hright⟩ := not_or.mp h
  rw [ofIntegers, ofTruthAndLiteral?_eq_none_iff.mpr hleft,
    ofTruthAndLiteral?_eq_none_iff.mpr hright]
  rfl

end BoolExpr

-- One pass from the inside out is enough, because what stands inside is normal already when a
-- helper looks at it.
mutual

theorem IntExpr.normal_canonical : (expr : IntExpr) → expr.canonical.Normal
  | .lit _ | .var _ _ | .env _ | .entry _ _ => by
      simp [IntExpr.canonical, IntExpr.Normal, IntExpr.booleans]
  | .arithmetic _ left right => by
      rw [IntExpr.canonical, IntExpr.normal_arithmetic]
      exact ⟨left.normal_canonical, right.normal_canonical⟩
  | .ite condition first second => by
      rw [IntExpr.canonical, IntExpr.normal_ite]
      exact ⟨condition.normal_canonical, first.normal_canonical, second.normal_canonical⟩

theorem BoolExpr.normal_canonical : (expr : BoolExpr) → expr.canonical.Normal
  | .lit _ => by
      simp [BoolExpr.canonical, BoolExpr.Normal, BoolExpr.booleans, BoolExpr.Reducible]
  | .join _ left right => by
      rw [BoolExpr.canonical, BoolExpr.normal_join]
      exact ⟨left.normal_canonical, right.normal_canonical⟩
  | .neg value => by
      rw [BoolExpr.canonical]
      exact BoolExpr.normal_negate value.normal_canonical
  | .compare _ left right => by
      rw [BoolExpr.canonical, BoolExpr.normal_compare]
      exact ⟨left.normal_canonical, right.normal_canonical⟩
  | .eq equation => by
      rw [BoolExpr.canonical]
      exact equation.normal_canonical true
  | .neq equation => by
      rw [BoolExpr.canonical]
      exact equation.normal_canonical false
  | .inRange _ value => by
      rw [BoolExpr.canonical, BoolExpr.normal_inRange]
      exact value.normal_canonical

theorem Equation.normal_canonical (positive : Bool) :
    (equation : Equation) → (equation.canonical positive).Normal
  | .integer left right => by
      rw [Equation.canonical]
      exact BoolExpr.normal_ofIntegers positive left.normal_canonical right.normal_canonical
  | .boolean left right => by
      rw [Equation.canonical, BoolExpr.normal_equation, Equation.normal_boolean]
      exact ⟨not_false, left.normal_canonical, right.normal_canonical⟩
  | .byteString _ _ | .contract _ _ => by
      rw [Equation.canonical, BoolExpr.normal_equation]
      exact ⟨not_false, List.forall_mem_nil _⟩

end

-- A normal form has nothing left to do at any depth.
mutual

theorem IntExpr.canonical_of_normal : (expr : IntExpr) → expr.Normal → expr.canonical = expr
  | .lit _, _ | .var _ _, _ | .env _, _ | .entry _ _, _ => by rw [IntExpr.canonical]
  | .arithmetic _ left right, h => by
      obtain ⟨hleft, hright⟩ := IntExpr.normal_arithmetic.mp h
      rw [IntExpr.canonical, left.canonical_of_normal hleft, right.canonical_of_normal hright]
  | .ite condition first second, h => by
      obtain ⟨hcondition, hfirst, hsecond⟩ := IntExpr.normal_ite.mp h
      rw [IntExpr.canonical, condition.canonical_of_normal hcondition,
        first.canonical_of_normal hfirst, second.canonical_of_normal hsecond]

theorem BoolExpr.canonical_of_normal : (expr : BoolExpr) → expr.Normal → expr.canonical = expr
  | .lit _, _ => rfl
  | .join _ left right, h => by
      obtain ⟨hleft, hright⟩ := BoolExpr.normal_join.mp h
      rw [BoolExpr.canonical, left.canonical_of_normal hleft, right.canonical_of_normal hright]
  | .neg value, h => by
      obtain ⟨hsingle, hvalue⟩ := BoolExpr.normal_neg.mp h
      rw [BoolExpr.canonical, value.canonical_of_normal hvalue, BoolExpr.negate]
      exact hsingle
  | .compare _ left right, h => by
      obtain ⟨hleft, hright⟩ := BoolExpr.normal_compare.mp h
      rw [BoolExpr.canonical, left.canonical_of_normal hleft, right.canonical_of_normal hright]
  | .eq equation, h => by
      obtain ⟨hirreducible, hequation⟩ := BoolExpr.normal_eq.mp h
      rw [BoolExpr.canonical, equation.canonical_of_normal true hirreducible hequation, if_pos rfl]
  | .neq equation, h => by
      obtain ⟨hirreducible, hequation⟩ := BoolExpr.normal_neq.mp h
      rw [BoolExpr.canonical, equation.canonical_of_normal false hirreducible hequation]
      rfl
  | .inRange _ value, h => by
      rw [BoolExpr.canonical, value.canonical_of_normal (BoolExpr.normal_inRange.mp h)]

theorem Equation.canonical_of_normal (positive : Bool) :
    (equation : Equation) → ¬equation.Reducible → equation.Normal →
    equation.canonical positive = if positive then .eq equation else .neq equation
  | .integer left right, hirreducible, h => by
      obtain ⟨hleft, hright⟩ := Equation.normal_integer.mp h
      rw [Equation.canonical, left.canonical_of_normal hleft, right.canonical_of_normal hright]
      exact BoolExpr.ofIntegers_eq_self positive hirreducible
  | .boolean left right, _, h => by
      obtain ⟨hleft, hright⟩ := Equation.normal_boolean.mp h
      rw [Equation.canonical, left.canonical_of_normal hleft, right.canonical_of_normal hright]
  | .byteString _ _, _, _ | .contract _ _, _, _ => by rw [Equation.canonical]

end

-- Canonical forms are normal and stay what they are. Nothing else does, so that a form is left
-- alone only where nothing can be written more simply.
theorem canonical_reaches_normal_form (expr : BoolExpr) :
    expr.canonical.canonical = expr.canonical ∧ expr.canonical.Normal ∧
      (expr.canonical = expr ↔ expr.Normal) := by
  have hnormal := expr.normal_canonical
  refine ⟨expr.canonical.canonical_of_normal hnormal, hnormal, ?_, expr.canonical_of_normal⟩
  intro hsame
  rwa [hsame] at hnormal

-- Comparing with zero negates the negation that is encoded, and the two cancel.
example : (BoolExpr.neg (.intEq (.lit 0) (.ofBool (.neg (.lit true))))).canonical =
    .neg (.lit true) := rfl

-- The parts of a conjunction are normal if it is, and are not conjunctions themselves.
theorem BoolExpr.normal_conjuncts (expr : BoolExpr) (h : expr.Normal) :
    ∀ part ∈ expr.conjuncts, part.Normal := by
  fun_induction BoolExpr.conjuncts expr with
  | case1 left right ihl ihr =>
      obtain ⟨hleft, hright⟩ := normal_join.mp h
      exact List.forall_mem_append.mpr ⟨ihl hleft, ihr hright⟩
  | case2 other => exact List.forall_mem_singleton.mpr h

theorem BoolExpr.ne_and_of_mem_conjuncts (expr : BoolExpr) :
    ∀ part ∈ expr.conjuncts, ∀ left right, part ≠ .join .and left right := by
  fun_induction BoolExpr.conjuncts expr with
  | case1 left right ihl ihr => exact List.forall_mem_append.mpr ⟨ihl, ihr⟩
  | case2 other hother => exact List.forall_mem_singleton.mpr hother

end SpecRecovery.Spec
