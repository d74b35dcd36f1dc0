import SpecRecovery.Lowering.Condition
import SpecRecovery.Machine.Evaluation
import SpecRecovery.Proofs.Result
import SpecRecovery.Proofs.Word.Integer

namespace SpecRecovery.Machine

namespace Expr

variable {assignment : Assignment} {left right number : Expr} {value : Word}

theorem eval_binary_eq_ok {op : BinaryOp} :
    (binary op left right).eval assignment = .ok value ↔
      ∃ first second, left.eval assignment = .ok first ∧ right.eval assignment = .ok second ∧
        op.onWords first second = value := by
  simp only [exists_and_left]
  refine bind_eq_ok.trans (exists_congr fun _ => and_congr_right fun _ => ?_)
  refine bind_eq_ok.trans (exists_congr fun _ => and_congr_right fun _ => ?_)
  exact ⟨Except.ok.inj, congrArg Except.ok⟩

theorem eval_isZero_eq_ok :
    (isZero number).eval assignment = .ok value ↔
      ∃ word, number.eval assignment = .ok word ∧ Word.ofBool (word == 0) = value := by
  refine bind_eq_ok.trans (exists_congr fun _ => and_congr_right fun _ => ?_)
  exact ⟨Except.ok.inj, congrArg Except.ok⟩

-- Both operands are evaluated, and no operation fails on words.
theorem exists_eval_binary_iff {op : BinaryOp} :
    (∃ value, (binary op left right).eval assignment = .ok value) ↔
      (∃ value, left.eval assignment = .ok value) ∧
        ∃ value, right.eval assignment = .ok value := by
  simp only [eval_binary_eq_ok]
  constructor
  · rintro ⟨_, first, second, hfirst, hsecond, -⟩
    exact ⟨⟨first, hfirst⟩, second, hsecond⟩
  · rintro ⟨⟨first, hfirst⟩, second, hsecond⟩
    exact ⟨_, first, second, hfirst, hsecond, rfl⟩

theorem exists_eval_isZero_iff :
    (∃ value, (isZero number).eval assignment = .ok value) ↔
      ∃ value, number.eval assignment = .ok value := by
  simp only [eval_isZero_eq_ok]
  constructor
  · rintro ⟨_, word, hword, -⟩
    exact ⟨word, hword⟩
  · rintro ⟨word, hword⟩
    exact ⟨_, word, hword, rfl⟩

end Expr

namespace Cond

-- The proposition has a truth, and so does the word that can take its place.
def Denotes (assignment : Assignment) (cond : Cond) (truth : Bool) : Prop :=
  cond.holds assignment = .ok truth ∧
    ∃ term, cond.toExpr = .ok term ∧ term.eval assignment = .ok (Word.ofBool truth)

variable {assignment : Assignment}

theorem denotes_bool (value : Bool) : (Cond.bool value).Denotes assignment value :=
  ⟨rfl, _, rfl, rfl⟩

theorem denotes_eqWords {left right : Expr} {first second : Word}
    (hl : left.eval assignment = .ok first) (hr : right.eval assignment = .ok second) :
    (eqWords left right).Denotes assignment (first == second) := by
  constructor
  · exact bind_eq_ok.mpr ⟨first, hl, bind_eq_ok.mpr ⟨second, hr, rfl⟩⟩
  · exact ⟨_, rfl, Expr.eval_binary_eq_ok.mpr ⟨first, second, hl, hr, rfl⟩⟩

theorem denotes_compare (op : Comparison) {left right : Expr} {first second : Word}
    (hl : left.eval assignment = .ok first) (hr : right.eval assignment = .ok second) :
    (compare op left right).Denotes assignment (op.onWords first second) := by
  constructor
  · exact bind_eq_ok.mpr ⟨first, hl, bind_eq_ok.mpr ⟨second, hr, rfl⟩⟩
  · exact ⟨_, rfl, Expr.eval_binary_eq_ok.mpr ⟨first, second, hl, hr, rfl⟩⟩

-- The word of two joined propositions, from the words of both.
def joined : Connective → Expr → Expr → Expr
  | .and, first, second => .binary .and first second
  | .or, first, second => .binary .or first second
  | .impl, first, second => .binary .or (.isZero first) second

theorem toExpr_neg_eq_ok {inner : Cond} {term : Expr} :
    (Cond.neg inner).toExpr = .ok term ↔
      ∃ number, inner.toExpr = .ok number ∧ .isZero number = term := by
  refine bind_eq_ok.trans (exists_congr fun _ => and_congr_right fun _ => ?_)
  exact ⟨Except.ok.inj, congrArg Except.ok⟩

theorem toExpr_join_eq_ok {op : Connective} {left right : Cond} {term : Expr} :
    (Cond.join op left right).toExpr = .ok term ↔
      ∃ first second, left.toExpr = .ok first ∧ right.toExpr = .ok second ∧
        joined op first second = term := by
  simp only [exists_and_left]
  cases op
  all_goals
    refine bind_eq_ok.trans (exists_congr fun _ => and_congr_right fun _ => ?_)
    refine bind_eq_ok.trans (exists_congr fun _ => and_congr_right fun _ => ?_)
    exact ⟨Except.ok.inj, congrArg Except.ok⟩

-- No side is left out, whatever the connective.
theorem exists_eval_joined_iff {op : Connective} {first second : Expr} :
    (∃ value, (joined op first second).eval assignment = .ok value) ↔
      (∃ value, first.eval assignment = .ok value) ∧
        ∃ value, second.eval assignment = .ok value := by
  cases op with
  | and | or => exact Expr.exists_eval_binary_iff
  | impl => rw [joined, Expr.exists_eval_binary_iff, Expr.exists_eval_isZero_iff]

-- Bit by bit the machine does to 0 and 1 what the connective does to truths.
theorem eval_joined (op : Connective) {first second : Expr} {one other : Bool}
    (hl : first.eval assignment = .ok (Word.ofBool one))
    (hr : second.eval assignment = .ok (Word.ofBool other)) :
    (joined op first second).eval assignment =
      .ok (Word.ofBool ((op.decided? one).getD other)) := by
  cases op with
  | and =>
      have htruth : (Connective.and.decided? one).getD other = (one && other) := by
        cases one <;> rfl
      rw [htruth, ← Word.ofBool_and]
      exact Expr.eval_binary_eq_ok.mpr ⟨_, _, hl, hr, rfl⟩
  | or =>
      have htruth : (Connective.or.decided? one).getD other = (one || other) := by
        cases one <;> rfl
      rw [htruth, ← Word.ofBool_or]
      exact Expr.eval_binary_eq_ok.mpr ⟨_, _, hl, hr, rfl⟩
  | impl =>
      have htruth : (Connective.impl.decided? one).getD other = (!one || other) := by
        cases one <;> rfl
      have hnot := Expr.eval_isZero_eq_ok.mpr ⟨_, hl, rfl⟩
      rw [htruth, ← Word.ofBool_or, ← Word.ofBool_beq_zero]
      exact Expr.eval_binary_eq_ok.mpr ⟨_, _, hnot, hr, rfl⟩

theorem Denotes.neg {inner : Cond} {truth : Bool} (h : inner.Denotes assignment truth) :
    (Cond.neg inner).Denotes assignment !truth := by
  obtain ⟨hholds, term, hterm, heval⟩ := h
  constructor
  · exact bind_eq_ok.mpr ⟨truth, hholds, rfl⟩
  · rw [← Word.ofBool_beq_zero]
    exact ⟨.isZero term, toExpr_neg_eq_ok.mpr ⟨term, hterm, rfl⟩,
      Expr.eval_isZero_eq_ok.mpr ⟨_, heval, rfl⟩⟩

theorem Denotes.join (op : Connective) {left right : Cond} {one other : Bool}
    (hl : left.Denotes assignment one) (hr : right.Denotes assignment other) :
    (Cond.join op left right).Denotes assignment ((op.decided? one).getD other) := by
  obtain ⟨hlholds, first, hfirst, hleval⟩ := hl
  obtain ⟨hrholds, second, hsecond, hreval⟩ := hr
  constructor
  · refine bind_eq_ok.mpr ⟨one, hlholds, ?_⟩
    cases op.decided? one with
    | none => exact hrholds
    | some _ => rfl
  · exact ⟨joined op first second, toExpr_join_eq_ok.mpr ⟨first, second, hfirst, hsecond, rfl⟩,
      eval_joined op hleval hreval⟩

theorem Denotes.unique {cond : Cond} {one other : Bool} (h : cond.Denotes assignment one)
    (hother : cond.Denotes assignment other) : one = other :=
  Except.ok.inj (h.1.symm.trans hother.1)

-- What is left out of a conjunction or a disjunction does not count.
theorem Denotes.both {left right : Cond} {one other : Bool} (hl : left.Denotes assignment one)
    (hr : right.Denotes assignment other) :
    (Cond.both left right).Denotes assignment (one && other) := by
  unfold Cond.both
  split
  · rwa [hl.unique (denotes_bool true), Bool.true_and]
  · rwa [hr.unique (denotes_bool true), Bool.and_true]
  · rw [hl.unique (denotes_bool false)]
    exact denotes_bool false
  · rw [hr.unique (denotes_bool false), Bool.and_false]
    exact denotes_bool false
  · have hjoin := hl.join .and hr
    cases one <;> exact hjoin

theorem Denotes.either {left right : Cond} {one other : Bool} (hl : left.Denotes assignment one)
    (hr : right.Denotes assignment other) :
    (Cond.either left right).Denotes assignment (one || other) := by
  unfold Cond.either
  split
  · rwa [hl.unique (denotes_bool false), Bool.false_or]
  · rwa [hr.unique (denotes_bool false), Bool.or_false]
  · rw [hl.unique (denotes_bool true)]
    exact denotes_bool true
  · rw [hr.unique (denotes_bool true), Bool.or_true]
    exact denotes_bool true
  · have hjoin := hl.join .or hr
    cases one <;> exact hjoin

end Cond

-- All propositions hold together exactly if each of them does.
theorem allHold_eq_ok {assignment : Assignment} {conds : List Cond}
    (h : ∀ cond ∈ conds, ∃ truth, cond.holds assignment = .ok truth) :
    ∃ truth, allHold assignment conds = .ok truth ∧
      (truth = true ↔ ∀ cond ∈ conds, cond.holds assignment = .ok true) := by
  induction conds with
  | nil => exact ⟨true, rfl, by simp⟩
  | cons cond rest ih =>
      rw [List.forall_mem_cons] at h
      obtain ⟨one, hone⟩ := h.1
      obtain ⟨other, hother, hiff⟩ := ih h.2
      cases one with
      | true =>
          refine ⟨other, bind_eq_ok.mpr ⟨true, hone, hother⟩, ?_⟩
          rw [hiff, List.forall_mem_cons, hone]
          simp
      | false =>
          refine ⟨false, bind_eq_ok.mpr ⟨false, hone, rfl⟩, ?_⟩
          rw [List.forall_mem_cons, hone]
          simp

end SpecRecovery.Machine
