import SpecRecovery.Proofs.Lowering.RangeFact
import SpecRecovery.Proofs.Machine.Encoding
import SpecRecovery.Proofs.Spec.Signedness

namespace SpecRecovery

open Machine Spec

-- The value that a stored variable gets, as far as range facts about the variable depend on it.
structure LoweredUpdate.StandsFor (assignment : Assignment) (update : LoweredUpdate)
    (value : Int) : Prop where
  operand : ∀ term, update.isOperand = true → update.expr = .ok term →
    ∃ word, term.eval assignment = .ok word ∧ value = word.toInteger
  range : ∀ type width cond, type.isWellSized = true → type.integerWidth = some width →
    update.range type width = .ok cond → cond.Denotes assignment (type.holds value)

namespace Lowerer

-- The machine finds in an assignment what the valuation says, and every variable that is not
-- updated has a value of its type.
structure Reflects (lowerer : Lowerer) (assignment : Assignment) (valuation : Valuation)
    (known : Timing → StorageItem → Prop) : Prop where
  calldata : ∀ name, assignment.variableValue name = valuation.variableWord name
  environment : ∀ value, assignment.environmentValue value = valuation.environmentWord value
  reads : ∀ timing item term, known timing item → lowerer.read timing item = .ok term →
    term.eval assignment = .ok (Word.wrap (valuation.storedValue timing item.name))
  typed : ∀ timing item, known timing item → lowerer.replacement? (.entry timing item) = none →
    ∃ word, valuation.storedValue timing item.name = interpret word item.type
  replaced : ∀ item update, known .post item → lowerer.update? item.name = some update →
    update.StandsFor assignment (valuation.postValue item.name)

-- The variables that an expression reads are known, and its range facts are about types that exist.
def reading (known : Timing → StorageItem → Prop) : Vocabulary where
  atom
    | .entry timing item => known timing item
    | _ => True
  fact type _ := type.isWellSized = true

variable {lowerer : Lowerer} {assignment : Assignment} {valuation : Valuation}
  {known : Timing → StorageItem → Prop}

theorem toWord_eq_ok {cond : Cond} {term : Machine.Expr} (h : toWord cond = .ok term) :
    cond.toExpr = .ok term := mapError_eq_ok.mp h

theorem denotes_eval {cond : Cond} {truth : Bool} {term : Machine.Expr}
    (hdenotes : cond.Denotes assignment truth) (h : toWord cond = .ok term) :
    term.eval assignment = .ok (Word.ofBool truth) := by
  obtain ⟨_, same, hsame, heval⟩ := hdenotes
  obtain rfl := Except.ok.inj (hsame.symm.trans (toWord_eq_ok h))
  exact heval

theorem arithmetic_eq_ok {op : Arithmetic} {left right : IntExpr}
    {leftTerm rightTerm : Except VerificationError Machine.Expr} {term : Machine.Expr}
    (h : arithmetic op left right leftTerm rightTerm = .ok term) :
    (op.readsUnsigned = true → left.mentionsSigned = false ∧ right.mentionsSigned = false) ∧
      ∃ first second, leftTerm = .ok first ∧ rightTerm = .ok second ∧
        term = .binary (.arithmetic op) first second := by
  unfold arithmetic at h
  split at h
  · exact nomatch h
  · next hsigned =>
      obtain ⟨first, hfirst, h⟩ := bind_eq_ok.mp h
      obtain ⟨second, hsecond, h⟩ := bind_eq_ok.mp h
      refine ⟨fun hop => ?_, first, second, hfirst, hsecond, (Except.ok.inj h).symm⟩
      simpa [hop] using hsigned

-- Atoms that are not signed stand for the numbers of their words.
theorem integer_of_isPlainOperand (hreflects : lowerer.Reflects assignment valuation known)
    {value : IntExpr} {term : Machine.Expr} (hplain : isPlainOperand value = true)
    (hreplaced : lowerer.replacement? value = none) (hbuilt : value.BuiltFrom (reading known))
    (h : lowerer.expr value = .ok term) :
    value.integer valuation = (value.word valuation).toInteger := by
  cases value with
  | lit literal =>
      rw [expr] at h
      split at h
      · next word hword =>
          exact (Word.toInteger_wrap (Word.ofInteger?_eq_some hword).2).symm
      · exact nomatch h
  | var name type =>
      rw [isPlainOperand, Bool.not_eq_true'] at hplain
      exact interpret_unsigned _ hplain
  | env value => rfl
  | entry timing item =>
      rw [isPlainOperand, Bool.not_eq_true'] at hplain
      obtain ⟨word, hword⟩ := hreflects.typed timing item hbuilt hreplaced
      rw [IntExpr.integer, IntExpr.word, hword, wrap_interpret, interpret_unsigned _ hplain]
  | arithmetic | ite => exact nomatch hplain

theorem replacement?_eq_some {value : IntExpr} {update : LoweredUpdate}
    (h : lowerer.replacement? value = some update) :
    ∃ item, value = .entry .post item ∧ lowerer.update? item.name = some update := by
  unfold replacement? at h
  split at h
  · exact ⟨_, rfl, h⟩
  · exact nomatch h

-- The term that stands for an operand of a range fact has the word of the operand, which is all of
-- its integer.
theorem eval_of_operand (hreflects : lowerer.Reflects assignment valuation known)
    {value : IntExpr} (hbuilt : value.BuiltFrom (reading known))
    (heval : ∀ term, lowerer.expr value = .ok term →
      term.eval assignment = .ok (value.word valuation))
    (hoperand : lowerer.isOperand value = true) {term : Machine.Expr}
    (h : lowerer.operand value (lowerer.expr value) = .ok term) :
    term.eval assignment = .ok (value.word valuation) ∧
      value.integer valuation = (value.word valuation).toInteger := by
  unfold isOperand at hoperand
  unfold operand at h
  cases hreplaced : lowerer.replacement? value with
  | none =>
      rw [hreplaced] at hoperand h
      exact ⟨heval term h, integer_of_isPlainOperand hreflects hoperand hreplaced hbuilt h⟩
  | some update =>
      rw [hreplaced] at hoperand h
      obtain ⟨item, rfl, hupdate⟩ := replacement?_eq_some hreplaced
      obtain ⟨word, hword, hvalue⟩ :=
        (hreflects.replaced item update hbuilt hupdate).operand term hoperand h
      rw [IntExpr.word, IntExpr.integer, Valuation.storedValue, hvalue, Word.wrap_toInteger]
      exact ⟨hword, rfl⟩

theorem range_arithmetic_eq_ok {type : AbiType} {width : Nat} {op : Arithmetic}
    {left right : IntExpr} {lowered : Cond} :
    lowerer.range type width (.arithmetic op left right) = .ok lowered ↔
      op ≠ .exp ∧ (lowerer.isOperand left = true ∧ lowerer.isOperand right = true) ∧
      ∃ first second, lowerer.operand left (lowerer.expr left) = .ok first ∧
        lowerer.operand right (lowerer.expr right) = .ok second ∧
        arithmeticRange type width op first second
          (arithmetic op left right (lowerer.expr left) (lowerer.expr right)) = .ok lowered := by
  by_cases hexp : op = .exp
  · subst hexp
    exact ⟨fun h => (nomatch h), fun h => absurd rfl h.1⟩
  · rw [range]
    · constructor
      · intro h
        split at h
        · exact nomatch h
        · next hoperands =>
            obtain ⟨first, hfirst, h⟩ := bind_eq_ok.mp h
            obtain ⟨second, hsecond, h⟩ := bind_eq_ok.mp h
            rw [Bool.not_eq_true, Bool.not_eq_false', Bool.and_eq_true] at hoperands
            exact ⟨hexp, hoperands, first, second, hfirst, hsecond, h⟩
      · rintro ⟨_, ⟨hl, hr⟩, first, second, hfirst, hsecond, h⟩
        rw [if_neg (by simp [hl, hr])]
        exact bind_eq_ok.mpr ⟨first, hfirst, bind_eq_ok.mpr ⟨second, hsecond, h⟩⟩
    · exact hexp

-- A lowered expression has the word of the expression, and a lowered truth is its truth.
mutual

theorem eval_of_expr (hreflects : lowerer.Reflects assignment valuation known) :
    (value : IntExpr) → value.BuiltFrom (reading known) → {term : Machine.Expr} →
    lowerer.expr value = .ok term → term.eval assignment = .ok (value.word valuation)
  | .lit literal, _, term, h => by
      rw [expr] at h
      split at h
      · next word hword =>
          obtain rfl := Except.ok.inj h
          rw [Machine.Expr.eval, (Word.ofInteger?_eq_some hword).1]
          rfl
      · exact nomatch h
  | .var name _, _, term, h => by
      obtain rfl := Except.ok.inj h
      exact congrArg Except.ok (hreflects.calldata name)
  | .env value, _, term, h => by
      obtain rfl := Except.ok.inj h
      exact congrArg Except.ok (hreflects.environment value)
  | .entry timing item, hbuilt, term, h => hreflects.reads timing item term hbuilt h
  | .arithmetic op left right, hbuilt, term, h => by
      obtain ⟨_, first, second, hfirst, hsecond, rfl⟩ := arithmetic_eq_ok h
      rw [IntExpr.word]
      exact eval_arithmetic op (eval_of_expr hreflects left hbuilt.1 hfirst)
        (eval_of_expr hreflects right hbuilt.2 hsecond)
  | .ite condition first second, hbuilt, term, h => by
      obtain ⟨lowered, hlowered, h⟩ := bind_eq_ok.mp h
      obtain ⟨number, hnumber, h⟩ := bind_eq_ok.mp h
      obtain ⟨one, hone, h⟩ := bind_eq_ok.mp h
      obtain ⟨other, hother, h⟩ := bind_eq_ok.mp h
      obtain rfl := Except.ok.inj h
      have hcondition :=
        denotes_eval (denotes_of_cond hreflects condition hbuilt.1 hlowered) hnumber
      rw [Machine.Expr.eval, hcondition, eval_of_expr hreflects first hbuilt.2.1 hone,
        eval_of_expr hreflects second hbuilt.2.2 hother, IntExpr.word]
      cases condition.truth valuation <;> rfl

theorem denotes_of_cond (hreflects : lowerer.Reflects assignment valuation known) :
    (value : BoolExpr) → value.BuiltFrom (reading known) → {lowered : Cond} →
    lowerer.cond value = .ok lowered → lowered.Denotes assignment (value.truth valuation)
  | .lit value, _, lowered, h => by
      obtain rfl := Except.ok.inj h
      exact Cond.denotes_bool value
  | .join op left right, hbuilt, lowered, h => by
      obtain ⟨first, hfirst, h⟩ := bind_eq_ok.mp h
      obtain ⟨second, hsecond, h⟩ := bind_eq_ok.mp h
      obtain rfl := Except.ok.inj h
      exact (denotes_of_cond hreflects left hbuilt.1 hfirst).join op
        (denotes_of_cond hreflects right hbuilt.2 hsecond)
  | .neg value, hbuilt, lowered, h => by
      obtain ⟨inner, hinner, h⟩ := bind_eq_ok.mp h
      obtain rfl := Except.ok.inj h
      exact (denotes_of_cond hreflects value hbuilt hinner).neg
  | .compare op left right, hbuilt, lowered, h => by
      rw [cond] at h
      split at h
      · exact nomatch h
      · obtain ⟨first, hfirst, h⟩ := bind_eq_ok.mp h
        obtain ⟨second, hsecond, h⟩ := bind_eq_ok.mp h
        obtain rfl := Except.ok.inj h
        exact Cond.denotes_compare op (eval_of_expr hreflects left hbuilt.1 hfirst)
          (eval_of_expr hreflects right hbuilt.2 hsecond)
  | .eq equation, hbuilt, lowered, h => denotes_of_equation hreflects equation hbuilt h
  | .neq equation, hbuilt, lowered, h => by
      obtain ⟨inner, hinner, h⟩ := bind_eq_ok.mp h
      obtain rfl := Except.ok.inj h
      exact (denotes_of_equation hreflects equation hbuilt hinner).neg
  | .inRange type value, hbuilt, lowered, h => by
      rw [cond] at h
      split at h
      · next width hwidth =>
          exact denotes_of_range hreflects hbuilt.2 hwidth value hbuilt.1 h
      · exact nomatch h

theorem denotes_of_equation (hreflects : lowerer.Reflects assignment valuation known) :
    (equation : Equation) → equation.BuiltFrom (reading known) → {lowered : Cond} →
    lowerer.equation equation = .ok lowered → lowered.Denotes assignment (equation.truth valuation)
  | .integer left right, hbuilt, lowered, h => by
      rw [equation] at h
      split at h
      · exact nomatch h
      · obtain ⟨first, hfirst, h⟩ := bind_eq_ok.mp h
        obtain ⟨second, hsecond, h⟩ := bind_eq_ok.mp h
        obtain rfl := Except.ok.inj h
        exact Cond.denotes_eqWords (eval_of_expr hreflects left hbuilt.1 hfirst)
          (eval_of_expr hreflects right hbuilt.2 hsecond)
  | .boolean left right, hbuilt, lowered, h => by
      obtain ⟨one, hone, h⟩ := bind_eq_ok.mp h
      obtain ⟨first, hfirst, h⟩ := bind_eq_ok.mp h
      obtain ⟨other, hother, h⟩ := bind_eq_ok.mp h
      obtain ⟨second, hsecond, h⟩ := bind_eq_ok.mp h
      obtain rfl := Except.ok.inj h
      have hwords := Cond.denotes_eqWords
        (denotes_eval (denotes_of_cond hreflects left hbuilt.1 hone) hfirst)
        (denotes_eval (denotes_of_cond hreflects right hbuilt.2 hother) hsecond)
      have htruths : (Word.ofBool (left.truth valuation) == Word.ofBool (right.truth valuation)) =
          (left.truth valuation == right.truth valuation) := by
        rw [Bool.eq_iff_iff, beq_iff_eq, beq_iff_eq, Word.ofBool_inj]
      rw [Equation.truth, ← htruths]
      exact hwords
  | .byteString _ _, _, _, h => nomatch h
  | .contract _ _, _, _, h => nomatch h

theorem denotes_of_range (hreflects : lowerer.Reflects assignment valuation known)
    {type : AbiType} {width : Nat} (hsize : type.isWellSized = true)
    (hwidth : type.integerWidth = some width) :
    (value : IntExpr) → value.BuiltFrom (reading known) → {lowered : Cond} →
    lowerer.range type width value = .ok lowered →
    lowered.Denotes assignment (type.holds (value.integer valuation))
  | .lit literal, _, lowered, h => by
      obtain rfl := Except.ok.inj h
      exact Cond.denotes_bool _
  | .var name varType, _, lowered, h => by
      obtain rfl := Except.ok.inj h
      rw [IntExpr.integer, interpret_eq]
      exact denotes_atomRange hsize hwidth varType.isSigned
        (congrArg Except.ok (hreflects.calldata name))
  | .env value, _, lowered, h => by
      obtain rfl := Except.ok.inj h
      exact denotes_atomRange hsize hwidth false
        (congrArg Except.ok (hreflects.environment value))
  | .entry timing item, hbuilt, lowered, h => by
      rw [range] at h
      split at h
      · next update hupdate =>
          obtain ⟨_, hsame, hupdate⟩ := replacement?_eq_some hupdate
          obtain ⟨rfl, rfl⟩ := IntExpr.entry.inj hsame
          have hstands := hreflects.replaced item update hbuilt hupdate
          exact hstands.range type width lowered hsize hwidth h
      · next hreplaced =>
          obtain ⟨term, hterm, h⟩ := bind_eq_ok.mp h
          obtain rfl := Except.ok.inj h
          obtain ⟨word, hword⟩ := hreflects.typed timing item hbuilt hreplaced
          have heval := hreflects.reads timing item term hbuilt hterm
          rw [hword, wrap_interpret] at heval
          rw [IntExpr.integer, hword, interpret_eq]
          exact denotes_atomRange hsize hwidth item.type.isSigned heval
  | .arithmetic op left right, hbuilt, lowered, h => by
      obtain ⟨hop, hoperands, first, second, hfirst, hsecond, h⟩ := range_arithmetic_eq_ok.mp h
      have hleft : ∀ term, lowerer.expr left = .ok term →
          term.eval assignment = .ok (left.word valuation) :=
        fun _ => eval_of_expr hreflects left hbuilt.1
      have hright : ∀ term, lowerer.expr right = .ok term →
          term.eval assignment = .ok (right.word valuation) :=
        fun _ => eval_of_expr hreflects right hbuilt.2
      obtain ⟨hl, hlnumber⟩ := eval_of_operand hreflects hbuilt.1 hleft hoperands.1 hfirst
      obtain ⟨hr, hrnumber⟩ := eval_of_operand hreflects hbuilt.2 hright hoperands.2 hsecond
      rw [IntExpr.integer, hlnumber, hrnumber]
      refine denotes_arithmeticRange hsize hwidth hop hl hr (fun term hterm => ?_) h
      obtain ⟨_, one, other, hone, hother, rfl⟩ := arithmetic_eq_ok hterm
      exact eval_arithmetic op (hleft one hone) (hright other hother)
  | .ite condition first second, hbuilt, lowered, h => by
      obtain ⟨truth, htruth, h⟩ := bind_eq_ok.mp h
      obtain ⟨one, hone, h⟩ := bind_eq_ok.mp h
      obtain ⟨other, hother, h⟩ := bind_eq_ok.mp h
      obtain rfl := Except.ok.inj h
      have hcondition := denotes_of_cond hreflects condition hbuilt.1 htruth
      have hfirst := denotes_of_range hreflects hsize hwidth first hbuilt.2.1 hone
      have hsecond := denotes_of_range hreflects hsize hwidth second hbuilt.2.2 hother
      have heither := (hcondition.both hfirst).either (hcondition.opposite.both hsecond)
      rw [IntExpr.integer]
      cases hcase : condition.truth valuation <;> simpa [hcase] using heither

end

end Lowerer

end SpecRecovery
