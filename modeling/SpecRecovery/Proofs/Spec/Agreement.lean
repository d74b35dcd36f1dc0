import SpecRecovery.Proofs.Spec.Wrapping

namespace SpecRecovery.Spec

variable {valuation : Valuation}

theorem IntExpr.eval_arithmetic {op : Arithmetic} {left right : IntExpr} {first second : Int}
    (hop : op ≠ .exp) (hl : left.eval valuation = .ok first)
    (hr : right.eval valuation = .ok second) :
    (IntExpr.arithmetic op left right).eval valuation = .ok (op.onIntegers first second) := by
  cases op with
  | add | sub | mul => rw [IntExpr.eval, hl, hr]; rfl
  | div | mod =>
      rw [IntExpr.eval, hl, hr]
      by_cases hzero : second = 0
      · simp [Arithmetic.onIntegers, hzero, bind, Except.bind, pure, Except.pure]
      · simp [Arithmetic.onIntegers, hzero, bind, Except.bind, pure, Except.pure]
  | exp => exact absurd rfl hop

theorem BoolExpr.eval_inRange {type : AbiType} {value : IntExpr} {integer : Int}
    (hrange : type.integerRange.isSome = true) (h : value.eval valuation = .ok integer) :
    (BoolExpr.inRange type value).eval valuation = .ok (type.holds integer) := by
  obtain ⟨range, hrange⟩ := Option.isSome_iff_exists.mp hrange
  rw [BoolExpr.eval, hrange, h, AbiType.holds, hrange]
  rfl

theorem IntExpr.operands_of_eval {op : Arithmetic} {left right : IntExpr} {value : Int}
    (hfits : op.readsUnsigned = true →
      left.FitsUnsigned valuation ∧ right.FitsUnsigned valuation)
    (h : (IntExpr.arithmetic op left right).eval valuation = .ok value) :
    ∃ first second, left.eval valuation = .ok first ∧ right.eval valuation = .ok second ∧
      value = op.onIntegers first second := by
  cases op with
  | add | sub | mul =>
      rw [IntExpr.eval] at h
      obtain ⟨first, hl, h⟩ := bind_eq_ok.mp h
      obtain ⟨second, hr, h⟩ := bind_eq_ok.mp h
      exact ⟨first, second, hl, hr, (Except.ok.inj h).symm⟩
  | div | mod =>
      obtain ⟨⟨first, hl, _⟩, second, hr, _⟩ := hfits rfl
      rw [IntExpr.eval_arithmetic (by decide) hl hr] at h
      exact ⟨first, second, hl, hr, (Except.ok.inj h).symm⟩
  | exp =>
      rw [IntExpr.eval] at h
      obtain ⟨first, hl, h⟩ := bind_eq_ok.mp h
      obtain ⟨second, hr, h⟩ := bind_eq_ok.mp h
      exact ⟨first, second, hl, hr, power_eq_ok h⟩

theorem IntExpr.FitsUnsigned.of_eval {expr : IntExpr} {value : Int}
    (h : expr.FitsUnsigned valuation) (heval : expr.eval valuation = .ok value) :
    Word.Unsigned value := by
  obtain ⟨other, hother, hrange⟩ := h
  rw [heval] at hother
  exact Except.ok.inj hother ▸ hrange

-- Where the machine reads everything as it is meant, it computes what is left of the integers and
-- sees their truths.
mutual

theorem IntExpr.word_of_faithful : (expr : IntExpr) → expr.Faithful valuation → {value : Int} →
    expr.eval valuation = .ok value →
    expr.word valuation = Word.wrap value ∧ expr.integer valuation = value
  | .lit literal, _, value, h => by
      obtain rfl := Except.ok.inj h
      exact ⟨rfl, rfl⟩
  | .var name type, _, value, h => by
      obtain rfl := Except.ok.inj h
      exact ⟨(wrap_interpret _ _).symm, rfl⟩
  | .env read, _, value, h => by
      obtain rfl := Except.ok.inj h
      exact ⟨(Word.wrap_toInteger _).symm, rfl⟩
  | .entry .pre item, _, value, h => by
      obtain rfl := Except.ok.inj h
      exact ⟨rfl, rfl⟩
  | .entry .post item, _, value, h => by
      obtain rfl := Except.ok.inj h
      exact ⟨rfl, rfl⟩
  | .arithmetic op left right, hfaithful, value, h => by
      obtain ⟨hleft, hright, hfits⟩ := hfaithful
      obtain ⟨first, second, hl, hr, rfl⟩ := IntExpr.operands_of_eval hfits h
      obtain ⟨hlw, hli⟩ := IntExpr.word_of_faithful left hleft hl
      obtain ⟨hrw, hri⟩ := IntExpr.word_of_faithful right hright hr
      have hread : op.readsUnsigned = true → Word.Unsigned first ∧ Word.Unsigned second :=
        fun hop => ⟨(hfits hop).1.of_eval hl, (hfits hop).2.of_eval hr⟩
      constructor
      · rw [IntExpr.word, hlw, hrw, op.onWords_wrap hread]
      · rw [IntExpr.integer, hli, hri]
  | .ite condition first second, hfaithful, value, h => by
      obtain ⟨hcondition, hfirst, hsecond⟩ := hfaithful
      rw [IntExpr.eval, BoolExpr.eval_of_faithful condition hcondition] at h
      rw [IntExpr.word, IntExpr.integer]
      cases htruth : condition.truth valuation with
      | true =>
          simp only [htruth] at h
          exact IntExpr.word_of_faithful first hfirst h
      | false =>
          simp only [htruth] at h
          exact IntExpr.word_of_faithful second hsecond h

theorem BoolExpr.eval_of_faithful : (expr : BoolExpr) → expr.Faithful valuation →
    expr.eval valuation = .ok (expr.truth valuation)
  | .lit value, _ => rfl
  | .join op left right, hfaithful => by
      rw [BoolExpr.eval, BoolExpr.eval_of_faithful left hfaithful.1,
        BoolExpr.eval_of_faithful right hfaithful.2, BoolExpr.truth]
      cases hdecided : op.decided? (left.truth valuation) <;>
        simp [hdecided, bind, Except.bind, pure, Except.pure]
  | .neg value, hfaithful => by
      rw [BoolExpr.eval, BoolExpr.eval_of_faithful value hfaithful]
      rfl
  | .compare op left right, hfaithful => by
      obtain ⟨hleft, hright, ⟨first, hl, hlr⟩, second, hr, hrr⟩ := hfaithful
      rw [BoolExpr.eval, hl, hr, BoolExpr.truth, (IntExpr.word_of_faithful left hleft hl).1,
        (IntExpr.word_of_faithful right hright hr).1, op.onWords_wrap hlr hrr]
      rfl
  | .eq equation, hfaithful => by
      rw [BoolExpr.eval, Equation.eval_of_faithful equation hfaithful, BoolExpr.truth]
  | .neq equation, hfaithful => by
      rw [BoolExpr.eval, Equation.eval_of_faithful equation hfaithful]
      rfl
  | .inRange type value, hfaithful => by
      obtain ⟨hvalue, hrange, integer, h⟩ := hfaithful
      rw [BoolExpr.eval_inRange hrange h, BoolExpr.truth,
        (IntExpr.word_of_faithful value hvalue h).2]

theorem Equation.eval_of_faithful : (equation : Equation) → equation.Faithful valuation →
    equation.eval valuation = .ok (equation.truth valuation)
  | .integer left right, hfaithful => by
      obtain ⟨hleft, hright, first, second, hl, hr, hsame⟩ := hfaithful
      rw [Equation.eval, hl, hr, Equation.truth, (IntExpr.word_of_faithful left hleft hl).1,
        (IntExpr.word_of_faithful right hright hr).1]
      have hiff : first = second ↔ Word.wrap first = Word.wrap second :=
        ⟨fun h => h ▸ rfl, hsame⟩
      simp [bind, Except.bind, pure, Except.pure, hiff]
  | .boolean left right, hfaithful => by
      rw [Equation.eval, BoolExpr.eval_of_faithful left hfaithful.1,
        BoolExpr.eval_of_faithful right hfaithful.2]
      rfl
  | .byteString left right, hfaithful => by
      have hsame : left = right := hfaithful
      simp [Equation.eval, Equation.truth, hsame, pure, Except.pure]
  | .contract left right, hfaithful => by
      have hsame : left = right := hfaithful
      simp [Equation.eval, Equation.truth, hsame, pure, Except.pure]

end

end SpecRecovery.Spec
