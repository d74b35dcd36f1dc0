import SpecRecovery.Proofs.Lowering.Refinement

namespace SpecRecovery

open Machine Spec

-- What a conditional comes down to once its conditions are decided. Conditions on the way that is
-- not taken do not count.
def Spec.IntExpr.arm (decide : BoolExpr → Bool) : IntExpr → IntExpr
  | .ite condition first second =>
      if decide condition then first.arm decide else second.arm decide
  | value => value

-- The conditions on the way to this arm.
def Spec.IntExpr.passed (decide : BoolExpr → Bool) : IntExpr → List BoolExpr
  | .ite condition first second =>
      condition :: if decide condition then first.passed decide else second.passed decide
  | _ => []

namespace Lowerer

variable {resolver : Resolver} {assignment : Assignment} {type : AbiType} {width : Nat}

-- Whatever the types that it mentions, a proposition that was lowered over the storage before has a
-- truth.
section Total

theorem replacement?_before (store : Store) (value : IntExpr) :
    (before resolver store).replacement? value = none := by
  unfold replacement?
  split <;> rfl

theorem exists_denotes_atomRange (signed : Bool) {term : Machine.Expr} {word : Word}
    (h : term.eval assignment = .ok word) :
    ∃ truth, (atomRange type width signed term).Denotes assignment truth := by
  unfold atomRange
  cases type.isSigned <;> cases signed
  case true.true =>
    dsimp only
    split
    · exact ⟨_, Cond.denotes_bool true⟩
    · exact ⟨_, Cond.denotes_eqWords (by rw [Machine.Expr.eval, h]; rfl) h⟩
  all_goals exact ⟨_, Cond.denotes_withinBits h _⟩

section Arithmetic

variable {left right : Machine.Expr} {first second : Word}

theorem exists_denotes_signedDifference (bits : Nat) (hl : left.eval assignment = .ok first)
    (hr : right.eval assignment = .ok second) :
    ∃ truth, (signedDifference bits left right).Denotes assignment truth := by
  have hbound := Cond.eval_powerOfTwo assignment bits
  have habove := (Cond.denotes_compare .geq hl hr).both
    (Cond.denotes_compare .lt (eval_arithmetic .sub hl hr) hbound)
  have hbelow := (Cond.denotes_compare .lt hl hr).both
    (Cond.denotes_compare .leq (eval_arithmetic .sub hr hl) hbound)
  exact ⟨_, habove.either hbelow⟩

theorem exists_denotes_arithmeticRange {op : Arithmetic} (hop : op ≠ .exp)
    (hl : left.eval assignment = .ok first) (hr : right.eval assignment = .ok second)
    {result : Except VerificationError Machine.Expr} {cond : Cond}
    (hresult : ∀ term, result = .ok term → ∃ word, term.eval assignment = .ok word)
    (h : arithmeticRange type width op left right result = .ok cond) :
    ∃ truth, cond.Denotes assignment truth := by
  unfold arithmeticRange at h
  split at h
  · obtain rfl := Except.ok.inj h
    exact exists_denotes_signedDifference _ hl hr
  · obtain ⟨term, hterm, h⟩ := bind_eq_ok.mp h
    obtain rfl := Except.ok.inj h
    obtain ⟨word, hword⟩ := hresult term hterm
    exact ⟨_, (denotes_exact hop hl hr).both (Cond.denotes_withinBits hword _)⟩

end Arithmetic

theorem exists_eval_of_read {timing : Timing} {item : StorageItem} {term : Machine.Expr}
    (h : (before resolver .abstract).read timing item = .ok term) :
    ∃ word, term.eval assignment = .ok word := by
  obtain ⟨slot, store, _, hstore, rfl⟩ := read_eq_ok h
  rw [eval_sload]
  cases timing with
  | pre =>
      obtain rfl := Except.ok.inj hstore
      exact ⟨_, rfl⟩
  | post => exact nomatch hstore

mutual

theorem exists_eval_of_expr : (value : IntExpr) → {term : Machine.Expr} →
    (before resolver .abstract).expr value = .ok term → ∃ word, term.eval assignment = .ok word
  | .lit literal, term, h => by
      rw [expr] at h
      split at h
      · obtain rfl := Except.ok.inj h
        exact ⟨_, rfl⟩
      · exact nomatch h
  | .var _ _, term, h | .env _, term, h => by
      obtain rfl := Except.ok.inj h
      exact ⟨_, rfl⟩
  | .entry _ _, term, h => exists_eval_of_read h
  | .arithmetic op left right, term, h => by
      obtain ⟨_, first, second, hfirst, hsecond, rfl⟩ := arithmetic_eq_ok h
      obtain ⟨one, hone⟩ := exists_eval_of_expr left hfirst
      obtain ⟨other, hother⟩ := exists_eval_of_expr right hsecond
      exact ⟨_, eval_arithmetic op hone hother⟩
  | .ite condition first second, term, h => by
      obtain ⟨lowered, hlowered, h⟩ := bind_eq_ok.mp h
      obtain ⟨number, hnumber, h⟩ := bind_eq_ok.mp h
      obtain ⟨one, hone, h⟩ := bind_eq_ok.mp h
      obtain ⟨other, hother, h⟩ := bind_eq_ok.mp h
      obtain rfl := Except.ok.inj h
      obtain ⟨truth, htruth⟩ := exists_denotes_of_cond condition hlowered
      obtain ⟨chosen, hchosen⟩ := exists_eval_of_expr first hone
      obtain ⟨refused, hrefused⟩ := exists_eval_of_expr second hother
      rw [Machine.Expr.eval, denotes_eval htruth hnumber, hchosen, hrefused]
      cases truth with
      | true => exact ⟨chosen, rfl⟩
      | false => exact ⟨refused, rfl⟩

theorem exists_denotes_of_cond : (value : BoolExpr) → {lowered : Cond} →
    (before resolver .abstract).cond value = .ok lowered →
    ∃ truth, lowered.Denotes assignment truth
  | .lit value, lowered, h => by
      obtain rfl := Except.ok.inj h
      exact ⟨value, Cond.denotes_bool value⟩
  | .join op left right, lowered, h => by
      obtain ⟨first, hfirst, h⟩ := bind_eq_ok.mp h
      obtain ⟨second, hsecond, h⟩ := bind_eq_ok.mp h
      obtain rfl := Except.ok.inj h
      obtain ⟨one, hone⟩ := exists_denotes_of_cond left hfirst
      obtain ⟨other, hother⟩ := exists_denotes_of_cond right hsecond
      exact ⟨_, hone.join op hother⟩
  | .neg value, lowered, h => by
      obtain ⟨inner, hinner, h⟩ := bind_eq_ok.mp h
      obtain rfl := Except.ok.inj h
      obtain ⟨truth, htruth⟩ := exists_denotes_of_cond value hinner
      exact ⟨_, htruth.neg⟩
  | .compare op left right, lowered, h => by
      rw [cond] at h
      split at h
      · exact nomatch h
      · obtain ⟨first, hfirst, h⟩ := bind_eq_ok.mp h
        obtain ⟨second, hsecond, h⟩ := bind_eq_ok.mp h
        obtain rfl := Except.ok.inj h
        obtain ⟨one, hone⟩ := exists_eval_of_expr left hfirst
        obtain ⟨other, hother⟩ := exists_eval_of_expr right hsecond
        exact ⟨_, Cond.denotes_compare op hone hother⟩
  | .eq equation, lowered, h => exists_denotes_of_equation equation h
  | .neq equation, lowered, h => by
      obtain ⟨inner, hinner, h⟩ := bind_eq_ok.mp h
      obtain rfl := Except.ok.inj h
      obtain ⟨truth, htruth⟩ := exists_denotes_of_equation equation hinner
      exact ⟨_, htruth.neg⟩
  | .inRange type value, lowered, h => by
      rw [cond] at h
      split at h
      · exact exists_denotes_of_range value h
      · exact nomatch h

theorem exists_denotes_of_equation : (equation : Equation) → {lowered : Cond} →
    (before resolver .abstract).equation equation = .ok lowered →
    ∃ truth, lowered.Denotes assignment truth
  | .integer left right, lowered, h => by
      rw [equation] at h
      split at h
      · exact nomatch h
      · obtain ⟨first, hfirst, h⟩ := bind_eq_ok.mp h
        obtain ⟨second, hsecond, h⟩ := bind_eq_ok.mp h
        obtain rfl := Except.ok.inj h
        obtain ⟨one, hone⟩ := exists_eval_of_expr left hfirst
        obtain ⟨other, hother⟩ := exists_eval_of_expr right hsecond
        exact ⟨_, Cond.denotes_eqWords hone hother⟩
  | .boolean left right, lowered, h => by
      obtain ⟨one, hone, h⟩ := bind_eq_ok.mp h
      obtain ⟨first, hfirst, h⟩ := bind_eq_ok.mp h
      obtain ⟨other, hother, h⟩ := bind_eq_ok.mp h
      obtain ⟨second, hsecond, h⟩ := bind_eq_ok.mp h
      obtain rfl := Except.ok.inj h
      obtain ⟨truth, htruth⟩ := exists_denotes_of_cond left hone
      obtain ⟨last, hlast⟩ := exists_denotes_of_cond right hother
      exact ⟨_, Cond.denotes_eqWords (denotes_eval htruth hfirst) (denotes_eval hlast hsecond)⟩
  | .byteString _ _, _, h => nomatch h
  | .contract _ _, _, h => nomatch h

theorem exists_denotes_of_range {type : AbiType} {width : Nat} : (value : IntExpr) →
    {lowered : Cond} → (before resolver .abstract).range type width value = .ok lowered →
    ∃ truth, lowered.Denotes assignment truth
  | .lit literal, lowered, h => by
      obtain rfl := Except.ok.inj h
      exact ⟨_, Cond.denotes_bool _⟩
  | .var name varType, lowered, h => by
      obtain rfl := Except.ok.inj h
      exact exists_denotes_atomRange _ rfl
  | .env value, lowered, h => by
      obtain rfl := Except.ok.inj h
      exact exists_denotes_atomRange _ rfl
  | .entry timing item, lowered, h => by
      rw [range, replacement?_before] at h
      obtain ⟨term, hterm, h⟩ := bind_eq_ok.mp h
      obtain rfl := Except.ok.inj h
      obtain ⟨word, hword⟩ := exists_eval_of_read hterm
      exact exists_denotes_atomRange _ hword
  | .arithmetic op left right, lowered, h => by
      obtain ⟨hop, _, first, second, hfirst, hsecond, h⟩ := range_arithmetic_eq_ok.mp h
      simp only [operand, replacement?_before] at hfirst hsecond
      obtain ⟨one, hone⟩ := exists_eval_of_expr left hfirst
      obtain ⟨other, hother⟩ := exists_eval_of_expr right hsecond
      refine exists_denotes_arithmeticRange hop hone hother (fun term hterm => ?_) h
      obtain ⟨_, _, _, hleft, hright, rfl⟩ := arithmetic_eq_ok hterm
      obtain rfl := Except.ok.inj (hleft.symm.trans hfirst)
      obtain rfl := Except.ok.inj (hright.symm.trans hsecond)
      exact ⟨_, eval_arithmetic op hone hother⟩
  | .ite condition first second, lowered, h => by
      obtain ⟨lowered, hlowered, h⟩ := bind_eq_ok.mp h
      obtain ⟨one, hone, h⟩ := bind_eq_ok.mp h
      obtain ⟨other, hother, h⟩ := bind_eq_ok.mp h
      obtain rfl := Except.ok.inj h
      obtain ⟨truth, htruth⟩ := exists_denotes_of_cond condition hlowered
      obtain ⟨chosen, hchosen⟩ := exists_denotes_of_range first hone
      obtain ⟨refused, hrefused⟩ := exists_denotes_of_range second hother
      exact ⟨_, (htruth.both hchosen).either (htruth.opposite.both hrefused)⟩

end

end Total

-- Whether the proposition that a condition is lowered to holds.
def sees (lowerer : Lowerer) (assignment : Assignment) (condition : BoolExpr) : Bool :=
  ((lowerer.cond condition).toOption.bind fun lowered =>
    (lowered.holds assignment).toOption).getD false

theorem sees_eq {lowerer : Lowerer} {condition : BoolExpr} {lowered : Cond} {truth : Bool}
    (hlowered : lowerer.cond condition = .ok lowered) (h : lowered.Denotes assignment truth) :
    lowerer.sees assignment condition = truth := by
  simp [sees, hlowered, h.1, Except.toOption]

-- The variables that are read are listed. Range facts may be about any type.
def readingBefore (resolver : Resolver) : Vocabulary where
  atom := (reading (listedBefore resolver)).atom
  fact _ _ := True

-- Operands of range facts hold no facts themselves.
theorem builtFrom_of_isOperand {lowerer : Lowerer} {value : IntExpr}
    (h : lowerer.isOperand value = true) (hbuilt : value.BuiltFrom (readingBefore resolver)) :
    value.BuiltFrom (reading (listedBefore resolver)) := by
  cases value with
  | arithmetic | ite => exact nomatch h
  | _ => exact hbuilt

theorem eval_of_isOperand {lowerer : Lowerer} {value : IntExpr} (valuation : Valuation)
    (h : lowerer.isOperand value = true) :
    value.eval valuation = .ok (value.integer valuation) := by
  cases value with
  | arithmetic | ite => exact nomatch h
  | entry timing item => cases timing <;> rfl
  | _ => rfl

theorem denotes_leaf {lowerer : Lowerer} {valuation : Valuation}
    {known : Timing → StorageItem → Prop} (hreflects : lowerer.Reflects assignment valuation known)
    (hsize : type.isWellSized = true) (hwidth : type.integerWidth = some width)
    {value : IntExpr} {lowered : Cond} (hbuilt : value.BuiltFrom (reading known))
    (heval : value.eval valuation = .ok (value.integer valuation))
    (h : lowerer.range type width value = .ok lowered) :
    ∃ seen, value.eval valuation = .ok seen ∧ lowered.Denotes assignment (type.holds seen) :=
  ⟨_, heval, denotes_of_range hreflects hsize hwidth value hbuilt h⟩

-- A lowered fact tells whether the arm that the lowered conditions lead to is in the range.
theorem denotes_arm (hsize : type.isWellSized = true) (hwidth : type.integerWidth = some width) :
    (value : IntExpr) → value.BuiltFrom (readingBefore resolver) → {lowered : Cond} →
    (before resolver .abstract).range type width value = .ok lowered →
    ∃ seen, (value.arm ((before resolver .abstract).sees assignment)).eval
        (.ofStorage assignment resolver) = .ok seen ∧
      lowered.Denotes assignment (type.holds seen)
  | .lit _, hbuilt, _, h | .var _ _, hbuilt, _, h | .env _, hbuilt, _, h =>
      denotes_leaf (reflects_ofStorage resolver assignment) hsize hwidth hbuilt rfl h
  | .entry .pre _, hbuilt, _, h =>
      denotes_leaf (reflects_ofStorage resolver assignment) hsize hwidth hbuilt rfl h
  | .entry .post _, hbuilt, _, _ => nomatch hbuilt.1
  | .arithmetic op left right, hbuilt, lowered, h => by
      have hparts := range_arithmetic_eq_ok.mp h
      obtain ⟨hop, ⟨hl, hr⟩, _⟩ := hparts
      exact denotes_leaf (reflects_ofStorage resolver assignment) hsize hwidth
        ⟨builtFrom_of_isOperand hl hbuilt.1, builtFrom_of_isOperand hr hbuilt.2⟩
        (IntExpr.eval_arithmetic hop (eval_of_isOperand _ hl) (eval_of_isOperand _ hr)) h
  | .ite condition first second, hbuilt, lowered, h => by
      obtain ⟨inner, hinner, h⟩ := bind_eq_ok.mp h
      obtain ⟨one, hone, h⟩ := bind_eq_ok.mp h
      obtain ⟨other, hother, h⟩ := bind_eq_ok.mp h
      obtain rfl := Except.ok.inj h
      obtain ⟨truth, htruth⟩ : ∃ truth, inner.Denotes assignment truth :=
        exists_denotes_of_cond condition hinner
      obtain ⟨chosen, hchosen, hfirst⟩ := denotes_arm hsize hwidth first hbuilt.2.1 hone
      obtain ⟨refused, hrefused, hsecond⟩ := denotes_arm hsize hwidth second hbuilt.2.2 hother
      have heither := (htruth.both hfirst).either (htruth.opposite.both hsecond)
      rw [IntExpr.arm, sees_eq hinner htruth]
      cases truth with
      | true => exact ⟨chosen, hchosen, by simpa using heither⟩
      | false => exact ⟨refused, hrefused, by simpa using heither⟩

-- The integers lead to the same arm, or the first condition that they decide otherwise has the
-- other truth.
theorem eval_arm_or_exists (decide : BoolExpr → Bool) {valuation : Valuation} :
    (value : IntExpr) → {meant : Int} → value.eval valuation = .ok meant →
    (value.arm decide).eval valuation = .ok meant ∨
      ∃ condition ∈ value.passed decide, condition.eval valuation = .ok (!decide condition)
  | .lit _, _, h | .var _ _, _, h | .env _, _, h | .entry _ _, _, h | .arithmetic _ _ _, _, h =>
      .inl h
  | .ite condition first second, meant, h => by
      rw [IntExpr.eval] at h
      obtain ⟨truth, htruth, h⟩ := bind_eq_ok.mp h
      rw [IntExpr.arm, IntExpr.passed]
      by_cases hsame : decide condition = truth
      · rw [hsame]
        cases truth with
        | true =>
            rcases eval_arm_or_exists decide first h with hfirst | ⟨later, hlater, hother⟩
            · exact .inl hfirst
            · exact .inr ⟨later, List.mem_cons_of_mem _ hlater, hother⟩
        | false =>
            rcases eval_arm_or_exists decide second h with hsecond | ⟨later, hlater, hother⟩
            · exact .inl hsecond
            · exact .inr ⟨later, List.mem_cons_of_mem _ hlater, hother⟩
      · have hother : truth = !decide condition := by
          cases truth <;> simpa using hsame
        exact .inr ⟨condition, List.mem_cons_self, hother ▸ htruth⟩

theorem exists_lowered_of_mem_passed (decide : BoolExpr → Bool) {lowerer : Lowerer}
    {condition : BoolExpr} : (value : IntExpr) → {lowered : Cond} →
    lowerer.range type width value = .ok lowered → condition ∈ value.passed decide →
    ∃ inner, lowerer.cond condition = .ok inner
  | .lit _, _, _, hmem | .var _ _, _, _, hmem | .env _, _, _, hmem | .entry _ _, _, _, hmem
  | .arithmetic _ _ _, _, _, hmem => nomatch hmem
  | .ite head first second, lowered, h, hmem => by
      obtain ⟨inner, hinner, h⟩ := bind_eq_ok.mp h
      obtain ⟨one, hone, h⟩ := bind_eq_ok.mp h
      obtain ⟨other, hother, h⟩ := bind_eq_ok.mp h
      rw [IntExpr.passed] at hmem
      rcases List.mem_cons.mp hmem with rfl | hmem
      · exact ⟨inner, hinner⟩
      · split at hmem
        · exact exists_lowered_of_mem_passed decide first hone hmem
        · exact exists_lowered_of_mem_passed decide second hother hmem

-- A condition in which no integer leaves its bounds is seen as it is meant.
theorem eval_eq_sees {condition : BoolExpr} {lowered : Cond}
    (hlowered : (before resolver .abstract).cond condition = .ok lowered)
    (hbuilt : condition.BuiltFrom (reading (listedBefore resolver)))
    (hbounds : ∀ part ∈ condition.exposed, part.InBounds (.ofStorage assignment resolver)) :
    condition.eval (.ofStorage assignment resolver) =
      .ok ((before resolver .abstract).sees assignment condition) := by
  have hreflects := reflects_ofStorage resolver assignment
  rw [eval_of_inBounds hbuilt hlowered hbounds,
    sees_eq hlowered (denotes_of_cond hreflects condition hbuilt hlowered)]

-- A lowered range fact holds exactly if the unbounded value of the arm that the machine takes is in
-- the range. This arm is the one that is meant, unless the integers decide a condition on the way
-- otherwise than the machine does, and then an integer in this condition leaves its bounds.
theorem range_exact_unless_misjudged {value : IntExpr} {lowered : Cond}
    (hlower : (before resolver .abstract).cond (.inRange type value) = .ok lowered)
    (hsize : type.isWellSized = true) (hbuilt : value.BuiltFrom (readingBefore resolver))
    (assignment : Assignment) :
    let valuation := Valuation.ofStorage assignment resolver
    let decide := (before resolver .abstract).sees assignment
    ∃ seen, (value.arm decide).eval valuation = .ok seen ∧
      lowered.holds assignment = .ok (type.holds seen) ∧
      ∀ meant, value.eval valuation = .ok meant →
        seen = meant ∨ ∃ condition ∈ value.passed decide,
          condition.eval valuation = .ok (!decide condition) ∧
            (condition.BuiltFrom (reading (listedBefore resolver)) →
              ∃ part ∈ condition.exposed, ¬part.InBounds valuation) := by
  intro valuation decide
  rw [cond] at hlower
  split at hlower
  · next width hwidth =>
      obtain ⟨seen, hseen, hdenotes⟩ := denotes_arm hsize hwidth value hbuilt hlower
      refine ⟨seen, hseen, hdenotes.1, fun meant hmeant => ?_⟩
      rcases eval_arm_or_exists decide value hmeant with harm | ⟨condition, hpassed, hother⟩
      · exact .inl (Except.ok.inj (hseen.symm.trans harm))
      · refine .inr ⟨condition, hpassed, hother, fun hcondition => ?_⟩
        obtain ⟨inner, hinner⟩ := exists_lowered_of_mem_passed decide value hlower hpassed
        by_contra hbounds
        push Not at hbounds
        have hsame := Except.ok.inj
          (hother.symm.trans (eval_eq_sees hinner hcondition hbounds))
        exact Bool.not_ne_self _ hsame
  · exact nomatch hlower

-- What an account falls short of an amount, or its drift if the balance is small.
def accountGap : IntExpr :=
  .ite (.compare .lt (.pre accountBalance) (.var "amount" .uint256))
    (.arithmetic .sub (.var "amount" .uint256) (.pre accountBalance))
    (.ite (.inRange (.uint 8) (.pre accountBalance)) (.pre accountDrift) (.lit 300))

theorem range_exact_account :
    let valuation := Valuation.ofStorage accountAssignment accountResolver
    let decide := (before accountResolver .abstract).sees accountAssignment
    ∃ lowered, (before accountResolver .abstract).cond (.inRange (.int 16) accountGap) =
        .ok lowered ∧
      (AbiType.int 16).isWellSized = true ∧ accountGap.BuiltFrom (readingBefore accountResolver) ∧
      accountGap.eval valuation = .ok 0 ∧
      ∃ seen, (accountGap.arm decide).eval valuation = .ok seen ∧
        lowered.holds accountAssignment = .ok ((AbiType.int 16).holds seen) ∧
        ∀ meant, accountGap.eval valuation = .ok meant →
          seen = meant ∨ ∃ condition ∈ accountGap.passed decide,
            condition.eval valuation = .ok (!decide condition) ∧
              (condition.BuiltFrom (reading (listedBefore accountResolver)) →
                ∃ part ∈ condition.exposed, ¬part.InBounds valuation) := by
  intro valuation decide
  have hbalance : listedBefore accountResolver .pre accountBalance := ⟨rfl, 0, by decide⟩
  have hdrift : listedBefore accountResolver .pre accountDrift := ⟨rfl, 1, by decide⟩
  have hbuilt : accountGap.BuiltFrom (readingBefore accountResolver) :=
    ⟨⟨hbalance, trivial⟩, ⟨trivial, hbalance⟩, ⟨hbalance, trivial⟩, hdrift, trivial⟩
  have hlower : ((before accountResolver .abstract).cond
      (.inRange (.int 16) accountGap)).toOption.isSome = true := by
    decide +kernel
  have hvalue : accountGap.eval valuation = .ok 0 := by decide +kernel
  cases hcond : (before accountResolver .abstract).cond (.inRange (.int 16) accountGap) with
  | error reason => simp [hcond, Except.toOption] at hlower
  | ok lowered =>
      exact ⟨lowered, rfl, rfl, hbuilt, hvalue,
        range_exact_unless_misjudged hcond rfl hbuilt accountAssignment⟩

-- A pump that may draw from two tanks, and nothing is stored.
def pumpResolver : Resolver := ⟨"Pump", ⟨[]⟩, List.nodup_nil, List.nodup_nil⟩

-- Integers never have a sum below one of two numbers that are not negative. Words do if it wraps.
def pumpLoad : IntExpr :=
  .ite (.compare .lt (.add (.var "x" .uint256) (.var "y" .uint256)) (.var "x" .uint256))
    (.lit 300) (.lit 5)

def pumpOverflow : Assignment :=
  ⟨.ofList [("x", BitVec.twoPow 256 255), ("y", BitVec.twoPow 256 255)], .empty, 0, .empty⟩

-- The load that is meant fits in a byte, but the lowered fact does not hold.
theorem pump_load_misjudged :
    ∃ lowered, (before pumpResolver .abstract).cond (.inRange (.uint 8) pumpLoad) = .ok lowered ∧
      lowered.holds pumpOverflow = .ok false ∧
      pumpLoad.eval (.ofStorage pumpOverflow pumpResolver) = .ok 5 ∧
      (AbiType.uint 8).holds 5 = true ∧
      (BoolExpr.inRange (.uint 8) pumpLoad).eval (.ofStorage pumpOverflow pumpResolver) =
        .ok true :=
  ⟨.neg (.compare .lt (.binary (.arithmetic .add) (.var "x") (.var "y")) (.var "x")), rfl,
    by decide +kernel, by decide +kernel, by decide, by decide +kernel⟩

end Lowerer

end SpecRecovery
