import SpecRecovery.Lifting.Idiom

namespace SpecRecovery.Idiom

open Machine

-- The words that check an operation on the words of `left` and `right`. All ones may stand on
-- either side of the exclusive or that writes a complement.
inductive ChecksExpr : Idiom → Expr → Expr → Expr → Prop
  | sum (left right : Expr) :
      ChecksExpr additionOverflow left right
        (.binary (.compare .lt) (.binary .xor left (.lit Word.max)) right)
  | sumAfterOnes (left right : Expr) :
      ChecksExpr additionOverflow left right
        (.binary (.compare .lt) (.binary .xor (.lit Word.max) left) right)
  | product (left right : Expr) :
      ChecksExpr multiplicationOverflow left right
        (.binary .and (.isZero (.isZero left))
          (.binary (.compare .lt) ((Expr.lit Word.max).div left) right))

-- The propositions that do. Zero may stand on either side of the guard, but not on both.
inductive ChecksCond : Idiom → Expr → Expr → Cond → Prop
  | sum (left right : Expr) :
      ChecksCond additionOverflow left right (.lt (.binary .xor left (.lit Word.max)) right)
  | sumAfterOnes (left right : Expr) :
      ChecksCond additionOverflow left right (.lt (.binary .xor (.lit Word.max) left) right)
  | product {left : Expr} (right : Expr) (h : left ≠ .lit 0) :
      ChecksCond multiplicationOverflow left right
        (.join .and (.neg (.eqWords left (.lit 0))) (.lt ((Expr.lit Word.max).div left) right))
  | productAfterZero {left : Expr} (right : Expr) (h : left ≠ .lit 0) :
      ChecksCond multiplicationOverflow left right
        (.join .and (.neg (.eqWords (.lit 0) left)) (.lt ((Expr.lit Word.max).div left) right))

variable {idiom : Idiom} {left right term : Expr} {cond : Cond}

-- No word or proposition checks two different operations.
theorem ChecksExpr.unique {other : Idiom} {first second : Expr}
    (h : idiom.ChecksExpr left right term) (hother : other.ChecksExpr first second term) :
    idiom = other := by
  cases h <;> cases hother <;> rfl

theorem ChecksCond.unique {other : Idiom} {first second : Expr}
    (h : idiom.ChecksCond left right cond) (hother : other.ChecksCond first second cond) :
    idiom = other := by
  cases h <;> cases hother <;> rfl

theorem isLit_self (value : Word) : (Expr.lit value).isLit value = true := Expr.isLit_iff.mpr rfl

theorem complemented?_eq_some_iff :
    complemented? term = some left ↔
      term = .binary .xor left (.lit Word.max) ∨ term = .binary .xor (.lit Word.max) left := by
  constructor
  · intro h
    unfold complemented? at h
    split at h
    · next one other =>
        split at h
        · next hlit =>
            obtain rfl := Expr.isLit_iff.mp hlit
            exact .inl (Option.some.inj h ▸ rfl)
        · split at h
          · next hlit =>
              obtain rfl := Expr.isLit_iff.mp hlit
              exact .inr (Option.some.inj h ▸ rfl)
          · cases h
    · cases h
  · rintro (rfl | rfl)
    · simp [complemented?, isLit_self]
    · by_cases hlit : left.isLit Word.max
      · obtain rfl := Expr.isLit_iff.mp hlit
        simp [complemented?, isLit_self]
      · simp [complemented?, isLit_self, hlit]

theorem isGreatestOver_iff :
    isGreatestOver left term = true ↔ term = (Expr.lit Word.max).div left := by
  constructor
  · intro h
    unfold isGreatestOver at h
    split at h
    · rw [Bool.and_eq_true, Expr.isLit_iff, beq_iff_eq] at h
      obtain ⟨rfl, rfl⟩ := h
      rfl
    · cases h
  · rintro rfl
    simp [isGreatestOver, Expr.div, isLit_self]

theorem comparedWithZero?_eq_some_iff {one other : Expr} :
    comparedWithZero? one other = some left ↔
      left ≠ .lit 0 ∧ (one = left ∧ other = .lit 0 ∨ one = .lit 0 ∧ other = left) := by
  constructor
  · intro h
    unfold comparedWithZero? at h
    split at h
    · next hone hother =>
        obtain rfl := Option.some.inj h
        exact ⟨fun hzero => by simp [hzero, isLit_self] at hone,
          .inl ⟨rfl, Expr.isLit_iff.mp hother⟩⟩
    · next hone hother =>
        obtain rfl := Option.some.inj h
        exact ⟨fun hzero => by simp [hzero, isLit_self] at hother,
          .inr ⟨Expr.isLit_iff.mp hone, rfl⟩⟩
    · cases h
  · rintro ⟨hleft, hsides⟩
    have hlit : left.isLit 0 = false := Bool.eq_false_iff.mpr fun h => hleft (Expr.isLit_iff.mp h)
    rcases hsides with ⟨rfl, rfl⟩ | ⟨rfl, rfl⟩ <;> rw [comparedWithZero?, hlit, isLit_self]

theorem operandsOfExpr?_eq_some_iff :
    idiom.operandsOfExpr? term = some (left, right) ↔ idiom.ChecksExpr left right term := by
  constructor
  · intro h
    unfold operandsOfExpr? at h
    split at h
    · next complement second =>
        obtain ⟨first, hfirst, hpair⟩ := Option.map_eq_some_iff.mp h
        obtain ⟨rfl, rfl⟩ := Prod.mk.inj hpair
        rcases complemented?_eq_some_iff.mp hfirst with rfl | rfl
        · exact .sum _ _
        · exact .sumAfterOnes _ _
    · next first quotient second =>
        split at h
        · next hquotient =>
            obtain ⟨rfl, rfl⟩ := Prod.mk.inj (Option.some.inj h)
            obtain rfl := isGreatestOver_iff.mp hquotient
            exact .product _ _
        · cases h
    · cases h
  · intro h
    cases h with
    | sum => rw [operandsOfExpr?, complemented?_eq_some_iff.mpr (.inl rfl)]; rfl
    | sumAfterOnes => rw [operandsOfExpr?, complemented?_eq_some_iff.mpr (.inr rfl)]; rfl
    | product => rw [operandsOfExpr?, if_pos (isGreatestOver_iff.mpr rfl)]

theorem operandsOfCond?_eq_some_iff :
    idiom.operandsOfCond? cond = some (left, right) ↔ idiom.ChecksCond left right cond := by
  constructor
  · intro h
    unfold operandsOfCond? at h
    split at h
    · next complement second =>
        obtain ⟨first, hfirst, hpair⟩ := Option.map_eq_some_iff.mp h
        obtain ⟨rfl, rfl⟩ := Prod.mk.inj hpair
        rcases complemented?_eq_some_iff.mp hfirst with rfl | rfl
        · exact .sum _ _
        · exact .sumAfterOnes _ _
    · next one other quotient second =>
        obtain ⟨first, hfirst, h⟩ := Option.bind_eq_some_iff.mp h
        split at h
        · next hquotient =>
            obtain ⟨rfl, rfl⟩ := Prod.mk.inj (Option.some.inj h)
            obtain rfl := isGreatestOver_iff.mp hquotient
            obtain ⟨hzero, ⟨rfl, rfl⟩ | ⟨rfl, rfl⟩⟩ := comparedWithZero?_eq_some_iff.mp hfirst
            · exact .product _ hzero
            · exact .productAfterZero _ hzero
        · cases h
    · cases h
  · intro h
    cases h with
    | sum =>
        rw [Cond.lt, operandsOfCond?, complemented?_eq_some_iff.mpr (.inl rfl)]
        rfl
    | sumAfterOnes =>
        rw [Cond.lt, operandsOfCond?, complemented?_eq_some_iff.mpr (.inr rfl)]
        rfl
    | product _ h =>
        rw [Cond.lt, Cond.eqWords, operandsOfCond?,
          comparedWithZero?_eq_some_iff.mpr ⟨h, .inl ⟨rfl, rfl⟩⟩]
        exact if_pos (isGreatestOver_iff.mpr rfl)
    | productAfterZero _ h =>
        rw [Cond.lt, Cond.eqWords, operandsOfCond?,
          comparedWithZero?_eq_some_iff.mpr ⟨h, .inr ⟨rfl, rfl⟩⟩]
        exact if_pos (isGreatestOver_iff.mpr rfl)

end SpecRecovery.Idiom
