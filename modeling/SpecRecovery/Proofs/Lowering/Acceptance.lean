import SpecRecovery.Proofs.Lifting.Meaning
import SpecRecovery.Proofs.Lowering.State

namespace SpecRecovery.Lowerer

open Machine Spec

variable {lowerer : Lowerer} {resolver : Resolver}

-- What lifting writes is about the storage before the transition, and its range facts are about one
-- type that exists.
theorem emitted_within_reading (resolver : Resolver) :
    (Lifter.emitted resolver).Within (reading (listedBefore resolver)) where
  atom value h := by
    cases value with
    | entry timing item => exact h
    | _ => trivial
  fact type value h := h.1 ▸ rfl

theorem isPlainOperand_of_isUnsigned {value : IntExpr} (h : Lifter.isUnsigned value = true) :
    isPlainOperand value = true := by
  have hsigned := Lifter.mentionsSigned_of_isUnsigned h
  cases value with
  | lit | env => rfl
  | var name type => exact Bool.not_eq_true' _ ▸ hsigned
  | entry timing item => exact Bool.not_eq_true' _ ▸ hsigned
  | arithmetic | ite => exact nomatch h

theorem isOperand_of_isUnsigned (lowerer : Lowerer) {value : IntExpr}
    (h : Lifter.isUnsigned value = true)
    (hbuilt : value.BuiltFrom (reading (listedBefore resolver))) :
    lowerer.isOperand value = true ∧
      lowerer.operand value (lowerer.expr value) = lowerer.expr value := by
  rw [isOperand, operand, replacement?_of_before hbuilt]
  exact ⟨isPlainOperand_of_isUnsigned h, rfl⟩

theorem arithmetic_of_readsUnsigned {op : Arithmetic} {left right : IntExpr}
    {first second : Machine.Expr}
    (hsigned : op.readsUnsigned = true →
      left.mentionsSigned = false ∧ right.mentionsSigned = false) :
    arithmetic op left right (.ok first) (.ok second) =
      .ok (.binary (.arithmetic op) first second) := by
  unfold arithmetic
  rw [if_neg]
  · rfl
  · cases hop : op.readsUnsigned with
    | false => simp
    | true => simp [hsigned hop]

-- A range fact about a sum or a product of atoms is lowered if the sum or product is.
theorem exists_range {type : AbiType} {value : IntExpr} {term : Machine.Expr}
    (hfact : (Lifter.emitted resolver).fact type value)
    (hbuilt : value.BuiltFrom (reading (listedBefore resolver)))
    (h : lowerer.expr value = .ok term) :
    ∃ lowered, lowerer.cond (.inRange type value) = .ok lowered := by
  obtain ⟨rfl, op, left, right, rfl, hop, hleft, hright⟩ := hfact
  obtain ⟨hl, hlterm⟩ := isOperand_of_isUnsigned lowerer hleft hbuilt.1
  obtain ⟨hr, hrterm⟩ := isOperand_of_isUnsigned lowerer hright hbuilt.2
  rw [expr] at h
  obtain ⟨_, first, second, hfirst, hsecond, _⟩ := arithmetic_eq_ok h
  have hexp : op ≠ .exp := by rcases hop with rfl | rfl <;> decide
  have hsub : op ≠ .sub := by rcases hop with rfl | rfl <;> decide
  have hrange : arithmeticRange .uint256 Word.sizeBits op first second (.ok term) =
      .ok (.both (exact op first second) (.withinBits term Word.sizeBits)) := by
    rw [arithmeticRange, if_neg (by simp [hsub])]
    rfl
  exact ⟨_, range_arithmetic_eq_ok.mpr ⟨hexp, ⟨hl, hr⟩, first, second, hlterm.trans hfirst,
    hrterm.trans hsecond, by rw [h, hrange]⟩⟩

-- Every lowered truth has a word, which does not depend on any assignment.
theorem exists_toWord (hresolver : lowerer.resolver = resolver)
    (hpre : lowerer.pre.Unchanged .empty) {value : BoolExpr} {lowered : Cond}
    (hbuilt : value.BuiltFrom (reading (listedBefore resolver)))
    (h : lowerer.cond value = .ok lowered) : ∃ term, toWord lowered = .ok term := by
  have hreflects : lowerer.Reflects .empty (.ofStorage .empty resolver) (listedBefore resolver) :=
    reflects_unchanged hresolver hpre ⟨rfl, rfl, rfl⟩
  obtain ⟨_, term, hterm, _⟩ := denotes_of_cond hreflects value hbuilt h
  exact ⟨term, mapError_eq_ok.mpr hterm⟩

-- Whatever lifting writes is lowered.
mutual

theorem exists_expr (hresolver : lowerer.resolver = resolver)
    (hpre : lowerer.pre.Unchanged .empty) : (value : IntExpr) →
    value.WellSigned (Lifter.emitted resolver) →
    ∃ term, lowerer.expr value = .ok term
  | .lit value, h => by
      rw [expr, Word.ofInteger?_of_unsigned h]
      exact ⟨_, rfl⟩
  | .var _ _, _ => ⟨_, rfl⟩
  | .env _, _ => ⟨_, rfl⟩
  | .entry timing item, h => by
      obtain ⟨rfl, hlists⟩ := h
      obtain ⟨slot, hslot⟩ := Resolver.lists_iff.mp hlists
      rw [← hresolver] at hslot
      exact ⟨_, bind_eq_ok.mpr ⟨slot, slot_of_resolve hslot, rfl⟩⟩
  | .arithmetic op left right, h => by
      obtain ⟨first, hfirst⟩ := exists_expr hresolver hpre left h.1
      obtain ⟨second, hsecond⟩ := exists_expr hresolver hpre right h.2.1
      rw [expr, hfirst, hsecond, arithmetic_of_readsUnsigned h.2.2]
      exact ⟨_, rfl⟩
  | .ite condition first second, h => by
      obtain ⟨lowered, hlowered⟩ := exists_cond hresolver hpre condition h.1
      obtain ⟨one, hone⟩ := exists_expr hresolver hpre first h.2.1
      obtain ⟨other, hother⟩ := exists_expr hresolver hpre second h.2.2
      have hbuilt := condition.builtFrom_of_wellSigned (emitted_within_reading resolver) h.1
      obtain ⟨number, hnumber⟩ := exists_toWord hresolver hpre hbuilt hlowered
      rw [expr, hlowered, hone, hother]
      exact ⟨_, bind_eq_ok.mpr ⟨lowered, rfl, bind_eq_ok.mpr ⟨number, hnumber, rfl⟩⟩⟩

theorem exists_cond (hresolver : lowerer.resolver = resolver)
    (hpre : lowerer.pre.Unchanged .empty) : (value : BoolExpr) →
    value.WellSigned (Lifter.emitted resolver) →
    ∃ lowered, lowerer.cond value = .ok lowered
  | .lit value, _ => ⟨_, rfl⟩
  | .join op left right, h => by
      obtain ⟨first, hfirst⟩ := exists_cond hresolver hpre left h.1
      obtain ⟨second, hsecond⟩ := exists_cond hresolver hpre right h.2
      rw [cond, hfirst, hsecond]
      exact ⟨_, rfl⟩
  | .neg value, h => by
      obtain ⟨inner, hinner⟩ := exists_cond hresolver hpre value h
      rw [cond, hinner]
      exact ⟨_, rfl⟩
  | .compare op left right, h => by
      obtain ⟨hleft, hright, hl, hr⟩ := h
      obtain ⟨first, hfirst⟩ := exists_expr hresolver hpre left hleft
      obtain ⟨second, hsecond⟩ := exists_expr hresolver hpre right hright
      rw [cond, hl, hr, hfirst, hsecond]
      exact ⟨_, rfl⟩
  | .eq equation, h => exists_equation hresolver hpre equation h
  | .neq equation, h => by
      obtain ⟨inner, hinner⟩ := exists_equation hresolver hpre equation h
      rw [cond, hinner]
      exact ⟨_, rfl⟩
  | .inRange type value, h => by
      obtain ⟨term, hterm⟩ := exists_expr hresolver hpre value h.1
      have hbuilt := value.builtFrom_of_wellSigned (emitted_within_reading resolver) h.1
      exact exists_range h.2 hbuilt hterm

theorem exists_equation (hresolver : lowerer.resolver = resolver)
    (hpre : lowerer.pre.Unchanged .empty) : (equation : Equation) →
    equation.WellSigned (Lifter.emitted resolver) →
    ∃ lowered, lowerer.equation equation = .ok lowered
  | .integer left right, h => by
      obtain ⟨hleft, hright, hequatable⟩ := h
      obtain ⟨first, hfirst⟩ := exists_expr hresolver hpre left hleft
      obtain ⟨second, hsecond⟩ := exists_expr hresolver hpre right hright
      rw [equation, hequatable, hfirst, hsecond]
      exact ⟨_, rfl⟩
  | .boolean left right, h => by
      obtain ⟨one, hone⟩ := exists_cond hresolver hpre left h.1
      obtain ⟨other, hother⟩ := exists_cond hresolver hpre right h.2
      have hwithin := emitted_within_reading resolver
      obtain ⟨first, hfirst⟩ :=
        exists_toWord hresolver hpre (left.builtFrom_of_wellSigned hwithin h.1) hone
      obtain ⟨second, hsecond⟩ :=
        exists_toWord hresolver hpre (right.builtFrom_of_wellSigned hwithin h.2) hother
      rw [equation, hone, hother]
      exact ⟨_, bind_eq_ok.mpr ⟨one, rfl, bind_eq_ok.mpr ⟨first, hfirst,
        bind_eq_ok.mpr ⟨other, rfl, bind_eq_ok.mpr ⟨second, hsecond, rfl⟩⟩⟩⟩⟩
  | .byteString _ _, h => nomatch h
  | .contract _ _, h => nomatch h

end

theorem exists_updates (hresolver : lowerer.resolver = resolver)
    (hpre : lowerer.pre.Unchanged .empty) {updates : List StorageUpdate}
    (hlists : ∀ update ∈ updates, resolver.Lists update.item)
    (hvalues : ∀ update ∈ updates, update.value.WellSigned (Lifter.emitted resolver))
    (base : Store) : ∃ store, lowerer.updates base updates = .ok store := by
  induction updates generalizing base with
  | nil => exact ⟨base, rfl⟩
  | cons update rest ih =>
      obtain ⟨hupdate, hrest⟩ := List.forall_mem_cons.mp hlists
      obtain ⟨hvalue, hothers⟩ := List.forall_mem_cons.mp hvalues
      obtain ⟨slot, hslot⟩ := Resolver.lists_iff.mp hupdate
      obtain ⟨term, hterm⟩ := exists_expr hresolver hpre update.value hvalue
      rw [← hresolver] at hslot
      obtain ⟨store, hstore⟩ := ih hrest hothers (.write (.lit slot) term base)
      exact ⟨store, updates_cons_eq_ok.mpr ⟨slot, term, slot_of_resolve hslot, hterm, hstore⟩⟩

theorem exists_conditions (hresolver : lowerer.resolver = resolver)
    (hpre : lowerer.pre.Unchanged .empty) {preconditions : List BoolExpr}
    (h : ∀ value ∈ preconditions, value.WellSigned (Lifter.emitted resolver)) :
    ∃ conditions, lowerer.conditions preconditions = .ok conditions := by
  obtain ⟨lowered, hlowered⟩ := exists_mapM_eq_ok fun value hvalue =>
    exists_cond hresolver hpre value (h value hvalue)
  exact ⟨_, bind_eq_ok.mpr ⟨lowered, hlowered, rfl⟩⟩

end SpecRecovery.Lowerer
