import SpecRecovery.Proofs.Lowering.Conditional

namespace SpecRecovery

open Machine Spec

namespace Spec.IntExpr

def isConditional : IntExpr → Bool
  | .ite _ _ _ => true
  | _ => false

theorem arm_of_not_isConditional (decide : BoolExpr → Bool) {value : IntExpr}
    (h : value.isConditional = false) : value.arm decide = value := by
  cases value with
  | ite => exact nomatch h
  | _ => rfl

end Spec.IntExpr

namespace Lowerer

-- The new value takes the place of a variable that is updated and read after the transition.
def unfolded (updates : List StorageUpdate) : IntExpr → IntExpr
  | .entry .post item =>
      ((lastUpdate? updates item.name).map StorageUpdate.value).getD (.post item)
  | value => value

-- The variables that are read are listed. Range facts may be about any type.
def readingAfter (resolver : Resolver) : Vocabulary where
  atom := (reading (listed resolver)).atom
  fact _ _ := True

-- The variables of which the storage after holds all of the value, although new values may wrap:
-- they keep their values or get those of unsigned atoms.
def settled (resolver : Resolver) (updates : List StorageUpdate) (timing : Timing)
    (item : StorageItem) : Prop :=
  resolver.Lists item ∧ (timing = .post → ∀ update,
    lastUpdate? updates item.name = some update → isPlainOperand update.value = true)

variable {resolver : Resolver} {updates : List StorageUpdate} {store : Store}
  {initial valuation : Valuation} {assignment : Assignment} {type : AbiType} {width : Nat}
  {value : IntExpr} {lowered : Cond}

-- The integer that an update computes, where it has one.
def newValue (initial : Valuation) (update : StorageUpdate) : Int :=
  (update.value.eval initial).toOption.getD 0

section Apply

variable (hpost : initial.post = .empty) (happly : initial.apply updates = .ok valuation)

include happly in
theorem eval_newValue {update : StorageUpdate} (hupdate : update ∈ updates) :
    update.value.eval initial = .ok (newValue initial update) := by
  obtain ⟨values, hvalues, _⟩ := bind_eq_ok.mp happly
  obtain ⟨_, _, hvalue⟩ := (exists_of_forall₂ (mapM_eq_ok.mp hvalues)).1 update hupdate
  obtain ⟨integer, hinteger, _⟩ := bind_eq_ok.mp hvalue
  rw [newValue, hinteger]
  rfl

include hpost happly

theorem eval_of_lastUpdate? {name : String} {update : StorageUpdate}
    (hlast : lastUpdate? updates name = some update) :
    update.value.eval initial = .ok (valuation.postValue name) := by
  rw [postValue_of_apply hpost happly fun _ => eval_newValue happly, hlast]
  exact eval_newValue happly (mem_of_lastUpdate? hlast)

theorem postValue_of_not_updated {name : String} (hlast : lastUpdate? updates name = none) :
    valuation.postValue name = valuation.preValue name := by
  rw [postValue_of_apply hpost happly fun _ => eval_newValue happly, hlast]
  rfl

end Apply

-- The word that the machine computes for an update. Where the value wraps, this is all there is.
def newWord (resolver : Resolver) (assignment : Assignment) (update : StorageUpdate) : Word :=
  (((before resolver .abstract).expr update.value).toOption.bind fun term =>
    (term.eval assignment).toOption).getD 0

theorem eval_newWord {update : StorageUpdate} {term : Machine.Expr}
    (hterm : (before resolver .abstract).expr update.value = .ok term) :
    term.eval assignment = .ok (newWord resolver assignment update) := by
  obtain ⟨word, hword⟩ : ∃ word, term.eval assignment = .ok word :=
    exists_eval_of_expr update.value hterm
  simp [newWord, hterm, hword, Except.toOption]

-- Operands of range facts read settled variables only.
theorem builtFrom_settled (h : (after resolver updates store).isOperand value = true)
    (hbuilt : value.BuiltFrom (readingAfter resolver)) :
    value.BuiltFrom (reading (settled resolver updates)) := by
  cases value with
  | entry timing item =>
      refine ⟨hbuilt, ?_⟩
      rintro rfl update hlast
      rw [after, isOperand, replacement?, update?_withPost, hlast] at h
      exact h
  | arithmetic | ite => cases h
  | lit | var | env => trivial

section After

variable (hstore : (before resolver .abstract).updates .abstract updates = .ok store)
  (htargets : ∀ update ∈ updates, resolver.Lists update.item)
  (hvalues : ∀ update ∈ updates, update.value.BuiltFrom (readingBefore resolver))
  (happly : (Valuation.ofStorage assignment resolver).apply updates = .ok valuation)

include hvalues happly in
-- A variable that gets the value of an unsigned atom stands for the number of its word.
theorem standsFor_plain {name : String} {update : StorageUpdate}
    (hlast : lastUpdate? updates name = some update)
    (hplain : isPlainOperand update.value = true) :
    ((before resolver .abstract).lowerUpdate update.value).StandsFor assignment
      (valuation.postValue name) := by
  have hoperand : (before resolver .abstract).isOperand update.value = true := by
    rw [isOperand, replacement?_before]
    exact hplain
  have hbuilt :=
    builtFrom_of_isOperand hoperand (hvalues update (mem_of_lastUpdate? hlast))
  have hnew := eval_of_lastUpdate? rfl happly hlast
  rw [eval_of_isOperand _ hoperand] at hnew
  rw [← Except.ok.inj hnew]
  exact standsFor_lowerUpdate (reflects_ofStorage resolver assignment) hbuilt

include hstore htargets hvalues happly

theorem read_settled {slot : Word} {item : StorageItem}
    (hsettled : settled resolver updates .post item) (hslot : resolver.resolve slot = .ok item) :
    store.read assignment slot = .ok (Word.wrap (valuation.postValue item.name)) := by
  have hread := read_of_updates hstore (newWord resolver assignment)
    (fun _ _ _ => eval_newWord) slot
  have hresolver : (before resolver .abstract).resolver = resolver := rfl
  rw [hread, hresolver, lastWrite?_eq_lastUpdate? htargets hslot]
  cases hlast : lastUpdate? updates item.name with
  | none =>
      rw [postValue_of_not_updated rfl happly hlast,
        storedValue_pre (sameBefore_of_apply happly) hslot, wrap_interpret]
      rfl
  | some update =>
      have hplain := hsettled.2 rfl update hlast
      obtain ⟨term, hterm⟩ := exists_expr_of_updates hstore update (mem_of_lastUpdate? hlast)
      obtain ⟨word, hword, hnumber⟩ :=
        (standsFor_plain hvalues happly hlast hplain).operand term hplain hterm
      rw [hnumber, Word.wrap_toInteger, ← hword, eval_newWord hterm]
      rfl

theorem reflects_settled :
    (after resolver updates store).Reflects assignment valuation (settled resolver updates) :=
  reflects_withPost rfl rfl (sameBefore_of_apply happly) (fun _ _ hsettled => hsettled.1)
    (fun _ _ hsettled hslot => read_settled hstore htargets hvalues happly hsettled hslot)
    (fun _ _ hlast => postValue_of_not_updated rfl happly hlast)
    fun _ update hsettled hlast =>
      standsFor_plain hvalues happly hlast (hsettled.2 rfl update hlast)

-- A variable that is updated is judged by its new value before the transition, and everything else
-- by the storage after it.
theorem denotes_of_not_conditional (hsize : type.isWellSized = true)
    (hwidth : type.integerWidth = some width) (hbuilt : value.BuiltFrom (readingAfter resolver))
    (hplain : (unfolded updates value).isConditional = false)
    (h : (after resolver updates store).range type width value = .ok lowered) :
    ∃ integer, value.eval valuation = .ok integer ∧
      lowered.Denotes assignment (type.holds integer) := by
  have hreflects := reflects_settled hstore htargets hvalues happly
  cases value with
  | lit | var | env => exact denotes_leaf hreflects hsize hwidth trivial rfl h
  | arithmetic op left right =>
      obtain ⟨hop, ⟨hl, hr⟩, _⟩ := range_arithmetic_eq_ok.mp h
      exact denotes_leaf hreflects hsize hwidth
        ⟨builtFrom_settled hl hbuilt.1, builtFrom_settled hr hbuilt.2⟩
        (IntExpr.eval_arithmetic hop (eval_of_isOperand _ hl) (eval_of_isOperand _ hr)) h
  | entry timing item =>
      cases timing with
      | pre =>
          exact denotes_leaf hreflects hsize hwidth ⟨hbuilt, fun hpost => by cases hpost⟩ rfl h
      | post =>
          cases hlast : lastUpdate? updates item.name with
          | none =>
              refine denotes_leaf hreflects hsize hwidth ⟨hbuilt, fun _ update hupdate => ?_⟩ rfl h
              rw [hlast] at hupdate
              cases hupdate
          | some update =>
              have hnew : update.value.isConditional = false := by
                rw [unfolded, hlast] at hplain
                exact hplain
              rw [after, range, replacement?, update?_withPost, hlast] at h
              obtain ⟨seen, hseen, hdenotes⟩ : ∃ seen,
                  (update.value.arm ((before resolver .abstract).sees assignment)).eval
                    (.ofStorage assignment resolver) = .ok seen ∧
                  lowered.Denotes assignment (type.holds seen) :=
                denotes_arm hsize hwidth update.value (hvalues update (mem_of_lastUpdate? hlast)) h
              rw [IntExpr.arm_of_not_isConditional _ hnew,
                eval_of_lastUpdate? rfl happly hlast] at hseen
              exact ⟨_, rfl, Except.ok.inj hseen ▸ hdenotes⟩
  | ite => cases hplain

end After

-- A lowered range fact about an atom, a literal or a single operation holds of the words exactly if
-- the unbounded integer is in the range. This is so in the state after a transition as well, even
-- where the integer or some new value does not fit in a word.
theorem operation_range_exact
    (hstore : (before resolver .abstract).updates .abstract updates = .ok store)
    (hlower : (after resolver updates store).cond (.inRange type value) = .ok lowered)
    (hsize : type.isWellSized = true) (htargets : ∀ update ∈ updates, resolver.Lists update.item)
    (hvalues : ∀ update ∈ updates, update.value.BuiltFrom (readingBefore resolver))
    (hbuilt : value.BuiltFrom (readingAfter resolver))
    (hplain : (unfolded updates value).isConditional = false) (assignment : Assignment)
    (happly : (Valuation.ofStorage assignment resolver).apply updates = .ok valuation) :
    ∃ low high integer, type.integerRange = some (low, high) ∧
      value.eval valuation = .ok integer ∧
      lowered.holds assignment = .ok (decide (low ≤ integer ∧ integer < high)) := by
  rw [cond] at hlower
  split at hlower
  · next width hwidth =>
      obtain ⟨integer, heval, hdenotes⟩ := denotes_of_not_conditional hstore htargets hvalues happly
        hsize hwidth hbuilt hplain hlower
      have hrange := (AbiType.integerRange_isSome_iff type).mpr (by rw [hwidth]; rfl)
      obtain ⟨⟨low, high⟩, hrange⟩ := Option.isSome_iff_exists.mp hrange
      refine ⟨low, high, integer, hrange, heval, hdenotes.1.trans ?_⟩
      rw [AbiType.holds, hrange, Option.any_some, Bool.decide_and]
  · cases hlower

-- The amount and the balance add up to one more than a word holds.
def accountOverflow : Assignment :=
  ⟨.ofList [("amount", Word.max), ("change", 0)], .empty, 0, .ofList [(0, 1)]⟩

def accountOverflowed : Valuation :=
  { Valuation.ofStorage accountOverflow accountResolver with
    post := .ofList [("balance", 2 ^ 256), ("drift", 0)] }

theorem settle_builtFrom : ∀ update ∈ accountSettle.storageUpdates,
    accountResolver.Lists update.item ∧
      update.value.BuiltFrom (readingBefore accountResolver) := by
  have hbalance : accountResolver.Lists accountBalance := ⟨0, by decide⟩
  have hdrift : accountResolver.Lists accountDrift := ⟨1, by decide⟩
  rintro update (_ | ⟨_, _ | ⟨_, hnil⟩⟩)
  · exact ⟨hbalance, ⟨rfl, hbalance⟩, trivial⟩
  · exact ⟨hdrift, ⟨rfl, hdrift⟩, trivial⟩
  · exact nomatch hnil

-- The word of the new balance is zero, but the fact about the new balance does not hold.
theorem operation_range_exact_account :
    ∃ store lowered,
      (before accountResolver .abstract).updates .abstract accountSettle.storageUpdates =
        .ok store ∧
      (after accountResolver accountSettle.storageUpdates store).cond
        (.inRange .uint256 (.post accountBalance)) = .ok lowered ∧
      (Valuation.ofStorage accountOverflow accountResolver).apply accountSettle.storageUpdates =
        .ok accountOverflowed ∧
      (IntExpr.post accountBalance).eval accountOverflowed = .ok (2 ^ 256) ∧
      lowered.holds accountOverflow = .ok false := by
  have hbuilt : (IntExpr.post accountBalance).BuiltFrom (readingAfter accountResolver) :=
    show accountResolver.Lists accountBalance from ⟨0, by decide⟩
  have hplain : (unfolded accountSettle.storageUpdates (.post accountBalance)).isConditional =
      false := by
    decide +kernel
  have happly : (Valuation.ofStorage accountOverflow accountResolver).apply
      accountSettle.storageUpdates = .ok accountOverflowed := by
    decide +kernel
  have hvalue : (IntExpr.post accountBalance).eval accountOverflowed = .ok (2 ^ 256) := by
    decide +kernel
  obtain ⟨store, hstore⟩ : ∃ store, (before accountResolver .abstract).updates .abstract
      accountSettle.storageUpdates = .ok store := ⟨_, rfl⟩
  obtain ⟨lowered, hlower⟩ : ∃ lowered,
      (after accountResolver accountSettle.storageUpdates store).cond
        (.inRange .uint256 (.post accountBalance)) = .ok lowered := ⟨_, rfl⟩
  obtain ⟨low, high, integer, hrange, heval, hholds⟩ := operation_range_exact hstore hlower
    (by decide) (fun update hupdate => (settle_builtFrom update hupdate).1)
    (fun update hupdate => (settle_builtFrom update hupdate).2) hbuilt hplain accountOverflow
    happly
  obtain ⟨rfl, rfl⟩ := Prod.mk.inj (Option.some.inj hrange)
  obtain rfl := Except.ok.inj (hvalue.symm.trans heval)
  exact ⟨store, lowered, hstore, hlower, happly, hvalue, hholds⟩

end Lowerer

end SpecRecovery
