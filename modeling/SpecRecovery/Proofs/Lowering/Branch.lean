import SpecRecovery.Proofs.Lowering.Signedness
import SpecRecovery.Proofs.Lowering.State
import SpecRecovery.Proofs.Machine.ReadWord

namespace SpecRecovery.Lowerer

open Machine Spec

-- The lowerer for what a behaviour says about both states.
def after (resolver : Resolver) (updates : List StorageUpdate) (store : Store) : Lowerer :=
  (before resolver .abstract).withPost store updates

-- What a method returns is one word or nothing.
def Returns (lowerer : Lowerer) : Option IntExpr → Buffer → Prop
  | some value, returned =>
      ∃ term, lowerer.expr value = .ok term ∧ returned = Buffer.ofWord term
  | none, returned => returned = Buffer.empty

theorem behaviourBranch_eq_ok {resolver : Resolver} {behaviour : Behaviour} {branch : Branch} :
    behaviourBranch resolver behaviour = .ok branch ↔
      ∃ store conditions returned,
        (before resolver .abstract).updates .abstract behaviour.storageUpdates = .ok store ∧
        (after resolver behaviour.storageUpdates store).conditions behaviour.preconditions =
          .ok conditions ∧
        (after resolver behaviour.storageUpdates store).Returns behaviour.returns returned ∧
        branch = .ofStore conditions returned store := by
  unfold behaviourBranch
  constructor
  · intro h
    obtain ⟨store, hstore, h⟩ := bind_eq_ok.mp h
    obtain ⟨conditions, hconditions, h⟩ := bind_eq_ok.mp h
    cases hreturns : behaviour.returns with
    | none =>
        rw [hreturns] at h
        exact ⟨store, conditions, _, hstore, hconditions, rfl, (Except.ok.inj h).symm⟩
    | some value =>
        rw [hreturns] at h
        obtain ⟨term, hterm, h⟩ := bind_eq_ok.mp h
        exact ⟨store, conditions, _, hstore, hconditions, ⟨term, hterm, rfl⟩,
          (Except.ok.inj h).symm⟩
  · rintro ⟨store, conditions, returned, hstore, hconditions, hreturned, rfl⟩
    refine bind_eq_ok.mpr ⟨store, hstore, bind_eq_ok.mpr ⟨conditions, hconditions, ?_⟩⟩
    cases hreturns : behaviour.returns with
    | none =>
        rw [hreturns] at hreturned
        obtain rfl : returned = Buffer.empty := hreturned
        rfl
    | some value =>
        rw [hreturns] at hreturned
        obtain ⟨term, hterm, rfl⟩ := hreturned
        exact bind_eq_ok.mpr ⟨term, hterm, rfl⟩

-- The lowerer for what a constructor says about the storage that it leaves behind.
def created (resolver : Resolver) (updates : List StorageUpdate) (store : Store) : Lowerer :=
  (before resolver .empty).withPost store updates

theorem constructorBranch_eq_ok {resolver : Resolver} {constructor : Constructor}
    {code : List UInt8} {branch : Branch} :
    constructorBranch resolver constructor code = .ok branch ↔
      ∃ store conditions,
        (before resolver .empty).updates .empty constructor.initialStorage = .ok store ∧
        (created resolver constructor.initialStorage store).conditions
          constructor.preconditions = .ok conditions ∧
        branch = .ofStore conditions (.concrete code) store := by
  unfold constructorBranch
  constructor
  · intro h
    obtain ⟨store, hstore, h⟩ := bind_eq_ok.mp h
    obtain ⟨conditions, hconditions, h⟩ := bind_eq_ok.mp h
    exact ⟨store, conditions, hstore, hconditions, (Except.ok.inj h).symm⟩
  · rintro ⟨store, conditions, hstore, hconditions, rfl⟩
    exact bind_eq_ok.mpr ⟨store, hstore, bind_eq_ok.mpr ⟨conditions, hconditions, rfl⟩⟩

theorem entrypointStore?_ofStore (conditions : List Cond) (returned : Buffer) (store : Store) :
    (Branch.ofStore conditions returned store).entrypointStore? = some store := by
  rw [Branch.entrypointStore?, Branch.ofStore, Table.find?_insert]
  simp

variable {lowerer : Lowerer} {assignment : Assignment} {valuation : Valuation}
  {known : Timing → StorageItem → Prop}

-- What holds trivially is left out, so that the rest holds exactly if all do.
theorem allHold_conditions (hreflects : lowerer.Reflects assignment valuation known)
    {preconditions : List BoolExpr} {conditions : List Cond}
    (hbuilt : ∀ value ∈ preconditions, value.BuiltFrom (reading known))
    (h : lowerer.conditions preconditions = .ok conditions) :
    ∃ truth, allHold assignment conditions = .ok truth ∧
      (truth = true ↔ ∀ value ∈ preconditions, value.truth valuation = true) := by
  obtain ⟨lowered, hlowered, h⟩ := bind_eq_ok.mp h
  obtain rfl := Except.ok.inj h
  obtain ⟨hlower, hsource⟩ := exists_of_forall₂ (mapM_eq_ok.mp hlowered)
  have hholds : ∀ value ∈ preconditions, ∀ cond, lowerer.cond value = .ok cond →
      cond.holds assignment = .ok (value.truth valuation) :=
    fun value hvalue cond hcond => (denotes_of_cond hreflects value (hbuilt value hvalue) hcond).1
  have hexists : ∀ cond ∈ lowered.filter (· != .bool true),
      ∃ truth, cond.holds assignment = .ok truth := by
    intro cond hcond
    obtain ⟨value, hvalue, hsame⟩ := hsource cond (List.mem_of_mem_filter hcond)
    exact ⟨_, hholds value hvalue cond hsame⟩
  obtain ⟨truth, htruth, hiff⟩ := allHold_eq_ok hexists
  refine ⟨truth, htruth, hiff.trans ⟨fun hall value hvalue => ?_, fun hall cond hcond => ?_⟩⟩
  · obtain ⟨cond, hcond, hsame⟩ := hlower value hvalue
    have hvalueHolds := hholds value hvalue cond hsame
    by_cases htrivial : cond = .bool true
    · rw [htrivial] at hvalueHolds
      exact (Except.ok.inj hvalueHolds).symm
    · have hkept := hall cond (List.mem_filter.mpr ⟨hcond, bne_iff_ne.mpr htrivial⟩)
      exact Except.ok.inj (hvalueHolds.symm.trans hkept)
  · obtain ⟨value, hvalue, hsame⟩ := hsource cond (List.mem_of_mem_filter hcond)
    rw [hholds value hvalue cond hsame, hall value hvalue]

theorem exists_expr_of_updates {updates : List StorageUpdate} {base store : Store}
    (h : lowerer.updates base updates = .ok store) :
    ∀ update ∈ updates, ∃ term, lowerer.expr update.value = .ok term := by
  induction updates generalizing base with
  | nil => exact fun _ hmem => nomatch hmem
  | cons update rest ih =>
      obtain ⟨_, term, _, hterm, h⟩ := updates_cons_eq_ok.mp h
      exact List.forall_mem_cons.mpr ⟨⟨term, hterm⟩, ih h⟩

theorem bytes_of_returns (hreflects : lowerer.Reflects assignment valuation known)
    {value : IntExpr} {returned : Buffer} (hbuilt : value.BuiltFrom (reading known))
    (h : lowerer.Returns (some value) returned) :
    returned.bytes assignment = .ok (value.word valuation).toBytes := by
  obtain ⟨term, hterm, rfl⟩ := h
  exact bytes_ofWord (eval_of_expr hreflects value hbuilt hterm)

end SpecRecovery.Lowerer
