import SpecRecovery.Proofs.Assembly.Shape
import SpecRecovery.Proofs.Enrichment.Facts
import SpecRecovery.Proofs.Lowering.Refinement
import SpecRecovery.Proofs.Spec.Storage

namespace SpecRecovery

open Machine Spec

theorem Environment.integerRange_isSome (value : Environment) :
    value.type.integerRange.isSome = true := by
  cases value <;> rfl

namespace Spec

variable {resolver : Resolver} {behaviour : Behaviour} {initial valuation : Valuation}
  {interface : Interface} {exprs : List Expr} {fact : BoolExpr}

theorem BoolExpr.eval_storage_inRange {item : StorageItem} (timing : Timing)
    (hrange : item.type.integerRange.isSome = true) :
    (BoolExpr.inRange item.type (.entry timing item)).eval valuation =
      .ok (item.type.holds (valuation.storedValue timing item.name)) := by
  cases timing with
  | pre => exact BoolExpr.eval_inRange hrange rfl
  | post => exact BoolExpr.eval_inRange hrange rfl

-- A range fact about an atom always has a truth.
theorem TypeFact.exists_eval (h : TypeFact interface exprs fact) (valuation : Valuation) :
    ∃ truth, fact.eval valuation = .ok truth := by
  cases h with
  | argument _ hrange => exact ⟨_, BoolExpr.eval_inRange hrange rfl⟩
  | @environment value _ => exact ⟨_, BoolExpr.eval_inRange value.integerRange_isSome rfl⟩
  | stored _ hrange timing => exact ⟨_, BoolExpr.eval_storage_inRange timing hrange⟩

-- What the facts say about the state before holds of well typed inputs, and what they say about the
-- state after is left to be shown.
theorem TypeFact.holds_of_wellTyped (h : TypeFact interface exprs fact)
    (htyped : initial.WellTyped resolver interface) (hbefore : SameBefore valuation initial)
    (hlists : ∀ timing item, (IntExpr.entry timing item).MentionedIn exprs → resolver.Lists item)
    (hafter : ∀ timing item, (IntExpr.entry timing item).MentionedIn exprs →
      item.type.integerRange.isSome = true →
      item.type.holds (valuation.postValue item.name) = true) :
    fact.eval valuation = .ok true := by
  obtain ⟨hcalldata, henvironment, hpre⟩ := hbefore
  cases h with
  | @argument argument hargument hrange =>
      have hholds := htyped.arguments argument hargument hrange
      rw [Valuation.variableWord, ← hcalldata] at hholds
      rw [← hholds]
      exact BoolExpr.eval_inRange hrange rfl
  | @environment value _ =>
      have hholds := htyped.environment value
      rw [Valuation.environmentWord, ← henvironment] at hholds
      rw [← hholds]
      exact BoolExpr.eval_inRange value.integerRange_isSome rfl
  | @stored mentioned item hmentioned hrange timing =>
      rw [BoolExpr.eval_storage_inRange timing hrange]
      cases timing with
      | pre =>
          obtain ⟨slot, hslot⟩ := hlists mentioned item hmentioned
          have hholds := htyped.stored slot item hslot hrange
          rw [Valuation.preValue, ← hpre] at hholds
          exact congrArg Except.ok hholds
      | post => exact congrArg Except.ok (hafter mentioned item hmentioned hrange)

-- An assembled behaviour reads nothing but variables with a slot for themselves.
theorem Behaviour.WellShaped.lists_of_mentioned (h : behaviour.WellShaped resolver)
    {timing : Timing} {item : StorageItem}
    (hmentioned : (IntExpr.entry timing item).MentionedIn behaviour.exprs) :
    resolver.Lists item :=
  (h.expressions.atoms _ (Behaviour.mem_reads_iff.mpr hmentioned)).2

-- On well typed inputs, enriching a behaviour only asks of the new values that they inhabit the
-- types of the variables that are read.
theorem Behaviour.WellShaped.enrich_holds_iff (h : behaviour.WellShaped resolver)
    (htyped : initial.WellTyped resolver behaviour.interface)
    (hbefore : SameBefore valuation initial) :
    (∀ value ∈ behaviour.enrich.preconditions, value.eval valuation = .ok true) ↔
      (∀ value ∈ behaviour.preconditions, value.eval valuation = .ok true) ∧
        ∀ timing item, (IntExpr.entry timing item).MentionedIn behaviour.exprs →
          item.type.integerRange.isSome = true →
          item.type.holds (valuation.postValue item.name) = true := by
  obtain ⟨added, hadds⟩ := behaviour.adds_enrich
  constructor
  · intro hall
    constructor
    · intro value hvalue
      refine hall value ?_
      rw [hadds.appended]
      exact List.mem_append_left added hvalue
    · intro timing item hmentioned hrange
      have hholds := hall _ (hadds.complete _ (.stored hmentioned hrange .post))
      rw [BoolExpr.eval_storage_inRange .post hrange] at hholds
      exact Except.ok.inj hholds
  · rintro ⟨hold, hafter⟩ value hvalue
    rw [hadds.appended, List.mem_append] at hvalue
    rcases hvalue with hvalue | hnew
    · exact hold value hvalue
    · exact ((hadds.mem_added value).mp hnew).1.holds_of_wellTyped htyped hbefore
        (fun _ _ => h.lists_of_mentioned) hafter

end Spec

-- The verifier takes it that all inputs are well typed, as the layout declares them, and enriching
-- says so of what a behaviour reads. For a recovered behaviour the two agree: whenever new values
-- can be computed from well typed inputs, the preconditions that are added have truths, and all
-- they ask is that the new values of the variables that are read inhabit their types.
theorem enriched_constrains_only_after {idioms : Idioms} {summary : ContractSummary}
    {assembly : Assembly} {specification : Specification} {resolver : Resolver} {index : Nat}
    {behaviour enriched : Behaviour} {assignment : Assignment} {valuation : Valuation}
    (hassembly : summary.assemble idioms = .ok assembly)
    (hspecification : assembly.specification = .ok specification)
    (hresolver : Resolver.ofLayout summary.name summary.layout = .ok resolver)
    (hbehaviour : specification.behaviours[index]? = some behaviour)
    (henriched : specification.enrich.behaviours[index]? = some enriched)
    (htyped : (Valuation.ofStorage assignment resolver).WellTyped resolver behaviour.interface)
    (happly : (Valuation.ofStorage assignment resolver).apply behaviour.storageUpdates =
      .ok valuation) :
    ((∀ value ∈ behaviour.preconditions, ∃ truth, value.eval valuation = .ok truth) →
      ∀ value ∈ enriched.preconditions, ∃ truth, value.eval valuation = .ok truth) ∧
    ((∀ value ∈ enriched.preconditions, value.eval valuation = .ok true) ↔
      (∀ value ∈ behaviour.preconditions, value.eval valuation = .ok true) ∧
        ∀ timing item, (IntExpr.entry timing item).MentionedIn behaviour.exprs →
          item.type.integerRange.isSome = true →
          item.type.holds (valuation.postValue item.name) = true) := by
  obtain ⟨other, method, recovered, hother, hyields, hmem⟩ :=
    exists_of_mem_behaviours hassembly hspecification (List.mem_of_getElem? hbehaviour)
  obtain rfl := Except.ok.inj (hresolver.symm.trans hother)
  have hshaped := Assembling.wellShaped_of_behaviours hyields behaviour hmem
  have hsame : enriched = behaviour.enrich := by
    rw [Specification.enrich, List.getElem?_map, hbehaviour] at henriched
    exact (Option.some.inj henriched).symm
  subst hsame
  refine ⟨fun hevaluates value hvalue => ?_,
    hshaped.enrich_holds_iff htyped (Lowerer.sameBefore_of_apply happly)⟩
  obtain ⟨added, hadds⟩ := behaviour.adds_enrich
  rw [hadds.appended, List.mem_append] at hvalue
  rcases hvalue with hvalue | hnew
  · exact hevaluates value hvalue
  · exact ((hadds.mem_added value).mp hnew).1.exists_eval valuation

-- The account has room for the deposit, but its count of deposits is full.
def accountResolver : Resolver := ⟨"Account", accountSummary.layout, by decide, by decide⟩

def fullAccount : Assignment :=
  { Assignment.empty with
    calldata := .ofList [("amount", 5)]
    storage := .ofList [(1, Word.max)] }

def fullAfter : Valuation :=
  { Valuation.ofStorage fullAccount accountResolver with
    post := .ofList [("balance", 5), ("deposits", twoTo 256)] }

theorem wellTyped_fullAccount :
    (Valuation.ofStorage fullAccount accountResolver).WellTyped accountResolver
      accountDeposit.interface where
  arguments := by decide +kernel
  environment value := by cases value <;> decide +kernel
  stored slot item hlisted _ := by
    have hall : ∀ entry ∈ accountResolver.resolvable, entry.2.type.holds
        ((Valuation.ofStorage fullAccount accountResolver).preValue entry.2.name) = true := by
      decide +kernel
    exact hall (slot, item) hlisted

theorem enriched_constrains_only_after_account :
    ∃ assembly, accountSummary.assemble .all = .ok assembly ∧
      assembly.specification = .ok accountSpecification ∧
      Resolver.ofLayout accountSummary.name accountSummary.layout = .ok accountResolver ∧
      accountSpecification.behaviours[0]? = some accountDeposit ∧
      accountSpecification.enrich.behaviours[0]? = some accountDeposit.enrich ∧
      (Valuation.ofStorage fullAccount accountResolver).WellTyped accountResolver
        accountDeposit.interface ∧
      (Valuation.ofStorage fullAccount accountResolver).apply accountDeposit.storageUpdates =
        .ok fullAfter ∧
      (∀ value ∈ accountDeposit.preconditions, value.eval fullAfter = .ok true) ∧
      ¬∀ value ∈ accountDeposit.enrich.preconditions, value.eval fullAfter = .ok true := by
  have hrun : ((accountSummary.assemble .all).toOption.bind fun assembly =>
      assembly.specification.toOption) = some accountSpecification := by decide +kernel
  obtain ⟨assembly, hassembly, hspecification⟩ := Option.bind_eq_some_iff.mp hrun
  rw [toOption_eq_some] at hassembly hspecification
  have happly : (Valuation.ofStorage fullAccount accountResolver).apply
      accountDeposit.storageUpdates = .ok fullAfter := by decide +kernel
  have hholds : ∀ value ∈ accountDeposit.preconditions, value.eval fullAfter = .ok true := by
    decide +kernel
  have hbehaviour : accountSpecification.behaviours[0]? = some accountDeposit := rfl
  have henriched : accountSpecification.enrich.behaviours[0]? = some accountDeposit.enrich := rfl
  refine ⟨assembly, hassembly, hspecification, rfl, hbehaviour, henriched, wellTyped_fullAccount,
    happly, hholds, fun hall => ?_⟩
  have hafter := ((enriched_constrains_only_after hassembly hspecification rfl hbehaviour henriched
    wellTyped_fullAccount happly).2.mp hall).2
  have hmentioned : (IntExpr.entry .pre accountDeposits).MentionedIn accountDeposit.exprs :=
    Behaviour.mem_reads_iff.mp (by decide +kernel)
  exact absurd (hafter .pre accountDeposits hmentioned rfl) (by decide +kernel)

end SpecRecovery
