import SpecRecovery.Exploration.Query
import SpecRecovery.Failure.Report

namespace SpecRecovery

open Machine

structure MethodSummary where
  method : Method
  branches : List Branch

-- An entry point that has no paths to rely on leaves the others alone.
structure ContractSummary where
  name : String
  layout : Layout
  constructor : Interface
  creation : Except LocatedFailure (List Branch)
  runtime : List (EntryPoint × Except LocatedFailure MethodSummary)

def failure? {ε α : Type} : Except ε α → Option ε
  | .error error => some error
  | .ok _ => none

namespace ContractSummary

def method? (summary : ContractSummary) (signature : String) : Option MethodSummary :=
  (summary.runtime.filterMap fun entry => entry.2.toOption).find? fun method =>
    method.method.signature == signature

def failures (summary : ContractSummary) : List LocatedFailure :=
  (failure? summary.creation).toList ++ summary.runtime.filterMap fun entry => failure? entry.2

def report (summary : ContractSummary) : FailureReport :=
  FailureReport.empty.addAll summary.failures

end ContractSummary

namespace Contract

def summarizeCreation (explorer : Explorer) (contract : Contract) :
    Except ExplorationError (List Branch) := do
  (← Exploration.ofCreation explorer contract).branches

def summarizeMethod (explorer : Explorer) (contract : Contract) (method : Method) :
    Except ExplorationError MethodSummary := do
  return ⟨method, ← (← Exploration.ofMethod explorer contract method).branches⟩

def locate {α : Type} (entry : EntryPoint) (result : Except ExplorationError α) :
    Except LocatedFailure α :=
  result.mapError fun error => ⟨entry, .exploration error⟩

def summarize (explorer : Explorer) (contract : Contract) : ContractSummary where
  name := contract.name
  layout := contract.layout
  constructor := contract.constructor
  creation := locate .constructor (contract.summarizeCreation explorer)
  runtime := contract.methods.map fun method =>
    let entry := EntryPoint.ofMethod method
    (entry, locate entry (contract.summarizeMethod explorer method))

def explorations (explorer : Explorer) (contract : Contract) : List Exploration :=
  (Exploration.ofCreation explorer contract).toOption.toList ++
    contract.methods.filterMap fun method =>
      (Exploration.ofMethod explorer contract method).toOption

end Contract

end SpecRecovery
