import SpecRecovery.Contract
import SpecRecovery.Enrichment
import SpecRecovery.Exploration.Summary
import SpecRecovery.Lowering.Lowerer

namespace SpecRecovery

namespace Verification

open Machine Spec

def underAll (conditions : List Cond) (branches : List Branch) : List Branch :=
  branches.map fun branch => branch.under conditions

-- The facts that both sides of a query may rely on: that the arguments, the environment and what is
-- stored before inhabit their types.
def assumptions (lowerer : Lowerer) (interface : Interface) (stored : List StorageItem) :
    Except VerificationError (List Cond) :=
  lowerer.conditions <|
    argumentFacts interface ++ Environment.all.map environmentFact ++
      stored.map fun item => .inRange item.type (.pre item)

structure EquivalenceQuery where
  specified : List Branch
  explored : List Branch

def constructorQuery (resolver : Resolver) (contract : Contract) (creation : List Branch)
    (specification : Specification) : Except VerificationError EquivalenceQuery := do
  let constructor := specification.constructor
  let specified ← Lowerer.constructorBranch resolver constructor contract.runtimeCode
  let assumed ← assumptions (.before resolver .empty) contract.constructor []
  return ⟨underAll assumed [specified], underAll assumed creation⟩

-- The behaviours of a method are compared only where its selector is called.
def methodQuery (resolver : Resolver) (summary : MethodSummary) (specification : Specification) :
    Except VerificationError EquivalenceQuery := do
  let method := summary.method
  let behaviours := specification.behavioursOf method.signature
  let specified ← behaviours.mapM (Lowerer.behaviourBranch resolver)
  let stored := resolver.resolvable.map Prod.snd
  let typed ← assumptions (.before resolver .abstract) method.interface stored
  let assumed := typed ++ [.eqWords .selector (.lit method.selector.toWord)]
  return ⟨underAll assumed specified, underAll assumed summary.branches⟩

end Verification

open Machine Spec

-- Whether a behaviour covers every selector that the running code answers to. The selectors without
-- one ascend.
inductive Coverage
  | covered
  | missing (selectors : List Selector)
deriving DecidableEq

def Coverage.selectors : Coverage → List Selector
  | covered => []
  | missing selectors => selectors

-- A procedure that decides queries, and always gives the same answer to one.
structure Solver where
  equivalence : List Branch → List Branch → Except VerificationError (Option Counterexample)
  exhaustiveness : List Selector → List State → Except VerificationError Coverage

inductive Check
  | omitted (failure : LocatedFailure)
  | compared (entry : EntryPoint) (result : Except VerificationError Unit)

namespace Check

def checked? : Check → Option EntryPoint
  | compared entry (.ok _) => some entry
  | _ => none

def failure? : Check → Option LocatedFailure
  | omitted failure => some failure
  | compared entry (.error error) => some ⟨entry, .verification error⟩
  | compared _ (.ok _) => none

-- A specification that has no machine terms is not compared with anything.
def event? : Check → Option Event
  | omitted _ => none
  | compared entry (.ok _) => some (.equivalenceChecked entry true)
  | compared _ (.error (.uncompilable _)) => none
  | compared _ (.error (.literalOutOfRange _)) => none
  | compared entry (.error _) => some (.equivalenceChecked entry false)

end Check

structure CoverageCheck where
  exploration : Exploration
  answer : Except Failure Coverage

namespace CoverageCheck

def failure? (check : CoverageCheck) : Option LocatedFailure :=
  match check.answer with
  | .error failure => some ⟨.runtime, failure⟩
  | .ok (.missing selectors) => some ⟨.runtime, .verification (.missingSelectors selectors)⟩
  | .ok .covered => none

def events (check : CoverageCheck) : List Event :=
  check.exploration.events ++
    match check.answer with
    | .ok coverage => [.exhaustivenessChecked coverage.selectors.length]
    | .error _ => []

end CoverageCheck

structure VerificationReport where
  checked : List EntryPoint
  coverage : Option Coverage

structure Verification where
  checks : List Check
  coverage : Option CoverageCheck

namespace Verification

def failures (verification : Verification) : List LocatedFailure :=
  verification.checks.filterMap Check.failure? ++
    (verification.coverage.bind CoverageCheck.failure?).toList

def events (verification : Verification) : List Event :=
  verification.checks.filterMap Check.event? ++
    (verification.coverage.map CoverageCheck.events).getD []

def explorations (verification : Verification) : List Exploration :=
  verification.coverage.toList.map CoverageCheck.exploration

def outcome (verification : Verification) : Except FailureReport VerificationReport :=
  if verification.failures.isEmpty then
    .ok {
      checked := verification.checks.filterMap Check.checked?
      coverage := verification.coverage.bind fun check => check.answer.toOption }
  else .error (FailureReport.empty.addAll verification.failures)

def compare (solver : Solver) (query : Except VerificationError EquivalenceQuery) :
    Except VerificationError Unit := do
  let query ← query
  match ← solver.equivalence query.specified query.explored with
  | none => return
  | some found => throw (.counterexample found)

def checkConstructor (solver : Solver) (resolver : Resolver) (contract : Contract)
    (specification : Specification) : Except LocatedFailure (List Branch) → Check
  | .error failure => .omitted failure
  | .ok creation =>
      .compared .constructor
        (compare solver (constructorQuery resolver contract creation specification))

def checkMethod (solver : Solver) (resolver : Resolver) (specification : Specification) :
    EntryPoint × Except LocatedFailure MethodSummary → Check
  | (_, .error failure) => .omitted failure
  | (entry, .ok summary) =>
      .compared entry (compare solver (methodQuery resolver summary specification))

-- Explores the running code as a whole. A selector counts as covered as soon as one behaviour has
-- it.
def checkCoverage (explorer : Explorer) (solver : Solver) (contract : Contract)
    (specification : Specification) : CoverageCheck :=
  let exploration := Exploration.ofRuntime explorer contract
  let selectors := specification.behaviours.map fun behaviour => behaviour.interface.selector
  let answer :=
    match exploration.states with
    | .error error => .error (.exploration error)
    | .ok states => (solver.exhaustiveness selectors.eraseDups states).mapError .verification
  ⟨exploration, answer⟩

end Verification

namespace Specification

-- Checks a specification against the bytecode that it was recovered from. A layout that cannot be
-- resolved leaves nothing to check anywhere.
def verify (explorer : Explorer) (solver : Solver) (checkExhaustiveness : Bool)
    (contract : Contract) (summary : ContractSummary) (specification : Specification) :
    Verification :=
  match Resolver.ofLayout summary.name summary.layout with
  | .error error =>
      ⟨contract.entryPoints.map fun entry => .omitted ⟨entry, .storage error⟩, none⟩
  | .ok resolver =>
      let constructor :=
        Verification.checkConstructor solver resolver contract specification summary.creation
      let methods := summary.runtime.map (Verification.checkMethod solver resolver specification)
      let coverage :=
        if checkExhaustiveness then
          some (Verification.checkCoverage explorer solver contract specification)
        else none
      ⟨constructor :: methods, coverage⟩

end Specification

end SpecRecovery
