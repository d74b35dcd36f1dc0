import SpecRecovery.Proofs.Failure.Report
import SpecRecovery.Proofs.Result
import SpecRecovery.Verification.Basic

namespace SpecRecovery.Verification

open Machine Spec

variable (explorer : Explorer) (solver : Solver) (checkExhaustiveness : Bool) (contract : Contract)
  (summary : ContractSummary) (specification : Specification) (resolver : Resolver)

-- Whether the creation code was summarized and the constructor agrees with it.
def constructorResult : Except LocatedFailure Unit := do
  let creation ← summary.creation
  (compare solver (constructorQuery resolver contract creation specification)).mapError
    fun error => ⟨.constructor, .verification error⟩

-- Whether a method was summarized and its behaviours agree with the paths through it.
def methodResult (entry : EntryPoint × Except LocatedFailure MethodSummary) :
    Except LocatedFailure Unit := do
  let method ← entry.2
  (compare solver (methodQuery resolver method specification)).mapError
    fun error => ⟨entry.1, .verification error⟩

-- Whether every selector that the running code answers to is that of a behaviour.
def coverageResult : Except LocatedFailure Unit :=
  match (checkCoverage explorer solver contract specification).answer with
  | .ok .covered => return
  | .ok (.missing selectors) => throw ⟨.runtime, .verification (.missingSelectors selectors)⟩
  | .error failure => throw ⟨.runtime, failure⟩

-- The results of everything that is tried, in order.
def results : List (Except LocatedFailure Unit) :=
  constructorResult solver contract summary specification resolver ::
    summary.runtime.map (methodResult solver specification resolver) ++
      if checkExhaustiveness then [coverageResult explorer solver contract specification] else []

-- The failures among them, each once.
def arisen : List LocatedFailure :=
  (results explorer solver checkExhaustiveness contract summary specification resolver).filterMap
    failure?

-- Everything was summarized, agrees with the bytecode, and is covered where that is checked.
structure Passes : Prop where
  creation : ∃ creation, summary.creation = .ok creation ∧
    compare solver (constructorQuery resolver contract creation specification) = .ok ()
  methods : ∀ entry result, (entry, result) ∈ summary.runtime → ∃ method, result = .ok method ∧
    compare solver (methodQuery resolver method specification) = .ok ()
  coverage : checkExhaustiveness = true →
    (checkCoverage explorer solver contract specification).answer = .ok .covered

section Results

variable {explorer solver checkExhaustiveness contract summary specification resolver}

theorem failure?_eq_none_iff {α : Type} {result : Except α Unit} :
    failure? result = none ↔ result = .ok () := by
  cases result with
  | error reason => exact ⟨nofun, nofun⟩
  | ok => exact ⟨fun _ => rfl, fun _ => rfl⟩

theorem constructorResult_eq_ok :
    constructorResult solver contract summary specification resolver = .ok () ↔
      ∃ creation, summary.creation = .ok creation ∧
        compare solver (constructorQuery resolver contract creation specification) = .ok () := by
  simp only [constructorResult, bind_eq_ok, mapError_eq_ok]

theorem methodResult_eq_ok {entry : EntryPoint × Except LocatedFailure MethodSummary} :
    methodResult solver specification resolver entry = .ok () ↔
      ∃ method, entry.2 = .ok method ∧
        compare solver (methodQuery resolver method specification) = .ok () := by
  simp only [methodResult, bind_eq_ok, mapError_eq_ok]

theorem coverageResult_eq_ok :
    coverageResult explorer solver contract specification = .ok () ↔
      (checkCoverage explorer solver contract specification).answer = .ok .covered := by
  unfold coverageResult
  cases (checkCoverage explorer solver contract specification).answer with
  | error failure => exact ⟨nofun, nofun⟩
  | ok coverage =>
      cases coverage with
      | covered => exact ⟨fun _ => rfl, fun _ => rfl⟩
      | missing selectors => exact ⟨nofun, nofun⟩

theorem arisen_eq_nil_iff :
    arisen explorer solver checkExhaustiveness contract summary specification resolver = [] ↔
      Passes explorer solver checkExhaustiveness contract summary specification resolver := by
  rw [arisen, List.filterMap_eq_nil_iff]
  simp only [failure?_eq_none_iff, results, List.cons_append, List.forall_mem_cons,
    List.forall_mem_append, List.forall_mem_map, constructorResult_eq_ok, methodResult_eq_ok,
    Prod.forall]
  have hcoverage : (∀ result ∈ (if checkExhaustiveness then
      [coverageResult explorer solver contract specification] else []), result = .ok ()) ↔
      (checkExhaustiveness = true →
        (checkCoverage explorer solver contract specification).answer = .ok .covered) := by
    cases checkExhaustiveness <;> simp [coverageResult_eq_ok]
  rw [hcoverage]
  constructor
  · rintro ⟨hcreation, hmethods, hcovered⟩
    exact ⟨hcreation, hmethods, hcovered⟩
  · exact fun h => ⟨h.creation, h.methods, h.coverage⟩

theorem failure?_compared (entry : EntryPoint) (result : Except VerificationError Unit) :
    (Check.compared entry result).failure? =
      failure? (result.mapError fun error => LocatedFailure.mk entry (.verification error)) := by
  cases result <;> rfl

theorem failure?_checkConstructor :
    (checkConstructor solver resolver contract specification summary.creation).failure? =
      failure? (constructorResult solver contract summary specification resolver) := by
  unfold constructorResult
  cases summary.creation with
  | error failure => rfl
  | ok creation => exact failure?_compared .constructor _

theorem failure?_checkMethod (entry : EntryPoint × Except LocatedFailure MethodSummary) :
    (checkMethod solver resolver specification entry).failure? =
      failure? (methodResult solver specification resolver entry) := by
  obtain ⟨location, result⟩ := entry
  cases result with
  | error failure => rfl
  | ok method => exact failure?_compared location _

theorem failure?_checkCoverage :
    (checkCoverage explorer solver contract specification).failure? =
      failure? (coverageResult explorer solver contract specification) := by
  unfold CoverageCheck.failure? coverageResult
  cases (checkCoverage explorer solver contract specification).answer with
  | error failure => rfl
  | ok coverage => cases coverage <;> rfl

theorem failures_verify (hlayout : Resolver.ofLayout summary.name summary.layout = .ok resolver) :
    (specification.verify explorer solver checkExhaustiveness contract summary).failures =
      arisen explorer solver checkExhaustiveness contract summary specification resolver := by
  have hmethods : (summary.runtime.map (checkMethod solver resolver specification)).filterMap
      Check.failure? =
      (summary.runtime.map (methodResult solver specification resolver)).filterMap failure? := by
    rw [List.filterMap_map, List.filterMap_map]
    exact List.filterMap_congr fun entry _ => failure?_checkMethod entry
  have hcoverage : ((if checkExhaustiveness then
      some (checkCoverage explorer solver contract specification) else none).bind
        CoverageCheck.failure?).toList =
      (if checkExhaustiveness then
        [coverageResult explorer solver contract specification] else []).filterMap failure? := by
    cases checkExhaustiveness with
    | false => rfl
    | true =>
        simp only [if_true, Option.bind_some, failure?_checkCoverage, List.filterMap_cons,
          List.filterMap_nil]
        cases failure? (coverageResult explorer solver contract specification) <;> rfl
  rw [Specification.verify, hlayout, failures, arisen, results]
  simp only [List.cons_append, List.filterMap_append, List.filterMap_cons,
    failure?_checkConstructor, hmethods, hcoverage]
  cases failure? (constructorResult solver contract summary specification resolver) <;> rfl

-- What has passed is listed as checked.
theorem checked?_of_passes
    (h : Passes explorer solver checkExhaustiveness contract summary specification resolver) :
    (checkConstructor solver resolver contract specification summary.creation ::
      summary.runtime.map (checkMethod solver resolver specification)).filterMap Check.checked? =
      .constructor :: summary.runtime.map Prod.fst := by
  obtain ⟨creation, hcreation, hconstructor⟩ := h.creation
  have hmethod : ∀ entry ∈ summary.runtime,
      (checkMethod solver resolver specification entry).checked? = some entry.1 := by
    rintro ⟨entry, result⟩ hentry
    obtain ⟨method, rfl, hmethod⟩ := h.methods entry result hentry
    rw [checkMethod, hmethod]
    rfl
  rw [hcreation, checkConstructor, hconstructor, List.filterMap_cons, Check.checked?]
  refine congrArg (List.cons EntryPoint.constructor) ?_
  rw [List.filterMap_map, ← List.filterMap_eq_map']
  exact List.filterMap_congr fun entry hentry => hmethod entry hentry

theorem coverage_of_passes
    (h : Passes explorer solver checkExhaustiveness contract summary specification resolver) :
    ((if checkExhaustiveness then some (checkCoverage explorer solver contract specification)
      else none).bind fun check => check.answer.toOption) =
      if checkExhaustiveness then some .covered else none := by
  cases hcheck : checkExhaustiveness with
  | false => rfl
  | true =>
      rw [if_pos rfl, if_pos rfl, Option.bind_some, h.coverage hcheck]
      rfl

theorem outcome_of_passes (hlayout : Resolver.ofLayout summary.name summary.layout = .ok resolver)
    (h : Passes explorer solver checkExhaustiveness contract summary specification resolver) :
    (specification.verify explorer solver checkExhaustiveness contract summary).outcome =
      .ok ⟨.constructor :: summary.runtime.map Prod.fst,
        if checkExhaustiveness then some .covered else none⟩ := by
  rw [← checked?_of_passes h, ← coverage_of_passes h, outcome, failures_verify hlayout,
    arisen_eq_nil_iff.mpr h, Specification.verify, hlayout]
  rfl

theorem outcome_of_not_passes
    (hlayout : Resolver.ofLayout summary.name summary.layout = .ok resolver)
    (h : ¬Passes explorer solver checkExhaustiveness contract summary specification resolver) :
    (specification.verify explorer solver checkExhaustiveness contract summary).outcome =
      .error (FailureReport.empty.addAll (arisen explorer solver checkExhaustiveness contract
        summary specification resolver)) := by
  have hsome : (arisen explorer solver checkExhaustiveness contract summary specification
      resolver).isEmpty = false := by
    rw [← Bool.not_eq_true, List.isEmpty_iff]
    exact mt arisen_eq_nil_iff.mp h
  rw [outcome, failures_verify hlayout, hsome]
  rfl

theorem outcome_eq_ok_iff (hlayout : Resolver.ofLayout summary.name summary.layout = .ok resolver)
    {report : VerificationReport} :
    (specification.verify explorer solver checkExhaustiveness contract summary).outcome =
        .ok report ↔
      Passes explorer solver checkExhaustiveness contract summary specification resolver ∧
      report.checked = .constructor :: summary.runtime.map Prod.fst ∧
      report.coverage = if checkExhaustiveness then some .covered else none := by
  by_cases hpasses :
      Passes explorer solver checkExhaustiveness contract summary specification resolver
  · rw [outcome_of_passes hlayout hpasses, Except.ok.injEq, and_iff_right hpasses]
    exact ⟨fun h => h ▸ ⟨rfl, rfl⟩, fun ⟨hchecked, hcoverage⟩ => by rw [← hchecked, ← hcoverage]⟩
  · rw [outcome_of_not_passes hlayout hpasses]
    exact ⟨nofun, fun h => absurd h.1 hpasses⟩

theorem outcome_eq_error_iff
    (hlayout : Resolver.ofLayout summary.name summary.layout = .ok resolver)
    {errors : FailureReport} :
    (specification.verify explorer solver checkExhaustiveness contract summary).outcome =
        .error errors ↔
      ¬Passes explorer solver checkExhaustiveness contract summary specification resolver ∧
      errors.Collects
        (arisen explorer solver checkExhaustiveness contract summary specification resolver) := by
  by_cases hpasses :
      Passes explorer solver checkExhaustiveness contract summary specification resolver
  · rw [outcome_of_passes hlayout hpasses]
    exact ⟨nofun, fun h => absurd hpasses h.1⟩
  · have hcollects := FailureReport.collects_addAll FailureReport.collects_empty
      (arisen explorer solver checkExhaustiveness contract summary specification resolver)
    rw [outcome_of_not_passes hlayout hpasses, Except.error.injEq, and_iff_right hpasses]
    exact ⟨fun h => h ▸ hcollects, fun h => hcollects.unique h⟩

-- A layout that cannot be resolved fails at least at the constructor.
theorem exists_resolver_of_outcome {report : VerificationReport}
    (h : (specification.verify explorer solver checkExhaustiveness contract summary).outcome =
      .ok report) : ∃ resolver, Resolver.ofLayout summary.name summary.layout = .ok resolver := by
  cases hlayout : Resolver.ofLayout summary.name summary.layout with
  | error error =>
      rw [Specification.verify, hlayout] at h
      exact nomatch h
  | ok resolver => exact ⟨resolver, rfl⟩

end Results

-- Verification succeeds only if everything passes, and then lists the constructor and all methods
-- in order. Otherwise it reports what has failed, each failure once, by entry point and there in
-- the order in which they arose.
theorem outcome_verify_iff (hlayout : Resolver.ofLayout summary.name summary.layout = .ok resolver)
    (report : VerificationReport) (errors : FailureReport) :
    let outcome :=
      (specification.verify explorer solver checkExhaustiveness contract summary).outcome
    let passes := Passes explorer solver checkExhaustiveness contract summary specification resolver
    (outcome = .ok report ↔ passes ∧
      report.checked = .constructor :: summary.runtime.map Prod.fst ∧
      report.coverage = if checkExhaustiveness then some .covered else none) ∧
    (outcome = .error errors ↔ ¬passes ∧ errors.Collects
      (arisen explorer solver checkExhaustiveness contract summary specification resolver)) := by
  intro outcome passes
  exact ⟨outcome_eq_ok_iff hlayout, outcome_eq_error_iff hlayout⟩

-- A vault whose creation is not summarized, and whose two methods of one signature are told apart
-- from their behaviour.
def vaultResolver : Resolver := ⟨"Vault", ⟨[.ofValue "lock" 0 .bool]⟩, by decide, by decide⟩

def vaultMethod : MethodSummary where
  method := ⟨⟨"open", []⟩, []⟩
  branches := []

def vaultSummary : ContractSummary where
  name := "Vault"
  layout := vaultResolver.layout
  constructor := .ofConstructor []
  creation := .error ⟨.constructor, .exploration (.engine "out of gas")⟩
  runtime := [(.method "open()", .ok vaultMethod),
    (.method "close()", .error ⟨.method "close()", .exploration (.unfinished ["loop"])⟩),
    (.method "open()", .ok vaultMethod)]

def vaultContract : Contract where
  name := "Vault"
  creationCode := []
  runtimeCode := []
  constructor := .ofConstructor []
  methods := [vaultMethod.method]
  layout := vaultResolver.layout

def vaultSpecification : Specification where
  contract := "Vault"
  storage := .empty
  constructor := ⟨"Vault", .ofConstructor [], [], []⟩
  behaviours := [⟨"open", "Vault", vaultMethod.method.interface, 0, [], [], none⟩]

def undecidedSolver : Solver where
  equivalence _ _ := .error (.solver "undecided")
  exhaustiveness _ _ := .ok .covered

def silentExplorer : Explorer where
  explore _ := .error (.engine "silent")

def vaultFailures : List LocatedFailure :=
  [⟨.constructor, .exploration (.engine "out of gas")⟩,
    ⟨.method "open()", .verification (.solver "undecided")⟩,
    ⟨.method "close()", .exploration (.unfinished ["loop"])⟩,
    ⟨.method "open()", .verification (.solver "undecided")⟩,
    ⟨.runtime, .exploration (.engine "silent")⟩]

theorem outcome_verify_vault :
    Resolver.ofLayout vaultSummary.name vaultSummary.layout = .ok vaultResolver ∧
    ∃ errors, (vaultSpecification.verify silentExplorer undecidedSolver true vaultContract
      vaultSummary).outcome = .error errors ∧ errors.Collects vaultFailures := by
  have hlayout : Resolver.ofLayout vaultSummary.name vaultSummary.layout = .ok vaultResolver := rfl
  have harisen : arisen silentExplorer undecidedSolver true vaultContract vaultSummary
      vaultSpecification vaultResolver = vaultFailures := by decide +kernel
  have hiff := outcome_verify_iff silentExplorer undecidedSolver true vaultContract vaultSummary
    vaultSpecification vaultResolver hlayout
  refine ⟨hlayout, ?_⟩
  cases houtcome : (vaultSpecification.verify silentExplorer undecidedSolver true vaultContract
      vaultSummary).outcome with
  | ok report =>
      obtain ⟨creation, hcreation, _⟩ := ((hiff report .empty).1.mp houtcome).1.creation
      exact nomatch hcreation
  | error errors =>
      exact ⟨errors, rfl, harisen ▸ ((hiff ⟨[], none⟩ errors).2.mp houtcome).2⟩

end SpecRecovery.Verification
