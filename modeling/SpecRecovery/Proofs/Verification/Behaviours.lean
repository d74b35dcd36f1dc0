import SpecRecovery.Proofs.Verification.Outcome
import SpecRecovery.Proofs.Verification.Query

namespace SpecRecovery

open Machine Spec

namespace Specification

variable {specification : Specification} {behaviour replacement : Behaviour} {signature : String}

theorem mem_behavioursOf : behaviour ∈ specification.behavioursOf signature ↔
    behaviour ∈ specification.behaviours ∧ behaviour.interface.signature = signature := by
  rw [behavioursOf, List.mem_filter, beq_iff_eq]

-- A behaviour counts for the methods of its own signature only.
theorem behavioursOf_replace (specification : Specification) (before after : List Behaviour)
    (hinterface : replacement.interface = behaviour.interface)
    (h : behaviour.interface.signature ≠ signature) :
    { specification with behaviours := before ++ replacement :: after }.behavioursOf signature =
      { specification with behaviours := before ++ behaviour :: after }.behavioursOf signature := by
  have hother : replacement.interface.signature ≠ signature := by rwa [hinterface]
  simp [behavioursOf, List.filter_append, h, hother]

end Specification

namespace Verification

section Congruence

variable {explorer : Explorer} {solver : Solver} {checkExhaustiveness : Bool} {contract : Contract}
  {summary : ContractSummary} {specification other : Specification} {resolver : Resolver}

theorem methodQuery_congr {method : MethodSummary}
    (h : other.behavioursOf method.method.signature =
      specification.behavioursOf method.method.signature) :
    methodQuery resolver method other = methodQuery resolver method specification := by
  rw [methodQuery, methodQuery, h]

-- Of the behaviours, verification sees those of the summarized methods and the selectors.
theorem verify_congr (hconstructor : other.constructor = specification.constructor)
    (hselectors : other.behaviours.map (fun behaviour => behaviour.interface.selector) =
      specification.behaviours.map fun behaviour => behaviour.interface.selector)
    (hmethods : ∀ entry method, (entry, .ok method) ∈ summary.runtime →
      other.behavioursOf method.method.signature =
        specification.behavioursOf method.method.signature) :
    other.verify explorer solver checkExhaustiveness contract summary =
      specification.verify explorer solver checkExhaustiveness contract summary := by
  rw [Specification.verify, Specification.verify]
  cases Resolver.ofLayout summary.name summary.layout with
  | error error => rfl
  | ok resolver =>
      have hcreation : checkConstructor solver resolver contract other summary.creation =
          checkConstructor solver resolver contract specification summary.creation := by
        cases summary.creation with
        | error failure => rfl
        | ok creation =>
            rw [checkConstructor, checkConstructor, constructorQuery, constructorQuery,
              hconstructor]
      have hruntime : summary.runtime.map (checkMethod solver resolver other) =
          summary.runtime.map (checkMethod solver resolver specification) := by
        refine List.map_congr_left fun entry hentry => ?_
        obtain ⟨location, result⟩ := entry
        cases result with
        | error failure => rfl
        | ok method =>
            rw [checkMethod, checkMethod, methodQuery_congr (hmethods location method hentry)]
      have hcoverage : checkCoverage explorer solver contract other =
          checkCoverage explorer solver contract specification := by
        rw [checkCoverage, checkCoverage, hselectors]
      simp only [hcreation, hruntime, hcoverage]

end Congruence

-- The path of a behaviour was among those that were compared with the paths through a method, and
-- the solver found no difference.
def Compared (solver : Solver) (resolver : Resolver) (specification : Specification)
    (method : MethodSummary) (behaviour : Behaviour) : Prop :=
  ∃ branch assumed query, Lowerer.behaviourBranch resolver behaviour = .ok branch ∧
    methodQuery resolver method specification = .ok query ∧
    branch.under assumed ∈ query.specified ∧
    query.explored = underAll assumed method.branches ∧
    solver.equivalence query.specified query.explored = .ok none

theorem compared_of_compare {solver : Solver} {resolver : Resolver} {specification : Specification}
    {method : MethodSummary} {behaviour : Behaviour}
    (hmem : behaviour ∈ specification.behavioursOf method.method.signature)
    (h : compare solver (methodQuery resolver method specification) = .ok ()) :
    Compared solver resolver specification method behaviour := by
  obtain ⟨query, hquery, hanswer⟩ := compare_eq_ok.mp h
  obtain ⟨specified, typed, hspecified, _, rfl⟩ := methodQuery_eq_ok.mp hquery
  obtain ⟨branch, hbranch, hlower⟩ :=
    (exists_of_forall₂ (mapM_eq_ok.mp hspecified)).1 behaviour hmem
  exact ⟨branch, _, _, hlower, hquery, List.mem_map_of_mem hbranch, rfl, hanswer⟩

-- The selectors that count as covered.
def declaredSelectors (specification : Specification) : List Selector :=
  (specification.behaviours.map fun behaviour => behaviour.interface.selector).eraseDups

section Examination

variable {explorer : Explorer} {solver : Solver} {checkExhaustiveness : Bool} {contract : Contract}
  {summary : ContractSummary} {specification : Specification} {resolver : Resolver}
  {report : VerificationReport} {behaviour : Behaviour}

theorem covered_of_passes
    (h : Passes explorer solver checkExhaustiveness contract summary specification resolver)
    (hcheck : checkExhaustiveness = true) :
    ∃ states, (Exploration.ofRuntime explorer contract).states = .ok states ∧
      solver.exhaustiveness (declaredSelectors specification) states = .ok .covered := by
  have hanswer := h.coverage hcheck
  simp only [checkCoverage] at hanswer
  split at hanswer
  · exact nomatch hanswer
  · next states hstates => exact ⟨states, hstates, mapError_eq_ok.mp hanswer⟩

-- The selector of every behaviour counts as covered, whatever the behaviour says.
theorem counted_of_passes
    (h : Passes explorer solver checkExhaustiveness contract summary specification resolver)
    (hbehaviour : behaviour ∈ specification.behaviours) (hcheck : checkExhaustiveness = true) :
    behaviour.interface.selector ∈ declaredSelectors specification ∧
      ∃ states, (Exploration.ofRuntime explorer contract).states = .ok states ∧
        solver.exhaustiveness (declaredSelectors specification) states = .ok .covered :=
  ⟨List.mem_eraseDups.mpr (List.mem_map_of_mem hbehaviour), covered_of_passes h hcheck⟩

-- A behaviour whose signature no summarized method has can say anything.
theorem verify_replace {before after : List Behaviour} {replacement : Behaviour}
    (hbehaviours : specification.behaviours = before ++ behaviour :: after)
    (hinterface : replacement.interface = behaviour.interface)
    (hunseen : ∀ entry method, (entry, .ok method) ∈ summary.runtime →
      method.method.signature ≠ behaviour.interface.signature) :
    { specification with behaviours := before ++ replacement :: after }.verify explorer solver
        checkExhaustiveness contract summary =
      specification.verify explorer solver checkExhaustiveness contract summary := by
  have hsame : specification =
      { specification with behaviours := before ++ behaviour :: after } := by rw [← hbehaviours]
  refine verify_congr rfl ?_ fun entry method hentry => ?_
  · rw [hbehaviours, List.map_append, List.map_append, List.map_cons, List.map_cons, hinterface]
  · rw [hsame]
    exact specification.behavioursOf_replace before after hinterface
      (hunseen entry method hentry).symm

end Examination

-- What a verification without failures has done about a behaviour. It is listed as checked if the
-- summary has its entry point, and was compared at every summarized method of its signature. If
-- there is none, the behaviour could say anything else. Where coverage is checked, its selector
-- counts as covered in any case.
structure Examined (explorer : Explorer) (solver : Solver) (checkExhaustiveness : Bool)
    (contract : Contract) (summary : ContractSummary) (specification : Specification)
    (report : VerificationReport) (behaviour : Behaviour) : Prop where
  checked : behaviour.entryPoint ∈ report.checked ↔
    behaviour.entryPoint ∈ summary.runtime.map Prod.fst
  compared : ∀ entry method, (entry, .ok method) ∈ summary.runtime →
    method.method.signature = behaviour.interface.signature →
    entry ∈ report.checked ∧ ∃ resolver,
      Resolver.ofLayout summary.name summary.layout = .ok resolver ∧
      Compared solver resolver specification method behaviour
  unseen : (∀ entry method, (entry, .ok method) ∈ summary.runtime →
      method.method.signature ≠ behaviour.interface.signature) →
    ∀ before after replacement, specification.behaviours = before ++ behaviour :: after →
      replacement.interface = behaviour.interface →
      ({ specification with behaviours := before ++ replacement :: after }.verify explorer solver
        checkExhaustiveness contract summary).outcome = .ok report
  counted : checkExhaustiveness = true →
    behaviour.interface.selector ∈ declaredSelectors specification ∧
      ∃ states, (Exploration.ofRuntime explorer contract).states = .ok states ∧
        solver.exhaustiveness (declaredSelectors specification) states = .ok .covered

-- A verification without failures has compared every behaviour of a summarized method, and has not
-- looked at the others.
theorem examined_of_verify {explorer : Explorer} {solver : Solver} {checkExhaustiveness : Bool}
    {contract : Contract} {summary : ContractSummary} {specification : Specification}
    {report : VerificationReport}
    (h : (specification.verify explorer solver checkExhaustiveness contract summary).outcome =
      .ok report) :
    ∀ behaviour ∈ specification.behaviours, Examined explorer solver checkExhaustiveness contract
      summary specification report behaviour := by
  intro behaviour hbehaviour
  obtain ⟨resolver, hlayout⟩ := exists_resolver_of_outcome h
  obtain ⟨hpasses, hchecked, _⟩ := (outcome_eq_ok_iff hlayout).mp h
  constructor
  case checked =>
    rw [hchecked, List.mem_cons, or_iff_right (by simp [Behaviour.entryPoint])]
  case compared =>
    intro entry method hentry hsignature
    obtain ⟨same, hsame, hcompare⟩ := hpasses.methods entry _ hentry
    obtain rfl := Except.ok.inj hsame
    refine ⟨?_, resolver, hlayout, compared_of_compare ?_ hcompare⟩
    · rw [hchecked]
      exact List.mem_cons_of_mem _ (List.mem_map_of_mem (f := Prod.fst) hentry)
    · exact Specification.mem_behavioursOf.mpr ⟨hbehaviour, hsignature.symm⟩
  case unseen =>
    intro hunseen before after replacement hbehaviours hinterface
    rw [verify_replace hbehaviours hinterface hunseen]
    exact h
  case counted => exact counted_of_passes hpasses hbehaviour

-- A lantern with one method, whose specification also describes a method that does not exist and
-- would have to return more than a word can hold.
def lanternResolver : Resolver := ⟨"Lantern", ⟨[.ofValue "lit" 0 .bool]⟩, by decide, by decide⟩

def lanternMethod : MethodSummary where
  method := ⟨⟨"light", []⟩, []⟩
  branches := [.ofStore [] .empty (.write (.lit 0) (.lit 1) .abstract)]

def lanternContract : Contract where
  name := "Lantern"
  creationCode := []
  runtimeCode := []
  constructor := .ofConstructor []
  methods := [lanternMethod.method]
  layout := lanternResolver.layout

def lanternSummary : ContractSummary where
  name := "Lantern"
  layout := lanternResolver.layout
  constructor := .ofConstructor []
  creation := .ok [.ofStore [] .empty .empty]
  runtime := [(.method "light()", .ok lanternMethod)]

def lanternLight : Behaviour :=
  ⟨"light", "Lantern", ⟨"light", []⟩, 0, [], [⟨⟨"Lantern", "lit", .bool⟩, .lit 1⟩], none⟩

def lanternPhantom : Behaviour :=
  ⟨"haunt", "Lantern", ⟨"haunt", []⟩, 0, [], [], some (.lit (twoTo 256))⟩

def lanternSpecification : Specification where
  contract := "Lantern"
  storage := .empty
  constructor := ⟨"Lantern", .ofConstructor [], [], []⟩
  behaviours := [lanternLight, lanternPhantom]

def lanternExplorer : Explorer where
  explore _ := .ok (.done (.revert [] "no method"))

def contentSolver : Solver where
  equivalence _ _ := .ok none
  exhaustiveness _ _ := .ok .covered

def lanternReport : VerificationReport := ⟨[.constructor, .method "light()"], some .covered⟩

-- The specification is found right, although what it says about one method has no machine terms.
theorem lantern_phantom_unchecked :
    (lanternSpecification.verify lanternExplorer contentSolver true lanternContract
        lanternSummary).outcome = .ok lanternReport ∧
      lanternPhantom ∈ lanternSpecification.behaviours ∧
      lanternPhantom.entryPoint ∉ lanternReport.checked ∧
      ∀ branch, Lowerer.behaviourBranch lanternResolver lanternPhantom ≠ .ok branch := by
  have hfails : Lowerer.behaviourBranch lanternResolver lanternPhantom =
      .error (.literalOutOfRange (twoTo 256)) := rfl
  refine ⟨rfl, by simp [lanternSpecification], by decide, fun branch h => ?_⟩
  rw [hfails] at h
  exact nomatch h

theorem examined_of_verify_lantern :
    (lanternSpecification.verify lanternExplorer contentSolver true lanternContract
        lanternSummary).outcome = .ok lanternReport ∧
      Examined lanternExplorer contentSolver true lanternContract lanternSummary
        lanternSpecification lanternReport lanternLight ∧
      Examined lanternExplorer contentSolver true lanternContract lanternSummary
        lanternSpecification lanternReport lanternPhantom := by
  have hverified : (lanternSpecification.verify lanternExplorer contentSolver true lanternContract
      lanternSummary).outcome = .ok lanternReport := rfl
  exact ⟨hverified, examined_of_verify hverified _ (by simp [lanternSpecification]),
    examined_of_verify hverified _ (by simp [lanternSpecification])⟩

end Verification

end SpecRecovery
