import SpecRecovery.Proofs.Assembly.Combination
import SpecRecovery.Proofs.Assembly.RoundTrip
import SpecRecovery.Proofs.Verification.Outcome
import SpecRecovery.Recovery

namespace SpecRecovery.Contract

open Machine Spec Verification

section Exploration

variable {explorer : Explorer} {contract : Contract} {method : Method} {summary : MethodSummary}
  {branches : List Branch}

theorem explored_of_summarizeCreation
    (h : contract.summarizeCreation explorer = .ok branches) :
    (Exploration.run explorer .constructor
      ⟨contract.creationCode, .creation contract.constructor.arguments⟩).branches =
        .ok branches := by
  obtain ⟨exploration, hexploration, h⟩ := bind_eq_ok.mp h
  obtain ⟨_, _, hexploration⟩ := bind_eq_ok.mp hexploration
  obtain rfl := Except.ok.inj hexploration
  exact h

theorem explored_of_summarizeMethod (h : contract.summarizeMethod explorer method = .ok summary) :
    summary.method = method ∧
      (Exploration.run explorer (.ofMethod method) ⟨contract.runtimeCode,
        .method method.selector method.interface.arguments⟩).branches = .ok summary.branches := by
  obtain ⟨exploration, hexploration, h⟩ := bind_eq_ok.mp h
  obtain ⟨_, _, hexploration⟩ := bind_eq_ok.mp hexploration
  obtain rfl := Except.ok.inj hexploration
  obtain ⟨branches, hbranches, h⟩ := bind_eq_ok.mp h
  obtain rfl := Except.ok.inj h
  exact ⟨rfl, hbranches⟩

end Exploration

variable (explorer : Explorer) (solver : Solver) (settings : Recovery.Settings)
  (contract : Contract) (assembly : Assembly)

-- What was assembled is verified once it is enriched.
def verification (assembled : Specification) : Verification :=
  assembled.enrich.verify explorer solver settings.checkExhaustiveness contract
    (contract.summarize explorer)

-- The failures of that verification, where the layout can be resolved.
def refutations (resolver : Resolver) (assembled : Specification) : List LocatedFailure :=
  arisen explorer solver settings.checkExhaustiveness contract (contract.summarize explorer)
    assembled.enrich resolver

-- What a run comes to. It reports all failures to assemble, or else all failures of the
-- verification, and the enriched specification only if there are none of either.
inductive Concludes : Except FailureReport Specification → Prop
  | unassembled {report : FailureReport} (hincomplete : ¬assembly.Complete)
      (hreport : report.Collects assembly.failures) : Concludes (.error report)
  | refuted {assembled : Specification} {resolver : Resolver} {report : FailureReport}
      (hcombines : assembly.Combines assembled)
      (hlayout : Resolver.ofLayout contract.name contract.layout = .ok resolver)
      (hfails : contract.refutations explorer solver settings resolver assembled ≠ [])
      (hreport : report.Collects
        (contract.refutations explorer solver settings resolver assembled)) :
      Concludes (.error report)
  | recovered {assembled : Specification} {resolver : Resolver}
      (hcombines : assembly.Combines assembled)
      (hlayout : Resolver.ofLayout contract.name contract.layout = .ok resolver)
      (hpasses : Passes explorer solver settings.checkExhaustiveness contract
        (contract.summarize explorer) assembled.enrich resolver) :
      Concludes (.ok assembled.enrich)

variable {explorer solver settings contract assembly} {assembled : Specification}
  {resolver : Resolver} {recovery : Recovery}

-- Failures to assemble are reported as they are, and otherwise those of the verification.
theorem exists_recover (explorer : Explorer) (solver : Solver) (settings : Recovery.Settings)
    (hassembly : (contract.summarize explorer).assemble settings.idioms = .ok assembly) :
    ∃ recovery, contract.recover explorer solver settings = .ok recovery ∧
      recovery.specification = assembly.specification >>= fun assembled =>
        (contract.verification explorer solver settings assembled).outcome.map
          fun _ => assembled.enrich := by
  unfold recover
  simp only [hassembly, bind, Except.bind]
  cases assembly.specification with
  | error report => exact ⟨_, rfl, rfl⟩
  | ok assembled => exact ⟨_, rfl, rfl⟩

-- Nothing is assembled without a layout that can be resolved.
theorem exists_resolver_of_combines
    (hassembly : (contract.summarize explorer).assemble settings.idioms = .ok assembly)
    (hcombines : assembly.Combines assembled) :
    ∃ resolver, Resolver.ofLayout contract.name contract.layout = .ok resolver := by
  have hconstructor := (assembles_of_assemble hassembly).constructor
  rw [hcombines.constructor] at hconstructor
  obtain ⟨_, resolver, _, hlayout, _⟩ := ContractSummary.exists_of_assembleEntry hconstructor
  exact ⟨resolver, hlayout⟩

theorem concludes_of_assembled
    (hlayout : Resolver.ofLayout contract.name contract.layout = .ok resolver)
    (hcombines : assembly.Combines assembled) :
    contract.Concludes explorer solver settings assembly
      ((contract.verification explorer solver settings assembled).outcome.map
        fun _ => assembled.enrich) := by
  cases houtcome : (contract.verification explorer solver settings assembled).outcome with
  | error report =>
      obtain ⟨hfails, hreport⟩ := (outcome_eq_error_iff hlayout).mp houtcome
      exact .refuted hcombines hlayout (mt arisen_eq_nil_iff.mp hfails) hreport
  | ok report =>
      obtain ⟨hpasses, _⟩ := (outcome_eq_ok_iff hlayout).mp houtcome
      exact .recovered hcombines hlayout hpasses

theorem specification_eq_iff
    (hassembly : (contract.summarize explorer).assemble settings.idioms = .ok assembly)
    (h : contract.recover explorer solver settings = .ok recovery)
    {result : Except FailureReport Specification} :
    recovery.specification = result ↔
      contract.Concludes explorer solver settings assembly result := by
  obtain ⟨same, hsame, hspecification⟩ := exists_recover explorer solver settings hassembly
  obtain rfl := Except.ok.inj (hsame.symm.trans h)
  rw [hspecification]
  constructor
  · rintro rfl
    cases hassembled : assembly.specification with
    | error report =>
        obtain ⟨hincomplete, hreport⟩ := Assembly.specification_eq_error_iff.mp hassembled
        exact .unassembled hincomplete hreport
    | ok assembled =>
        have hcombines := Assembly.specification_eq_ok_iff.mp hassembled
        obtain ⟨resolver, hlayout⟩ := exists_resolver_of_combines hassembly hcombines
        exact concludes_of_assembled hlayout hcombines
  · intro hconcludes
    cases hconcludes with
    | unassembled hincomplete hreport =>
        rw [Assembly.specification_eq_error_iff.mpr ⟨hincomplete, hreport⟩]
        rfl
    | refuted hcombines hlayout hfails hreport =>
        rw [Assembly.specification_eq_ok_iff.mpr hcombines]
        exact congrArg (Except.map _)
          ((outcome_eq_error_iff hlayout).mpr ⟨mt arisen_eq_nil_iff.mpr hfails, hreport⟩)
    | recovered hcombines hlayout hpasses =>
        rw [Assembly.specification_eq_ok_iff.mpr hcombines]
        exact congrArg (Except.map _) (outcome_of_passes hlayout hpasses)

-- A run on paths that say something about the storage of the contract always ends, and reports what
-- the assembly and the verification make of them.
theorem recover_concludes (explorer : Explorer) (solver : Solver) (settings : Recovery.Settings)
    (hstores : (contract.summarize explorer).HasStores) :
    ∃ assembly recovery,
      (contract.summarize explorer).assemble settings.idioms = .ok assembly ∧
      contract.recover explorer solver settings = .ok recovery ∧
      ∀ result, recovery.specification = result ↔
        contract.Concludes explorer solver settings assembly result := by
  obtain ⟨assembly, hassembly⟩ := ContractSummary.exists_assemble settings.idioms hstores
  obtain ⟨recovery, hrecovery, _⟩ := exists_recover explorer solver settings hassembly
  exact ⟨assembly, recovery, hassembly, hrecovery,
    fun result => specification_eq_iff hassembly hrecovery⟩

-- A path and the behaviour that it is recovered as. What the path is lifted to is lowered to a path
-- that cannot be told apart from it, and the behaviour adds the range facts that are missing.
def Restated (resolver : Resolver) (length : Nat) (branch : Branch) (behaviour : Behaviour) :
    Prop :=
  ∃ lifted lowered, behaviour = lifted.enrich ∧
    Lowerer.behaviourBranch resolver lifted = .ok lowered ∧
    ∀ assignment, Assembling.Indistinguishable assignment length branch lowered

theorem restated_of_yields {idioms : Idioms} {summary : MethodSummary} {lifted : List Behaviour}
    (hbase : ∀ branch ∈ summary.branches, ∀ store, branch.entrypointStore? = some store →
      store.OverAbstract)
    (h : Assembling.Yields (Assembling.behaviours resolver idioms summary) lifted) :
    List.Forall₂ (Restated resolver (Word.sizeBytes * summary.method.outputs.length))
      summary.branches (lifted.map Behaviour.enrich) := by
  obtain ⟨word, houtputs, hrecovers⟩ := Assembling.recovers_of_behaviours h
  rw [List.forall₂_map_right_iff, houtputs]
  refine ((List.forall₂_and_left _ _).mpr ⟨hbase, hrecovers⟩).imp ?_
  rintro branch behaviour ⟨hbranch, hrecovered⟩
  obtain ⟨lowered, hlowered⟩ := hrecovered.exists_branch
  refine ⟨behaviour, lowered, rfl, hlowered, fun assignment => ?_⟩
  have hsame := hrecovered.indistinguishable hbranch hlowered assignment
  cases word <;> exact hsame

-- The behaviours of a method are its own, in order, among those of the specification.
theorem sublist_behavioursOf {signature : String} {lifted : List Behaviour}
    {lists : List (List Behaviour)} (hlifted : lifted ∈ lists)
    (hbehaviours : assembled.behaviours = lists.flatten)
    (hsignature : ∀ behaviour ∈ lifted, behaviour.interface.signature = signature) :
    (lifted.map Behaviour.enrich).Sublist (assembled.enrich.behavioursOf signature) := by
  have hlisted : (lifted.map Behaviour.enrich).Sublist assembled.enrich.behaviours := by
    refine List.Sublist.map Behaviour.enrich ?_
    rw [hbehaviours]
    exact List.sublist_flatten_of_mem hlifted
  have hown : (lifted.map Behaviour.enrich).filter
      (fun behaviour => behaviour.interface.signature == signature) =
        lifted.map Behaviour.enrich := by
    rw [List.filter_eq_self, List.forall_mem_map]
    exact fun behaviour hbehaviour => beq_iff_eq.mpr (hsignature behaviour hbehaviour)
  rw [← hown]
  exact hlisted.filter _

-- A run that recovers a specification has a behaviour in it for every successful path of every
-- method, in order, which restates the path.
theorem recovered_behaviours_restate_paths {specification : Specification} {method : Method}
    (hbase : ∀ summary, contract.summarizeMethod explorer method = .ok summary →
      ∀ branch ∈ summary.branches, ∀ store, branch.entrypointStore? = some store →
        store.OverAbstract)
    (h : contract.recover explorer solver settings = .ok recovery)
    (hspecification : recovery.specification = .ok specification)
    (hmethod : method ∈ contract.methods) :
    ∃ resolver summary behaviours,
      Resolver.ofLayout contract.name contract.layout = .ok resolver ∧
      contract.summarizeMethod explorer method = .ok summary ∧
      List.Forall₂ (Restated resolver (Word.sizeBytes * method.outputs.length)) summary.branches
        behaviours ∧
      behaviours.Sublist (specification.behavioursOf method.signature) := by
  obtain ⟨assembly, hassembly, _⟩ := bind_eq_ok.mp h
  cases (specification_eq_iff hassembly h).mp hspecification with
  | recovered hcombines _ _ =>
      obtain ⟨outcome, houtcome, _, hassembled⟩ :=
        (exists_of_forall₂ (assembles_of_assemble hassembly).behaviours).1 _
          (List.mem_map_of_mem hmethod)
      obtain ⟨lists, hlists, hbehaviours⟩ := hcombines.behaviours
      obtain ⟨lifted, hlifted, hok⟩ := (exists_of_forall₂ hlists).1 outcome houtcome
      rw [hok] at hassembled
      obtain ⟨summary, resolver, hsummary, hlayout, hyields⟩ :=
        ContractSummary.exists_of_assembleEntry hassembled
      have hsummarized := mapError_eq_ok.mp hsummary
      obtain ⟨rfl, _⟩ := explored_of_summarizeMethod hsummarized
      refine ⟨resolver, summary, lifted.map Behaviour.enrich, hlayout, hsummarized,
        restated_of_yields (hbase summary hsummarized) hyields,
        sublist_behavioursOf hlifted hbehaviours fun behaviour hbehaviour => ?_⟩
      rw [(Assembling.headers_of_behaviours hyields).2 behaviour hbehaviour]
      rfl

end SpecRecovery.Contract
