import SpecRecovery.Proofs.Assembly.Basic
import SpecRecovery.Proofs.Failure.Report

namespace SpecRecovery

open Machine Spec

namespace Assembling

variable {α β : Type} {lifter : Lifter} {branch : Branch}

-- Whatever is missing fails the entry point alone, and no absent storage ends everything.
def Completes (work : Assembling α) : Prop := ∃ result, work.run = .ok result

theorem completes_pure (value : α) : Completes (pure value : Assembling α) := ⟨.ok value, rfl⟩

theorem completes_throw (failure : Failure) : Completes (throw failure : Assembling α) :=
  ⟨.error failure, rfl⟩

theorem completes_bind {work : Assembling α} {next : α → Assembling β} (hwork : Completes work)
    (hnext : ∀ value, Completes (next value)) : Completes (work >>= next) := by
  obtain ⟨result, hresult⟩ := hwork
  unfold Completes
  rw [ExceptT.run_bind, hresult]
  cases result with
  | error failure => exact ⟨.error failure, rfl⟩
  | ok value => exact hnext value

theorem completes_mapM {work : α → Assembling β} {inputs : List α}
    (h : ∀ input ∈ inputs, Completes (work input)) : Completes (inputs.mapM work) := by
  induction inputs with
  | nil => exact completes_pure []
  | cons input rest ih =>
      rw [List.mapM_cons]
      refine completes_bind (h input List.mem_cons_self) fun first => ?_
      refine completes_bind (ih fun other hother => h other (List.mem_cons_of_mem _ hother)) ?_
      exact fun others => completes_pure _

theorem completes_lifted (result : Except LiftingError α) : Completes (lifted result) := by
  cases result with
  | error error => exact completes_throw _
  | ok value => exact completes_pure value

theorem completes_located (result : Except StorageError α) : Completes (located result) := by
  cases result with
  | error error => exact completes_throw _
  | ok value => exact completes_pure value

theorem completes_preconditions (conditions : List Cond) :
    Completes (preconditions lifter conditions) :=
  completes_bind (completes_mapM fun _ _ => completes_lifted _) fun _ => completes_pure _

theorem completes_storageUpdates (hstore : branch.entrypointStore?.isSome = true) :
    Completes (storageUpdates lifter branch) := by
  obtain ⟨store, hstore⟩ := Option.isSome_iff_exists.mp hstore
  unfold storageUpdates
  cases foreignWrite? branch with
  | some address => exact completes_throw _
  | none =>
      rw [hstore]
      refine completes_bind (completes_located _) fun writes => completes_mapM fun entry _ => ?_
      refine completes_bind (completes_located _) fun item => ?_
      exact completes_bind (completes_lifted _) fun value => completes_pure _

theorem completes_returned : Completes (returned lifter branch) := by
  unfold returned
  split
  · exact completes_lifted _
  · exact completes_throw _

theorem completes_behaviour (word : Bool) (number : Nat)
    (hstore : branch.entrypointStore?.isSome = true) :
    Completes (behaviour lifter word branch number) := by
  refine completes_bind (completes_preconditions _) fun preconditions => ?_
  refine completes_bind (completes_storageUpdates hstore) fun updates => ?_
  cases word with
  | false => exact completes_bind (completes_pure none) fun returns => completes_pure _
  | true =>
      refine completes_bind ?_ fun returns => completes_pure _
      rw [map_eq_pure_bind]
      exact completes_bind completes_returned fun value => completes_pure _

variable {resolver : Resolver} {idioms : Idioms}

theorem completes_constructor (interface : Interface) {branches : List Branch}
    (hstores : ∀ branch ∈ branches, branch.entrypointStore?.isSome = true) :
    Completes (constructor resolver idioms interface branches) := by
  unfold constructor
  split
  · next branch =>
      refine completes_bind (completes_preconditions _) fun preconditions => ?_
      refine completes_bind ?_ fun updates => completes_pure _
      exact completes_storageUpdates (hstores branch List.mem_cons_self)
  · exact completes_throw _

theorem completes_behaviours (summary : MethodSummary)
    (hstores : ∀ branch ∈ summary.branches, branch.entrypointStore?.isSome = true) :
    Completes (behaviours resolver idioms summary) := by
  unfold behaviours
  split
  · exact completes_throw _
  · next word _ =>
      refine completes_mapM fun numbered hnumbered => ?_
      exact completes_behaviour word numbered.2 (hstores _ (List.fst_mem_of_mem_zipIdx hnumbered))

end Assembling

namespace ContractSummary

-- The successful paths through all entry points.
def paths (summary : ContractSummary) : List Branch :=
  summary.creation.toOption.getD [] ++ summary.runtime.flatMap fun entry =>
    (entry.2.toOption.map MethodSummary.branches).getD []

-- Every successful path says something about the storage of the contract itself, as engines
-- promise.
def HasStores (summary : ContractSummary) : Prop :=
  ∀ branch ∈ summary.paths, branch.entrypointStore?.isSome = true

instance (summary : ContractSummary) : Decidable summary.HasStores :=
  inferInstanceAs (Decidable (∀ branch ∈ summary.paths, _))

theorem mem_paths_of_creation {summary : ContractSummary} {branches : List Branch} {branch : Branch}
    (h : summary.creation = .ok branches) (hbranch : branch ∈ branches) :
    branch ∈ summary.paths := by
  refine List.mem_append_left _ ?_
  rw [h]
  exact hbranch

theorem mem_paths_of_method {summary : ContractSummary} {entry : EntryPoint}
    {method : MethodSummary} {branch : Branch} (h : (entry, .ok method) ∈ summary.runtime)
    (hbranch : branch ∈ method.branches) : branch ∈ summary.paths :=
  List.mem_append_right _ (List.mem_flatMap.mpr ⟨_, h, hbranch⟩)

variable {idioms : Idioms} {summary other : ContractSummary} {assembly otherAssembly : Assembly}

theorem exists_assembleEntry {α β : Type} {entry : EntryPoint}
    {assemble : Resolver → α → Assembling β} {result : Except LocatedFailure α}
    (h : ∀ value resolver, result = .ok value → Assembling.Completes (assemble resolver value)) :
    ∃ outcome, summary.assembleEntry entry assemble result = .ok outcome := by
  cases result with
  | error failure => exact ⟨.error failure, rfl⟩
  | ok value =>
      have hwork := Assembling.completes_bind
        (Assembling.completes_located (Resolver.ofLayout summary.name summary.layout))
        fun resolver => h value resolver rfl
      obtain ⟨result, hrun⟩ := hwork
      exact ⟨_, assembleEntry_ok_iff.mpr ⟨result, hrun, rfl⟩⟩

-- No entry point of such a summary ends the others.
theorem exists_assemble (idioms : Idioms) (hstores : summary.HasStores) :
    ∃ assembly, summary.assemble idioms = .ok assembly := by
  have hcreation : ∃ outcome, summary.assembleEntry .constructor
      (fun resolver => Assembling.constructor resolver idioms summary.constructor)
      summary.creation = .ok outcome := by
    refine exists_assembleEntry fun branches resolver hbranches => ?_
    refine Assembling.completes_constructor summary.constructor fun branch hbranch => ?_
    exact hstores branch (mem_paths_of_creation hbranches hbranch)
  obtain ⟨constructor, hconstructor⟩ := hcreation
  have hmethods : ∀ entry ∈ summary.runtime, ∃ outcome, (do
      return (entry.1, ← summary.assembleEntry entry.1
        (fun resolver => Assembling.behaviours resolver idioms) entry.2)) = .ok outcome := by
    rintro ⟨location, result⟩ hentry
    have hmethod : ∃ outcome, summary.assembleEntry location
        (fun resolver => Assembling.behaviours resolver idioms) result = .ok outcome := by
      refine exists_assembleEntry fun method resolver hmethod => ?_
      refine Assembling.completes_behaviours method fun branch hbranch => ?_
      exact hstores branch (mem_paths_of_method (hmethod ▸ hentry) hbranch)
    obtain ⟨outcome, houtcome⟩ := hmethod
    exact ⟨(location, outcome), bind_eq_ok.mpr ⟨outcome, houtcome, rfl⟩⟩
  obtain ⟨behaviours, hbehaviours⟩ := exists_mapM_eq_ok hmethods
  refine ⟨⟨summary.name, summary.declarations, constructor, behaviours⟩, ?_⟩
  exact bind_eq_ok.mpr ⟨constructor, hconstructor, bind_eq_ok.mpr ⟨behaviours, hbehaviours, rfl⟩⟩

end ContractSummary

namespace Assembles

variable {idioms : Idioms} {summary other : ContractSummary} {assembly otherAssembly : Assembly}

theorem constructor_congr (h : Assembles idioms summary assembly)
    (hother : Assembles idioms other otherAssembly) (hname : other.name = summary.name)
    (hlayout : other.layout = summary.layout) (hinterface : other.constructor = summary.constructor)
    (hcreation : other.creation = summary.creation) :
    otherAssembly.constructor = assembly.constructor := by
  have houtcome := hother.constructor
  rw [ContractSummary.assembleEntry_congr hname hlayout, hinterface, hcreation,
    h.constructor] at houtcome
  exact (Except.ok.inj houtcome).symm

theorem getElem?_behaviours (h : Assembles idioms summary assembly) (index : Nat) :
    assembly.behaviours[index]?.map Except.ok = summary.runtime[index]?.map fun entry =>
      (summary.assembleEntry entry.1 (fun resolver => Assembling.behaviours resolver idioms)
        entry.2).map (Prod.mk entry.1) := by
  rw [← List.getElem?_map, ← List.getElem?_map]
  congr 1
  refine (map_eq_map_of_forall₂ (h.behaviours.imp ?_)).symm
  rintro entry outcome ⟨hlocation, houtcome⟩
  rw [houtcome, ← hlocation]
  rfl

-- Wherever a summary stands among the others, the same comes of it.
theorem behaviours_congr (h : Assembles idioms summary assembly)
    (hother : Assembles idioms other otherAssembly) (hname : other.name = summary.name)
    (hlayout : other.layout = summary.layout) {index otherIndex : Nat}
    (hsame : other.runtime[otherIndex]? = summary.runtime[index]?) :
    otherAssembly.behaviours[otherIndex]? = assembly.behaviours[index]? := by
  apply Option.map_injective fun first second (h : Except.ok first = Except.ok second) =>
    Except.ok.inj h
  rw [h.getElem?_behaviours, hother.getElem?_behaviours, hsame]
  simp only [ContractSummary.assembleEntry_congr hname hlayout]

end Assembles

-- What the summary of an entry point and the outcome of its assembly have to do with each other. An
-- entry point without a summary keeps the reason, and any other failure belongs to it.
def Attributed {α β : Type} (entry : EntryPoint) (fits : α → β → Prop) :
    Except LocatedFailure α → Except LocatedFailure β → Prop
  | .error failure, outcome => outcome = .error failure
  | .ok _, .error failure => failure.location = entry
  | .ok value, .ok assembled => fits value assembled

theorem attributed_of_assembleEntry {α β : Type} {summary : ContractSummary} {entry : EntryPoint}
    {assemble : Resolver → α → Assembling β} {fits : α → β → Prop}
    {result : Except LocatedFailure α} {outcome : Except LocatedFailure β}
    (h : summary.assembleEntry entry assemble result = .ok outcome)
    (hfits : ∀ resolver value assembled, Assembling.Yields (assemble resolver value) assembled →
      fits value assembled) : Attributed entry fits result outcome := by
  cases result with
  | error failure => exact (Except.ok.inj h).symm
  | ok value =>
      cases outcome with
      | error failure =>
          obtain ⟨found, _, hfound⟩ := ContractSummary.assembleEntry_ok_iff.mp h
          cases found with
          | error reason => exact congrArg LocatedFailure.location (Except.error.inj hfound)
          | ok assembled => exact nomatch hfound
      | ok assembled =>
          obtain ⟨held, resolver, hheld, _, hyields⟩ := ContractSummary.exists_of_assembleEntry h
          obtain rfl := Except.ok.inj hheld
          exact hfits resolver value assembled hyields

namespace Assembly

variable {idioms : Idioms} {summary : ContractSummary} {assembly : Assembly}
  {report : FailureReport}

-- Every outcome belongs to one entry point of the summary, in order. The behaviours of a method are
-- numbered like its successful paths.
structure Accounts (summary : ContractSummary) (assembly : Assembly) : Prop where
  contract : assembly.contract = summary.name
  storage : assembly.storage = summary.declarations
  creation : Attributed .constructor (fun _ constructor =>
    constructor.interface = summary.constructor) summary.creation assembly.constructor
  methods : List.Forall₂ (fun entry outcome => outcome.1 = entry.1 ∧
    Attributed entry.1 (fun method behaviours =>
      behaviours.map Behaviour.branch = List.range method.branches.length) entry.2 outcome.2)
    summary.runtime assembly.behaviours

theorem accounts_of_assembles (h : Assembles idioms summary assembly) :
    assembly.Accounts summary := by
  refine ⟨h.contract, h.storage, attributed_of_assembleEntry h.constructor ?_, h.behaviours.imp ?_⟩
  · intro resolver branches constructor hyields
    exact Assembling.interface_of_constructor hyields
  · rintro entry outcome ⟨hlocation, houtcome⟩
    refine ⟨hlocation, attributed_of_assembleEntry houtcome ?_⟩
    intro resolver method behaviours hyields
    exact (Assembling.headers_of_behaviours hyields).1

-- Nothing failed.
structure Complete (assembly : Assembly) : Prop where
  constructor : ∃ constructor, assembly.constructor = .ok constructor
  methods : ∀ outcome ∈ assembly.behaviours, ∃ behaviours, outcome.2 = .ok behaviours

theorem failures_eq_nil_iff : assembly.failures = [] ↔ assembly.Complete := by
  have hsome {α : Type} (outcome : Except LocatedFailure α) :
      failure? outcome = none ↔ ∃ value, outcome = .ok value := by
    cases outcome <;> simp [failure?]
  rw [failures, List.append_eq_nil_iff, Option.toList_eq_nil_iff, List.filterMap_eq_nil_iff]
  simp only [hsome]
  exact ⟨fun h => ⟨h.1, h.2⟩, fun h => ⟨h.constructor, h.methods⟩⟩

theorem exists_specification_iff :
    (∃ specification, assembly.specification = .ok specification) ↔ assembly.Complete := by
  constructor
  · rintro ⟨specification, h⟩
    obtain ⟨_, _, hconstructor, lists, hlists, _⟩ := specification_eq_ok_iff.mp h
    exact ⟨⟨_, hconstructor⟩, exists_mapM_iff.mp ⟨lists, mapM_eq_ok.mpr hlists⟩⟩
  · rintro ⟨⟨constructor, hconstructor⟩, hmethods⟩
    obtain ⟨lists, hlists⟩ := exists_mapM_iff.mpr hmethods
    exact ⟨⟨assembly.contract, assembly.storage, constructor, lists.flatten⟩,
      specification_eq_ok_iff.mpr ⟨rfl, rfl, hconstructor, lists, mapM_eq_ok.mp hlists, rfl⟩⟩

theorem specification_of_not_complete (h : ¬assembly.Complete) :
    assembly.specification = .error assembly.report := by
  unfold Assembly.specification
  split
  · next constructor behaviours hconstructor hbehaviours =>
      exact absurd ⟨⟨constructor, hconstructor⟩, exists_mapM_iff.mp ⟨behaviours, hbehaviours⟩⟩ h
  · rfl

theorem specification_eq_error_iff :
    assembly.specification = .error report ↔
      ¬assembly.Complete ∧ report.Collects assembly.failures := by
  by_cases hcomplete : assembly.Complete
  · obtain ⟨specification, h⟩ := exists_specification_iff.mpr hcomplete
    rw [h]
    exact ⟨nofun, fun hfails => absurd hcomplete hfails.1⟩
  · have hcollects :=
      FailureReport.collects_addAll FailureReport.collects_empty assembly.failures
    rw [specification_of_not_complete hcomplete, Except.error.injEq, and_iff_right hcomplete]
    exact ⟨fun h => h ▸ hcollects, fun h => hcollects.unique h⟩

end Assembly

-- Entry points are assembled apart from each other. The outcome of one depends on the name, the
-- layout and its own summary, and that of the constructor on its interface as well. A specification
-- comes of the outcomes exactly if none of them is a failure, and loses nothing. Otherwise all
-- failures are reported, each once, by entry point and there in the order of the summary.
theorem entries_assembled_apart (idioms : Idioms) {summary : ContractSummary}
    (hstores : summary.HasStores) :
    ∃ assembly, summary.assemble idioms = .ok assembly ∧ assembly.Accounts summary ∧
      (∀ (other : ContractSummary) (otherAssembly : Assembly),
        other.assemble idioms = .ok otherAssembly → other.name = summary.name →
        other.layout = summary.layout →
        (other.constructor = summary.constructor → other.creation = summary.creation →
          otherAssembly.constructor = assembly.constructor) ∧
        ∀ index otherIndex : Nat, other.runtime[otherIndex]? = summary.runtime[index]? →
          otherAssembly.behaviours[otherIndex]? = assembly.behaviours[index]?) ∧
      ((∃ specification, assembly.specification = .ok specification) ↔ assembly.Complete) ∧
      (∀ specification,
        assembly.specification = .ok specification ↔ assembly.Combines specification) ∧
      ∀ report, assembly.specification = .error report ↔
        ¬assembly.Complete ∧ report.Collects assembly.failures := by
  obtain ⟨assembly, hassembly⟩ := summary.exists_assemble idioms hstores
  have hassembles := assembles_of_assemble hassembly
  refine ⟨assembly, hassembly, Assembly.accounts_of_assembles hassembles, ?apart,
    Assembly.exists_specification_iff, fun specification => Assembly.specification_eq_ok_iff,
    fun report => Assembly.specification_eq_error_iff⟩
  case apart =>
    intro other otherAssembly hother hname hlayout
    have hotherAssembles := assembles_of_assemble hother
    constructor
    · exact hassembles.constructor_congr hotherAssembles hname hlayout
    · intro index otherIndex hsame
      exact hassembles.behaviours_congr hotherAssembles hname hlayout hsame

-- A ledger with a method of two successful paths, between a method that was not summarized and one
-- that returns too much.
def depositSummary : MethodSummary where
  method := ⟨⟨"deposit", [⟨"amount", .uint256⟩]⟩, []⟩
  branches := [
    .ofStore [.neg (.eqWords (.var "amount") (.lit 0))] .empty
      (.write (.lit 0) (.var "amount") .abstract),
    .ofStore [.eqWords (.var "amount") (.lit 0)] .empty .abstract]

def ledgerSummary (first : Except LocatedFailure MethodSummary) : ContractSummary where
  name := "Ledger"
  layout := ⟨[.ofValue "balance" 0 .uint256]⟩
  constructor := .ofConstructor []
  creation := .ok [.ofStore [] .empty (.concrete .empty)]
  runtime := [(.method "audit()", first), (.method "deposit(uint256)", .ok depositSummary),
    (.method "both()", .ok ⟨⟨⟨"both", []⟩, [.uint256, .uint256]⟩, []⟩)]

def unaudited : ContractSummary :=
  ledgerSummary (.error ⟨.method "audit()", .exploration (.unfinished ["loop"])⟩)

def audited : ContractSummary := ledgerSummary (.ok ⟨⟨⟨"audit", []⟩, []⟩, []⟩)

theorem entries_assembled_apart_ledger :
    unaudited.HasStores ∧
    ∃ assembly otherAssembly errors, unaudited.assemble .all = .ok assembly ∧
      audited.assemble .all = .ok otherAssembly ∧
      otherAssembly.constructor = assembly.constructor ∧
      otherAssembly.behaviours[1]? = assembly.behaviours[1]? ∧
      assembly.specification = .error errors ∧
      errors.Collects [⟨.method "audit()", .exploration (.unfinished ["loop"])⟩,
        ⟨.method "both()", .assembly (.multipleReturns 2)⟩] := by
  have hstores : unaudited.HasStores := by decide +kernel
  obtain ⟨assembly, hassembly, _, hapart, hcomplete, _, hfails⟩ :=
    entries_assembled_apart .all hstores
  have hfailures : (unaudited.assemble .all).toOption.map Assembly.failures =
      some [⟨.method "audit()", .exploration (.unfinished ["loop"])⟩,
        ⟨.method "both()", .assembly (.multipleReturns 2)⟩] := by decide +kernel
  rw [hassembly] at hfailures
  have hcollects := Option.some.inj hfailures
  obtain ⟨otherAssembly, hother⟩ := ContractSummary.exists_assemble .all
    (by decide +kernel : audited.HasStores)
  have hsame := hapart audited otherAssembly hother rfl rfl
  refine ⟨hstores, assembly, otherAssembly, ?_⟩
  cases hspecification : assembly.specification with
  | ok specification =>
      have hnone := Assembly.failures_eq_nil_iff.mpr (hcomplete.mp ⟨specification, hspecification⟩)
      exact nomatch hcollects.symm.trans hnone
  | error errors =>
      exact ⟨errors, hassembly, hother, hsame.1 rfl rfl, hsame.2 1 1 rfl, rfl,
        hcollects ▸ ((hfails errors).mp hspecification).2⟩

end SpecRecovery
