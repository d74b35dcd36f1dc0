import SpecRecovery.Assembly.Basic
import SpecRecovery.Proofs.Assembly.Entry

namespace SpecRecovery

open Machine Spec

namespace Assembling

variable {lifter : Lifter} {branch : Branch}

-- A behaviour has the number of its path and the interface of its method.
theorem header_of_yields {word : Bool} {number : Nat} {recovered : Behaviour}
    (h : Yields (behaviour lifter word branch number) recovered) :
    recovered.branch = number ∧ recovered.interface = lifter.interface := by
  obtain ⟨preconditions, _, h⟩ := yields_bind.mp h
  obtain ⟨updates, _, h⟩ := yields_bind.mp h
  cases word <;>
    · obtain ⟨returns, _, h⟩ := yields_bind.mp h
      obtain rfl := yields_pure.mp h
      exact ⟨rfl, rfl⟩

-- The paths of a method are counted from zero.
theorem headers_of_behaviours {resolver : Resolver} {idioms : Idioms} {summary : MethodSummary}
    {recovered : List Behaviour} (h : Yields (behaviours resolver idioms summary) recovered) :
    recovered.map Behaviour.branch = List.range summary.branches.length ∧
      ∀ behaviour ∈ recovered, behaviour.interface = summary.method.interface := by
  unfold behaviours at h
  split at h
  · exact nomatch Except.ok.inj h
  · next word _ =>
      have hheaders := (yields_mapM.mp h).imp fun _ _ hbehaviour => header_of_yields hbehaviour
      constructor
      · have hnumbers : summary.branches.zipIdx.map Prod.snd = recovered.map Behaviour.branch :=
          map_eq_map_of_forall₂ (hheaders.imp fun _ _ hheader => hheader.1.symm)
        rw [← hnumbers, List.zipIdx_map_snd, List.range_eq_range']
      · intro behaviour hbehaviour
        obtain ⟨_, _, hheader⟩ := (exists_of_forall₂ hheaders).2 behaviour hbehaviour
        exact hheader.2

-- Creation code has one path, whose updates become initial values.
theorem constructor_of_yields {resolver : Resolver} {idioms : Idioms} {interface : Interface}
    {branches : List Branch} {assembled : Constructor}
    (h : Yields (constructor resolver idioms interface branches) assembled) :
    ∃ branch values updates, branches = [branch] ∧
      Yields (preconditions ⟨resolver, interface, idioms⟩ branch.conditions) values ∧
      Yields (storageUpdates ⟨resolver, interface, idioms⟩ branch) updates ∧
      assembled = ⟨resolver.contract, interface, values, initialStorage resolver updates⟩ := by
  unfold constructor at h
  split at h
  · next branch =>
      obtain ⟨values, hvalues, h⟩ := yields_bind.mp h
      obtain ⟨updates, hupdates, h⟩ := yields_bind.mp h
      exact ⟨branch, values, updates, rfl, hvalues, hupdates, (yields_pure.mp h).symm⟩
  · exact nomatch Except.ok.inj h

theorem interface_of_constructor {resolver : Resolver} {idioms : Idioms} {interface : Interface}
    {branches : List Branch} {assembled : Constructor}
    (h : Yields (constructor resolver idioms interface branches) assembled) :
    assembled.interface = interface := by
  obtain ⟨_, _, _, _, _, _, rfl⟩ := constructor_of_yields h
  rfl

end Assembling

namespace ContractSummary

variable {α β : Type} {summary other : ContractSummary} {entry : EntryPoint}
  {assemble : Resolver → α → Assembling β}

theorem assembleEntry_ok_iff {value : α} {outcome : Except LocatedFailure β} :
    summary.assembleEntry entry assemble (.ok value) = .ok outcome ↔
      ∃ result, (do
          let resolver ← Assembling.located (Resolver.ofLayout summary.name summary.layout)
          assemble resolver value : Assembling β).run = .ok result ∧
        outcome = result.mapError (LocatedFailure.mk entry) := by
  rw [assembleEntry, bind_eq_ok]
  simp only [pure, Except.pure, Except.ok.injEq, eq_comm]

-- What is assembled at an entry point was summarized, and the layout can be resolved.
theorem exists_of_assembleEntry {result : Except LocatedFailure α} {assembled : β}
    (h : summary.assembleEntry entry assemble result = .ok (.ok assembled)) :
    ∃ value resolver, result = .ok value ∧
      Resolver.ofLayout summary.name summary.layout = .ok resolver ∧
      Assembling.Yields (assemble resolver value) assembled := by
  cases result with
  | error failure => exact nomatch Except.ok.inj h
  | ok value =>
      obtain ⟨outcome, hrun, houtcome⟩ := assembleEntry_ok_iff.mp h
      rw [eq_comm, mapError_eq_ok] at houtcome
      subst houtcome
      obtain ⟨resolver, hresolver, hyields⟩ := Assembling.yields_bind.mp hrun
      exact ⟨value, resolver, rfl, Assembling.yields_located.mp hresolver, hyields⟩

-- Of the summary as a whole, one entry point only sees the name and the layout.
theorem assembleEntry_congr (hname : other.name = summary.name)
    (hlayout : other.layout = summary.layout) (result : Except LocatedFailure α) :
    other.assembleEntry entry assemble result = summary.assembleEntry entry assemble result := by
  cases result with
  | error failure => rfl
  | ok value => rw [assembleEntry, assembleEntry, hname, hlayout]

end ContractSummary

-- What an assembly consists of: one outcome for the constructor and one for every method, in the
-- order of the summary.
structure Assembles (idioms : Idioms) (summary : ContractSummary) (assembly : Assembly) : Prop where
  contract : assembly.contract = summary.name
  storage : assembly.storage = summary.declarations
  constructor : summary.assembleEntry .constructor
    (fun resolver => Assembling.constructor resolver idioms summary.constructor) summary.creation =
      .ok assembly.constructor
  behaviours : List.Forall₂ (fun entry outcome => outcome.1 = entry.1 ∧
    summary.assembleEntry entry.1 (fun resolver => Assembling.behaviours resolver idioms) entry.2 =
      .ok outcome.2) summary.runtime assembly.behaviours

theorem assembles_of_assemble {idioms : Idioms} {summary : ContractSummary} {assembly : Assembly}
    (h : summary.assemble idioms = .ok assembly) : Assembles idioms summary assembly := by
  obtain ⟨constructor, hconstructor, h⟩ := bind_eq_ok.mp h
  obtain ⟨behaviours, hbehaviours, h⟩ := bind_eq_ok.mp h
  obtain rfl := Except.ok.inj h
  refine ⟨rfl, rfl, hconstructor, (mapM_eq_ok.mp hbehaviours).imp ?_⟩
  intro entry outcome houtcome
  obtain ⟨result, hresult, h⟩ := bind_eq_ok.mp houtcome
  obtain rfl := Except.ok.inj h
  exact ⟨rfl, hresult⟩

namespace Assembly

variable {assembly : Assembly} {specification : Specification}

-- A specification puts the constructor and the behaviours of all methods together, one method after
-- the other.
structure Combines (assembly : Assembly) (specification : Specification) : Prop where
  contract : specification.contract = assembly.contract
  storage : specification.storage = assembly.storage
  constructor : assembly.constructor = .ok specification.constructor
  behaviours : ∃ lists, List.Forall₂ (fun outcome behaviours => outcome.2 = .ok behaviours)
    assembly.behaviours lists ∧ specification.behaviours = lists.flatten

theorem specification_eq_ok_iff :
    assembly.specification = .ok specification ↔ assembly.Combines specification := by
  unfold Assembly.specification
  constructor
  · intro h
    split at h
    · next constructor behaviours hconstructor hbehaviours =>
        obtain rfl := Except.ok.inj h
        exact ⟨rfl, rfl, hconstructor, behaviours, mapM_eq_ok.mp hbehaviours, rfl⟩
    · exact nomatch h
  · rintro ⟨hcontract, hstorage, hconstructor, lists, hlists, hbehaviours⟩
    rw [hconstructor, mapM_eq_ok.mpr hlists]
    simp only [← hcontract, ← hstorage, ← hbehaviours]

end Assembly

-- A specified behaviour was assembled with the others of its method.
theorem exists_of_mem_behaviours {idioms : Idioms} {summary : ContractSummary} {assembly : Assembly}
    {specification : Specification} {behaviour : Behaviour}
    (hassembly : summary.assemble idioms = .ok assembly)
    (h : assembly.specification = .ok specification)
    (hbehaviour : behaviour ∈ specification.behaviours) :
    ∃ resolver method recovered, Resolver.ofLayout summary.name summary.layout = .ok resolver ∧
      Assembling.Yields (Assembling.behaviours resolver idioms method) recovered ∧
      behaviour ∈ recovered := by
  have hassembles := assembles_of_assemble hassembly
  obtain ⟨_, _, _, lists, hlists, hflat⟩ := Assembly.specification_eq_ok_iff.mp h
  rw [hflat, List.mem_flatten] at hbehaviour
  obtain ⟨recovered, hrecovered, hmem⟩ := hbehaviour
  obtain ⟨outcome, houtcome, hok⟩ := (exists_of_forall₂ hlists).2 recovered hrecovered
  obtain ⟨entry, _, _, hmethod⟩ := (exists_of_forall₂ hassembles.behaviours).2 outcome houtcome
  rw [hok] at hmethod
  obtain ⟨method, resolver, _, hresolver, hyields⟩ :=
    ContractSummary.exists_of_assembleEntry hmethod
  exact ⟨resolver, method, recovered, hresolver, hyields, hmem⟩

end SpecRecovery
