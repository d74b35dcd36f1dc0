import SpecRecovery.Proofs.Abi.Range
import SpecRecovery.Proofs.Lowering.State
import SpecRecovery.Proofs.Verification.Query

namespace SpecRecovery

open Machine Spec

namespace Lowerer

variable {lowerer : Lowerer} {resolver : Resolver} {type : AbiType} {value : IntExpr}
  {fact : BoolExpr}

theorem cond_inRange {width : Nat} (h : type.integerWidth = some width) :
    lowerer.cond (.inRange type value) = lowerer.range type width value := by
  rw [cond, h]

theorem cond_inRange_of_noRange (h : type.integerWidth = none) :
    lowerer.cond (.inRange type value) = .error (.uncompilable (.noRange type)) := by
  rw [cond, h]
  rfl

-- Facts about atoms are always lowered, if the type holds integers.
theorem exists_cond_var (name : String) (h : type.integerRange.isSome = true) :
    ∃ lowered, lowerer.cond (.inRange type (.var name type)) = .ok lowered := by
  obtain ⟨width, hwidth⟩ := Option.isSome_iff_exists.mp (type.integerRange_isSome_iff.mp h)
  rw [cond_inRange hwidth]
  exact ⟨atomRange type width type.isSigned (.var name), by simp only [range]; rfl⟩

theorem exists_cond_argument {interface : Interface} (h : fact ∈ argumentFacts interface) :
    ∃ lowered, lowerer.cond fact = .ok lowered := by
  obtain ⟨argument, _, hfact⟩ := List.mem_filterMap.mp h
  unfold rangeFact? at hfact
  split at hfact
  · next hrange =>
      obtain rfl := Option.some.inj hfact
      exact exists_cond_var argument.name hrange
  · exact nomatch hfact

theorem exists_cond_environment (value : Environment) :
    ∃ lowered, lowerer.cond (environmentFact value) = .ok lowered := by
  have hwidth : ∃ width, value.type.integerWidth = some width := by
    cases value <;> exact ⟨_, rfl⟩
  obtain ⟨width, hwidth⟩ := hwidth
  rw [environmentFact, cond_inRange hwidth]
  exact ⟨atomRange value.type width false (.env value), by simp only [range]; rfl⟩

theorem exists_cond_pre {slot : Word} {item : StorageItem} {width : Nat}
    (hslot : lowerer.resolver.resolve slot = .ok item) (h : item.type.integerWidth = some width) :
    ∃ lowered, lowerer.cond (.inRange item.type (.pre item)) = .ok lowered := by
  have hread : lowerer.read .pre item = .ok (.sload (.lit slot) lowerer.pre) :=
    bind_eq_ok.mpr ⟨slot, slot_of_resolve hslot, rfl⟩
  rw [cond_inRange h, IntExpr.pre]
  exact ⟨atomRange item.type width item.type.isSigned (.sload (.lit slot) lowerer.pre), by
    simp only [range, replacement?, hread]; rfl⟩

end Lowerer

theorem AbiType.width_of_isElementary {type : AbiType} (h : type.isElementary = true) :
    (∃ width, type.integerWidth = some width) ∨
      ∃ length, type = .bytes length ∧ type.integerWidth = none := by
  cases type <;> simp_all [isElementary, integerWidth]

-- No variable with a slot for itself is a byte string.
def Resolver.HoldsIntegers (resolver : Resolver) : Prop :=
  ∀ slot item length, (slot, item) ∈ resolver.resolvable → item.type ≠ .bytes length

namespace Verification

variable {resolver : Resolver} {pre : Store} {interface : Interface} {summary : MethodSummary}
  {specification : Specification} {reason : VerificationError}

-- The facts that are assumed about a method.
def assumed (resolver : Resolver) (interface : Interface) : List BoolExpr :=
  argumentFacts interface ++ Environment.all.map environmentFact ++
    (resolver.resolvable.map Prod.snd).map fun item => .inRange item.type (.pre item)

-- Of what is assumed, only a fact about a stored byte string is not lowered.
theorem cond_of_mem_assumed (pre : Store) {fact : BoolExpr}
    (h : fact ∈ assumed resolver interface) :
    (∃ lowered, (Lowerer.before resolver pre).cond fact = .ok lowered) ∨
      ∃ slot item length, (slot, item) ∈ resolver.resolvable ∧ item.type = .bytes length ∧
        (Lowerer.before resolver pre).cond fact =
          .error (.uncompilable (.noRange (.bytes length))) := by
  rcases List.mem_append.mp h with h | hstored
  · rcases List.mem_append.mp h with hargument | henvironment
    · exact .inl (Lowerer.exists_cond_argument hargument)
    · obtain ⟨value, _, rfl⟩ := List.mem_map.mp henvironment
      exact .inl (Lowerer.exists_cond_environment value)
  · obtain ⟨item, hitem, rfl⟩ := List.mem_map.mp hstored
    obtain ⟨⟨slot, item⟩, hlisted, rfl⟩ := List.mem_map.mp hitem
    have hslot := (resolver.mem_resolvable_iff slot item).mp hlisted
    obtain ⟨_, _, _, _, _, helementary⟩ := Resolver.exists_of_resolve hslot
    rcases AbiType.width_of_isElementary helementary with ⟨width, hwidth⟩ | ⟨length, htype, hnone⟩
    · exact .inl (Lowerer.exists_cond_pre hslot hwidth)
    · refine .inr ⟨slot, item, length, hlisted, htype, ?_⟩
      rw [Lowerer.cond_inRange_of_noRange hnone, htype]

-- What is assumed about a method is lowered exactly if no byte string is stored.
theorem exists_assumptions_iff (pre : Store) (interface : Interface) :
    (∃ typed, assumptions (.before resolver pre) interface (resolver.resolvable.map Prod.snd) =
      .ok typed) ↔ resolver.HoldsIntegers := by
  have hlowers : (∃ typed, assumptions (.before resolver pre) interface
      (resolver.resolvable.map Prod.snd) = .ok typed) ↔
      ∀ fact ∈ assumed resolver interface,
        ∃ lowered, (Lowerer.before resolver pre).cond fact = .ok lowered := by
    rw [← exists_mapM_iff]
    simp only [assumptions, Lowerer.conditions, bind_eq_ok]
    exact ⟨fun ⟨_, lowered, h, _⟩ => ⟨lowered, h⟩, fun ⟨lowered, h⟩ => ⟨_, lowered, h, rfl⟩⟩
  rw [hlowers]
  constructor
  · intro h slot item length hlisted htype
    obtain ⟨lowered, hlowered⟩ := h (.inRange item.type (.pre item)) (List.mem_append_right _
      (List.mem_map_of_mem (List.mem_map_of_mem (f := Prod.snd) hlisted)))
    rw [htype, Lowerer.cond_inRange_of_noRange rfl] at hlowered
    exact nomatch hlowered
  · intro h fact hfact
    refine (cond_of_mem_assumed pre hfact).resolve_right ?_
    rintro ⟨slot, item, length, hlisted, htype, _⟩
    exact h slot item length hlisted htype

theorem exists_bytes_of_assumptions
    (h : assumptions (.before resolver pre) interface (resolver.resolvable.map Prod.snd) =
      .error reason) :
    ∃ slot item length, (slot, item) ∈ resolver.resolvable ∧ item.type = .bytes length ∧
      reason = .uncompilable (.noRange (.bytes length)) := by
  rcases bind_eq_error.mp h with hfails | ⟨_, _, hdone⟩
  · obtain ⟨fact, hfact, hfails⟩ := exists_of_mapM_eq_error hfails
    rcases cond_of_mem_assumed pre hfact with ⟨lowered, hlowered⟩ | h
    · rw [hfails] at hlowered
      exact nomatch hlowered
    · obtain ⟨slot, item, length, hlisted, htype, hcond⟩ := h
      rw [hfails] at hcond
      exact ⟨slot, item, length, hlisted, htype, Except.error.inj hcond⟩
  · exact nomatch hdone

-- A method is put to the solver exactly if its behaviours are lowered and no byte string is stored.
theorem exists_methodQuery_iff :
    (∃ query, methodQuery resolver summary specification = .ok query) ↔
      (∀ behaviour ∈ specification.behavioursOf summary.method.signature,
        ∃ branch, Lowerer.behaviourBranch resolver behaviour = .ok branch) ∧
      resolver.HoldsIntegers := by
  rw [← exists_mapM_iff, ← exists_assumptions_iff .abstract summary.method.interface]
  simp only [methodQuery_eq_ok]
  constructor
  · rintro ⟨_, specified, typed, hspecified, htyped, _⟩
    exact ⟨⟨specified, hspecified⟩, ⟨typed, htyped⟩⟩
  · rintro ⟨⟨specified, hspecified⟩, ⟨typed, htyped⟩⟩
    exact ⟨_, specified, typed, hspecified, htyped, rfl⟩

theorem methodQuery_eq_error (h : methodQuery resolver summary specification = .error reason) :
    (∃ behaviour ∈ specification.behavioursOf summary.method.signature,
      Lowerer.behaviourBranch resolver behaviour = .error reason) ∨
    ∃ slot item length, (slot, item) ∈ resolver.resolvable ∧ item.type = .bytes length ∧
      reason = .uncompilable (.noRange (.bytes length)) := by
  rcases bind_eq_error.mp h with hfails | ⟨_, _, h⟩
  · exact .inl (exists_of_mapM_eq_error hfails)
  · rcases bind_eq_error.mp h with hfails | ⟨_, _, hdone⟩
    · exact .inr (exists_bytes_of_assumptions hfails)
    · exact nomatch hdone

-- The assumptions are lowered as long as no byte string is stored. If then all behaviours of a
-- method are lowered, the solver decides. With a byte string, every comparison fails.
theorem compare_methodQuery_of_lowered (resolver : Resolver) (summary : MethodSummary)
    (specification : Specification)
    (hlowered : ∀ behaviour ∈ specification.behavioursOf summary.method.signature,
      ∃ branch, Lowerer.behaviourBranch resolver behaviour = .ok branch) :
    (∀ interface, (∃ typed, assumptions (.before resolver .abstract) interface
      (resolver.resolvable.map Prod.snd) = .ok typed) ↔ resolver.HoldsIntegers) ∧
    (resolver.HoldsIntegers → ∃ query,
      methodQuery resolver summary specification = .ok query ∧
      ∀ solver, compare solver (methodQuery resolver summary specification) =
        verdict (solver.equivalence query.specified query.explored)) ∧
    (¬resolver.HoldsIntegers → ∃ slot item length,
      (slot, item) ∈ resolver.resolvable ∧ item.type = .bytes length ∧
      ∀ solver, compare solver (methodQuery resolver summary specification) =
        .error (.uncompilable (.noRange (.bytes length)))) := by
  refine ⟨exists_assumptions_iff .abstract, ?_, ?_⟩
  · intro hintegers
    obtain ⟨query, hquery⟩ := exists_methodQuery_iff.mpr ⟨hlowered, hintegers⟩
    refine ⟨query, hquery, fun solver => ?_⟩
    rw [hquery, compare_ok]
  · intro hbytes
    cases hquery : methodQuery resolver summary specification with
    | ok query => exact absurd (exists_methodQuery_iff.mp ⟨query, hquery⟩).2 hbytes
    | error reason =>
        rcases methodQuery_eq_error hquery with ⟨behaviour, hmem, hfails⟩ | hstored
        · obtain ⟨branch, hbranch⟩ := hlowered behaviour hmem
          rw [hfails] at hbranch
          exact nomatch hbranch
        · obtain ⟨slot, item, length, hlisted, htype, rfl⟩ := hstored
          exact ⟨slot, item, length, hlisted, htype, fun solver => compare_error solver _⟩

-- A notary that counts its acts and may also store a digest.
def notaryCount : StorageVariable := .ofValue "count" 0 .uint256

def notaryLayout : Layout := ⟨[notaryCount, .ofValue "digest" 1 (.bytes 32)]⟩

def notaryResolver : Resolver := ⟨"Notary", notaryLayout, by decide, by decide⟩

def countingResolver : Resolver := ⟨"Notary", ⟨[notaryCount]⟩, by decide, by decide⟩

def notaryMethod : MethodSummary where
  method := ⟨⟨"reset", [⟨"count", .uint 8⟩]⟩, []⟩
  branches := [.ofStore [] .empty (.write (.lit 0) (.var "count") .abstract)]

def notaryReset : Behaviour where
  name := "reset"
  contract := "Notary"
  interface := notaryMethod.method.interface
  branch := 0
  preconditions := []
  storageUpdates := [⟨⟨"Notary", "count", .uint256⟩, .var "count" (.uint 8)⟩]
  returns := none

def notarySpecification : Specification where
  contract := "Notary"
  storage := .empty
  constructor := ⟨"Notary", .ofConstructor [], [], []⟩
  behaviours := [notaryReset]

theorem behavioursOf_notary :
    notarySpecification.behavioursOf notaryMethod.method.signature = [notaryReset] := by
  decide +kernel

-- The digest keeps a method from being compared that does not touch it.
theorem notary_digest_unassumable :
    Resolver.ofLayout "Notary" notaryLayout = .ok notaryResolver ∧
      (∀ argument ∈ notaryMethod.method.interface.arguments,
        argument.type.isElementary = true ∧ argument.type.isWellSized = true) ∧
      (∀ behaviour ∈ notarySpecification.behavioursOf notaryMethod.method.signature,
        ∃ branch, Lowerer.behaviourBranch notaryResolver behaviour = .ok branch) ∧
      assumptions (.before notaryResolver .abstract) notaryMethod.method.interface
        (notaryResolver.resolvable.map Prod.snd) =
          .error (.uncompilable (.noRange (.bytes 32))) ∧
      ∀ solver, compare solver (methodQuery notaryResolver notaryMethod notarySpecification) =
        .error (.uncompilable (.noRange (.bytes 32))) := by
  have hquery : methodQuery notaryResolver notaryMethod notarySpecification =
      .error (.uncompilable (.noRange (.bytes 32))) := by
    rw [methodQuery, behavioursOf_notary]
    rfl
  refine ⟨rfl, by decide, ?_, rfl, fun solver => by rw [hquery, compare_error]⟩
  rw [behavioursOf_notary]
  exact List.forall_mem_singleton.mpr ⟨_, rfl⟩

theorem compare_methodQuery_of_lowered_counting :
    (∀ behaviour ∈ notarySpecification.behavioursOf notaryMethod.method.signature,
      ∃ branch, Lowerer.behaviourBranch countingResolver behaviour = .ok branch) ∧
    countingResolver.HoldsIntegers ∧
    ∃ query, methodQuery countingResolver notaryMethod notarySpecification = .ok query ∧
      ∀ solver, compare solver (methodQuery countingResolver notaryMethod notarySpecification) =
        verdict (solver.equivalence query.specified query.explored) := by
  have hlowered : ∀ behaviour ∈ notarySpecification.behavioursOf notaryMethod.method.signature,
      ∃ branch, Lowerer.behaviourBranch countingResolver behaviour = .ok branch := by
    rw [behavioursOf_notary]
    exact List.forall_mem_singleton.mpr ⟨_, rfl⟩
  have hintegers : countingResolver.HoldsIntegers := by
    intro slot item length hlisted htype
    have hall : ∀ entry ∈ countingResolver.resolvable, entry.2.type = .uint256 := by
      decide +kernel
    rw [hall _ hlisted] at htype
    exact nomatch htype
  exact ⟨hlowered, hintegers,
    (compare_methodQuery_of_lowered countingResolver notaryMethod notarySpecification
      hlowered).2.1 hintegers⟩

end Verification

end SpecRecovery
