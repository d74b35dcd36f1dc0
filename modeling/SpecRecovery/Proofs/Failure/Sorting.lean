import SpecRecovery.Proofs.Failure.Report
import SpecRecovery.Proofs.Table.Ascending

namespace SpecRecovery

namespace EntryPoint

-- The order of entry points: the constructor, the methods by signature, the running code.
inductive Precedes : EntryPoint → EntryPoint → Prop
  | constructorMethod (signature : String) : Precedes constructor (method signature)
  | constructorRuntime : Precedes constructor runtime
  | methods {first second : String} (h : first < second) : Precedes (method first) (method second)
  | methodRuntime (signature : String) : Precedes (method signature) runtime

variable {first second : EntryPoint}

theorem compare_eq_lt_iff : compare first second = .lt ↔ first.Precedes second := by
  have hcompare : compare first second =
      (compare first.rank second.rank).then (compare first.signature second.signature) := rfl
  rw [hcompare, Ordering.then_eq_lt]
  constructor
  · intro h
    cases first <;> cases second <;> simp [rank, signature, Nat.compare_eq_lt] at h
    case constructor.method signature => exact .constructorMethod signature
    case constructor.runtime => exact .constructorRuntime
    case method.method => exact .methods (compareOfLessAndEq_eq_lt.mp h)
    case method.runtime signature => exact .methodRuntime signature
  · intro h
    cases h with
    | methods h => exact .inr ⟨rfl, compareOfLessAndEq_eq_lt.mpr h⟩
    | constructorMethod | constructorRuntime | methodRuntime => exact .inl rfl

theorem isLE_compare_iff : (compare first second).isLE = true ↔ ¬second.Precedes first := by
  rw [← compare_eq_lt_iff]
  exact ⟨Std.OrientedCmp.not_lt_of_isLE,
    fun h => by_contra fun hle => h (Std.OrientedCmp.lt_of_not_isLE hle)⟩

end EntryPoint

namespace FailureReport

-- What is put into a report at a time: a failure, or several in a row.
inductive Addition
  | one (failure : LocatedFailure)
  | many (failures : List LocatedFailure)

def Addition.failures : Addition → List LocatedFailure
  | one failure => [failure]
  | many failures => failures

def extend (report : FailureReport) : Addition → FailureReport
  | .one failure => report.add failure
  | .many failures => report.addAll failures

def ofAdditions (additions : List Addition) : FailureReport := additions.foldl extend empty

variable {report : FailureReport} {failures : List LocatedFailure}

theorem collects_extend (h : report.Collects failures) (addition : Addition) :
    (report.extend addition).Collects (failures ++ addition.failures) := by
  cases addition with
  | one failure => exact collects_add h failure
  | many more => exact collects_addAll h more

theorem collects_foldl_extend (h : report.Collects failures) (additions : List Addition) :
    (additions.foldl extend report).Collects
      (failures ++ additions.flatMap Addition.failures) := by
  induction additions generalizing report failures with
  | nil => simpa using h
  | cons addition rest ih => simpa using ih (collects_extend h addition)

theorem collects_ofAdditions (additions : List Addition) :
    (ofAdditions additions).Collects (additions.flatMap Addition.failures) := by
  simpa [ofAdditions] using collects_foldl_extend collects_empty additions

-- The failures at one entry point ascend, and a stable sort leaves such a part of a list as it is.
theorem Collects.eq_mergeSort (h : report.Collects failures) :
    report.failures = failures.mergeSort fun earlier later =>
      (compare earlier.location later.location).isLE := by
  have htrans : ∀ first second third : LocatedFailure,
      (compare first.location second.location).isLE →
      (compare second.location third.location).isLE →
      (compare first.location third.location).isLE :=
    fun _ _ _ => Std.TransCmp.isLE_trans
  have htotal : ∀ first second : LocatedFailure,
      ((compare first.location second.location).isLE ||
        (compare second.location first.location).isLE) = true :=
    fun first second => Table.isLE_or_isLE first.location second.location
  refine eq_of_ordered h.ordered (List.pairwise_mergeSort htrans htotal failures) fun entry => ?_
  rw [h.stable entry]
  have hself : compare entry entry = .eq := Std.ReflCmp.compare_self
  have hpart : (failures.filter fun failure => failure.location == entry).Pairwise
      fun earlier later => (compare earlier.location later.location).isLE = true := by
    refine List.pairwise_of_forall_mem_list fun earlier hearlier later hlater => ?_
    simp only [List.mem_filter, beq_iff_eq] at hearlier hlater
    rw [hearlier.2, hlater.2, hself]
    rfl
  have hkept := (List.sublist_mergeSort htrans htotal hpart List.filter_sublist).filter
    fun failure => failure.location == entry
  rw [List.filter_filter] at hkept
  refine List.Sublist.eq_of_length (by simpa using hkept) ?_
  exact ((List.mergeSort_perm failures _).filter _).length_eq.symm

theorem Collects.entries_eq (h : report.Collects failures) :
    report.entries.Pairwise EntryPoint.Precedes ∧
      ∀ entry, entry ∈ report.entries ↔ ∃ failure ∈ failures, failure.location = entry := by
  have hsorted : (report.failures.map LocatedFailure.location).Pairwise
      fun first second => (compare first second).isLE = true :=
    List.pairwise_map.mpr h.ordered
  rw [entries, Table.eraseReps_eq_foldr_consKey]
  constructor
  · exact (Table.ascending_foldr_consKey hsorted).imp EntryPoint.compare_eq_lt_iff.mp
  · intro entry
    rw [Table.mem_foldr_consKey, List.mem_map]
    simp only [h.perm.mem_iff]

-- The report has the given failures and no others, each as often as it is given, in the order of
-- entry points. At each entry point they keep the order in which they are given.
structure SortsStably (report : FailureReport) (given : List LocatedFailure) : Prop where
  perm : report.failures.Perm given
  ordered : report.failures.Pairwise fun earlier later =>
    ¬later.location.Precedes earlier.location
  stable : ∀ entry, report.failures.filter (fun failure => failure.location == entry) =
    given.filter fun failure => failure.location == entry
  sorted : report.failures = given.mergeSort fun earlier later =>
    (compare earlier.location later.location).isLE
  payloads : ∀ entry, report.payloadsAt entry =
    (given.filter fun failure => failure.location == entry).map LocatedFailure.payload
  ascending : report.entries.Pairwise EntryPoint.Precedes
  complete : ∀ entry, entry ∈ report.entries ↔ ∃ failure ∈ given, failure.location = entry

theorem ofAdditions_sorts_stably (additions : List Addition) :
    (ofAdditions additions).SortsStably (additions.flatMap Addition.failures) := by
  have hcollects := collects_ofAdditions additions
  obtain ⟨hascending, hcomplete⟩ := hcollects.entries_eq
  constructor
  case perm => exact hcollects.perm
  case ordered => exact hcollects.ordered.imp EntryPoint.isLE_compare_iff.mp
  case stable => exact hcollects.stable
  case sorted => exact hcollects.eq_mergeSort
  case payloads =>
    intro entry
    rw [payloadsAt, hcollects.stable entry]
  case ascending => exact hascending
  case complete => exact hcomplete

example :
    (ofAdditions
      [.one ⟨.runtime, .other "first"⟩, .one ⟨.method "set()", .other "second"⟩,
        .many [⟨.constructor, .other "third"⟩, ⟨.method "set()", .other "fourth"⟩]]).failures =
      [⟨.constructor, .other "third"⟩, ⟨.method "set()", .other "second"⟩,
        ⟨.method "set()", .other "fourth"⟩, ⟨.runtime, .other "first"⟩] := by
  decide +kernel

end FailureReport

end SpecRecovery
